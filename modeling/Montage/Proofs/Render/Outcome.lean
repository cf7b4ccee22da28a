import Montage.Proofs.Media.Finish
import Montage.Render.Batch

/-!
# What a render comes to

The answer of a render and what it does to the files are decided by few things: its plan, which is
made on arrival, what the survey finds, and the tree at the moment at which the engine ends. Until
then the tree stays as it is.
-/
namespace Montage

namespace Renderer

/-- The failure of the observer when it is told of a state. -/
def check (r : Renderer) (state : RenderState) : Option Failure :=
  r.observer.bind fun observe => observe state

def allow (r : Renderer) (state : RenderState) : Except Failure Unit :=
  match r.check state with
  | none => .ok ()
  | some e => .error e

/-- The answer of a render that ends with a failure. -/
def verdict (r : Renderer) (failure : Failure) : Except Failure RenderResult :=
  match r.check .failed with
  | none => .ok failure.result
  | some e => .error e

/-- What the survey of a timeline's sources finds, or the failure that ends it. -/
def surveyed (r : Renderer) (timeline : Timeline Binary64) : Except Failure SourceCache :=
  ((Survey.ofPaths (r.sources timeline) r.settings.probeMaxWorkers).settled r.prober).cache

/-- What a survey finds depends on the prober and on the settings alone. -/
theorem surveyed_congr (r other : Renderer) (timeline : Timeline Binary64)
    (prober : r.prober = other.prober) (settings : r.settings = other.settings) :
    r.surveyed timeline = other.surveyed timeline := by
  rw [surveyed, surveyed, sources, sources, prober, settings]

def jobOf (r : Renderer) (destination : Path) (timeline : Timeline Binary64)
    (cache : SourceCache) : Except Failure Job :=
  match (compileTimeline timeline cache r.compileOptions).graph with
  | .error e => .error (e.failure r.settings.minClipDuration)
  | .ok graph => .ok ⟨destination, r.probeWarnings cache, graph⟩

/-- A job is made for the destination that it was asked for. -/
theorem destination_of_jobOf {r : Renderer} {destination : Path} {timeline : Timeline Binary64}
    {cache : SourceCache} {job : Job} (made : r.jobOf destination timeline cache = .ok job) :
    job.destination = destination := by
  unfold jobOf at made
  split at made <;> cases made
  rfl

/-- The job of a request and the file that the engine is to write. -/
def order (r : Renderer) (tree : FileTree) (request : RenderRequest) :
    Except Failure (Job × Path) := do
  let (destination, timeline) ← r.plan tree request
  r.allow .probing
  let cache ← r.surveyed timeline
  r.allow .compiling
  let job ← r.jobOf destination timeline cache
  r.allow .rendering
  let output ← (r.storage.tempPath destination).mapError .file
  .ok (job, output)

/-- A job is compiled from the plan, and for the destination that has been planned. -/
theorem order_ok {r : Renderer} (planned : FileTree) (request : RenderRequest) (job : Job)
    (output : Path) (h : r.order planned request = .ok (job, output)) :
    ∃ timeline cache, r.plan planned request = .ok (job.destination, timeline) ∧
      r.jobOf job.destination timeline cache = .ok job ∧
      r.storage.tempPath job.destination = .ok output := by
  unfold order at h
  -- The steps of an order in turn, each of which has to succeed.
  obtain ⟨⟨destination, timeline⟩, plan, h⟩ := Except.bind_eq_ok_iff.mp h
  obtain ⟨_, _, h⟩ := Except.bind_eq_ok_iff.mp h
  obtain ⟨cache, _, h⟩ := Except.bind_eq_ok_iff.mp h
  obtain ⟨_, _, h⟩ := Except.bind_eq_ok_iff.mp h
  obtain ⟨job', made, h⟩ := Except.bind_eq_ok_iff.mp h
  obtain ⟨_, _, h⟩ := Except.bind_eq_ok_iff.mp h
  obtain ⟨path, temp, h⟩ := Except.bind_eq_ok_iff.mp h
  cases h
  rw [Except.mapError_eq_ok_iff] at temp
  obtain rfl := destination_of_jobOf made
  exact ⟨timeline, cache, plan, made, temp⟩

theorem destination_of_order {r : Renderer} {planned : FileTree} {request : RenderRequest}
    {job : Job} {output destination : Path} {timeline : Timeline Binary64}
    (h : r.order planned request = .ok (job, output))
    (plan : r.plan planned request = .ok (destination, timeline)) :
    job.destination = destination := by
  obtain ⟨_, _, plan', _⟩ := order_ok planned request job output h
  exact (Prod.mk.inj (Except.ok.inj (plan'.symm.trans plan))).1

theorem plan_congr (r other : Renderer) (tree : FileTree) (request : RenderRequest)
    (storage : r.storage = other.storage) : r.plan tree request = other.plan tree request := by
  rw [plan, plan, resolveSources, resolveSources, storage]

/-- A job is made before anything is written, so it does not depend on the engine or on what drops
thumbnails. -/
theorem order_congr (r other : Renderer) (tree : FileTree) (request : RenderRequest)
    (storage : r.storage = other.storage) (settings : r.settings = other.settings)
    (prober : r.prober = other.prober) (observer : r.observer = other.observer) :
    r.order tree request = other.order tree request := by
  have surveyed (timeline : Timeline Binary64) := surveyed_congr r other timeline prober settings
  obtain ⟨_, _, _, _, _, _⟩ := r
  obtain ⟨_, _, _, _, _, _⟩ := other
  cases storage
  cases settings
  cases prober
  cases observer
  rw [order, order]
  simp only [surveyed]
  rfl

/-- The tree and the answer after a written file. -/
def announced (r : Renderer) (job : Job) (tree : FileTree) :
    FileTree × Except Failure RenderResult :=
  let relative := r.shownPath job.destination
  ((r.invalidator relative tree).tree,
    match r.check .done with
    | none => .ok (.succeeded relative job.warnings)
    | some e => .error e)

/-- The tree and the answer after a failure of the engine or of what follows it. -/
def abandoned (r : Renderer) (output : Path) (failure : Failure) (tree : FileTree) :
    FileTree × Except Failure RenderResult :=
  let outcome := Storage.discard tree output
  (outcome.tree,
    match outcome.result with
    | .ok _ => r.verdict failure
    | .error e => r.verdict (.file e))

/-- The tree and the answer after the engine has returned. -/
def finalized (r : Renderer) (job : Job) (output : Path) (tree : FileTree) :
    FileTree × Except Failure RenderResult :=
  match r.check .finalizing with
  | some e => r.abandoned output e tree
  | none =>
    match Storage.replace tree output job.destination with
    | (tree, .ok ()) => r.announced job tree
    | (tree, .error e) => r.abandoned output e.failure tree

/-- What the engine does for a job. -/
def produced (r : Renderer) (job : Job) (output : Path) (tree : FileTree) : Aftermath :=
  let contents := job.graph.inputs.map fun path => tree.content? (Path.ofString path)
  (r.engine.produce (call job output) contents).perform tree (.ofString (call job output).output)

/-- The tree and the answer after the engine's work. -/
def encoded (r : Renderer) (job : Job) (output : Path) (tree : FileTree) :
    FileTree × Except Failure RenderResult :=
  match (r.produced job output tree).failure with
  | some e => r.abandoned output e (r.produced job output tree).tree
  | none => r.finalized job output (r.produced job output tree).tree

/-- What a request that has been planned on one tree comes to on another. -/
def outcome (r : Renderer) (planned : FileTree) (request : RenderRequest) (tree : FileTree) :
    FileTree × Except Failure RenderResult :=
  match r.check .idle with
  | some e => (tree, .error e)
  | none =>
    match r.order planned request with
    | .error e => (tree, r.verdict e)
    | .ok (job, output) => r.encoded job output tree

end Renderer

namespace Renderer

variable (r : Renderer)

theorem tell_eq (state : RenderState) (scene : Scene) :
    ∃ told, r.tell state scene = (told, r.check state) ∧ told.site = scene.site := by
  unfold tell check
  cases r.observer with
  | none => exact ⟨scene, rfl, rfl⟩
  | some observe => exact ⟨_, rfl, rfl⟩

theorem conclude_eq (e : Failure) (scene : Scene) :
    ∃ told, r.conclude e scene = (told, r.verdict e) ∧ told.site = scene.site := by
  obtain ⟨told, eq, site⟩ := r.tell_eq .failed (scene.say [e.line])
  rw [conclude, verdict, eq]
  cases r.check .failed with
  | none => exact ⟨told, rfl, site⟩
  | some e => exact ⟨told, rfl, site⟩

theorem fail_eq (e : Failure) (scene : Scene) :
    ∃ told, r.fail e scene = (told, .finished (r.verdict e)) ∧ told.site = scene.site := by
  obtain ⟨told, eq, site⟩ := r.conclude_eq e scene
  rw [fail, eq]
  exact ⟨told, rfl, site⟩

/-- A scene that a render has ended in, having left its lock. -/
structure Ends (scene : Scene) (lock : Nat) (destination : Path)
    (result : FileTree × Except Failure RenderResult) (next : Scene × Phase) : Prop where
  phase : next.2 = .finished result.2
  tree : next.1.site.tree = result.1
  locks : next.1.site.locks = scene.site.locks.leave lock destination

/-- A render that is abandoned leaves its lock and comes to its outcome. -/
theorem abandon_ends (job : Job) (lock : Nat) (output : Path) (e : Failure) (scene : Scene) :
    Ends scene lock job.destination (r.abandoned output e scene.site.tree)
      (r.abandon job lock output e scene) := by
  simp only [abandon, abandoned]
  cases (Storage.discard scene.site.tree output).result with
  | ok removed =>
    dsimp only
    obtain ⟨told, eq, site⟩ := r.fail_eq e _
    rw [eq]
    exact ⟨rfl, by rw [site]; rfl, by rw [site]; rfl⟩
  | error e =>
    dsimp only
    obtain ⟨told, eq, site⟩ := r.fail_eq (.file e) _
    rw [eq]
    exact ⟨rfl, by rw [site]; rfl, by rw [site]; rfl⟩

/-- A render that is announced comes to its outcome, and leaves the locks as they are. -/
theorem announce_ends (job : Job) (scene : Scene) :
    (r.announce job scene).2 = .finished (r.announced job scene.site.tree).2 ∧
      (r.announce job scene).1.site.tree = (r.announced job scene.site.tree).1 ∧
      (r.announce job scene).1.site.locks = scene.site.locks := by
  simp only [announce, announced]
  cases (r.invalidator (r.shownPath job.destination) scene.site.tree).failure with
  | none =>
    dsimp only
    obtain ⟨told, eq, site⟩ := r.tell_eq .done _
    rw [eq]
    cases r.check .done <;> exact ⟨rfl, by rw [site]; rfl, by rw [site]; rfl⟩
  | some e =>
    dsimp only
    obtain ⟨told, eq, site⟩ := r.tell_eq .done _
    rw [eq]
    cases r.check .done <;> exact ⟨rfl, by rw [site]; rfl, by rw [site]; rfl⟩

theorem finalize_ends (job : Job) (lock : Nat) (output : Path) (scene : Scene) :
    Ends scene lock job.destination (r.finalized job output scene.site.tree)
      (r.finalize job lock output scene) := by
  obtain ⟨told, eq, site⟩ := r.tell_eq .finalizing scene
  rw [finalize, finalized, eq]
  cases r.check .finalizing with
  | some e =>
    have ends := r.abandon_ends job lock output e told
    rw [site] at ends
    exact ⟨ends.phase, ends.tree, by rw [ends.locks, site]⟩
  | none =>
    dsimp only
    rw [site]
    -- The lock is left before the success is told, and after the failure has been cleared up.
    cases Storage.replace scene.site.tree output job.destination with
    | mk tree replaced =>
      cases replaced with
      | ok done =>
        obtain ⟨phase, tree', locks⟩ := r.announce_ends job
          (leave job lock ((told.withTree tree).mark (.replaced job.destination)))
        refine ⟨phase, tree', ?_⟩
        rw [locks, ← site]
        rfl
      | error e =>
        have ends := r.abandon_ends job lock output e.failure (told.withTree tree)
        refine ⟨ends.phase, ends.tree, ?_⟩
        rw [ends.locks, ← site]
        rfl

theorem finishEncoding_ends (job : Job) (lock : Nat) (output : Path) (scene : Scene) :
    Ends scene lock job.destination (r.encoded job output scene.site.tree)
      (r.finishEncoding job lock output scene) := by
  unfold finishEncoding encoded
  change Ends _ _ _ _ (match (r.produced job output scene.site.tree).failure with
    | some e => r.abandon job lock output e _
    | none => r.finalize job lock output _)
  cases (r.produced job output scene.site.tree).failure with
  | some e =>
    have ends := r.abandon_ends job lock output e
    exact ⟨(ends _).phase, (ends _).tree, (ends _).locks⟩
  | none =>
    have ends := r.finalize_ends job lock output
    exact ⟨(ends _).phase, (ends _).tree, (ends _).locks⟩

end Renderer

end Montage
