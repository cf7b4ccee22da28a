import Montage.Proofs.Render.LockTable
import Montage.Proofs.Render.Outcome

/-!
# Where a step leads

A step takes a task to the next point at which it stands still, or through the end of its engine's
work to its answer. As long as nobody else wants its destination, where it leads is decided by the
phase and the plan alone, and all that the step does to the files is what follows the engine's work.
-/
namespace Montage

/-- Where a task comes to stand: in a phase, or with its answer after the engine's work. -/
inductive Stop where
  | stands (phase : Phase)
  | encodes (job : Job) (output : Path)

namespace Phase

/-- A phase without the number of its lock. -/
def unlocked : Phase → Phase
  | queued job _ => .queued job 0
  | encoding job _ output turns => .encoding job 0 output turns
  | phase => phase

/-- A phase that has an answer. -/
def Answers (answer : Except Failure RenderResult) : Phase → Prop
  | trailing given _ => given = answer
  | finished given => given = answer
  | _ => False

/-- The destination that a task in a phase has a lock for, or may ask for one. -/
def Wants (plan : RenderRequest → Except Failure (Path × Timeline Binary64)) (destination : Path) :
    Phase → Prop
  | arriving request => ∃ timeline, plan request = .ok (destination, timeline)
  | probing wanted _ _ => wanted = destination
  | queued job _ => job.destination = destination
  | encoding job _ _ _ => job.destination = destination
  | trailing _ _ => False
  | finished _ => False

end Phase

namespace Renderer

/-- The tree and the phase at a stop. -/
def stopped (r : Renderer) (tree : FileTree) : Stop → FileTree × Phase
  | .stands phase => (tree, phase)
  | .encodes job output => ((r.encoded job output tree).1, .finished (r.encoded job output tree).2)

def startEncodingStop (r : Renderer) (job : Job) : Stop :=
  match r.check .rendering with
  | some e => .stands (.finished (r.verdict e))
  | none =>
    match r.storage.tempPath job.destination with
    | .error e => .stands (.finished (r.verdict (.file e)))
    | .ok output =>
      match r.engine.turns (call job output) with
      | 0 => .encodes job output
      | turns + 1 => .stands (.encoding job 0 output turns)

def compileStop (r : Renderer) (destination : Path) (timeline : Timeline Binary64)
    (cache : SourceCache) : Stop :=
  match r.jobOf destination timeline cache with
  | .error e => .stands (.finished (r.verdict e))
  | .ok job => r.startEncodingStop job

def finishProbingStop (r : Renderer) (destination : Path) (timeline : Timeline Binary64)
    (survey : Survey) : Stop :=
  match survey.cache with
  | .error e => .stands (.trailing (r.verdict e) survey)
  | .ok cache =>
    match r.check .compiling with
    | some e => .stands (.finished (r.verdict e))
    | none => r.compileStop destination timeline cache

def startProbingStop (r : Renderer) (destination : Path) (timeline : Timeline Binary64) : Stop :=
  let survey := Survey.ofPaths (r.sources timeline) r.settings.probeMaxWorkers
  if survey.jobs.isEmpty then r.finishProbingStop destination timeline survey
  else .stands (.probing destination timeline survey)

def arriveStop (r : Renderer) (plan : Except Failure (Path × Timeline Binary64)) : Stop :=
  match r.check .idle with
  | some e => .stands (.finished (.error e))
  | none =>
    match plan with
    | .error e => .stands (.finished (r.verdict e))
    | .ok (destination, timeline) =>
      match r.check .probing with
      | some e => .stands (.finished (r.verdict e))
      | none => r.startProbingStop destination timeline

/-- Where a move leads a task that waits for nobody. -/
def stop? (r : Renderer) (move : Task.Move)
    (plan : RenderRequest → Except Failure (Path × Timeline Binary64)) : Phase → Option Stop
  | .arriving request =>
    match move with
    | .resume => some (r.arriveStop (plan request))
    | .probe _ => none
  | .probing destination timeline survey =>
    match move with
    | .resume =>
      if survey.isDecided then some (r.finishProbingStop destination timeline survey) else none
    | .probe event =>
      (survey.step? r.prober event).map fun survey => .stands (.probing destination timeline survey)
  | .queued _ _ => none
  | .encoding job _ output turns =>
    match move, turns with
    | .resume, 0 => some (.encodes job output)
    | .resume, turns + 1 => some (.stands (.encoding job 0 output turns))
    | .probe _, _ => none
  | .trailing answer survey =>
    match move with
    | .resume => none
    | .probe event =>
      (survey.step? r.prober event).map fun survey => .stands (.trailing answer survey)
  | .finished _ => none

/-- A step ends at a stop, and leaves no lock behind at destinations that it is not for. -/
structure StopsAt (r : Renderer) (wants : Path → Prop) (scene : Scene) (stop : Stop)
    (next : Scene × Phase) : Prop where
  stopped : (next.1.site.tree, next.2.unlocked) = r.stopped scene.site.tree stop
  locks : ∀ other, ¬wants other → scene.site.locks.find? other = none →
    next.1.site.locks.find? other = none

variable {r : Renderer} {wants : Path → Prop}

/-- A step may begin with what changes neither the tree nor the locks of others. -/
theorem StopsAt.of_scene {scene begun : Scene} {stop : Stop} {next : Scene × Phase}
    (h : r.StopsAt wants begun stop next) (tree : begun.site.tree = scene.site.tree)
    (locks : ∀ other, ¬wants other → scene.site.locks.find? other = none →
      begun.site.locks.find? other = none) : r.StopsAt wants scene stop next :=
  ⟨tree ▸ h.stopped, fun other foreign free => h.locks other foreign (locks other foreign free)⟩

theorem StopsAt.of_site {scene begun : Scene} {stop : Stop} {next : Scene × Phase}
    (h : r.StopsAt wants begun stop next) (site : begun.site = scene.site) :
    r.StopsAt wants scene stop next :=
  h.of_scene (by rw [site]) fun _ _ free => by rwa [site]

/-- Who fails stops at the verdict. -/
theorem stopsAt_fail (e : Failure) (scene : Scene) :
    r.StopsAt wants scene (.stands (.finished (r.verdict e))) (r.fail e scene) := by
  obtain ⟨told, eq, site⟩ := r.fail_eq e scene
  rw [eq]
  exact ⟨congrArg (·.tree, _) site, fun _ _ free => by rwa [site]⟩

theorem stopsAt_finishEncoding (job : Job) (lock : Nat) (output : Path) (scene : Scene) :
    r.StopsAt wants scene (.encodes job output) (r.finishEncoding job lock output scene) := by
  have ends := r.finishEncoding_ends job lock output scene
  refine ⟨?_, fun other _ free => ?_⟩
  · rw [ends.tree, ends.phase]
    rfl
  · rw [ends.locks]
    exact LockTable.find?_leave_of_none lock job.destination free

/-- Who has the lock stops at the engine, or fails before it. -/
theorem stopsAt_startEncoding (job : Job) (lock : Nat) (scene : Scene) :
    r.StopsAt wants scene (r.startEncodingStop job) (r.startEncoding job lock scene) := by
  obtain ⟨told, eq, site⟩ := r.tell_eq .rendering scene
  -- A failure leaves the lock, which puts no other lock in charge.
  have left (e : Failure) : r.StopsAt wants scene (.stands (.finished (r.verdict e)))
      (r.fail e (leave job lock told)) :=
    (stopsAt_fail e _).of_scene (by rw [← site]; rfl) fun other _ free =>
      LockTable.find?_leave_of_none lock job.destination (by rwa [site])
  rw [startEncoding, startEncodingStop, eq]
  cases r.check .rendering with
  | some e => exact left e
  | none =>
    dsimp only
    cases r.storage.tempPath job.destination with
    | error e => exact left (.file e)
    | ok output =>
      dsimp only
      cases r.engine.turns (call job output) with
      | zero =>
        exact (stopsAt_finishEncoding job lock output _).of_scene (by rw [← site]; rfl)
          fun other _ free => by rwa [← site] at free
      | succ turns =>
        exact ⟨by rw [← site]; rfl, fun other _ free => by rwa [← site] at free⟩

/-- A destination whose lock nobody holds is not waited for. -/
theorem stopsAt_seekLock (ticket : Ticket) (job : Job) (scene : Scene)
    (wanted : wants job.destination) (free : scene.site.locks.find? job.destination = none) :
    r.StopsAt wants scene (r.startEncodingStop job) (r.seekLock ticket job scene) := by
  rw [seekLock]
  dsimp only
  rw [LockTable.isTaken_enter_of_none free, if_neg Bool.false_ne_true]
  refine (stopsAt_startEncoding job _ _).of_scene rfl fun other foreign open_ => ?_
  have ne : other ≠ job.destination := by
    rintro rfl
    exact foreign wanted
  exact (LockTable.find?_enter_of_ne ne).trans open_

/-- Who compiles with nobody inside goes straight on to the engine. -/
theorem stopsAt_compile (ticket : Ticket) (destination : Path) (timeline : Timeline Binary64)
    (cache : SourceCache) (scene : Scene) (wanted : wants destination)
    (free : scene.site.locks.find? destination = none) :
    r.StopsAt wants scene (r.compileStop destination timeline cache)
      (r.compile ticket destination timeline cache scene) := by
  rw [compile, compileStop, jobOf]
  cases (compileTimeline timeline cache r.compileOptions).graph with
  | error e => exact (stopsAt_fail _ _).of_site rfl
  | ok graph => exact (stopsAt_seekLock ticket _ _ wanted free).of_site rfl

theorem stopsAt_finishProbing (ticket : Ticket) (destination : Path) (timeline : Timeline Binary64)
    (survey : Survey) (scene : Scene) (wanted : wants destination)
    (free : scene.site.locks.find? destination = none) :
    r.StopsAt wants scene (r.finishProbingStop destination timeline survey)
      (r.finishProbing ticket destination timeline survey scene) := by
  rw [finishProbing, finishProbingStop]
  dsimp only
  cases survey.cache with
  | error e =>
    obtain ⟨told, eq, site⟩ := r.conclude_eq e (scene.say survey.warnings)
    dsimp only
    rw [eq]
    exact ⟨congrArg (·.tree, _) site, fun other _ free => by rwa [site]⟩
  | ok cache =>
    obtain ⟨told, eq, site⟩ := r.tell_eq .compiling (scene.say survey.warnings)
    dsimp only
    rw [enter, eq]
    cases r.check .compiling with
    -- Only a render that goes on to its compile asks for a lock.
    | some e => exact (stopsAt_fail e told).of_site site
    | none =>
      exact (stopsAt_compile ticket destination timeline cache told wanted
        (by rwa [site])).of_site site

theorem stopsAt_startProbing (ticket : Ticket) (destination : Path) (timeline : Timeline Binary64)
    (scene : Scene) (wanted : wants destination)
    (free : scene.site.locks.find? destination = none) :
    r.StopsAt wants scene (r.startProbingStop destination timeline)
      (r.startProbing ticket destination timeline scene) := by
  rw [startProbing, startProbingStop]
  split
  · exact stopsAt_finishProbing ticket destination timeline _ scene wanted free
  · exact ⟨rfl, fun _ _ free => free⟩

/-- Who arrives stops where the plan takes it. -/
theorem stopsAt_arrive (ticket : Ticket) (request : RenderRequest) (scene : Scene)
    (wanted : ∀ destination timeline,
      r.plan scene.site.tree request = .ok (destination, timeline) → wants destination)
    (free : ∀ destination, wants destination → scene.site.locks.find? destination = none) :
    r.StopsAt wants scene (r.arriveStop (r.plan scene.site.tree request))
      (r.arrive ticket request scene) := by
  obtain ⟨told, eq, site⟩ := r.tell_eq .idle scene
  rw [arrive, arriveStop.eq_def, eq]
  cases r.check .idle with
  | some e => exact ⟨congrArg (·.tree, _) site, fun other _ free => by rwa [site]⟩
  | none =>
    dsimp only
    rw [site]
    cases plan : r.plan scene.site.tree request with
    | error e => exact (stopsAt_fail e told).of_site site
    | ok found =>
      obtain ⟨destination, timeline⟩ := found
      -- The plan names the destination that a lock may be asked for.
      have mine := wanted destination timeline plan
      obtain ⟨probed, eq, site'⟩ := r.tell_eq .probing told
      dsimp only
      rw [enter, eq]
      cases r.check .probing with
      | some e => exact (stopsAt_fail e probed).of_site (site'.trans site)
      | none =>
        refine (stopsAt_startProbing ticket destination timeline probed mine ?_).of_site
          (site'.trans site)
        rw [site', site]
        exact free destination mine

/-- A probe that starts or finishes changes neither the tree nor the locks. -/
theorem site_of_probe? {survey : Survey} {event : ProbeEvent} {scene : Scene}
    {next : Scene × Survey} (h : r.probe? survey event scene = some next) :
    next.1.site.tree = scene.site.tree ∧ next.1.site.locks = scene.site.locks := by
  rw [(step?_of_probe? h).2]
  exact ⟨rfl, rfl⟩

theorem stopsAt_of_probe? {survey : Survey} {event : ProbeEvent} {scene : Scene}
    {next : Scene × Survey} (h : r.probe? survey event scene = some next) {phase : Phase}
    (stays : phase.unlocked = phase) : r.StopsAt wants scene (.stands phase) (next.1, phase) := by
  obtain ⟨tree, locks⟩ := site_of_probe? h
  exact ⟨by rw [tree, stays]; rfl, fun other _ free => by rwa [locks]⟩

/-- A step of a task that waits for nobody leads to the stop for its phase, as long as nobody else
has a lock for a destination that the task may yet ask for. -/
theorem stopsAt_of_proceed? {ticket : Ticket} {move : Task.Move} {scene : Scene} {phase : Phase}
    {next : Scene × Phase} (h : r.proceed? ticket move scene phase = some next)
    (unqueued : phase.rank ≠ 3)
    (free : 4 ≤ phase.rank → ∀ destination, phase.Wants (r.plan scene.site.tree) destination →
      scene.site.locks.find? destination = none) :
    ∃ stop, r.stop? move (r.plan scene.site.tree) phase = some stop ∧
      r.StopsAt (phase.Wants (r.plan scene.site.tree)) scene stop next := by
  -- Up to the lock a step may yet ask for it; the steps after that ask for none.
  cases proceeds_of_proceed? h with
  | arrive request =>
    exact ⟨_, rfl, stopsAt_arrive ticket request scene (fun _ timeline plan => ⟨timeline, plan⟩)
      (free (Nat.le_succ 4))⟩
  | finishProbing destination timeline survey decided =>
    exact ⟨_, if_pos decided, stopsAt_finishProbing ticket destination timeline survey scene rfl
      (free (Nat.le_refl 4) destination rfl)⟩
  | probe destination timeline survey event after happens =>
    refine ⟨.stands (.probing destination timeline after.2), ?_, stopsAt_of_probe? happens rfl⟩
    rw [stop?, (step?_of_probe? happens).1]
    rfl
  | startEncoding job lock turn => exact absurd rfl unqueued
  | finishEncoding job lock output => exact ⟨_, rfl, stopsAt_finishEncoding job lock output scene⟩
  | continueEncoding job lock output turns => exact ⟨_, rfl, rfl, fun _ _ free => free⟩
  | trail answer survey event after happens =>
    refine ⟨.stands (.trailing answer after.2), ?_, stopsAt_of_probe? happens rfl⟩
    rw [stop?, (step?_of_probe? happens).1]
    rfl

/-- Whether a task that waits for nobody can make a move is decided by its phase. -/
theorem isSome_proceed? (r : Renderer) (ticket : Ticket) (move : Task.Move) (scene : Scene)
    {phase : Phase} (plan : RenderRequest → Except Failure (Path × Timeline Binary64))
    (unqueued : phase.rank ≠ 3) :
    (r.proceed? ticket move scene phase).isSome = (r.stop? move plan phase).isSome := by
  -- Whether a move fits its phase does not depend on the scene, apart from the queue.
  cases phase with
  | arriving request => cases move <;> rfl
  | probing destination timeline survey =>
    cases move with
    | resume =>
      rw [proceed?, stop?]
      cases survey.isDecided <;> rfl
    | probe event => simp only [proceed?, stop?, probe?, Option.isSome_map]
  | queued job lock => exact absurd rfl unqueued
  | encoding job lock output turns => cases move <;> cases turns <;> rfl
  | trailing answer survey =>
    cases move with
    | resume => rfl
    | probe event => simp only [proceed?, stop?, probe?, Option.isSome_map]
  | finished answer => rfl

/-- Where a move leads does not depend on the number of the lock. -/
theorem stop?_unlocked (move : Task.Move)
    (plan : RenderRequest → Except Failure (Path × Timeline Binary64)) (phase : Phase) :
    r.stop? move plan phase.unlocked = r.stop? move plan phase := by
  cases phase <;> rfl

/-! ### Locks -/

/-- A task that arrives and surveys changes no lock. -/
theorem locks_arrive (ticket : Ticket) (request : RenderRequest) (scene : Scene)
    (early : 4 ≤ (r.arrive ticket request scene).2.rank) :
    (r.arrive ticket request scene).1.site.locks = scene.site.locks := by
  obtain ⟨told, eq, site⟩ := r.tell_eq .idle scene
  -- A render that has ended, or has come to its compile, is no longer early.
  revert early
  rw [arrive, eq]
  cases r.check .idle with
  | some e => exact fun _ => congrArg Site.locks site
  | none =>
    dsimp only
    cases r.plan told.site.tree request with
    | error e =>
      intro early
      rw [rank_fail] at early
      omega
    | ok found =>
      obtain ⟨probed, eq, site'⟩ := r.tell_eq .probing told
      dsimp only [enter]
      rw [eq]
      cases r.check .probing with
      | some e =>
        intro early
        dsimp only at early
        rw [rank_fail] at early
        omega
      | none =>
        dsimp only [startProbing]
        intro early
        split at early
        · have := r.rank_finishProbing_le ticket found.1 found.2
            (Survey.ofPaths (r.sources found.2) r.settings.probeMaxWorkers) probed
          omega
        next busy => rw [if_neg busy, site', site]

/-- Until its sources are surveyed a task changes no lock. -/
theorem locks_of_rank {ticket : Ticket} {move : Task.Move} {scene : Scene} {phase : Phase}
    {next : Scene × Phase} (h : r.proceed? ticket move scene phase = some next)
    (early : 4 ≤ next.2.rank) : next.1.site.locks = scene.site.locks := by
  -- A task stays this early only when it arrives, probes, or goes on with the same phase.
  cases proceeds_of_proceed? h with
  | arrive request => exact locks_arrive ticket request scene early
  | finishProbing destination timeline survey decided =>
    have := r.rank_finishProbing_le ticket destination timeline survey scene
    omega
  | probe destination timeline survey event after happens => exact (site_of_probe? happens).2
  | startEncoding job lock turn =>
    have := r.rank_startEncoding_le job lock
      (scene.withLocks (scene.site.locks.dequeue lock ticket))
    omega
  | finishEncoding job lock output =>
    have := r.rank_finishEncoding job lock output scene
    omega
  | continueEncoding job lock output turns => rfl
  | trail answer survey event after happens => exact (site_of_probe? happens).2

/-- A destination that is free stays so while a task still surveys. -/
theorem free_of_proceed? {ticket : Ticket} {move : Task.Move} {scene : Scene} {phase : Phase}
    {next : Scene × Phase} (h : r.proceed? ticket move scene phase = some next)
    (early : 4 ≤ next.2.rank) {destination : Path}
    (free : 4 ≤ phase.rank → scene.site.locks.find? destination = none) :
    next.1.site.locks.find? destination = none := by
  rw [locks_of_rank h early]
  refine free ?_
  rcases proceed?_lt h with lower | ⟨equal, _⟩
  · exact Nat.le_of_lt (Nat.lt_of_le_of_lt early lower)
  · exact equal ▸ early

/-! ### Orders

The stops after the arrival carry out what the request comes to. -/

/-- The job of a timeline and the file that the engine is to write, by what the survey has found. -/
def orderOf (r : Renderer) (destination : Path) (timeline : Timeline Binary64)
    (found : Except Failure SourceCache) : Except Failure (Job × Path) := do
  let cache ← found
  r.allow .compiling
  let job ← r.jobOf destination timeline cache
  r.allow .rendering
  let output ← (r.storage.tempPath destination).mapError .file
  .ok (job, output)

/-- The order of a planned request is the order of its survey. -/
theorem order_of_plan {tree : FileTree} {request : RenderRequest} {destination : Path}
    {timeline : Timeline Binary64} (plan : r.plan tree request = .ok (destination, timeline))
    (probing : r.check .probing = none) :
    r.order tree request = r.orderOf destination timeline (r.surveyed timeline) := by
  rw [order, plan, allow, probing]
  rfl

/-- A stop at which an order is carried out: the engine does the job, or the render has ended with
the failure. -/
def Executes (r : Renderer) : Except Failure (Job × Path) → Stop → Prop
  | .ok (job, output), .encodes job' output' => job' = job ∧ output' = output
  | .ok (job, output), .stands (.encoding job' _ output' _) => job' = job ∧ output' = output
  | .error e, .stands phase => phase.Answers (r.verdict e)
  | _, _ => False

theorem executes_startEncodingStop (job : Job) : r.Executes (do
    r.allow .rendering
    let output ← (r.storage.tempPath job.destination).mapError .file
    .ok (job, output)) (r.startEncodingStop job) := by
  rw [startEncodingStop, allow]
  cases r.check .rendering with
  | some e => rfl
  | none =>
    dsimp only
    cases r.storage.tempPath job.destination with
    | error e => rfl
    | ok output =>
      dsimp only
      cases r.engine.turns (call job output) <;> exact ⟨rfl, rfl⟩

theorem executes_finishProbingStop (destination : Path) (timeline : Timeline Binary64)
    (survey : Survey) : r.Executes (r.orderOf destination timeline survey.cache)
      (r.finishProbingStop destination timeline survey) := by
  rw [orderOf, finishProbingStop, allow]
  -- The survey, the observer and the compile may each refuse, and in that order on both sides.
  cases survey.cache with
  | error e => rfl
  | ok cache =>
    dsimp only
    cases r.check .compiling with
    | some e => rfl
    | none =>
      dsimp only [bind, Except.bind]
      rw [compileStop]
      cases made : r.jobOf destination timeline cache with
      | error e => rfl
      | ok job =>
        obtain rfl := destination_of_jobOf made
        exact executes_startEncodingStop job

end Renderer

end Montage
