import Montage.Proofs.Media.Survey
import Montage.Proofs.Render.Frame
import Montage.Proofs.Render.Handed
import Montage.Proofs.Timeline.Sources

/-!
# The confinement of a render

What a render hands to the prober and to the engine has been resolved under the root, and the file
that is to be written too; a request that names anything out of the root comes to nothing. A path
that has been resolved leads where its names say, but for one case: behind a link that leads back to
itself names are put together unseen, and what they lead through may leave the root.
-/
namespace Montage

open FileTree

/-- A path that resolving has found under the root. -/
structure Storage.Confines (s : Storage) (tree : FileTree) (full : Path) : Prop where
  under : s.root.names <+: full.names
  plain : full.IsPlain
  resolved : tree.Resolved full ∨ tree.HasEndlessLink

theorem Storage.confines_of_resolve (s : Storage) (tree : FileTree) (path : Path) (shown : String)
    (full : Path) (rooted : s.root.IsPlain) (whole : path.IsWhole)
    (h : s.resolve tree path shown = .ok full) : s.Confines tree full := by
  obtain ⟨led, under⟩ := (s.resolve_eq_ok_iff tree path shown full).mp h
  rw [Path.isUnder, Bool.and_eq_true, List.isPrefixOf_iff_prefix] at under
  exact ⟨under.2, s.isPlain_of_resolve tree path shown full rooted whole h,
    (tree.resolved_of_resolve _ full (rooted.whole.join whole) led).2⟩

theorem Storage.Confines.isUnder {s : Storage} {tree : FileTree} {full : Path}
    (h : s.Confines tree full) (rooted : s.root.IsPlain) : full.isUnder s.root = true := by
  rw [Path.isUnder, Bool.and_eq_true]
  exact ⟨decide_eq_true (h.plain.root_eq.trans rooted.root_eq.symm),
    List.isPrefixOf_iff_prefix.mpr h.under⟩

/-- A text of a source path of a timeline that has been resolved under the root. -/
def Storage.IsSource (s : Storage) (tree : FileTree) (timeline : Timeline Binary64)
    (text : String) : Prop :=
  ∃ source ∈ timeline.sourcePaths, ∃ full,
    s.resolve tree (Path.ofString source) source = .ok full ∧ s.Confines tree full ∧
      text = full.text

/-- A destination under the root that is a file or can become one. -/
structure Storage.IsOutput (s : Storage) (tree : FileTree) (destination : Path) : Prop where
  confines : s.Confines tree destination
  below : destination ≠ s.root
  file : tree.isDirectory destination = .ok false

namespace Renderer

/-- A call that a request's render may make: it reads resolved sources and writes beside the
request's destination. -/
structure IsCall (r : Renderer) (tree : FileTree) (request : RenderRequest) (call : EncoderCall) :
    Prop where
  inputs : ∀ input ∈ call.inputs, r.storage.IsSource tree request.timeline input
  output : ∃ (destination : Path) (timeline : Timeline Binary64) (output : Path),
    r.plan tree request = .ok (destination, timeline) ∧ r.storage.IsOutput tree destination ∧
      output.parent = destination.parent ∧ call.output = output.text

variable {r : Renderer} {tree : FileTree} {request : RenderRequest}

theorem isOutput_of_plan (rooted : r.storage.root.IsPlain) (destination : Path)
    (timeline : Timeline Binary64) (h : r.plan tree request = .ok (destination, timeline)) :
    r.storage.IsOutput tree destination := by
  obtain ⟨path, shown, whole, file⟩ := destination_of_plan tree request destination timeline h
  obtain ⟨resolved, below, directory⟩ :=
    (r.storage.fileDestination_eq_ok_iff tree path shown destination).mp file
  exact ⟨r.storage.confines_of_resolve tree path shown destination rooted (whole rooted.whole)
    resolved, below, directory⟩

theorem exists_replacement (resolved : List (String × String)) (path : String)
    (known : ∃ e ∈ resolved, e.1 = path) :
    ∃ e ∈ resolved, e.1 = path ∧ replacement resolved path = e.2 := by
  obtain ⟨e, listed, same⟩ := known
  cases found : resolved.find? (·.1 = path) with
  | none => exact absurd (List.find?_eq_none.mp found e listed) (by simp [same])
  | some e' =>
    refine ⟨e', List.mem_of_find?_eq_some found, by simpa using List.find?_some found, ?_⟩
    rw [replacement, found]
    rfl

/-- The timeline of a plan is the request's with each source path by its resolved form. -/
theorem exists_resolved_of_plan (destination : Path) (timeline : Timeline Binary64)
    (h : r.plan tree request = .ok (destination, timeline)) :
    ∃ replaced : String → String, timeline = request.timeline.mapSources replaced ∧
      ∀ source ∈ request.timeline.sourcePaths, ∃ full,
        r.storage.resolve tree (Path.ofString source) source = .ok full ∧
          replaced source = full.text := by
  obtain ⟨_, _, h⟩ := Except.bind_eq_ok_iff.mp h
  obtain ⟨resolved, worked, h⟩ := Except.bind_eq_ok_iff.mp h
  cases h
  obtain ⟨forth, back⟩ := Except.mem_of_mapM_eq_ok worked
  have answered {source : String} {e : String × String}
      (ok : ((r.storage.resolve tree (Path.ofString source) source).map fun full =>
        (source, full.text)).mapError StorageError.failure = .ok e) :
      ∃ full, r.storage.resolve tree (Path.ofString source) source = .ok full ∧
        e = (source, full.text) := by
    cases found : r.storage.resolve tree (Path.ofString source) source with
    | error e =>
      rw [found] at ok
      cases ok
    | ok full =>
      rw [found] at ok
      cases ok
      exact ⟨full, rfl, rfl⟩
  refine ⟨replacement resolved, rfl, fun source listed => ?_⟩
  -- Every source path has been resolved, so none is left as it was.
  obtain ⟨e, known, first, replaced⟩ := exists_replacement resolved source (by
    obtain ⟨e, known, ok⟩ := forth _ listed
    obtain ⟨full, _, rfl⟩ := answered ok
    exact ⟨_, known, rfl⟩)
  obtain ⟨own, _, ok⟩ := back e known
  obtain ⟨full, found, rfl⟩ := answered ok
  obtain rfl : own = source := first
  exact ⟨full, found, replaced⟩

/-- The sources of a planned timeline are those of the request, resolved. -/
theorem isSource_of_plan (rooted : r.storage.root.IsPlain) (destination : Path)
    (timeline : Timeline Binary64) (h : r.plan tree request = .ok (destination, timeline))
    (text : String) (listed : text ∈ r.sources timeline) :
    r.storage.IsSource tree request.timeline text := by
  obtain ⟨replaced, rfl, resolved⟩ := exists_resolved_of_plan destination timeline h
  rw [sources, Timeline.selected_mapSources, List.map_map] at listed
  obtain ⟨entry, chosen, rfl⟩ := List.mem_map.mp listed
  have source : entry.2.sourcePath ∈ request.timeline.sourcePaths :=
    Timeline.mem_sourcePaths.mpr ⟨entry, List.mem_of_mem_filter chosen, rfl⟩
  obtain ⟨full, found, same⟩ := resolved _ source
  exact ⟨entry.2.sourcePath, source, full, found,
    r.storage.confines_of_resolve tree _ _ full rooted (.ofString _) found, same⟩

end Renderer

/-- More has been handed to the prober and the engine, all of it of certain kinds. -/
structure Journal.Extends (probes : String → Prop) (calls : EncoderCall → Prop)
    (j j' : Journal) : Prop where
  probed : ∃ new, j'.probed = j.probed ++ new ∧ ∀ path ∈ new, probes path
  called : ∃ new, j'.calls = j.calls ++ new ∧ ∀ call ∈ new, calls call

namespace Journal

variable {probes : String → Prop} {calls : EncoderCall → Prop} {j j' j'' : Journal}

theorem extends_of_handed (same : j'.handed = j.handed) : j.Extends probes calls j' := by
  obtain ⟨probed, called⟩ := Prod.mk.inj same
  exact ⟨⟨[], by rw [probed, List.append_nil], List.forall_mem_nil _⟩,
    ⟨[], by rw [called, List.append_nil], List.forall_mem_nil _⟩⟩

theorem Extends.trans (first : j.Extends probes calls j') (second : j'.Extends probes calls j'') :
    j.Extends probes calls j'' := by
  obtain ⟨⟨paths, probed, arePaths⟩, ⟨new, called, areCalls⟩⟩ := first
  obtain ⟨⟨paths', probed', arePaths'⟩, ⟨new', called', areCalls'⟩⟩ := second
  refine ⟨⟨paths ++ paths', ?_, List.forall_mem_append.mpr ⟨arePaths, arePaths'⟩⟩,
    ⟨new ++ new', ?_, List.forall_mem_append.mpr ⟨areCalls, areCalls'⟩⟩⟩
  · rw [probed', probed, List.append_assoc]
  · rw [called', called, List.append_assoc]

end Journal

/-- A phase of a render that goes by the plan of its request. -/
def Phase.IsPlanned (r : Renderer) (tree : FileTree) (request : RenderRequest) : Phase → Prop
  | .arriving arrived => arrived = request
  | .probing destination timeline survey =>
    r.plan tree request = .ok (destination, timeline) ∧
      survey.Serves r.prober (r.sources timeline)
  | .queued job _ => ∃ timeline cache, r.plan tree request = .ok (job.destination, timeline) ∧
    r.jobOf job.destination timeline cache = .ok job
  | .trailing _ survey => ∃ destination timeline,
    r.plan tree request = .ok (destination, timeline) ∧
      survey.Serves r.prober (r.sources timeline)
  | .encoding .. => True
  | .finished _ => True

namespace Renderer

/-- A step of a render that goes by the plan of its request and hands on only what belongs to
it. -/
structure Hands (r : Renderer) (tree : FileTree) (request : RenderRequest) (scene : Scene)
    (next : Scene × Phase) : Prop where
  planned : next.2.IsPlanned r tree request
  journal : scene.site.journal.Extends (r.storage.IsSource tree request.timeline)
    (r.IsCall tree request) next.1.site.journal

variable {r : Renderer} {tree : FileTree} {request : RenderRequest} {scene begun : Scene}
  {next : Scene × Phase}

theorem Hands.of_extends (h : r.Hands tree request begun next)
    (first : scene.site.journal.Extends (r.storage.IsSource tree request.timeline)
      (r.IsCall tree request) begun.site.journal) : r.Hands tree request scene next :=
  ⟨h.planned, first.trans h.journal⟩

theorem Hands.of_handed (h : r.Hands tree request begun next)
    (same : begun.site.journal.handed = scene.site.journal.handed) :
    r.Hands tree request scene next :=
  h.of_extends (Journal.extends_of_handed same)

theorem hands_fail (e : Failure) (scene : Scene) :
    r.Hands tree request scene (r.fail e scene) := by
  obtain ⟨told, eq, site⟩ := r.fail_eq e scene
  rw [eq]
  exact ⟨trivial, Journal.extends_of_handed (by rw [site])⟩

theorem hands_finishEncoding (job : Job) (lock : Nat) (output : Path) (scene : Scene) :
    r.Hands tree request scene (r.finishEncoding job lock output scene) := by
  have same := congrArg Prod.fst (handed_finishEncoding (r := r) job lock output scene)
  refine ⟨?_, Journal.extends_of_handed same⟩
  rw [(r.finishEncoding_ends job lock output scene).phase]
  trivial

/-- The engine is handed the sources of the plan, and an output beside its destination. -/
theorem hands_startEncoding (rooted : r.storage.root.IsPlain) (job : Job) (lock : Nat)
    (scene : Scene) (timeline : Timeline Binary64) (cache : SourceCache)
    (plan : r.plan tree request = .ok (job.destination, timeline))
    (made : r.jobOf job.destination timeline cache = .ok job) :
    r.Hands tree request scene (r.startEncoding job lock scene) := by
  obtain ⟨told, eq, site⟩ := r.tell_eq .rendering scene
  rw [startEncoding, eq]
  cases r.check .rendering with
  | some e => exact (hands_fail e _).of_handed (congrArg (fun site => site.journal.handed) site)
  | none =>
    dsimp only
    cases temp : r.storage.tempPath job.destination with
    | error e =>
      exact (hands_fail (.file e) _).of_handed (congrArg (fun site => site.journal.handed) site)
    | ok output =>
      have called : r.IsCall tree request (call job output) := by
        refine ⟨fun input listed => ?_, ?_⟩
        · exact isSource_of_plan rooted job.destination timeline plan input
            (mem_sources_of_jobOf _ timeline cache job made input listed)
        · refine ⟨job.destination, timeline, output, plan,
            isOutput_of_plan rooted job.destination timeline plan, ?_, rfl⟩
          obtain ⟨_, rfl⟩ := r.storage.tempPath_eq job.destination output temp
          simp [Path.parent]
      -- The call is noted before the engine takes its first turn.
      have journal : scene.site.journal.Extends (r.storage.IsSource tree request.timeline)
          (r.IsCall tree request)
          { told.site.journal with
            calls := told.site.journal.calls ++ [call job output]
            active := told.site.journal.active + 1
            mostActive := max told.site.journal.mostActive (told.site.journal.active + 1) } := by
        rw [site]
        exact ⟨⟨[], (List.append_nil _).symm, List.forall_mem_nil _⟩,
          ⟨[call job output], rfl, List.forall_mem_singleton.mpr called⟩⟩
      dsimp only
      cases r.engine.turns (call job output) with
      | zero =>
        dsimp only
        exact Hands.of_extends (hands_finishEncoding job lock output _) journal
      | succ turns => exact ⟨trivial, journal⟩

theorem hands_seekLock (rooted : r.storage.root.IsPlain) (ticket : Ticket) (job : Job)
    (scene : Scene) (timeline : Timeline Binary64) (cache : SourceCache)
    (plan : r.plan tree request = .ok (job.destination, timeline))
    (made : r.jobOf job.destination timeline cache = .ok job) :
    r.Hands tree request scene (r.seekLock ticket job scene) := by
  simp only [seekLock]
  split
  · exact ⟨⟨timeline, cache, plan, made⟩, Journal.extends_of_handed rfl⟩
  · exact (hands_startEncoding rooted job _ _ timeline cache plan made).of_handed rfl

theorem hands_compile (rooted : r.storage.root.IsPlain) (ticket : Ticket) (destination : Path)
    (timeline : Timeline Binary64) (cache : SourceCache) (scene : Scene)
    (plan : r.plan tree request = .ok (destination, timeline)) :
    r.Hands tree request scene (r.compile ticket destination timeline cache scene) := by
  simp only [compile]
  cases compiled : (compileTimeline timeline cache r.compileOptions).graph with
  | error e => exact (hands_fail _ _).of_handed rfl
  | ok graph =>
    refine (hands_seekLock rooted ticket _ _ timeline cache plan ?_).of_handed rfl
    rw [jobOf, compiled]

theorem hands_finishProbing (rooted : r.storage.root.IsPlain) (ticket : Ticket)
    (destination : Path) (timeline : Timeline Binary64) (survey : Survey) (scene : Scene)
    (plan : r.plan tree request = .ok (destination, timeline))
    (serves : survey.Serves r.prober (r.sources timeline)) :
    r.Hands tree request scene (r.finishProbing ticket destination timeline survey scene) := by
  simp only [finishProbing]
  cases survey.cache with
  | error e =>
    obtain ⟨told, eq, site⟩ := r.conclude_eq e (scene.say survey.warnings)
    dsimp only
    rw [eq]
    exact ⟨⟨destination, timeline, plan, serves⟩,
      Journal.extends_of_handed (congrArg (fun site : Site => site.journal.handed) site)⟩
  | ok cache =>
    obtain ⟨told, eq, site⟩ := r.tell_eq .compiling (scene.say survey.warnings)
    dsimp only
    rw [enter, eq]
    -- To tell a state hands nothing out.
    have same := congrArg (fun site : Site => site.journal.handed) site
    cases r.check .compiling with
    | some e => exact (hands_fail e told).of_handed same
    | none =>
      exact (hands_compile rooted ticket destination timeline cache told plan).of_handed same

/-- The prober is handed the sources of the plan. -/
theorem extends_probe? (rooted : r.storage.root.IsPlain) {destination : Path}
    {timeline : Timeline Binary64} {survey : Survey} {event : ProbeEvent}
    {after : Scene × Survey} (happens : r.probe? survey event scene = some after)
    (plan : r.plan tree request = .ok (destination, timeline))
    (serves : survey.Serves r.prober (r.sources timeline)) :
    scene.site.journal.Extends (r.storage.IsSource tree request.timeline) (r.IsCall tree request)
        after.1.site.journal ∧
      after.2.Serves r.prober (r.sources timeline) := by
  obtain ⟨step, noted⟩ := step?_of_probe? happens
  have later := serves.step? step
  rw [noted]
  refine ⟨⟨⟨_, rfl, fun path new => ?_⟩, ⟨[], (List.append_nil _).symm, List.forall_mem_nil _⟩⟩,
    later⟩
  -- The survey asks for nothing but the sources that it serves.
  exact isSource_of_plan rooted destination timeline plan path
    (later.probed_mem path (List.mem_of_mem_drop new))

theorem hands_startProbing (rooted : r.storage.root.IsPlain) (ticket : Ticket)
    (destination : Path) (timeline : Timeline Binary64) (scene : Scene)
    (plan : r.plan tree request = .ok (destination, timeline)) :
    r.Hands tree request scene (r.startProbing ticket destination timeline scene) := by
  simp only [startProbing]
  split
  · exact hands_finishProbing rooted ticket destination timeline _ scene plan
      (Survey.serves_ofPaths _ _)
  · exact ⟨⟨plan, Survey.serves_ofPaths _ _⟩, Journal.extends_of_handed rfl⟩

theorem hands_arrive (rooted : r.storage.root.IsPlain) (ticket : Ticket) (scene : Scene)
    (same : scene.site.tree = tree) :
    r.Hands tree request scene (r.arrive ticket request scene) := by
  obtain ⟨told, eq, site⟩ := r.tell_eq .idle scene
  have kept := congrArg (fun site : Site => site.journal.handed) site
  rw [arrive, eq]
  cases r.check .idle with
  | some e => exact ⟨trivial, Journal.extends_of_handed kept⟩
  | none =>
    dsimp only
    rw [site, same]
    -- Nothing is handed over before there is a plan.
    cases plan : r.plan tree request with
    | error e => exact (hands_fail e told).of_handed kept
    | ok found =>
      obtain ⟨probed, eq, site'⟩ := r.tell_eq .probing told
      have kept' := congrArg (fun site : Site => site.journal.handed) (site'.trans site)
      dsimp only
      rw [enter, eq]
      cases r.check .probing with
      | some e => exact (hands_fail e probed).of_handed kept'
      | none => exact (hands_startProbing rooted ticket found.1 found.2 probed plan).of_handed kept'

/-- Every step goes by the plan that the request had when it arrived. -/
theorem hands_proceed? (rooted : r.storage.root.IsPlain) {ticket : Ticket} {move : Task.Move}
    {phase : Phase} (h : r.proceed? ticket move scene phase = some next)
    (planned : phase.IsPlanned r tree request)
    (same : ∀ arrived, phase = .arriving arrived → scene.site.tree = tree) :
    r.Hands tree request scene next := by
  -- The plan is made on arrival, and every later step has it from there.
  cases proceeds_of_proceed? h with
  | arrive arrived =>
    obtain rfl : arrived = request := planned
    exact hands_arrive rooted ticket scene (same arrived rfl)
  | finishProbing destination timeline survey decided =>
    exact hands_finishProbing rooted ticket destination timeline survey scene planned.1 planned.2
  | probe destination timeline survey event after happens =>
    obtain ⟨journal, later⟩ := extends_probe? rooted happens planned.1 planned.2
    exact ⟨⟨planned.1, later⟩, journal⟩
  | startEncoding job lock turn =>
    obtain ⟨timeline, cache, plan, made⟩ := planned
    exact (hands_startEncoding rooted job lock _ timeline cache plan made).of_handed rfl
  | finishEncoding job lock output => exact hands_finishEncoding job lock output scene
  | continueEncoding job lock output turns => exact ⟨trivial, Journal.extends_of_handed rfl⟩
  | trail answer survey event after happens =>
    obtain ⟨destination, timeline, plan, serves⟩ := planned
    obtain ⟨journal, later⟩ := extends_probe? rooted happens plan serves
    exact ⟨⟨destination, timeline, plan, later⟩, journal⟩

end Renderer

/-- A batch of one request's render that goes by the plan that the request had when it arrived. -/
structure Batch.IsPlanned (r : Renderer) (site : Site) (request : RenderRequest) (batch : Batch) :
    Prop where
  task : ∃ task, batch.tasks = [task] ∧ task.phase.IsPlanned r site.tree request ∧
    ∀ arrived, task.phase = .arriving arrived → batch.site.tree = site.tree
  journal : site.journal.Extends (r.storage.IsSource site.tree request.timeline)
    (r.IsCall site.tree request) batch.site.journal

namespace Batch

variable {r : Renderer} {site : Site} {request : RenderRequest} {batch next : Batch}

/-- A step of a batch with one task is a step of that task. -/
theorem exists_of_step?_of_alone {task : Task} {ticket : Ticket} {move : Task.Move}
    (alone : batch.tasks = [task]) (step : batch.step? r ticket move = some next) :
    ∃ scene phase, r.proceed? ticket move ⟨batch.site, task.events, task.log⟩ task.phase =
        some (scene, phase) ∧
      ticket = 0 ∧ next = ⟨scene.site, [⟨phase, scene.events, scene.log⟩]⟩ := by
  obtain ⟨given, scene, phase, found, proceeded, rfl⟩ := exists_of_step? step
  rw [alone, List.getElem?_singleton] at found
  split at found
  next first =>
    cases found
    exact ⟨scene, phase, proceeded, first, by rw [alone, first]; rfl⟩
  next => cases found

theorem isPlanned_step? (rooted : r.storage.root.IsPlain) {ticket : Ticket} {move : Task.Move}
    (h : batch.IsPlanned r site request) (step : batch.step? r ticket move = some next) :
    next.IsPlanned r site request := by
  obtain ⟨task, alone, planned, same⟩ := h.task
  obtain ⟨scene, phase, proceeded, _, rfl⟩ := exists_of_step?_of_alone alone step
  have hands := Renderer.hands_proceed? rooted proceeded planned same
  refine ⟨⟨_, rfl, hands.planned, ?_⟩, h.journal.trans hands.journal⟩
  exact fun arrived again => absurd again (Renderer.ne_arriving_of_proceed? proceeded arrived)

theorem isPlanned_after (rooted : r.storage.root.IsPlain)
    (schedule : List (Ticket × Task.Move)) (h : batch.IsPlanned r site request) :
    (batch.after r schedule).IsPlanned r site request :=
  after_of_step? (isPlanned_step? rooted) schedule h

end Batch

/-- A path leads out of the root. -/
def Storage.Leaves (s : Storage) (tree : FileTree) (path : Path) : Prop :=
  ∃ full, tree.resolve (s.root.join path) = .ok full ∧ full.isUnder s.root = false

/-- The path that a new name gives to a destination. -/
def Storage.renamed (s : Storage) (own : Path) (name : String) : Path :=
  ((own.relativeTo? s.root).getD ⟨"", []⟩).parent.join (Path.ofString name)

theorem Storage.resolve_ne_ok (s : Storage) (tree : FileTree) (path : Path) (shown : String)
    (leaves : s.Leaves tree path) (full : Path) : s.resolve tree path shown ≠ .ok full := by
  intro ok
  obtain ⟨led, under⟩ := (s.resolve_eq_ok_iff tree path shown full).mp ok
  obtain ⟨out, led', outside⟩ := leaves
  rw [led, Except.ok.injEq] at led'
  rw [led', outside] at under
  cases under

theorem Storage.fileDestination_ne_ok (s : Storage) (tree : FileTree) (path : Path)
    (shown : String) (leaves : s.Leaves tree path) (full : Path) :
    s.fileDestination tree path shown ≠ .ok full := fun ok =>
  s.resolve_ne_ok tree path shown leaves full
    ((s.fileDestination_eq_ok_iff tree path shown full).mp ok).1

namespace Renderer

/-- A request that names something out of the root: its destination, by its own name or by the new
one, or a source of its timeline, be it of a clip that is too short to show. -/
inductive Escapes (r : Renderer) (tree : FileTree) (request : RenderRequest) : Prop
  | destination (leaves : r.storage.Leaves tree (Path.ofString request.destinationPath))
  | renamed (own : Path) (name : String) (given : request.newName = some name)
    (named : name.isEmpty = false) (other : name ≠ own.name)
    (found : r.storage.fileDestination tree (Path.ofString request.destinationPath)
      request.destinationPath = .ok own)
    (leaves : r.storage.Leaves tree (r.storage.renamed own name))
  | source (path : String) (listed : path ∈ request.timeline.sourcePaths)
    (leaves : r.storage.Leaves tree (Path.ofString path))

variable {r : Renderer} {tree : FileTree} {request : RenderRequest}

/-- A request that names something out of the root is not planned. -/
theorem Escapes.exists_error (h : r.Escapes tree request) :
    ∃ e, r.plan tree request = .error e := by
  cases plan : r.plan tree request with
  | error e => exact ⟨e, rfl⟩
  | ok found =>
    obtain ⟨full, output, rest⟩ := Except.bind_eq_ok_iff.mp plan
    obtain ⟨resolved, worked, _⟩ := Except.bind_eq_ok_iff.mp rest
    rw [Except.mapError_eq_ok_iff] at output
    obtain ⟨first, own, output⟩ := Except.bind_eq_ok_iff.mp output
    -- Each of the three names is resolved on the way to a plan.
    cases h with
    | destination leaves => exact absurd own (r.storage.fileDestination_ne_ok _ _ _ leaves first)
    | renamed own' name given named other found leaves =>
      obtain rfl : first = own' := Except.ok.inj (own.symm.trans found)
      rw [given] at output
      dsimp only at output
      rw [if_neg (by simp [named, other])] at output
      exact absurd output (r.storage.fileDestination_ne_ok _ _ _ leaves full)
    | source path listed leaves =>
      obtain ⟨_, _, answered⟩ := (Except.mem_of_mapM_eq_ok worked).1 path listed
      rw [Except.mapError_eq_ok_iff] at answered
      cases led : r.storage.resolve tree (Path.ofString path) path with
      | ok out => exact absurd led (r.storage.resolve_ne_ok _ _ _ leaves out)
      | error e =>
        rw [led] at answered
        cases answered

/-- A request without a plan is answered when it arrives, and leaves everything as it is. -/
theorem arrive_of_error (ticket : Ticket) (scene : Scene) (e : Failure)
    (refused : r.plan scene.site.tree request = .error e) :
    (r.arrive ticket request scene).1.site = scene.site ∧
      (r.arrive ticket request scene).2 =
        .finished (match r.check .idle with | none => r.verdict e | some e => .error e) := by
  obtain ⟨told, eq, site⟩ := r.tell_eq .idle scene
  rw [arrive, eq]
  cases r.check .idle with
  | some e => exact ⟨site, rfl⟩
  | none =>
    dsimp only
    rw [site, refused]
    obtain ⟨ended, eq, site'⟩ := r.fail_eq e told
    dsimp only
    rw [eq]
    exact ⟨site'.trans site, rfl⟩

end Renderer

namespace Batch

variable {r : Renderer} {site : Site} {request : RenderRequest}

/-- When its only task has been answered, a batch cannot go on. -/
theorem after_of_finished {batch : Batch} {task : Task} {answer : Except Failure RenderResult}
    (alone : batch.tasks = [task]) (finished : task.phase = .finished answer)
    (schedule : List (Ticket × Task.Move)) : batch.after r schedule = batch := by
  refine after_of_step? (P := (· = batch)) ?_ schedule rfl
  rintro _ next ticket move rfl step
  obtain ⟨scene, phase, proceeded, _⟩ := exists_of_step?_of_alone alone step
  rw [finished] at proceeded
  cases proceeded

/-- What becomes of a lone request without a plan: it waits for its turn, and is then answered. -/
theorem after_of_error (e : Failure) (refused : r.plan site.tree request = .error e)
    (schedule : List (Ticket × Task.Move)) :
    ((ofRequests site [request]).after r schedule).site = site ∧
      ((0, .resume) ∈ schedule →
        ∃ task, ((ofRequests site [request]).after r schedule).tasks = [task] ∧
        task.phase =
          .finished (match r.check .idle with | none => r.verdict e | some e => .error e)) := by
  -- Turns of others change nothing, and the first turn of the task is its last.
  induction schedule with
  | nil => exact ⟨rfl, fun member => absurd member List.not_mem_nil⟩
  | cons turn rest ih =>
    obtain ⟨ticket, move⟩ := turn
    rw [after_cons]
    cases step : (ofRequests site [request]).step? r ticket move with
    | none =>
      refine ⟨ih.1, fun member => ih.2 ?_⟩
      rcases List.mem_cons.mp member with own | later
      · cases own
        cases step
      · exact later
    | some next =>
      obtain ⟨scene, phase, proceeded, rfl, rfl⟩ :=
        exists_of_step?_of_alone rfl step
      obtain ⟨kept, answered⟩ := Renderer.arrive_of_error 0 ⟨site, [], []⟩ e refused
      have arrived : r.arrive 0 request ⟨site, [], []⟩ = (scene, phase) := by
        cases move with
        | resume => exact Option.some.inj proceeded
        | probe event => cases proceeded
      rw [arrived] at kept answered
      have rests : (Batch.mk scene.site [⟨phase, scene.events, scene.log⟩]).after r rest = _ :=
        after_of_finished rfl answered rest
      refine ⟨(congrArg Batch.site rests).trans kept, fun _ => ⟨_, congrArg Batch.tasks rests, ?_⟩⟩
      exact answered

end Batch

namespace Renderer

/-- All that a render hands to the prober and the engine has been resolved under the root, and so
has the destination that the engine writes beside, which is neither the root nor a directory; and a
request that names anything out of the root fails and leaves everything as it is. What has been
resolved leads where its names say, unless there are links that lead back to themselves. -/
theorem confined_after (r : Renderer) (request : RenderRequest) (site : Site)
    (schedule : List (Ticket × Task.Move)) (rooted : r.storage.root.IsPlain) :
    site.journal.Extends (r.storage.IsSource site.tree request.timeline)
        (r.IsCall site.tree request)
        ((Batch.ofRequests site [request]).after r schedule).site.journal ∧
      (∀ destination timeline, r.plan site.tree request = .ok (destination, timeline) →
        r.storage.IsOutput site.tree destination) ∧
      (r.Escapes site.tree request →
        ((Batch.ofRequests site [request]).after r schedule).site = site ∧
        ((0, .resume) ∈ schedule → ∃ task answer,
          ((Batch.ofRequests site [request]).after r schedule).tasks = [task] ∧
            task.answer? = some answer ∧
            ((∃ result, answer = .ok result ∧ result.success = false) ∨
              ∃ state e, r.check state = some e ∧ answer = .error e))) := by
  refine ⟨?_, fun destination timeline plan => isOutput_of_plan rooted destination timeline plan,
    fun escapes => ?_⟩
  · have begun : (Batch.ofRequests site [request]).IsPlanned r site request :=
      ⟨⟨.ofRequest request, rfl, rfl, fun _ _ => rfl⟩, Journal.extends_of_handed rfl⟩
    exact (Batch.isPlanned_after rooted schedule begun).journal
  · obtain ⟨e, refused⟩ := escapes.exists_error
    obtain ⟨kept, answered⟩ := Batch.after_of_error e refused schedule
    refine ⟨kept, fun turn => ?_⟩
    obtain ⟨task, alone, finished⟩ := answered turn
    refine ⟨task, _, alone, (task.answer?_eq_some _).mpr (by rw [finished]; exact rfl), ?_⟩
    -- There is a result unless the observer fails, of the first state or of the last.
    cases idle : r.check .idle with
    | some e => exact .inr ⟨.idle, e, idle, rfl⟩
    | none =>
      dsimp only
      rw [verdict]
      cases told : r.check .failed with
      | some e => exact .inr ⟨.failed, e, told, rfl⟩
      | none => exact .inl ⟨e.result, rfl, success_result e⟩

end Renderer

/-- A gallery with a link that leads back to itself and one that leads out. -/
def FileTree.looped : FileTree :=
  ⟨[(["gallery"], .directory), (["gallery", "a.mp4"], .file "film"),
    (["gallery", "loop"], .link "loop"), (["gallery", "escape"], .link "..")]⟩

namespace Renderer

/-- By its own name, what lies behind a link that leads out is out of the root. -/
theorem leaves_escape (engine : Engine) (tree : FileTree)
    (gallery : tree.linkAt? ["gallery"] = none)
    (link : tree.linkAt? ["gallery", "escape"] = some "..")
    (free : tree.linkAt? ["out.mp4"] = none) :
    (sample engine).storage.Leaves tree ⟨"", ["escape", "out.mp4"]⟩ := by
  have up : Path.pieces ".." = [".."] := by decide
  have followed : tree.follow [] [] ["gallery", "escape", "out.mp4"] [] =
      .resolved ["out.mp4"] := by
    rw [follow_cons_free _ [] [] "gallery" _ _ (by decide) (by decide) (by decide)
        gallery,
      follow_cons_link _ [] _ "escape" _ _ ".." (by decide) (by decide) (by decide)
        link]
    -- The target leads up, and the name after the link is sought there.
    change tree.follow _ (if "..".startsWith "/" then [] else ["gallery"])
      (Path.pieces "..") _ = _
    rw [if_neg (by decide +kernel), up, follow, if_neg (by decide), if_pos rfl, follow,
      follow_cons_free _ _ _ "out.mp4" _ _ (by decide) (by decide) (by decide)
        free, follow]
    rfl
  exact ⟨.absolute ["out.mp4"],
    (tree.resolve_eq_ok_iff ..).mpr (.inl ⟨_, followed, rfl⟩), by rfl⟩

theorem leaves_looped (engine : Engine) :
    (sample engine).storage.Leaves .looped ⟨"", ["escape", "out.mp4"]⟩ :=
  leaves_escape engine .looped (by decide) (by decide) (by decide)

theorem escapes_looped (engine : Engine) :
    (sample engine).Escapes .looped (.sample "escape/out.mp4") := by
  have read : Path.ofString "escape/out.mp4" = ⟨"", ["escape", "out.mp4"]⟩ := by decide
  refine .destination ?_
  change (sample engine).storage.Leaves _ (Path.ofString "escape/out.mp4")
  rw [read]
  exact leaves_looped engine

/-- A request for a file in the gallery has it for its destination, and the engine is called for
that file alone; a request for a name behind a link that leads out is refused. -/
theorem confined_after_sample :
    let r := sample (.scripted ⟨[.write "new"], [], none⟩)
    let site : Site := ⟨.looped, .empty, .empty⟩
    let inside : RenderRequest := .sample "out.mp4"
    let outside : RenderRequest := .sample "escape/out.mp4"
    let schedule : List (Ticket × Task.Move) :=
      [(0, .resume), (0, .probe (.start 0)), (0, .probe (.finish 0)), (0, .resume)]
    (r.storage.IsOutput site.tree (.absolute ["gallery", "out.mp4"]) ∧
      ∀ call ∈ ((Batch.ofRequests site [inside]).after r schedule).site.journal.calls,
        r.IsCall site.tree inside call) ∧
    ((Batch.ofRequests site [outside]).after r schedule).site = site ∧
      ∃ task result, ((Batch.ofRequests site [outside]).after r schedule).tasks = [task] ∧
        task.answer? = some (.ok result) ∧ result.success = false := by
  intro r site inside outside schedule
  have rooted : r.storage.root.IsPlain := ⟨rfl, by decide⟩
  have planned : r.plan site.tree inside = .ok (.absolute ["gallery", "out.mp4"], .sample) :=
    plan_of_destination r.engine .looped "out.mp4" _ (reached_sample (by decide) rfl rfl)
      (destination_sample r.engine .looped "out.mp4" (reached_sample (by decide) rfl rfl)
        none (by rfl) nofun)
  obtain ⟨handed, outputs, _⟩ := r.confined_after inside site schedule rooted
  obtain ⟨_, _, escaped⟩ := r.confined_after outside site schedule rooted
  -- The schedule is long enough for the first request to reach the engine, and for the second one
  -- to be answered.
  obtain ⟨kept, answered⟩ := escaped (escapes_looped r.engine)
  refine ⟨⟨outputs _ _ planned, ?_⟩, kept, ?_⟩
  · obtain ⟨new, calls, own⟩ := handed.called
    rw [calls]
    exact own
  · obtain ⟨task, answer, alone, given, ⟨result, rfl, failed⟩ | ⟨_, _, told, _⟩⟩ :=
      answered List.mem_cons_self
    · exact ⟨task, result, alone, given, failed⟩
    · cases told

variable {tree : FileTree} {name : String}

/-- Names behind the link that leads out are found beside the gallery. -/
theorem find_escape (gallery : tree.get? ["gallery"] = some .directory)
    (link : tree.get? ["gallery", "escape"] = some (.link "..")) (named : Path.IsName name)
    (unbroken : Path.isUnfitName name = false)
    (short : ¬maxPathBytes ≤ Text.nameSize (Path.absolute ["gallery", "escape", name]).text)
    (fits : ¬maxNameBytes < Text.nameSize name) :
    tree.find .kept (.absolute ["gallery", "escape", name]) = .ok ([name], tree.get? [name]) := by
  have plain : (Path.absolute ["gallery", "escape", name]).IsPlain := by
    refine ⟨rfl, ?_⟩
    intro other member
    have options : other = "gallery" ∨ other = "escape" ∨ other = name := by
      simpa [Path.absolute] using member
    rcases options with rfl | rfl | rfl
    · decide
    · decide
    · exact named
  -- The link leads to the directory above the one that it stands in, which is the root.
  have out : tree.walk .followed 39 ["gallery"] (Path.pieces "..") = .ok ([], some .directory) := by
    have pieces : Path.pieces ".." = [".."] := by decide
    rw [pieces, walk, if_neg (not_not.mpr gallery), if_neg (by decide), if_pos rfl, walk]
    rfl
  -- So the directory of the last name is the root, although the path goes through the gallery.
  have enters : tree.Enters maxLinks [] ["gallery", "escape"] [] := by
    rw [Enters, tree.walk_cons .followed maxLinks [] "gallery" ["escape"] (not_not.mpr rfl)
      (by decide) (by decide) (by decide) (by decide)]
    rw [List.nil_append, gallery]
    dsimp only
    rw [tree.walk_single .followed maxLinks ["gallery"] "escape" (by decide) gallery,
      if_neg (by decide), List.singleton_append, link]
    change (tree.walk .followed 39 (if "..".startsWith "/" then [] else ["gallery"])
      (Path.pieces "..")) = _
    rw [if_neg (by decide +kernel), out]
  have last : (Path.absolute ["gallery", "escape", name]).lastStep = name := by
    rw [Path.lastStep, plain.steps_eq]
    rfl
  refine (find_kept_eq_ok_iff plain (List.cons_ne_nil _ _)).mpr ⟨?_, [], ?_, ?_⟩
  · rw [Path.isUnfit, Path.absolute, List.any_cons, List.any_cons, List.any_cons, unbroken]
    decide
  · refine (tree.holder_eq_ok_iff _ []).mpr ⟨short, ?_⟩
    rw [plain.steps_eq]
    exact enters
  · rw [last]
    exact (tree.child_eq_ok_iff ..).mpr ⟨fits, rfl, rfl⟩

theorem find_looped (tree : FileTree) (gallery : tree.get? ["gallery"] = some .directory)
    (link : tree.get? ["gallery", "escape"] = some (.link "..")) :
    tree.find .kept (.absolute ["gallery", "escape", "out.mp4"]) =
        .ok (["out.mp4"], tree.get? ["out.mp4"]) ∧
      tree.find .kept (.absolute ["gallery", "escape", "out.rendering.mp4"]) =
        .ok (["out.rendering.mp4"], tree.get? ["out.rendering.mp4"]) :=
  ⟨find_escape gallery link (by decide) (by decide) (by decide) (by decide),
    find_escape gallery link (by decide) (by decide) (by decide) (by decide)⟩

theorem resolve_looped :
    FileTree.looped.resolve (.absolute ["gallery", "loop", "..", "escape", "out.mp4"]) =
      .ok (.absolute ["gallery", "escape", "out.mp4"]) := by
  have loop : Path.pieces "loop" = ["loop"] := by decide
  have link (known : Known) (rest : List String) (detours : List Detour) :=
    FileTree.looped.follow_cons_link known ["gallery"] "loop" rest detours "loop"
      (by decide) (by decide) (by decide) (by decide)
  have followed : FileTree.looped.follow [] [] ["gallery", "loop", "..", "escape", "out.mp4"] [] =
      .endless ["gallery", "loop"] [[], ["..", "escape", "out.mp4"]] := by
    rw [follow_cons_free _ [] [] "gallery" _ _ (by decide) (by decide) (by decide)
      (by decide), List.nil_append, link]
    -- The link is met again while it is being followed.
    change FileTree.looped.follow [(["gallery", "loop"], none)]
      (if "loop".startsWith "/" then [] else ["gallery"]) (Path.pieces "loop") _ = _
    rw [if_neg (by decide +kernel), loop, link]
    rfl
  have left : unending ["gallery", "loop"] [[], ["..", "escape", "out.mp4"]] =
      .absolute ["gallery", "escape", "out.mp4"] := by decide +kernel
  have plain : (Path.absolute ["gallery", "escape", "out.mp4"]).IsPlain := ⟨rfl, by decide⟩
  have looked := stat_of_find (find_of_kept plain (List.cons_ne_nil _ _) .followed
    (find_looped .looped rfl rfl).1 fun _ => nofun)
  refine (FileTree.looped.resolve_eq_ok_iff ..).mpr
    (.inr ⟨["gallery", "loop"], [[], ["..", "escape", "out.mp4"]], followed, by decide, ?_,
      left.symm⟩)
  rw [looked]
  exact nofun

theorem planned_looped (engine : Engine) :
    (sample engine).plan .looped (.sample "loop/../escape/out.mp4") =
      .ok (.absolute ["gallery", "escape", "out.mp4"], .sample) := by
  have plain : (Path.absolute ["gallery", "escape", "out.mp4"]).IsPlain := ⟨rfl, by decide⟩
  have read : Path.ofString "loop/../escape/out.mp4" =
      ⟨"", ["loop", "..", "escape", "out.mp4"]⟩ := by decide
  have resolved : (sample engine).storage.resolve .looped
      (Path.ofString "loop/../escape/out.mp4") "loop/../escape/out.mp4" =
        .ok (.absolute ["gallery", "escape", "out.mp4"]) := by
    rw [read]
    exact (Storage.resolve_eq_ok_iff ..).mpr ⟨resolve_looped, by rfl⟩
  -- Looked up, the path goes on through the link, and no directory stands where it leads.
  have file : FileTree.looped.isDirectory (.absolute ["gallery", "escape", "out.mp4"]) =
      .ok false :=
    test_of_find _ (find_of_kept plain (List.cons_ne_nil _ _) .followed
      (find_looped .looped rfl rfl).1 fun _ => nofun)
  exact plan_of_destination engine .looped _ _ (reached_sample (by decide) rfl rfl)
    ((sample engine).storage.destination_of_file .looped _ _
      (((sample engine).storage.fileDestination_eq_ok_iff ..).mpr ⟨resolved, nofun, file⟩))

/-- Behind a link that leads back to itself a destination is accepted that leads out of the root,
and the engine's file is moved there; without that link before it, the same destination is
refused. -/
theorem not_confined_behind_loop :
    let r := sample (.scripted ⟨[.write "new"], [], none⟩)
    let site : Site := ⟨.looped, .empty, .empty⟩
    let request : RenderRequest := .sample "loop/../escape/out.mp4"
    let destination : Path := .absolute ["gallery", "escape", "out.mp4"]
    r.plan site.tree request = .ok (destination, .sample) ∧
      ¬site.tree.Resolved destination ∧
      site.tree.find .kept destination = .ok (["out.mp4"], none) ∧
      ¬r.storage.root.names <+: ["out.mp4"] ∧
      (r.render request site).1.tree.get? ["out.mp4"] = some (.file "new") ∧
      ∃ e, r.plan site.tree (.sample "escape/out.mp4") = .error e := by
  intro r site request destination
  let output : Path := .absolute ["gallery", "escape", "out.rendering.mp4"]
  have planned : r.plan site.tree request = .ok (destination, .sample) := planned_looped r.engine
  have plain : destination.IsPlain := ⟨rfl, by decide⟩
  have plain' : output.IsPlain := ⟨rfl, by decide⟩
  obtain ⟨led, absent⟩ := find_looped .looped rfl rfl
  obtain ⟨job, order⟩ := order_sample r.engine .looped _ output planned (by decide +kernel)
  have same := destination_of_order order planned
  refine ⟨planned, ?_, led, by decide, ?_, (escapes_looped r.engine).exists_error⟩
  · intro resolved
    have free := resolved.clear ["gallery", "escape"] (by decide)
    exact absurd free (by decide)
  -- The engine writes beside the gallery, and from there the file is moved to the destination.
  let written := FileTree.looped.set ["out.rendering.mp4"] (.file "new")
  obtain ⟨free, there⟩ := find_looped written rfl rfl
  have produced : r.produced job output .looped = ⟨written, [], none⟩ := by
    have wrote : FileTree.looped.write output "new" = .ok written := by
      rw [write, find_of_kept plain' (List.cons_ne_nil _ _) .written absent
        fun _ => (Option.some_ne_none _).symm]
      rfl
    rw [produced_eq _ job _ _ plain']
    change Production.perform ⟨[.write "new"], [], none⟩ _ _ = _
    rw [Production.perform, Production.performAll, OutputAction.perform, wrote]
    rfl
  have missing : written.doesExist destination = .ok false :=
    test_of_find _ (find_of_kept plain (List.cons_ne_nil _ _) .followed free
      fun _ => (Option.some_ne_none _).symm)
  have moved : written.rename output destination =
      .ok (written.move ["out.rendering.mp4"] ["out.mp4"]) :=
    rename_of_find_kept plain' (List.cons_ne_nil _ _) plain (List.cons_ne_nil _ _) there free
      (by decide) (by decide)
  have replaced : Storage.replace written output destination =
      (written.move ["out.rendering.mp4"] ["out.mp4"], .ok ()) := by
    rw [Storage.replace, Storage.replaceSteps, missing]
    dsimp only
    rw [if_neg Bool.false_ne_true]
    dsimp only
    rw [moved]
  have announced : r.encoded job output .looped = r.announced job _ :=
    encoded_of_replace rfl _ (by rw [produced]) (by rw [produced, same, replaced])
  rw [(r.render_of_order request site rfl rfl order).1, announced]
  change (written.move ["out.rendering.mp4"] ["out.mp4"]).get? ["out.mp4"] = _
  decide

end Renderer

end Montage
