import Montage.Proofs.Render.SourceTable

/-!
# What a success warns of

The warnings of a result are made from the survey, which tells a probe that failed apart from one
that has found nothing, although both leave the source without size and sound. So the result of a
render that succeeds has one line for each source that could not be probed: of those only that some
clip long enough to show refers to, in the order of the first of these, and however many there are
and however they spell the path.
-/
namespace Montage

/-- The failures of a probe that a render puts up with: the prober's own, and those of the system,
of the runtime and of values. -/
def Failure.IsExpected (f : Failure) : Prop :=
  (∃ error, f = .coded error ∧ error.kind = .probe) ∨
    f.family? = some .io ∨ f.family? = some .runtime ∨ f.family? = some .value

theorem Failure.isTolerated_iff (f : Failure) : f.isTolerated = true ↔ f.IsExpected := by
  cases f with
  | coded error => simp [isTolerated, IsExpected, family?]
  | _ => simp [isTolerated, IsExpected, or_assoc]

/-- The names after the root can be read back from the form in which a path is shown, also where
there are none. -/
theorem Storage.names_of_relative? {s : Storage} {full : Path} {relative : String}
    (plain : full.IsPlain) (shown : s.relative? full = some relative) :
    full.names = s.root.names ++ (Path.ofString relative).names := by
  rw [relative?, Path.relativeTo?] at shown
  split at shown
  next under =>
    rw [Path.isUnder, Bool.and_eq_true] at under
    obtain ⟨rest, shape⟩ := List.isPrefixOf_iff_prefix.mp under.2
    rw [← shape, List.drop_left] at shown
    have named : ∀ name ∈ rest, Path.IsName name := fun name member =>
      plain.named name (shape ▸ List.mem_append_right _ member)
    cases shown
    rw [← shape]
    -- The root itself is shown as a dot, which has no names either.
    cases rest with
    | nil =>
      have none : (Path.ofString (Path.text ⟨"", []⟩)).names = [] := by decide
      rw [none]
    | cons name rest => rw [Path.ofString_relative _ (List.cons_ne_nil _ _) named]
  next => cases shown

theorem Storage.relative?_inj {s : Storage} {full other : Path} {relative : String}
    (plain : full.IsPlain) (plain' : other.IsPlain) (shown : s.relative? full = some relative)
    (shown' : s.relative? other = some relative) : full = other := by
  have names := (names_of_relative? plain shown).trans (names_of_relative? plain' shown').symm
  have root := plain.root_eq.trans plain'.root_eq.symm
  cases full
  cases other
  cases names
  cases root
  rfl

namespace Renderer

/-- A source whose probe fails in a way that a render puts up with. -/
def isUnprobed (r : Renderer) (full : Path) : Bool :=
  match r.prober full.text with
  | .ok _ => false
  | .error failure => failure.isTolerated

theorem isUnprobed_iff (r : Renderer) (full : Path) : r.isUnprobed full = true ↔
    ∃ failure, r.prober full.text = .error failure ∧ failure.IsExpected := by
  unfold isUnprobed
  cases r.prober full.text with
  | ok measures => simp
  | error failure => simp [Failure.isTolerated_iff]

/-- The line that a result has about a source that could not be probed. -/
def Reports (r : Renderer) (full : Path) (line : String) : Prop :=
  ∃ relative, r.storage.relative? full = some relative ∧ line = "Could not probe " ++ relative

variable {r : Renderer}

theorem Reports.line_eq {full : Path} {line line' : String} (first : r.Reports full line)
    (second : r.Reports full line') : line = line' := by
  obtain ⟨relative, shown, rfl⟩ := first
  obtain ⟨relative', shown', rfl⟩ := second
  cases shown.symm.trans shown'
  rfl

/-- A line is about one path only. -/
theorem Reports.path_eq {full other : Path} {line : String} (first : r.Reports full line)
    (second : r.Reports other line) (plain : full.IsPlain) (plain' : other.IsPlain) :
    full = other := by
  obtain ⟨relative, shown, rfl⟩ := first
  obtain ⟨relative', shown', same⟩ := second
  obtain rfl : relative = relative' := (String.append_right_inj _).mp same
  exact Storage.relative?_inj plain plain' shown shown'

/-- A survey tells a failed probe apart from one that has found nothing. -/
theorem unavailable_iff {full : Path} {finding : Finding}
    (found : (r.prober.inspect full.text).finding = .ok finding) :
    finding = .unavailable ↔ r.isUnprobed full = true := by
  unfold Prober.inspect at found
  unfold isUnprobed
  -- A probe that has an answer finds something, or fails in a way that nothing awaits.
  cases probed : r.prober full.text with
  | ok measures =>
    rw [probed, Except.mapError_eq_ok_iff] at found
    cases made : SourceInfo.told full.text measures with
    | error e =>
      rw [made] at found
      cases found
    | ok info =>
      rw [made] at found
      cases found
      refine iff_of_false ?_ Bool.false_ne_true
      intro same
      cases same
  | error failure =>
    rw [probed] at found
    dsimp only at found ⊢
    split at found
    next tolerated =>
      cases found
      exact iff_of_true rfl tolerated
    next => cases found

/-- The lines about a cache are those about the sources that could not be probed. -/
theorem probeWarnings_eq_map {sources : List Path} (plain : ∀ full ∈ sources, full.IsPlain)
    {cache : SourceCache} (keys : cache.map Prod.fst = sources.map Path.text)
    (known : ∀ entry ∈ cache, (r.prober.inspect entry.1).finding = .ok entry.2) :
    r.probeWarnings cache = (sources.filter r.isUnprobed).map fun full =>
      "Could not probe " ++ r.shownPath full := by
  induction sources generalizing cache with
  | nil =>
    rw [List.map_eq_nil_iff.mp keys]
    rfl
  | cons full rest ih =>
    obtain ⟨⟨_, finding⟩, others, rfl, rfl, keys'⟩ := List.map_eq_cons_iff.mp keys
    obtain ⟨first, later⟩ := List.forall_mem_cons.mp known
    obtain ⟨here, plain⟩ := List.forall_mem_cons.mp plain
    have told := unavailable_iff first
    have others_eq := ih plain keys' later
    unfold probeWarnings at others_eq ⊢
    rw [List.filterMap_cons, List.filter_cons, others_eq]
    -- It is the finding itself that decides, not what it says of the source.
    cases finding with
    | found info =>
      rw [if_neg]
      intro unprobed
      cases told.mpr unprobed
    | unavailable =>
      rw [if_pos (told.mp rfl)]
      dsimp only
      rw [here.ofString_text, List.map_cons]

/-- The warnings of a result, held against the sources of its request. -/
structure Warns (r : Renderer) (tree : FileTree) (request : RenderRequest) (sources : List Path)
    (warnings : List String) : Prop where
  /-- The sources are those of the clips that are long enough to show. -/
  resolved : r.resolvedSources tree request = .ok sources
  /-- There is one line for each source that could not be probed, in the order of the sources. -/
  lines : List.Forall₂ r.Reports ((distinct sources).filter r.isUnprobed) warnings
  /-- No other path is reported, be it one that has been probed or one that is not asked for. -/
  reported_iff : ∀ full line, full.IsPlain → r.Reports full line →
    (line ∈ warnings ↔ full ∈ sources ∧
      ∃ failure, r.prober full.text = .error failure ∧ failure.IsExpected)

variable {tree : FileTree} {request : RenderRequest}

/-- A resolved path lies under the root, and is shown from there. -/
theorem reports_of_resolve {path full : Path} {shown : String}
    (resolved : r.storage.resolve tree path shown = .ok full) :
    r.Reports full ("Could not probe " ++ r.shownPath full) := by
  have under := ((r.storage.resolve_eq_ok_iff tree path shown full).mp resolved).2
  refine ⟨r.shownPath full, ?_, rfl⟩
  rw [shownPath, Storage.relative?, Path.relativeTo?, if_pos under]
  rfl

/-- An ordered job warns of the sources of its request. -/
theorem warns_of_orders (rooted : r.storage.root.IsPlain) {timeline : Timeline Binary64}
    {cache : SourceCache} {job : Job} (orders : r.Orders tree request timeline cache job) :
    ∃ sources, r.Warns tree request sources job.warnings := by
  -- The sources of the plan are the keys of the cache, whose entries say what became of the probes.
  obtain ⟨sources, resolved, kept, plain⟩ := resolvedSources_of_plan rooted orders.planned
  have plain_distinct : ∀ full ∈ distinct sources, full.IsPlain := fun full member =>
    plain full ((mem_distinct full sources).mp member)
  have shown : ∀ full ∈ sources, r.Reports full ("Could not probe " ++ r.shownPath full) := by
    intro full member
    obtain ⟨clip, _, found⟩ := (Except.mem_of_mapM_eq_ok resolved).2 full member
    exact reports_of_resolve found
  have made : job.warnings = r.probeWarnings cache := by
    have compiled := orders.compiled
    rw [jobOf] at compiled
    split at compiled
    · cases compiled
    · exact (congrArg Job.warnings (Except.ok.inj compiled)).symm
  have lines : job.warnings = ((distinct sources).filter r.isUnprobed).map fun full =>
      "Could not probe " ++ r.shownPath full :=
    made.trans (probeWarnings_eq_map plain_distinct (keys_of_surveyed orders.surveyed kept plain)
      (entries_of_surveyed orders.surveyed).2)
  have unprobed (full : Path) : full ∈ (distinct sources).filter r.isUnprobed ↔
      full ∈ sources ∧ r.isUnprobed full = true := by
    rw [List.mem_filter, mem_distinct]
  refine ⟨sources, resolved, ?_, ?_⟩
  · rw [lines, List.forall₂_map_right_iff, List.forall₂_same]
    exact fun full member => shown full ((unprobed full).mp member).1
  · intro full line here reports
    rw [← isUnprobed_iff, ← unprobed, lines, List.mem_map]
    constructor
    · -- A line that is shown for one path and due to another makes them the same path.
      rintro ⟨other, member, rfl⟩
      have listed := ((unprobed other).mp member).1
      rwa [reports.path_eq (shown other listed) here (plain other listed)]
    · intro member
      exact ⟨full, member, (shown full ((unprobed full).mp member).1).line_eq reports⟩

/-- Whatever runs beside it, a render that succeeds warns of those of its sources that could not be
probed, each by a line of its own, and of nothing else. The sources are the resolved paths, at the
render's first turn, of the clips that are long enough to show. A source that was probed and found
to be without size and sound is not among them, nor is one that only clips too short to show refer
to. -/
theorem warns_after (r : Renderer) (rooted : r.storage.root.IsPlain) (site : Site)
    (requests : List RenderRequest) (schedule : List (Ticket × Task.Move)) (ticket : Ticket)
    (task : Task) (request : RenderRequest) (result : RenderResult)
    (run : ((Batch.ofRequests site requests).after r schedule).tasks[ticket]? = some task)
    (asked : requests[ticket]? = some request) (answered : task.answer? = some (.ok result))
    (success : result.success = true) :
    ∃ before, (ticket, .resume) ∉ before ∧ before ++ [(ticket, .resume)] <+: schedule ∧
      ∃ sources, r.Warns ((Batch.ofRequests site requests).after r before).site.tree request sources
        result.warnings := by
  cases Batch.stands_after site requests schedule run asked with
  | untouched absent same =>
    subst same
    cases answered
  | begun before absent turn phase arrived calls =>
    refine ⟨before, absent, turn, ?_⟩
    -- Only a task in its last two phases has an answer.
    have due : r.IsDue ((Batch.ofRequests site requests).after r before).site.tree request
        (.ok result) := by
      obtain ⟨at_phase, events, log⟩ := task
      cases at_phase with
      | trailing answer survey =>
        cases answered
        exact phase
      | finished answer =>
        cases answered
        exact phase
      | _ => cases answered
    obtain ⟨timeline, cache, job, orders, rfl⟩ := due result rfl success
    exact warns_of_orders rooted orders

end Renderer

/-- A renderer of the sample gallery that finds nothing in one of its files and cannot probe the
others. -/
def Renderer.patchy : Renderer :=
  { sample (.scripted ⟨[.write "new"], [], none⟩) with
    prober := fun path =>
      if path = "/gallery/b.mp4" then .ok ⟨.int 0, .int 0, .bool false⟩
      else .error (.foreign .value "ValueError" "no stream") }

/-- A request for three files, one of them by two spellings, and for a moment of a fourth. -/
def RenderRequest.patchy : RenderRequest where
  timeline := ⟨⟨64, 64⟩, [⟨"v1", .video,
    [.ofSpan "dotted" "./c.mp4" (Scalar.nat 0) (Scalar.nat 4) (Scalar.nat 0),
      .ofSpan "blank" "b.mp4" (Scalar.nat 0) (Scalar.nat 4) (Scalar.nat 4),
      .ofSpan "second" "a.mp4" (Scalar.nat 0) (Scalar.nat 4) (Scalar.nat 8),
      .ofSpan "plain" "c.mp4" (Scalar.nat 0) (Scalar.nat 4) (Scalar.nat 12),
      .ofSpan "brief" "d.mp4" (Scalar.nat 0) (Scalar.ratio 1 32) (Scalar.nat 16)]⟩]⟩
  destinationPath := "out.mp4"
  newName := none

/-- The timeline of that request with all paths resolved. -/
def Timeline.patchy : Timeline Binary64 :=
  RenderRequest.patchy.timeline.mapSources (Renderer.replacement
    [("./c.mp4", "/gallery/c.mp4"), ("b.mp4", "/gallery/b.mp4"), ("a.mp4", "/gallery/a.mp4"),
      ("c.mp4", "/gallery/c.mp4"), ("d.mp4", "/gallery/d.mp4")])

namespace Renderer

theorem plan_patchy :
    patchy.plan .sample .patchy = .ok (.absolute ["gallery", "out.mp4"], .patchy) := by
  let plain := sample (.scripted ⟨[.write "new"], [], none⟩)
  have resolves (name shown : String) (read : Path.ofString shown = ⟨"", [name]⟩)
      (named : Path.IsName name) (unbroken : Path.isUnfitName name = false) :
      plain.storage.resolve .sample (Path.ofString shown) shown =
        .ok (.absolute ["gallery", name]) :=
    resolve_spelled plain.engine name shown read named unbroken
  have paths : RenderRequest.patchy.timeline.sourcePaths =
      ["./c.mp4", "b.mp4", "a.mp4", "c.mp4", "d.mp4"] := by decide
  -- A plan does not depend on the prober.
  refine (plan_congr patchy plain .sample .patchy rfl).trans
    (plan_of_sources plain.engine .patchy _ rfl rfl ?_)
  change plain.resolveSources .sample RenderRequest.patchy.timeline = _
  rw [resolveSources, paths, List.mapM_cons, List.mapM_cons, List.mapM_cons, List.mapM_cons,
    List.mapM_cons,
    resolves "c.mp4" "./c.mp4" (by decide) (by decide) (by decide),
    resolves "b.mp4" "b.mp4" (by decide) (by decide) (by decide),
    resolves "a.mp4" "a.mp4" (by decide) (by decide) (by decide),
    resolves "c.mp4" "c.mp4" (by decide) (by decide) (by decide),
    resolves "d.mp4" "d.mp4" (by decide) (by decide) (by decide)]
  rfl

/-- That request is rendered, and its result warns of the two files that could not be probed. -/
theorem order_patchy : ∃ job,
    patchy.order .sample .patchy = .ok (job, .absolute ["gallery", "out.rendering.mp4"]) ∧
      job.destination = .absolute ["gallery", "out.mp4"] ∧
      job.warnings = ["Could not probe c.mp4", "Could not probe a.mp4"] := by
  -- The files are surveyed in the order in which the clips refer to them.
  let cache : SourceCache := [("/gallery/c.mp4", .unavailable),
    ("/gallery/b.mp4", .found ⟨0, 0, false, false⟩), ("/gallery/a.mp4", .unavailable)]
  have surveyed : patchy.surveyed .patchy = .ok cache := by decide +kernel
  obtain ⟨graph, compiled⟩ := CompileOutcome.exists_graph
    (compileTimeline .patchy cache patchy.compileOptions) (by decide +kernel)
  have temp : patchy.storage.tempPath (.absolute ["gallery", "out.mp4"]) =
      .ok (.absolute ["gallery", "out.rendering.mp4"]) := by decide +kernel
  have warnings : patchy.probeWarnings cache = ["Could not probe c.mp4", "Could not probe a.mp4"] :=
    by decide
  refine ⟨⟨.absolute ["gallery", "out.mp4"], patchy.probeWarnings cache, graph⟩, ?_, rfl, warnings⟩
  have ordered : patchy.jobOf (.absolute ["gallery", "out.mp4"]) .patchy cache =
      .ok ⟨.absolute ["gallery", "out.mp4"], patchy.probeWarnings cache, graph⟩ := by
    rw [jobOf, compiled]
  simp only [order, plan_patchy, surveyed, ordered, temp, bind, Except.bind, Except.mapError]
  rfl

/-- Of the four files one that was probed and one that is hardly used are not reported, and the one
that is used twice is reported once. -/
theorem warns_after_patchy :
    let site : Site := ⟨.sample, .empty, .empty⟩
    ∃ schedule task result,
      ((Batch.ofRequests site [.patchy]).after patchy schedule).tasks[0]? = some task ∧
      task.answer? = some (.ok result) ∧ result.success = true ∧
      result.warnings = ["Could not probe c.mp4", "Could not probe a.mp4"] ∧
      ∃ before sources,
        patchy.Warns ((Batch.ofRequests site [.patchy]).after patchy before).site.tree .patchy
          sources result.warnings := by
  intro site
  obtain ⟨job, order, place, warnings⟩ := order_patchy
  obtain ⟨_, _, written, moved, wrote, replaced, _⟩ := moves_sample
  have output := resolved_sample .sample (by decide) "out.rendering.mp4" (by decide)
  have produced := produced_sample job _ .sample written "new" (r := patchy) rfl output.plain wrote
  have answered := (render_of_replace (r := patchy) site rfl (fun _ => rfl) order
    (by rw [produced]) (by rw [produced, place]; exact replaced)).2
  obtain ⟨schedule, run⟩ := Batch.exists_after_settle patchy 0 site (.ofRequest .patchy)
    [.ofRequest .patchy] rfl
  have here : ((Batch.ofRequests site [.patchy]).after patchy schedule).tasks[0]? =
      some (patchy.render .patchy site).2 := by
    change ((Batch.mk site [.ofRequest .patchy]).after patchy schedule).tasks[0]? = _
    rw [run]
    rfl
  -- The two failed probes are told in the order in which the clips first name their files.
  obtain ⟨before, _, _, sources, warns⟩ := warns_after patchy ⟨rfl, by decide⟩ site
    [.patchy] schedule 0 _ .patchy _ here rfl answered rfl
  exact ⟨schedule, _, _, here, answered, rfl, warnings, before, sources, warns⟩

end Renderer

end Montage
