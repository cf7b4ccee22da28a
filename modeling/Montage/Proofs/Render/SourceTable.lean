import Montage.Proofs.Graph.Inputs
import Montage.Proofs.Media.Finish
import Montage.Proofs.Render.Calls
import Montage.Proofs.Render.Confinement

/-!
# The source table of a render

The survey, the compiler and the encoder's command each make a list of the sources for themselves.
Whenever a render reaches the engine the three are the same list: the resolved paths of the clips
that are long enough to show, each once, in the order in which they are first referred to. So the
survey knows every source that the compiler asks for, and two clips read one input of the encoder
if and only if their paths lead to one file.
-/
namespace Montage

/-! ### What a survey finds -/

namespace Renderer

variable {r : Renderer}

theorem surveyed_eq_ok {timeline : Timeline Binary64} {cache : SourceCache}
    (found : r.surveyed timeline = .ok cache) :
    ((distinct (r.sources timeline)).mapM fun path =>
      (r.prober.inspect path).finding.map (path, ·)) = .ok cache := by
  obtain ⟨follows, serves, decided⟩ := Survey.follows_settled r.prober (r.sources timeline)
    r.settings.probeMaxWorkers
  exact follows.mapM_eq_of_cache serves (Survey.remaining_of_isDecided decided found) found

/-- A cache has an entry for each source, in their order, with what the prober says of it. -/
theorem entries_of_surveyed {timeline : Timeline Binary64} {cache : SourceCache}
    (found : r.surveyed timeline = .ok cache) :
    cache.map Prod.fst = distinct (r.sources timeline) ∧
      ∀ entry ∈ cache, (r.prober.inspect entry.1).finding = .ok entry.2 :=
  Prober.entries_of_mapM (surveyed_eq_ok found)

end Renderer

/-! ### One table -/

theorem Path.IsPlain.text_inj {full other : Path} (plain : full.IsPlain) (plain' : other.IsPlain)
    (same : full.text = other.text) : full = other := by
  rw [← plain.ofString_text, same, plain'.ofString_text]

namespace Renderer

/-- The resolved source paths of the clips that are long enough to show, in declaration order. -/
def resolvedSources (r : Renderer) (tree : FileTree) (request : RenderRequest) :
    Except StorageError (List Path) :=
  (request.timeline.kept r.settings.minClipDuration).mapM fun clip =>
    r.storage.resolve tree (Path.ofString clip.sourcePath) clip.sourcePath

variable {r : Renderer} {tree : FileTree} {request : RenderRequest}

/-- Each clip of a planned timeline has its own source path resolved. -/
theorem resolvedSources_of_plan (rooted : r.storage.root.IsPlain) {destination : Path}
    {timeline : Timeline Binary64} (plan : r.plan tree request = .ok (destination, timeline)) :
    ∃ sources, r.resolvedSources tree request = .ok sources ∧
      (timeline.kept r.settings.minClipDuration).map (·.sourcePath) = sources.map Path.text ∧
      ∀ full ∈ sources, full.IsPlain := by
  obtain ⟨replaced, rfl, resolved⟩ := exists_resolved_of_plan destination timeline plan
  have listed : ∀ clip ∈ request.timeline.kept r.settings.minClipDuration,
      clip.sourcePath ∈ request.timeline.sourcePaths := by
    intro clip member
    obtain ⟨entry, chosen, rfl⟩ := List.mem_map.mp member
    exact Timeline.mem_sourcePaths.mpr ⟨entry, List.mem_of_mem_filter chosen, rfl⟩
  -- A plan has resolved every source, so those of the kept clips have been resolved.
  obtain ⟨sources, found⟩ := Except.exists_mapM_eq_ok_iff.mpr fun clip member => by
    obtain ⟨full, ok, _⟩ := resolved clip.sourcePath (listed clip member)
    exact ⟨full, ok⟩
  refine ⟨sources, found, ?_, ?_⟩
  · have own : (request.timeline.mapSources replaced).kept r.settings.minClipDuration =
        (request.timeline.kept r.settings.minClipDuration).map (Clip.withSource replaced) := by
      rw [Timeline.kept, Timeline.selected_mapSources, List.map_map, Timeline.kept, List.map_map]
      rfl
    rw [own, List.map_map]
    refine Except.map_eq_map_of_mapM_eq_ok found fun clip member full ok => ?_
    obtain ⟨full', ok', same⟩ := resolved clip.sourcePath (listed clip member)
    cases ok.symm.trans ok'
    exact same
  · intro full member
    obtain ⟨clip, _, ok⟩ := (Except.mem_of_mapM_eq_ok found).2 full member
    exact r.storage.isPlain_of_resolve tree _ _ full rooted (.ofString _) ok

/-- Resolved paths have different texts, so a table can be made of paths as well as of texts. -/
theorem distinct_map_text {sources : List Path} (plain : ∀ full ∈ sources, full.IsPlain) :
    distinct (sources.map Path.text) = (distinct sources).map Path.text :=
  distinct_map Path.text sources fun full full_mem other other_mem same =>
    (plain full full_mem).text_inj (plain other other_mem) same

/-- The keys of a surveyed cache are the resolved sources. -/
theorem keys_of_surveyed {timeline : Timeline Binary64} {cache : SourceCache}
    {sources : List Path} (found : r.surveyed timeline = .ok cache)
    (kept : (timeline.kept r.settings.minClipDuration).map (·.sourcePath) = sources.map Path.text)
    (plain : ∀ full ∈ sources, full.IsPlain) :
    cache.map Prod.fst = (distinct sources).map Path.text := by
  rw [(entries_of_surveyed found).1, ← distinct_map_text plain, ← kept, Timeline.kept,
    List.map_map]
  rfl

end Renderer

/-- An engine that works for a turn and writes nothing. -/
def Engine.busy : Engine := ⟨fun _ => 1, fun _ _ => ⟨[], [], none⟩⟩

namespace Renderer

/-- Any spelling of a name in the sample gallery is resolved to that name. -/
theorem resolve_spelled (engine : Engine) (name shown : String)
    (read : Path.ofString shown = ⟨"", [name]⟩) (named : Path.IsName name)
    (unbroken : Path.isUnfitName name = false) :
    (sample engine).storage.resolve .sample (Path.ofString shown) shown =
      .ok (.absolute ["gallery", name]) := by
  have linkless : FileTree.sample.IsLinkless := by decide
  rw [read]
  exact resolve_sample engine .sample name shown
    (FileTree.reached_sample named (linkless.linkAt?_eq_none _) (linkless.linkAt?_eq_none _))
    unbroken

/-- A request for the file of the sample gallery that may be replaced is planned for that file. -/
theorem plan_of_sources (engine : Engine) (request : RenderRequest)
    (resolved : List (String × String)) (path : request.destinationPath = "out.mp4")
    (kept : request.newName = none)
    (sources : (sample engine).resolveSources .sample request.timeline = .ok resolved) :
    (sample engine).plan .sample request = .ok (.absolute ["gallery", "out.mp4"],
      request.timeline.mapSources (replacement resolved)) := by
  have linkless : FileTree.sample.IsLinkless := by decide
  have destination := destination_sample engine .sample "out.mp4"
    (linkless.reached_sample (by decide)) (some (.file "old")) (by decide) nofun
  rw [plan, path, kept, destination, sources]
  rfl

end Renderer

end Montage
