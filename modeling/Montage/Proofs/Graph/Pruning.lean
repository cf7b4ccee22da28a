import Montage.Proofs.Graph.Assembly

/-!
# What a compile does not look at

Clips that are too short to show and tracks without clips can be cut away, and the sources of such
clips can be forgotten or replaced: a compile comes to the same graph, the same warnings or the
same error. It goes through the clips several times, for the inputs, the canvas, the duration, the
places and the sounds, and each time it goes through those only that are left after the cut.
-/
namespace Montage

variable {α : Type} [Scalar α]

/-- The track without the clips that are too short to show. -/
def Track.pruned (minimum : α) (track : Track α) : Track α :=
  { track with clips := track.clips.filter fun clip => !decide (clip.sourceDuration ≤ minimum) }

namespace Timeline

/-- The timeline without the clips that are too short to show, and without the tracks on which no
clip is left. -/
def pruned (minimum : α) (timeline : Timeline α) : Timeline α :=
  { timeline with
    tracks := (timeline.tracks.map (·.pruned minimum)).filter fun track => !track.clips.isEmpty }

/-! ### The clips of a compile, track by track -/

theorem selected_eq_flatMap (timeline : Timeline α) (minimum : α) :
    timeline.selected minimum = timeline.tracks.flatMap fun track =>
      (track.pruned minimum).clips.map (track, ·) := by
  rw [selected, clips, List.filter_flatMap]
  congr 1
  funext track
  rw [List.filter_map]
  rfl

theorem kept_eq_flatMap (timeline : Timeline α) (minimum : α) :
    timeline.kept minimum = timeline.tracks.flatMap fun track => (track.pruned minimum).clips := by
  rw [kept, selected_eq_flatMap, List.map_flatMap]
  simp only [List.map_map, Function.comp_def, List.map_id']

/-- Whether a clip has a picture depends on the kind of its track alone. -/
theorem visual_eq_flatMap (timeline : Timeline α) (cache : SourceCache) (minimum : α) :
    timeline.visual cache minimum = timeline.tracks.flatMap fun track =>
      (track.pruned minimum).clips.filter fun clip =>
        isVisual (track.pruned minimum) clip (cache.info clip.sourcePath) := by
  rw [visual, selected_eq_flatMap, List.filter_flatMap, List.map_flatMap]
  congr 1
  funext track
  rw [List.filter_map, List.map_map]
  exact List.map_id _

omit [Scalar α] in
/-- Tracks without clips add nothing to what is gathered from all tracks. -/
theorem flatMap_filter_tracks {β : Type} (tracks : List (Track α)) (f : Track α → List β)
    (none : ∀ track, track.clips = [] → f track = []) :
    (tracks.filter fun track => !track.clips.isEmpty).flatMap f = tracks.flatMap f := by
  induction tracks with
  | nil => rfl
  | cons track rest ih =>
    rw [List.filter_cons, List.flatMap_cons, ← ih]
    split
    next some => rw [List.flatMap_cons]
    next empty =>
      have empty : track.clips = [] := by simpa using empty
      rw [none track empty, List.nil_append]

theorem kept_eq_of_pruned (timeline : Timeline α) (minimum : α) :
    timeline.kept minimum = (timeline.pruned minimum).tracks.flatMap Track.clips := by
  rw [kept_eq_flatMap, pruned, flatMap_filter_tracks _ _ fun _ empty => empty, List.flatMap_map]

theorem visual_eq_of_pruned (timeline : Timeline α) (cache : SourceCache) (minimum : α) :
    timeline.visual cache minimum = (timeline.pruned minimum).tracks.flatMap fun track =>
      track.clips.filter fun clip => isVisual track clip (cache.info clip.sourcePath) := by
  rw [visual_eq_flatMap, pruned, flatMap_filter_tracks, List.flatMap_map]
  intro track empty
  rw [empty, List.filter_nil]

/-- The sources that are left after the cut are those of the kept clips. -/
theorem mem_sourcePaths_pruned (timeline : Timeline α) (minimum : α) (path : String) :
    path ∈ (timeline.pruned minimum).sourcePaths ↔
      ∃ clip ∈ timeline.kept minimum, clip.sourcePath = path := by
  rw [kept_eq_of_pruned, sourcePaths, mem_distinct, clips, List.map_flatMap]
  simp only [List.mem_flatMap, List.map_map, List.mem_map, Function.comp_apply]
  constructor
  · rintro ⟨track, listed, clip, member, same⟩
    exact ⟨clip, ⟨track, listed, member⟩, same⟩
  · rintro ⟨clip, ⟨track, listed, member⟩, same⟩
    exact ⟨track, listed, clip, member, same⟩

end Timeline

/-! ### What a compile takes from the sources -/

section

variable {cache other : SourceCache}

theorem visual_congr (timeline : Timeline α) (minimum : α)
    (agree : ∀ clip ∈ timeline.kept minimum,
      cache.info clip.sourcePath = other.info clip.sourcePath) :
    timeline.visual cache minimum = timeline.visual other minimum := by
  rw [Timeline.visual, Timeline.visual]
  congr 1
  apply List.filter_congr
  intro entry chosen
  dsimp only
  rw [agree entry.2 (List.mem_map_of_mem chosen)]

variable {clips : List (Clip α)}
  (agree : ∀ clip ∈ clips, cache.info clip.sourcePath = other.info clip.sourcePath)

include agree

theorem Frame.canvasSize_congr (canvas : Canvas) (defaultWidth defaultHeight : Int) :
    Frame.canvasSize canvas clips cache defaultWidth defaultHeight =
      Frame.canvasSize canvas clips other defaultWidth defaultHeight := by
  have sizes : (clips.mapM fun clip => croppedSize clip (cache.info clip.sourcePath)) =
      clips.mapM fun clip => croppedSize clip (other.info clip.sourcePath) := by
    induction clips with
    | nil => rfl
    | cons clip rest ih =>
      obtain ⟨first, later⟩ := List.forall_mem_cons.mp agree
      rw [List.mapM_cons, List.mapM_cons, first, ih later]
  rw [canvasSize, canvasSize, sizes]

theorem placeClips_congr (inputs : List String) :
    placeClips cache inputs clips = placeClips other inputs clips := by
  induction clips with
  | nil => rfl
  | cons clip rest ih =>
    obtain ⟨first, later⟩ := List.forall_mem_cons.mp agree
    rw [placeClips, placeClips, first, ih later]

theorem audioSegments_congr (inputs : List String) :
    audioSegments cache inputs clips = audioSegments other inputs clips := by
  apply List.filterMap_congr
  intro clip member
  rw [agree clip member]

end

/-- A compile sees of a timeline its canvas, the kept clips and which of them have pictures, and of
the sources what is known of the kept clips'. -/
theorem compileTimeline_congr (first second : Timeline α) (cache other : SourceCache)
    (options : CompileOptions α) (canvas : first.canvas = second.canvas)
    (kept : first.kept options.minClipDuration = second.kept options.minClipDuration)
    (visual : first.visual cache options.minClipDuration =
      second.visual cache options.minClipDuration)
    (agree : ∀ clip ∈ second.kept options.minClipDuration,
      cache.info clip.sourcePath = other.info clip.sourcePath) :
    compileTimeline first cache options = compileTimeline second other options := by
  have seen : ∀ clip ∈ second.visual other options.minClipDuration,
      cache.info clip.sourcePath = other.info clip.sourcePath := fun clip member =>
    agree clip (second.mem_kept_of_mem_visual other _ clip member)
  have visual := visual.trans (visual_congr second options.minClipDuration agree)
  -- What the compile looks up is looked up of kept clips only.
  unfold compileTimeline
  unfold Timeline.kept at kept agree
  unfold Timeline.visual at visual seen
  dsimp only
  rw [canvas, kept, visual, Frame.canvasSize_congr seen, placeClips_congr seen,
    audioSegments_congr agree]

/-- Clips that are too short to show, tracks that are empty without them, and what is known of
sources that no other clip has leave no trace: what is left after the cut decides the operations,
the inputs, the outputs, the size, the duration and the warnings, or the error. -/
theorem compileTimeline_eq_of_pruned (first second : Timeline α) (cache other : SourceCache)
    (options : CompileOptions α)
    (same : first.pruned options.minClipDuration = second.pruned options.minClipDuration)
    (agree : ∀ path ∈ (first.pruned options.minClipDuration).sourcePaths,
      cache.info path = other.info path) :
    compileTimeline first cache options = compileTimeline second other options := by
  apply compileTimeline_congr
  case canvas => exact (congrArg Timeline.canvas same :)
  case kept => rw [Timeline.kept_eq_of_pruned, Timeline.kept_eq_of_pruned, same]
  case visual => rw [Timeline.visual_eq_of_pruned, Timeline.visual_eq_of_pruned, same]
  case agree =>
    intro clip member
    rw [same] at agree
    exact agree _ ((second.mem_sourcePaths_pruned _ _).mpr ⟨clip, member, rfl⟩)

/-- The overlapping clips among others that are too short, one of them on a track of its own. -/
def Timeline.cluttered : Timeline Binary64 :=
  let speck := Clip.ofSpan "speck" "noise.mp4" (Scalar.nat 0) (Scalar.ratio 1 100) (Scalar.nat 0)
  let shown := Timeline.overlapping.tracks.map fun track =>
    { track with clips := speck :: track.clips ++ [speck] }
  ⟨Timeline.overlapping.canvas, ⟨"v0", .audio, [speck]⟩ :: shown⟩

theorem compileTimeline_eq_of_pruned_cluttered :
    let minimum : Binary64 := CompileOptions.standard.minClipDuration
    Timeline.cluttered.pruned minimum = Timeline.overlapping ∧
      Timeline.overlapping.pruned minimum = Timeline.overlapping ∧
      compileTimeline Timeline.cluttered (("noise.mp4", .found ⟨8, 8, true, false⟩) ::
          SourceCache.sounding) .standard =
        compileTimeline Timeline.overlapping SourceCache.sounding .standard := by
  intro minimum
  have short : decide ((Scalar.ratio 1 100 : Binary64) ≤ minimum) = true := by decide +kernel
  have long : decide ((Scalar.nat 4 : Binary64) ≤ minimum) = false := by decide +kernel
  have cut : Timeline.cluttered.pruned minimum = Timeline.overlapping := by
    simp [Timeline.pruned, Timeline.cluttered, Timeline.overlapping, Track.pruned, Clip.ofSpan,
      short, long]
  have whole : Timeline.overlapping.pruned minimum = Timeline.overlapping := by
    simp [Timeline.pruned, Timeline.overlapping, Track.pruned, Clip.ofSpan, long]
  refine ⟨cut, whole, compileTimeline_eq_of_pruned _ _ _ _ _ (cut.trans whole.symm) ?_⟩
  change ∀ path ∈ (Timeline.cluttered.pruned minimum).sourcePaths, _
  rw [cut]
  decide

end Montage
