import Montage.Proofs.Graph.OffCanvas
import Montage.Proofs.Graph.Compiling
import Montage.Proofs.Graph.Pruning
import Montage.Proofs.Number.Order

/-!
# The base spans the composition

The end of a clip is computed for the duration of the base, for the overlay of its picture and for
the trim of its sound, and these are about different clips: a kept clip may have neither a picture
nor a sound. Where the times of the kept clips are finite, the base lasts until the last of them
ends, so no picture and no sound goes on beyond it; and the order of the tracks and of the clips
within them does not matter to its duration.
-/
namespace Montage

/-- When the picture or the sound that an operation adds to the others ends. -/
def FilterOp.stop? : FilterOp Binary64 → Option Binary64
  | .overlay _ _ _ _ _ _ stop => some stop
  | .audioTrim _ _ _ duration delay _ => some (delay + duration)
  | _ => none

/-- A clip that begins at a number and lasts for a number of seconds. -/
structure Clip.IsTimed (clip : Clip Binary64) : Prop where
  offset : clip.timelineOffset.isFinite = true
  duration : clip.sourceDuration.isFinite = true

theorem Clip.IsTimed.timelineEnd {clip : Clip Binary64} (h : clip.IsTimed) :
    clip.timelineEnd ≠ .nan :=
  Binary64.add_ne_nan h.offset h.duration

/-- Of several clips, the composition lasts as long as the last to end. -/
theorem compositionDuration_spec {clips : List (Clip Binary64)} (some : clips ≠ [])
    (timed : ∀ clip ∈ clips, clip.IsTimed) :
    (∃ clip ∈ clips, compositionDuration clips = clip.timelineEnd) ∧
      ∀ clip ∈ clips, clip.timelineEnd ≤ compositionDuration clips := by
  cases clips with
  | nil => exact absurd rfl some
  | cons clip rest =>
    obtain ⟨member, greatest⟩ := Binary64.foldl_larger_spec clip.timelineEnd
      (rest.map Clip.timelineEnd) (by
        rw [← List.map_cons, List.forall_mem_map]
        exact fun other listed => (timed other listed).timelineEnd)
    rw [List.foldl_map, ← List.map_cons] at member greatest
    obtain ⟨last, listed, eq⟩ := List.mem_map.mp member
    exact ⟨⟨last, listed, eq.symm⟩, List.forall_mem_map.mp greatest⟩

/-- The end of a sound is that of its clip. -/
theorem AudioSegment.stop_of_mem {cache : SourceCache} {inputs : List String}
    {clips : List (Clip Binary64)} {s : AudioSegment Binary64}
    (member : s ∈ audioSegments cache inputs clips) :
    ∃ clip ∈ clips, s.stop = clip.timelineEnd := by
  obtain ⟨clip, listed, found⟩ := List.mem_filterMap.mp member
  unfold ofClip? at found
  split at found
  · cases found
    exact ⟨clip, listed, rfl⟩
  · cases found

theorem AudioSegment.stop?_of_mem_trims (segments : List (AudioSegment Binary64))
    (labels : Labels) :
    ∀ op ∈ (AudioSegment.trims segments labels).1, ∃ s ∈ segments, op.stop? = some s.stop := by
  induction segments generalizing labels with
  | nil => exact List.forall_mem_nil _
  | cons s rest ih =>
    refine List.forall_mem_cons.mpr ⟨⟨s, List.mem_cons_self, rfl⟩, ?_⟩
    intro op member
    obtain ⟨s', listed, stop⟩ := ih (labels.advance "aseg") op member
    exact ⟨s', List.mem_cons_of_mem s listed, stop⟩

/-- An operation that ends belongs to the overlays or to the trims. -/
theorem FilterOp.part_of_stop? {op : FilterOp Binary64} {stop : Binary64}
    (h : op.stop? = some stop) : op.kind.part = .overlays ∨ op.kind.part = .trims := by
  cases op with
  | overlay => exact .inl rfl
  | audioTrim => exact .inr rfl
  | _ => cases h

theorem CompiledGraph.mem_part {α : Type} {g : CompiledGraph α} {op : FilterOp α}
    {part : GraphPart} (member : op ∈ g.ops) (belongs : op.kind.part = part) :
    op ∈ g.part part :=
  List.mem_filter.mpr ⟨member, decide_eq_true belongs⟩

/-- Every picture and every sound ends when some kept clip does. -/
theorem CompiledGraph.Assembled.exists_of_stop? {timeline : Timeline Binary64}
    {cache : SourceCache} {options : CompileOptions Binary64} {g : CompiledGraph Binary64}
    {placed : List (PlacedClip Binary64)} (h : g.Assembled timeline cache options placed)
    {op : FilterOp Binary64} (member : op ∈ g.ops) {stop : Binary64}
    (ends : op.stop? = some stop) :
    ∃ clip ∈ timeline.kept options.minClipDuration, stop = clip.timelineEnd := by
  rcases FilterOp.part_of_stop? ends with overlay | trim
  · obtain ⟨strips, _, overlays, laid, _⟩ := h.exists_strips
    have listed := mem_part member overlay
    rw [overlays] at listed
    obtain ⟨strip, found, rfl⟩ := List.mem_map.mp listed
    cases ends
    -- Strips and visual clips stand side by side, so they end at the same times.
    have stops : strips.map Strip.stop =
        (timeline.visual cache options.minClipDuration).map Clip.timelineEnd := by
      rw [← List.forall₂_eq_eq_eq, List.forall₂_map_left_iff, List.forall₂_map_right_iff]
      exact laid.flip.imp fun _ _ own => own.stop
    obtain ⟨clip, visual, stop⟩ := List.mem_map.mp (stops ▸ List.mem_map_of_mem found)
    exact ⟨clip, timeline.mem_kept_of_mem_visual cache _ clip visual, stop.symm⟩
  · have listed := mem_part member trim
    rw [h.parted.2.trims] at listed
    obtain ⟨s, found, stop⟩ := AudioSegment.stop?_of_mem_trims _ _ op listed
    cases ends.symm.trans stop
    exact AudioSegment.stop_of_mem found

/-! ### Reordered timelines -/

section

variable {α : Type}

/-- The track with its clips in another order. -/
structure Track.Reorders (other track : Track α) : Prop where
  id : other.id = track.id
  kind : other.kind = track.kind
  clips : other.clips.Perm track.clips

/-- The timeline with its tracks in another order, and the clips within each of them. -/
structure Timeline.Reorders (other timeline : Timeline α) : Prop where
  canvas : other.canvas = timeline.canvas
  tracks : ∃ tracks, List.Forall₂ Track.Reorders other.tracks tracks ∧
    tracks.Perm timeline.tracks

namespace Timeline.Reorders

/-- What is gathered from the tracks, from each without regard to the order of its clips. -/
theorem flatMap_perm {β : Type} {other timeline : Timeline α} (h : other.Reorders timeline)
    (f : Track α → List β)
    (each : ∀ {other track : Track α}, other.Reorders track → (f other).Perm (f track)) :
    (other.tracks.flatMap f).Perm (timeline.tracks.flatMap f) := by
  obtain ⟨tracks, within, across⟩ := h.tracks
  refine List.Perm.trans ?_ (across.flatMap_right f)
  clear across
  generalize other.tracks = others at within
  induction within with
  | nil => exact .refl []
  | cons first _ ih =>
    rw [List.flatMap_cons, List.flatMap_cons]
    exact (each first).append ih

variable [Scalar α] {other timeline : Timeline α}

theorem kept_perm (h : other.Reorders timeline) (minimum : α) :
    (other.kept minimum).Perm (timeline.kept minimum) := by
  rw [kept_eq_flatMap, kept_eq_flatMap]
  exact h.flatMap_perm _ fun track => track.clips.filter _

theorem visual_perm (h : other.Reorders timeline) (cache : SourceCache) (minimum : α) :
    (other.visual cache minimum).Perm (timeline.visual cache minimum) := by
  rw [visual_eq_flatMap, visual_eq_flatMap]
  refine h.flatMap_perm _ fun {first second} track => ?_
  have same : isVisual (first.pruned minimum) = isVisual (second.pruned minimum) := by
    funext clip info
    unfold isVisual Track.pruned
    rw [track.kind]
  rw [same]
  exact (track.clips.filter _).filter _

end Timeline.Reorders

end

theorem compositionDuration_spec_of_perm {clips others : List (Clip Binary64)}
    (perm : others.Perm clips) (some : clips ≠ []) (timed : ∀ clip ∈ clips, clip.IsTimed) :
    (∃ clip ∈ clips, compositionDuration others = clip.timelineEnd) ∧
      ∀ clip ∈ clips, clip.timelineEnd ≤ compositionDuration others := by
  have others_some : others ≠ [] := by
    intro none
    subst none
    exact some (List.nil_perm.mp perm)
  obtain ⟨⟨last, listed, lasts⟩, greatest⟩ := compositionDuration_spec others_some
    fun clip member => timed clip (perm.mem_iff.mp member)
  exact ⟨⟨last, perm.mem_iff.mp listed, lasts⟩,
    fun clip member => greatest clip (perm.mem_iff.mpr member)⟩

/-- The composition lasts as long in another order, but for the sign of a zero. -/
theorem compositionDuration_of_perm {clips others : List (Clip Binary64)} (perm : others.Perm clips)
    (some : clips ≠ []) (timed : ∀ clip ∈ clips, clip.IsTimed) :
    Scalar.equal (compositionDuration others) (compositionDuration clips) = true := by
  obtain ⟨⟨last, listed, lasts⟩, greatest⟩ := compositionDuration_spec some timed
  obtain ⟨⟨last', listed', lasts'⟩, greatest'⟩ := compositionDuration_spec_of_perm perm some timed
  rw [Scalar.equal, Bool.and_eq_true, decide_eq_true_iff, decide_eq_true_iff]
  constructor
  · rw [lasts']
    exact greatest last' listed'
  · rw [lasts]
    exact greatest' last listed

/-- A clip that lasts for more than nothing does not end at a negative zero. -/
theorem Clip.IsTimed.timelineEnd_ne_negative_zero {clip : Clip Binary64} (h : clip.IsTimed)
    (long : Scalar.nat 0 < clip.sourceDuration) : clip.timelineEnd ≠ Binary64.zero true :=
  Binary64.add_ne_negative_zero h.offset h.duration long

/-- Among clips that last for more than nothing no zero has a sign. -/
theorem compositionDuration_eq_of_perm {clips others : List (Clip Binary64)}
    (perm : others.Perm clips) (some : clips ≠ []) (timed : ∀ clip ∈ clips, clip.IsTimed)
    (long : ∀ clip ∈ clips, Scalar.nat 0 < clip.sourceDuration) :
    compositionDuration others = compositionDuration clips := by
  have equal := compositionDuration_of_perm perm some timed
  obtain ⟨⟨last, listed, lasts⟩, _⟩ := compositionDuration_spec some timed
  obtain ⟨⟨last', listed', lasts'⟩, _⟩ := compositionDuration_spec_of_perm perm some timed
  rw [lasts, lasts'] at equal ⊢
  obtain ⟨a, here⟩ := Binary64.exists_place (timed last listed).timelineEnd
  rw [Binary64.equal_iff_place here] at equal
  rcases Binary64.eq_or_zero_of_place equal here with same | ⟨_, s, t, first, second⟩
  · exact same
  · -- Both are zeros, and neither of them a negative one.
    have plus := (timed last' listed').timelineEnd_ne_negative_zero (long last' listed')
    have plus' := (timed last listed).timelineEnd_ne_negative_zero (long last listed)
    cases s
    · cases t
      · rw [first, second]
      · exact absurd second plus'
    · exact absurd first plus

theorem Timeline.sourceDuration_pos {timeline : Timeline Binary64} {minimum : Binary64}
    (least : Scalar.nat 0 ≤ minimum) {clip : Clip Binary64} (kept : clip ∈ timeline.kept minimum)
    (timed : clip.IsTimed) : Scalar.nat 0 < clip.sourceDuration := by
  obtain ⟨pair, selected, rfl⟩ := List.mem_map.mp kept
  have longer := (List.mem_filter.mp selected).2
  obtain ⟨zero, m, origin, bound, above⟩ := Binary64.exists_place_of_le least
  obtain ⟨d, duration⟩ := Binary64.exists_place (x := pair.2.sourceDuration) (by
    intro nan
    have finite := timed.duration
    rw [nan] at finite
    cases finite)
  rw [Bool.not_eq_true', decide_eq_false_iff_not, Binary64.le_iff_place duration bound] at longer
  rw [Binary64.lt_iff_place origin duration]
  omega

/-- A graph whose base lasts exactly as long as there is something to show or to hear. -/
structure CompiledGraph.IsSpanned (timeline : Timeline Binary64)
    (options : CompileOptions Binary64) (g : CompiledGraph Binary64) : Prop where
  base : g.part .base = [.baseOf g.width g.height options.fps g.duration]
  stops : ∀ op ∈ g.ops, ∀ stop, op.stop? = some stop → stop ≤ g.duration
  reached : ∃ clip ∈ timeline.kept options.minClipDuration, g.duration = clip.timelineEnd

/-- The base of a compiled graph lasts until the last kept clip ends, and no less or more in any
order of the tracks and of the clips within them. In another order the duration is the same
double, unless clips of no length at all are kept: these could end at a negative zero. -/
theorem base_spans_composition (timeline : Timeline Binary64) (cache : SourceCache)
    (options : CompileOptions Binary64) (g : CompiledGraph Binary64)
    (compiled : (compileTimeline timeline cache options).graph = .ok g)
    (timed : ∀ clip ∈ timeline.kept options.minClipDuration, clip.IsTimed) :
    g.IsSpanned timeline options ∧
      ∀ other, Timeline.Reorders other timeline →
        ∃ g', (compileTimeline other cache options).graph = .ok g' ∧
          Scalar.equal g'.duration g.duration = true ∧
          (Scalar.nat 0 ≤ options.minClipDuration → g'.duration = g.duration) := by
  obtain ⟨full, placeable⟩ := (graph_eq_ok_iff timeline cache options).mp ⟨g, compiled⟩
  obtain ⟨placed, assembled⟩ := compileTimeline_assembled timeline cache options g compiled
  obtain ⟨reached, greatest⟩ := compositionDuration_spec full timed
  rw [← assembled.duration_eq] at reached greatest
  refine ⟨⟨assembled.parted.1.base, ?_, reached⟩, ?_⟩
  · intro op member stop ends
    obtain ⟨clip, kept, rfl⟩ := assembled.exists_of_stop? member ends
    exact greatest clip kept
  · intro other reorders
    have perm := reorders.kept_perm options.minClipDuration
    -- Whether a timeline compiles is a matter of which clips it has.
    obtain ⟨g', compiled'⟩ := (graph_eq_ok_iff other cache options).mpr
      ⟨fun none => full (List.nil_perm.mp (none ▸ perm)), fun clip visual =>
        placeable clip ((reorders.visual_perm cache options.minClipDuration).mem_iff.mp visual)⟩
    obtain ⟨_, assembled'⟩ := compileTimeline_assembled other cache options g' compiled'
    refine ⟨g', compiled', ?_⟩
    rw [assembled.duration_eq, assembled'.duration_eq]
    refine ⟨compositionDuration_of_perm perm full timed, fun least => ?_⟩
    exact compositionDuration_eq_of_perm perm full timed fun clip kept =>
      timeline.sourceDuration_pos least kept (timed clip kept)

/-- A clip with picture and sound for four seconds, and one without either that ends later. -/
def Timeline.trailing : Timeline Binary64 :=
  ⟨⟨64, 64⟩, [
    ⟨"v1", .video, [Clip.ofSpan "shown" "a.mp4" (Scalar.nat 0) (Scalar.nat 4) (Scalar.nat 0)]⟩,
    ⟨"a1", .audio, [Clip.ofSpan "silent" "b.wav" (Scalar.nat 0) (Scalar.nat 4) (Scalar.nat 3)]⟩]⟩

/-- The same tracks from the last to the first. -/
def Timeline.leading : Timeline Binary64 := { trailing with tracks := trailing.tracks.reverse }

theorem Timeline.reorders_leading : leading.Reorders trailing := by
  refine ⟨rfl, leading.tracks, ?_, List.reverse_perm _⟩
  exact List.forall₂_same.mpr fun track _ => ⟨rfl, rfl, .refl _⟩

/-- Either way the base lasts until the clip that nobody sees or hears is over. -/
theorem base_spans_composition_trailing :
    ∃ g, (compileTimeline Timeline.trailing SourceCache.sounding .standard).graph = .ok g ∧
      g.IsSpanned Timeline.trailing .standard ∧ g.duration = Scalar.nat 7 ∧
      ∃ g', (compileTimeline Timeline.leading SourceCache.sounding .standard).graph = .ok g' ∧
        g'.duration = g.duration := by
  obtain ⟨g, compiled⟩ := CompileOutcome.exists_graph
    (compileTimeline Timeline.trailing SourceCache.sounding .standard) (by decide +kernel)
  have finite : ∀ clip ∈ Timeline.trailing.kept CompileOptions.standard.minClipDuration,
      clip.timelineOffset.isFinite = true ∧ clip.sourceDuration.isFinite = true := by
    decide +kernel
  obtain ⟨spanned, reordered⟩ := base_spans_composition Timeline.trailing SourceCache.sounding
    .standard g compiled fun clip kept => ⟨(finite clip kept).1, (finite clip kept).2⟩
  obtain ⟨g', compiled', _, same⟩ := reordered Timeline.leading Timeline.reorders_leading
  -- The last clip ends after seven seconds.
  have lasts : ((compileTimeline Timeline.trailing SourceCache.sounding .standard).graph.map
      CompiledGraph.duration) = .ok (Scalar.nat 7) := by decide +kernel
  rw [compiled] at lasts
  exact ⟨g, compiled, spanned, Except.ok.inj lasts, g', compiled', same (by decide +kernel)⟩

end Montage
