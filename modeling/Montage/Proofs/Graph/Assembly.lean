import Mathlib.Data.List.Forall2
import Montage.Graph.Compile
import Montage.Proofs.Attempt

/-!
# What a compiled graph is assembled from

A compile that succeeds has found a canvas and a place for every visual clip. Its operations are
the base, the chains of the placed clips, the overlays of their layers and the sound, made one
after the other from one supply of labels.
-/
namespace Montage

variable {α : Type} [Scalar α]

/-- The clips that are long enough to show, in declaration order. -/
def Timeline.kept (timeline : Timeline α) (minimum : α) : List (Clip α) :=
  (timeline.selected minimum).map (·.2)

/-- The kept clips that have a picture, in declaration order. -/
def Timeline.visual (timeline : Timeline α) (cache : SourceCache) (minimum : α) :
    List (Clip α) :=
  ((timeline.selected minimum).filter fun (track, clip) =>
    isVisual track clip (cache.info clip.sourcePath)).map (·.2)

theorem Timeline.mem_kept_of_mem_visual (timeline : Timeline α) (cache : SourceCache)
    (minimum : α) (clip : Clip α) (h : clip ∈ timeline.visual cache minimum) :
    clip ∈ timeline.kept minimum := by
  obtain ⟨pair, member, rfl⟩ := List.mem_map.mp h
  exact List.mem_map.mpr ⟨pair, (List.mem_filter.mp member).1, rfl⟩

omit [Scalar α] in
theorem mem_distinct {β : Type} [DecidableEq β] (b : β) (l : List β) : b ∈ distinct l ↔ b ∈ l := by
  induction l with
  | nil => rfl
  | cons c rest ih =>
    simp only [distinct, List.mem_cons, List.mem_filter, ih, decide_eq_true_eq]
    by_cases same : b = c <;> simp [same]

/-- A placement of a clip's own crop, at its own scale, position and time. -/
structure Placement.IsOf (placement : Placement α) (clip : Clip α) (info : SourceInfo) : Prop where
  crop : Frame.cropRect clip.crop info.width info.height = .ok placement.crop
  scaled : Frame.scaledSize placement.crop.width placement.crop.height clip.transform.scale =
    .ok (placement.scaledWidth, placement.scaledHeight)
  footprint : (placement.footprintWidth, placement.footprintHeight) =
    Frame.footprint placement.scaledWidth placement.scaledHeight clip.rotate.degrees
  x : Scalar.roundHalfUp clip.transform.x = .ok placement.x
  y : Scalar.roundHalfUp clip.transform.y = .ok placement.y
  start : placement.start = clip.timelineOffset
  stop : placement.stop = clip.timelineEnd

theorem Placement.isOf_of_ofClip {clip : Clip α} {info : SourceInfo} {placement : Placement α}
    (placed : ofClip clip info = .ok placement) : placement.IsOf clip info := by
  obtain ⟨rect, cropped, placed⟩ := Except.bind_eq_ok_iff.mp placed
  obtain ⟨sides, scaled, placed⟩ := Except.bind_eq_ok_iff.mp placed
  obtain ⟨x, left, placed⟩ := Except.bind_eq_ok_iff.mp placed
  obtain ⟨y, top, placed⟩ := Except.bind_eq_ok_iff.mp placed
  cases placed
  exact ⟨cropped, scaled, rfl, left, top, rfl, rfl⟩

/-- A clip with the place it was given, on the stream of its source. -/
structure PlacedClip.Places (cache : SourceCache) (inputs : List String) (clip : Clip α)
    (p : PlacedClip α) : Prop where
  clip_eq : p.clip = clip
  info_eq : p.info = cache.info clip.sourcePath
  placed : Placement.ofClip clip (cache.info clip.sourcePath) = .ok p.placement
  source_eq : p.source = streamRef (inputIndex inputs clip.sourcePath) "v"

theorem placeClips_places (cache : SourceCache) (inputs : List String) (clips : List (Clip α))
    (placed : List (PlacedClip α)) (h : placeClips cache inputs clips = (placed, none)) :
    List.Forall₂ (PlacedClip.Places cache inputs) clips placed := by
  -- No clip has failed, so that every clip has been placed.
  induction clips generalizing placed with
  | nil =>
    cases h
    exact .nil
  | cons clip rest ih =>
    simp only [placeClips] at h
    split at h
    · simp at h
    next placement fits =>
      simp only [Prod.mk.injEq] at h
      obtain ⟨rfl, unfailed⟩ := h
      exact .cons ⟨rfl, rfl, fits, rfl⟩ (ih _ (Prod.ext rfl unfailed))

omit [Scalar α] in
theorem Stage.forall_mem_thread {P : FilterOp α → Prop} (stages : List (Stage α))
    (each : ∀ stage ∈ stages, ∀ source output, P (stage.op source output)) (source : Label)
    (labels : Labels) : ∀ op ∈ (Stage.thread stages source labels).1.1, P op := by
  induction stages generalizing source labels with
  | nil => exact List.forall_mem_nil _
  | cons stage rest ih =>
    refine List.forall_mem_cons.mpr ⟨each stage List.mem_cons_self _ _, ?_⟩
    exact ih (fun s member => each s (List.mem_cons_of_mem _ member)) _ _

/-- The stages of a chain, the one for color and the one for the turn as far as they are there. -/
theorem Clip.forall_mem_stages (clip : Clip α) (info : SourceInfo) (placement : Placement α)
    {P : Stage α → Prop}
    (crop : P ⟨"crop", fun source output => .crop source output placement.crop⟩)
    (trim : P ⟨"trim", fun source output =>
      .trim source output clip.sourceIn clip.sourceDuration clip.timelineOffset
        (info.isImage || clip.kind = .image)⟩)
    (color : P ⟨"color", fun source output =>
      .adjustColor source output (clip.colorFilters.contrast / Scalar.nat 100)
        (clip.colorFilters.saturation / Scalar.nat 100) clip.colorFilters.gamma
        (clip.colorFilters.brightness / Scalar.nat 100)⟩)
    (scale : P ⟨"scale", fun source output =>
      .scale source output placement.scaledWidth placement.scaledHeight⟩)
    (turn : P ⟨"rot", fun source output =>
      .rotateFlip source output clip.rotate.degrees clip.flipH clip.flipV⟩) :
    ∀ stage ∈ clip.stages info placement, P stage := by
  intro stage member
  simp only [stages, List.mem_append, List.mem_cons, List.not_mem_nil, or_false] at member
  -- Two of the five stages may be left out.
  rcases member with (((rfl | rfl) | colored) | rfl) | turned
  · exact crop
  · exact trim
  · simp only [colorStages] at colored
    split at colored
    · simp at colored
    · rw [List.mem_singleton.mp colored]
      exact color
  · exact scale
  · simp only [turnStages] at turned
    split at turned
    · rw [List.mem_singleton.mp turned]
      exact turn
    · simp at turned

/-- A graph in its parts, each made with the labels that the one before it has left. -/
theorem graphOps_parts (width height fps : Int) (duration : α) (placed : List (PlacedClip α))
    (segments : List (AudioSegment α)) (labels : Labels) :
    ∃ (base : FilterOp α) (chains overlays sound : List (FilterOp α)) (layers : List (Layer α))
      (video : Label) (audio : Option Label) (l₁ l₂ l₃ l₄ : Labels),
      baseLayer width height fps duration labels = (base, l₁) ∧
      PlacedClip.layers placed l₁ = ((chains, layers), l₂) ∧
      Layer.composite layers base.output l₂ = ((overlays, video), l₃) ∧
      AudioSegment.mix segments l₃ = ((sound, audio), l₄) ∧
      graphOps width height fps duration placed segments labels =
        ((base :: chains ++ overlays ++ sound, video, audio), l₄) :=
  ⟨_, _, _, _, _, _, _, _, _, _, _, rfl, rfl, rfl, rfl, rfl⟩

/-- The parts of a compiled graph. -/
structure CompiledGraph.Assembled (timeline : Timeline α) (cache : SourceCache)
    (options : CompileOptions α) (g : CompiledGraph α) (placed : List (PlacedClip α)) :
    Prop where
  inputs_eq : g.inputs =
    distinct ((timeline.kept options.minClipDuration).map (·.sourcePath))
  canvas : Frame.canvasSize timeline.canvas (timeline.visual cache options.minClipDuration) cache
    options.defaultWidth options.defaultHeight = .ok (g.width, g.height)
  duration_eq : g.duration = compositionDuration (timeline.kept options.minClipDuration)
  places : List.Forall₂ (PlacedClip.Places cache g.inputs)
    (timeline.visual cache options.minClipDuration) placed
  ops_eq : (g.ops, g.video, g.audio) =
    (graphOps g.width g.height options.fps g.duration placed
      (audioSegments cache g.inputs (timeline.kept options.minClipDuration)) Labels.none).1

/-- A graph with the warnings on the way to it, each about a placed clip. -/
theorem compileTimeline_warned (timeline : Timeline α) (cache : SourceCache)
    (options : CompileOptions α) (g : CompiledGraph α)
    (h : (compileTimeline timeline cache options).graph = .ok g) :
    ∃ placed, g.Assembled timeline cache options placed ∧
      (compileTimeline timeline cache options).warnings =
        placed.filterMap (·.offCanvas? g.width g.height) := by
  generalize found : compileTimeline timeline cache options = outcome at h ⊢
  -- Each way out before the last is an error.
  unfold compileTimeline at found
  dsimp only at found
  split at found
  · subst found
    cases h
  · split at found
    · subst found
      cases h
    next width height canvas =>
      split at found
      · subst found
        cases h
      next unfailed =>
        subst found
        cases h
        exact ⟨_, ⟨rfl, canvas, rfl, placeClips_places _ _ _ _ (Prod.ext rfl unfailed), rfl⟩, rfl⟩

theorem compileTimeline_assembled (timeline : Timeline α) (cache : SourceCache)
    (options : CompileOptions α) (g : CompiledGraph α)
    (h : (compileTimeline timeline cache options).graph = .ok g) :
    ∃ placed, g.Assembled timeline cache options placed := by
  obtain ⟨placed, assembled, _⟩ := compileTimeline_warned timeline cache options g h
  exact ⟨placed, assembled⟩

namespace CompiledGraph.Assembled

variable {timeline : Timeline α} {cache : SourceCache} {options : CompileOptions α}
  {g : CompiledGraph α} {placed : List (PlacedClip α)}

theorem mem_inputs (h : g.Assembled timeline cache options placed) (clip : Clip α)
    (kept : clip ∈ timeline.kept options.minClipDuration) : clip.sourcePath ∈ g.inputs := by
  rw [h.inputs_eq, mem_distinct]
  exact List.mem_map_of_mem kept

theorem ops_ne_nil (h : g.Assembled timeline cache options placed) : g.ops ≠ [] := by
  have ops := congrArg Prod.fst h.ops_eq
  dsimp only at ops
  rw [ops]
  exact List.cons_ne_nil _ _

end CompiledGraph.Assembled

omit [Scalar α] in
theorem CompileOutcome.exists_graph (outcome : CompileOutcome α) (h : outcome.graph.isOk = true) :
    ∃ g, outcome.graph = .ok g := by
  cases found : outcome.graph with
  | ok g => exact ⟨g, rfl⟩
  | error e =>
    rw [found] at h
    cases h

/-- A span of a source that shows its whole picture as it is. -/
def Clip.ofSpan (id path : String) (sourceIn duration offset : α) : Clip α :=
  ⟨id, path, .video, sourceIn, duration, offset, .full, .still, .upright, false, false, .neutral,
    Scalar.nat 100⟩

/-- A cache that knows one file with sound. -/
def SourceCache.sounding : SourceCache := [("a.mp4", .found ⟨64, 48, true, false⟩)]

/-- Two clips of one source, the second of which begins while the first runs and is turned. -/
def Timeline.overlapping : Timeline Binary64 :=
  let first := Clip.ofSpan "under" "a.mp4" (Scalar.nat 0) (Scalar.nat 4) (Scalar.nat 0)
  let second := Clip.ofSpan "over" "a.mp4" (Scalar.nat 1) (Scalar.nat 4) (Scalar.nat 2)
  ⟨⟨64, 64⟩, [⟨"v1", .video, [first]⟩, ⟨"v2", .video, [{ second with rotate := .quarter }]⟩]⟩

end Montage
