import Montage.Graph.Text
import Montage.Proofs.Attempt
import Montage.Proofs.Graph.Assembly
import Montage.Proofs.Number.Finite

/-!
# Timelines that compile

A compile rounds positions, shares of the source frame and scaled sides to whole pixels, and the
text of its graph rounds the delays of sounds to whole milliseconds. Each of these needs a finite
number. Nothing else can fail: not the canvas, which rounds what the clips' places round too, and
no other operation of the graph. So a timeline with a clip that is long enough to show has a graph
with a text exactly when all these numbers are finite.
-/
namespace Montage

/-- A percentage that comes to a finite number of pixels. -/
def Percent.IsMeasured (p : Percent Binary64) (pixels : Int) : Prop :=
  match p with
  | .whole n => (Scalar.ratio (n * pixels) 100 : Binary64).isFinite = true
  | .measured x =>
    (Scalar.ratio pixels 1 : Binary64).isFinite = true ∧
      (x * Scalar.ratio pixels 1).isFinite = true

/-- A side that a factor scales to a finite number of pixels. -/
def Frame.IsScalable (side : Int) (scale : Binary64) : Prop :=
  (Scalar.ratio side 1 : Binary64).isFinite = true ∧
    (Scalar.ratio side 1 * scale).isFinite = true

/-- A clip whose position, crop and scaled sides are finite numbers of pixels. -/
structure Clip.IsPlaceable (clip : Clip Binary64) (info : SourceInfo) : Prop where
  left : clip.crop.x.IsMeasured info.width
  wide : clip.crop.w.IsMeasured info.width
  top : clip.crop.y.IsMeasured info.height
  high : clip.crop.h.IsMeasured info.height
  scaled : ∀ rect, Frame.cropRect clip.crop info.width info.height = .ok rect →
    Frame.IsScalable rect.width clip.transform.scale ∧
      Frame.IsScalable rect.height clip.transform.scale
  x : clip.transform.x.isFinite = true
  y : clip.transform.y.isFinite = true

/-- A timeline whose pictures can be placed, and whose sounds begin at a finite millisecond. -/
structure Timeline.IsMeasured (timeline : Timeline Binary64) (cache : SourceCache)
    (minimum : Binary64) : Prop where
  placed : ∀ clip ∈ timeline.visual cache minimum,
    clip.IsPlaceable (cache.info clip.sourcePath)
  delayed : ∀ clip ∈ timeline.kept minimum, (cache.info clip.sourcePath).hasAudio = true →
    (clip.timelineOffset * Scalar.nat 1000).isFinite = true

theorem Scalar.ofInt_eq_ok_iff (n : Int) (x : Binary64) :
    Scalar.ofInt n = .ok x ↔
      (Scalar.ratio n 1 : Binary64).isFinite = true ∧ Scalar.ratio n 1 = x := by
  simp only [Scalar.ofInt]
  split
  next finite => simp [show Binary64.isFinite _ = true from finite]
  next infinite => simp [show ¬Binary64.isFinite _ = true from infinite]

theorem Percent.round_share_iff (p : Percent Binary64) (pixels : Int) :
    (∃ length, p.share pixels = .ok length ∧ ∃ n, Scalar.roundHalfUp length = .ok n) ↔
      p.IsMeasured pixels := by
  simp only [Scalar.roundHalfUp_eq_ok_iff]
  cases p with
  | whole n =>
    simp only [Percent.share, Scalar.quotient, Percent.IsMeasured]
    split
    next finite => simp [show Binary64.isFinite _ = true from finite]
    next infinite => simp [show ¬Binary64.isFinite _ = true from infinite]
  | measured x =>
    simp [Percent.share, Percent.IsMeasured, Except.bind_eq_ok_iff, Scalar.ofInt_eq_ok_iff,
      Binary64.isFinite_div_hundred]

namespace Frame

theorem cropAxis_eq_ok_iff (offset size : Percent Binary64) (source : Int) :
    (∃ span, cropAxis offset size source = .ok span) ↔
      offset.IsMeasured source ∧ size.IsMeasured source := by
  simp only [cropAxis, Except.exists_bind_eq_ok_iff, ← Percent.round_share_iff]
  constructor
  · rintro ⟨x, share, start, rounded, y, share', length, rounded', _⟩
    exact ⟨⟨x, share, start, rounded⟩, ⟨y, share', length, rounded'⟩⟩
  · rintro ⟨⟨x, share, start, rounded⟩, ⟨y, share', length, rounded'⟩⟩
    exact ⟨x, share, start, rounded, y, share', length, rounded', ⟨_, rfl⟩⟩

theorem cropRect_eq_ok_iff (crop : Crop Binary64) (width height : Int) :
    (∃ rect, cropRect crop width height = .ok rect) ↔
      (crop.x.IsMeasured width ∧ crop.w.IsMeasured width) ∧
        crop.y.IsMeasured height ∧ crop.h.IsMeasured height := by
  simp only [cropRect, Except.exists_bind_eq_ok_iff, ← cropAxis_eq_ok_iff]
  constructor
  · rintro ⟨across, found, down, found', _⟩
    exact ⟨⟨across, found⟩, ⟨down, found'⟩⟩
  · rintro ⟨⟨across, found⟩, ⟨down, found'⟩⟩
    exact ⟨across, found, down, found', ⟨_, rfl⟩⟩

theorem scaledSide_eq_ok_iff (side : Int) (scale : Binary64) :
    (∃ length, scaledSide side scale = .ok length) ↔ IsScalable side scale := by
  simp [scaledSide, Except.exists_bind_eq_ok_iff, Scalar.ofInt_eq_ok_iff,
    Scalar.roundHalfUp_eq_ok_iff, IsScalable]

theorem scaledSize_eq_ok_iff (width height : Int) (scale : Binary64) :
    (∃ size, scaledSize width height scale = .ok size) ↔
      IsScalable width scale ∧ IsScalable height scale := by
  simp [scaledSize, Except.exists_bind_eq_ok_iff, ← scaledSide_eq_ok_iff]

/-- The canvas takes the shares of the source frame that the crop takes. -/
theorem exists_croppedSize (clip : Clip Binary64) (info : SourceInfo)
    (wide : clip.crop.w.IsMeasured info.width) (high : clip.crop.h.IsMeasured info.height) :
    ∃ size, croppedSize clip info = .ok size := by
  obtain ⟨x, share, w, rounded⟩ := (Percent.round_share_iff _ _).mpr wide
  obtain ⟨y, share', h, rounded'⟩ := (Percent.round_share_iff _ _).mpr high
  simp only [croppedSize, Except.exists_bind_eq_ok_iff]
  exact ⟨x, share, w, rounded, y, share', h, rounded', ⟨_, rfl⟩⟩

theorem exists_canvasSize (canvas : Canvas) (clips : List (Clip Binary64)) (cache : SourceCache)
    (defaultWidth defaultHeight : Int)
    (placeable : ∀ clip ∈ clips, clip.IsPlaceable (cache.info clip.sourcePath)) :
    ∃ size, canvasSize canvas clips cache defaultWidth defaultHeight = .ok size := by
  unfold canvasSize
  split
  · exact ⟨_, rfl⟩
  · refine Except.exists_bind_eq_ok_iff.mpr ?_
    obtain ⟨sizes, found⟩ := Except.exists_mapM_eq_ok_iff.mpr fun clip member =>
      exists_croppedSize clip (cache.info clip.sourcePath) (placeable clip member).wide
        (placeable clip member).high
    refine ⟨sizes, found, ?_⟩
    dsimp only
    -- Where there is no picture the canvas has its default size.
    split <;> exact ⟨_, rfl⟩

end Frame

theorem Placement.ofClip_eq_ok_iff (clip : Clip Binary64) (info : SourceInfo) :
    (∃ placement, Placement.ofClip clip info = .ok placement) ↔ clip.IsPlaceable info := by
  simp only [Placement.ofClip, Except.exists_bind_eq_ok_iff]
  -- The four roundings succeed one by one. The scaled size is asked for of the crop found before.
  constructor
  · rintro ⟨rect, cropped, size, scaled, x, left, y, top, _⟩
    obtain ⟨⟨cropX, cropW⟩, cropY, cropH⟩ :=
      (Frame.cropRect_eq_ok_iff _ _ _).mp ⟨rect, cropped⟩
    refine ⟨cropX, cropW, cropY, cropH, ?_, ?_, ?_⟩
    · intro other found
      rw [cropped] at found
      cases found
      exact (Frame.scaledSize_eq_ok_iff _ _ _).mp ⟨size, scaled⟩
    · exact (Scalar.roundHalfUp_eq_ok_iff _).mp ⟨x, left⟩
    · exact (Scalar.roundHalfUp_eq_ok_iff _).mp ⟨y, top⟩
  · intro h
    obtain ⟨rect, cropped⟩ :=
      (Frame.cropRect_eq_ok_iff _ _ _).mpr ⟨⟨h.left, h.wide⟩, h.top, h.high⟩
    obtain ⟨size, scaled⟩ := (Frame.scaledSize_eq_ok_iff _ _ _).mpr (h.scaled rect cropped)
    obtain ⟨x, left⟩ := (Scalar.roundHalfUp_eq_ok_iff _).mpr h.x
    obtain ⟨y, top⟩ := (Scalar.roundHalfUp_eq_ok_iff _).mpr h.y
    exact ⟨rect, cropped, size, scaled, x, left, y, top, ⟨_, rfl⟩⟩

theorem placeClips_eq_none_iff (cache : SourceCache) (inputs : List String)
    (clips : List (Clip Binary64)) :
    (placeClips cache inputs clips).2 = none ↔
      ∀ clip ∈ clips, clip.IsPlaceable (cache.info clip.sourcePath) := by
  induction clips with
  | nil => exact iff_of_true rfl (List.forall_mem_nil _)
  | cons clip rest ih =>
    rw [List.forall_mem_cons, ← ih, ← Placement.ofClip_eq_ok_iff]
    simp only [placeClips]
    cases placed : Placement.ofClip clip (cache.info clip.sourcePath) with
    | error e => simp
    | ok placement => simp

section

variable (timeline : Timeline Binary64) (cache : SourceCache) (options : CompileOptions Binary64)

theorem graph_eq_emptyTimeline_iff :
    (compileTimeline timeline cache options).graph = .error .emptyTimeline ↔
      timeline.kept options.minClipDuration = [] := by
  rw [← List.isEmpty_iff]
  unfold compileTimeline
  dsimp only
  split
  next empty => exact iff_of_true rfl empty
  next full =>
    refine iff_of_false ?_ full
    split
    · simp
    · split <;> simp

/-- A timeline with something to show has a graph exactly when every picture has a place. -/
theorem graph_eq_ok_iff :
    (∃ g, (compileTimeline timeline cache options).graph = .ok g) ↔
      timeline.kept options.minClipDuration ≠ [] ∧
        ∀ clip ∈ timeline.visual cache options.minClipDuration,
          clip.IsPlaceable (cache.info clip.sourcePath) := by
  have places := placeClips_eq_none_iff cache
    (distinct ((timeline.kept options.minClipDuration).map (·.sourcePath)))
    (timeline.visual cache options.minClipDuration)
  unfold compileTimeline
  dsimp only
  split
  next empty => exact iff_of_false nofun fun h => h.1 (List.isEmpty_iff.mp empty)
  next full =>
    split
    next e uncanvassed =>
      -- A canvas that cannot be derived rounds what some clip's place has to round too.
      refine iff_of_false nofun fun h => ?_
      obtain ⟨size, canvas⟩ := Frame.exists_canvasSize timeline.canvas _ cache
        options.defaultWidth options.defaultHeight h.2
      exact nomatch uncanvassed.symm.trans canvas
    next width height canvas =>
      split
      next e failed => exact iff_of_false nofun fun h => nomatch failed.symm.trans (places.mpr h.2)
      next unfailed =>
        exact iff_of_true ⟨_, rfl⟩ ⟨fun empty => full (List.isEmpty_iff.mpr empty),
          places.mp unfailed⟩

end

/-- An operation that has a text. -/
def FilterOp.IsSpelled (op : FilterOp Binary64) : Prop := ∃ text, op.text = .ok text

theorem FilterOp.isSpelled_iff (op : FilterOp Binary64) :
    op.IsSpelled ↔ ∃ action, op.action = .ok action := by
  simp [IsSpelled, FilterOp.text, Except.exists_bind_eq_ok_iff]

theorem GraphText.milliseconds_eq_ok_iff (delay : Binary64) :
    (∃ ms, milliseconds delay = .ok ms) ↔ (delay * Scalar.nat 1000).isFinite = true := by
  simp only [milliseconds, Except.mapError_eq_ok_iff]
  exact Binary64.toInteger_eq_ok_iff _ _

/-- A turn by quarters has a text. -/
theorem GraphText.exists_turnAndFlips (rotation : Rotation) (flipH flipV : Bool) :
    ∃ text, turnAndFlips rotation.degrees flipH flipV = .ok text := by
  cases rotation <;> exact ⟨_, rfl⟩

theorem FilterOp.isSpelled_audioTrim_iff (source output : Label)
    (start duration delay gain : Binary64) :
    (FilterOp.audioTrim source output start duration delay gain).IsSpelled ↔
      (delay * Scalar.nat 1000).isFinite = true := by
  rw [isSpelled_iff, ← GraphText.milliseconds_eq_ok_iff]
  simp [FilterOp.action, Except.exists_bind_eq_ok_iff]

theorem Clip.isSpelled_of_mem_stages (clip : Clip Binary64) (info : SourceInfo)
    (placement : Placement Binary64) :
    ∀ stage ∈ clip.stages info placement, ∀ source output,
      (stage.op source output).IsSpelled := by
  simp only [FilterOp.isSpelled_iff]
  refine clip.forall_mem_stages info placement ?_ ?_ ?_ ?_ ?_
  · exact fun _ _ => ⟨_, rfl⟩
  · exact fun _ _ => ⟨_, rfl⟩
  · exact fun _ _ => ⟨_, rfl⟩
  · exact fun _ _ => ⟨_, rfl⟩
  · exact fun _ _ => GraphText.exists_turnAndFlips clip.rotate clip.flipH clip.flipV

theorem PlacedClip.isSpelled_of_mem_layers (placed : List (PlacedClip Binary64))
    (labels : Labels) : ∀ op ∈ (PlacedClip.layers placed labels).1.1, op.IsSpelled := by
  induction placed generalizing labels with
  | nil => exact List.forall_mem_nil _
  | cons p rest ih =>
    refine List.forall_mem_append.mpr ⟨?_, ih _⟩
    exact Stage.forall_mem_thread _ (p.clip.isSpelled_of_mem_stages p.info p.placement) _ _

theorem Layer.isSpelled_of_mem_composite (layers : List (Layer Binary64)) (base : Label)
    (labels : Labels) : ∀ op ∈ (Layer.composite layers base labels).1.1, op.IsSpelled := by
  refine Stage.forall_mem_thread _ (List.forall_mem_map.mpr fun layer _ source output => ?_) _ _
  exact (FilterOp.isSpelled_iff _).mpr ⟨_, rfl⟩

theorem AudioSegment.isSpelled_trims_iff (segments : List (AudioSegment Binary64))
    (labels : Labels) :
    (∀ op ∈ (AudioSegment.trims segments labels).1, op.IsSpelled) ↔
      ∀ s ∈ segments, (s.delay * Scalar.nat 1000).isFinite = true := by
  induction segments generalizing labels with
  | nil => exact iff_of_true (List.forall_mem_nil _) (List.forall_mem_nil _)
  | cons s rest ih =>
    rw [List.forall_mem_cons, ← ih (labels.advance "aseg"),
      ← FilterOp.isSpelled_audioTrim_iff s.source (Labels.take "aseg" labels).1 s.start s.duration
        s.delay s.gain]
    exact List.forall_mem_cons

theorem AudioSegment.isSpelled_mix_iff (segments : List (AudioSegment Binary64))
    (labels : Labels) :
    (∀ op ∈ (AudioSegment.mix segments labels).1.1, op.IsSpelled) ↔
      ∀ s ∈ segments, (s.delay * Scalar.nat 1000).isFinite = true := by
  rw [← AudioSegment.isSpelled_trims_iff segments labels]
  unfold AudioSegment.mix
  split
  next silent =>
    rw [List.isEmpty_iff.mp silent]
    exact iff_of_true (List.forall_mem_nil _) (List.forall_mem_nil _)
  next =>
    have mixed (sources : List Label) (output : Label) :
        (FilterOp.mix sources output : FilterOp Binary64).IsSpelled :=
      (FilterOp.isSpelled_iff _).mpr ⟨_, rfl⟩
    -- The operation that mixes has a text always, so only the delays of the trims count.
    exact List.forall_mem_append.trans
      (and_iff_left (List.forall_mem_singleton.mpr (mixed _ _)))

/-- Of the operations of a graph only those of sounds may be without a text. -/
theorem isSpelled_graphOps_iff (width height fps : Int) (duration : Binary64)
    (placed : List (PlacedClip Binary64)) (segments : List (AudioSegment Binary64))
    (labels : Labels) :
    (∀ op ∈ (graphOps width height fps duration placed segments labels).1.1, op.IsSpelled) ↔
      ∀ s ∈ segments, (s.delay * Scalar.nat 1000).isFinite = true := by
  obtain ⟨base, chains, overlays, sound, layers, video, audio, l₁, l₂, l₃, l₄, hbase, hchains,
    hoverlays, hsound, parts⟩ := graphOps_parts width height fps duration placed segments labels
  -- The pictures' operations have texts whatever their numbers are.
  have first : base.IsSpelled := by
    cases hbase
    exact (FilterOp.isSpelled_iff _).mpr ⟨_, rfl⟩
  have second := PlacedClip.isSpelled_of_mem_layers placed l₁
  rw [hchains] at second
  have third := Layer.isSpelled_of_mem_composite layers base.output l₂
  rw [hoverlays] at third
  have fourth := AudioSegment.isSpelled_mix_iff segments l₃
  rw [hsound] at fourth
  have pictures : ∀ op ∈ base :: chains ++ overlays, op.IsSpelled :=
    List.forall_mem_append.mpr ⟨List.forall_mem_cons.mpr ⟨first, second⟩, third⟩
  rw [parts, ← fourth]
  exact List.forall_mem_append.trans (and_iff_right pictures)

theorem graphText_eq_ok_iff (ops : List (FilterOp Binary64)) :
    (∃ text, graphText ops = .ok text) ↔ ∀ op ∈ ops, op.IsSpelled := by
  simp only [graphText, Except.exists_bind_eq_ok_iff]
  simp only [Except.ok.injEq, exists_eq', and_true]
  exact Except.exists_mapM_eq_ok_iff

/-- The delays of a graph's sounds are where the kept clips with sound begin. -/
theorem forall_mem_audioSegments (cache : SourceCache) (inputs : List String)
    (clips : List (Clip Binary64)) (P : Binary64 → Prop) :
    (∀ s ∈ audioSegments cache inputs clips, P s.delay) ↔
      ∀ clip ∈ clips, (cache.info clip.sourcePath).hasAudio = true → P clip.timelineOffset := by
  simp only [audioSegments, List.mem_filterMap, AudioSegment.ofClip?]
  constructor
  · intro h clip member audible
    exact h _ ⟨clip, member, if_pos audible⟩
  · rintro h s ⟨clip, member, found⟩
    split at found
    next audible =>
      cases found
      exact h clip member audible
    next => cases found

/-- A compiled graph has a text exactly when every sound begins at a finite millisecond. -/
theorem CompiledGraph.Assembled.graphText_eq_ok_iff {timeline : Timeline Binary64}
    {cache : SourceCache} {options : CompileOptions Binary64} {g : CompiledGraph Binary64}
    {placed : List (PlacedClip Binary64)} (h : g.Assembled timeline cache options placed) :
    (∃ text, graphText g.ops = .ok text) ↔
      ∀ clip ∈ timeline.kept options.minClipDuration,
        (cache.info clip.sourcePath).hasAudio = true →
          (clip.timelineOffset * Scalar.nat 1000).isFinite = true := by
  have ops := congrArg Prod.fst h.ops_eq
  dsimp only at ops
  rw [Montage.graphText_eq_ok_iff, ops, isSpelled_graphOps_iff]
  exact forall_mem_audioSegments cache g.inputs _
    fun delay => (delay * Scalar.nat 1000).isFinite = true

theorem Timeline.kept_eq_nil_iff (timeline : Timeline Binary64) (minimum : Binary64)
    (bound : minimum ≠ .nan) :
    timeline.kept minimum = [] ↔
      ∀ pair ∈ timeline.clips,
        ¬minimum < pair.2.sourceDuration ∧ pair.2.sourceDuration ≠ .nan := by
  -- A clip is kept unless its duration is at most the least one, so `nan` is kept too.
  simp only [Timeline.kept, Timeline.selected, List.map_eq_nil_iff, List.filter_eq_nil_iff,
    Bool.not_eq_true', decide_eq_false_iff_not, not_not, Binary64.le_iff_not_lt]
  simp only [bound, ne_eq, not_false_eq_true, and_true]

/-- A timeline with something to show has a graph with a text exactly when it is measured. -/
theorem written_iff (timeline : Timeline Binary64) (cache : SourceCache)
    (options : CompileOptions Binary64) :
    (∃ g text, (compileTimeline timeline cache options).graph = .ok g ∧
        graphText g.ops = .ok text) ↔
      timeline.kept options.minClipDuration ≠ [] ∧
        timeline.IsMeasured cache options.minClipDuration := by
  -- Measured means that the clips can be placed, and that their delays have a text.
  constructor
  · rintro ⟨g, text, compiled, written⟩
    obtain ⟨full, placeable⟩ := (graph_eq_ok_iff timeline cache options).mp ⟨g, compiled⟩
    obtain ⟨placed, assembled⟩ := compileTimeline_assembled timeline cache options g compiled
    exact ⟨full, placeable, assembled.graphText_eq_ok_iff.mp ⟨text, written⟩⟩
  · rintro ⟨full, placeable, delayed⟩
    obtain ⟨g, compiled⟩ := (graph_eq_ok_iff timeline cache options).mpr ⟨full, placeable⟩
    obtain ⟨placed, assembled⟩ := compileTimeline_assembled timeline cache options g compiled
    obtain ⟨text, written⟩ := assembled.graphText_eq_ok_iff.mpr delayed
    exact ⟨g, text, compiled, written⟩

/-- A timeline is empty when no clip is longer than the least duration and the duration of none
is `nan`; any other timeline has a graph with a text exactly when all its places and delays are
finite. The text is that of `graphText`, which sets no limit to the digits of a canvas side. -/
theorem compiles_iff (timeline : Timeline Binary64) (cache : SourceCache)
    (options : CompileOptions Binary64) (bound : options.minClipDuration ≠ .nan) :
    ((compileTimeline timeline cache options).graph = .error .emptyTimeline ↔
      ∀ pair ∈ timeline.clips, ¬options.minClipDuration < pair.2.sourceDuration ∧
        pair.2.sourceDuration ≠ .nan) ∧
    ((∃ g text, (compileTimeline timeline cache options).graph = .ok g ∧
        graphText g.ops = .ok text) ↔
      (compileTimeline timeline cache options).graph ≠ .error .emptyTimeline ∧
        timeline.IsMeasured cache options.minClipDuration) := by
  have empty := graph_eq_emptyTimeline_iff timeline cache options
  refine ⟨empty.trans (timeline.kept_eq_nil_iff options.minClipDuration bound), ?_⟩
  exact (written_iff timeline cache options).trans (and_congr_left' (not_congr empty.symm))

/-- Two overlapping clips have a graph and a text, since all their numbers are finite. -/
theorem compiles_overlapping :
    (CompileOptions.standard : CompileOptions Binary64).minClipDuration ≠ .nan ∧
      ∃ g text,
        (compileTimeline Timeline.overlapping SourceCache.sounding .standard).graph = .ok g ∧
          graphText g.ops = .ok text := by
  have bound : (CompileOptions.standard : CompileOptions Binary64).minClipDuration ≠ .nan := by
    decide +kernel
  obtain ⟨full, placeable⟩ := (graph_eq_ok_iff Timeline.overlapping SourceCache.sounding
    .standard).mp (CompileOutcome.exists_graph _ (by decide +kernel))
  refine ⟨bound, (compiles_iff _ _ _ bound).2.mpr ⟨?_, placeable, by decide +kernel⟩⟩
  exact (graph_eq_emptyTimeline_iff _ _ _).not.mpr full

/-- A clip of one second whose crop begins at no number. -/
def Timeline.uncertain : Timeline Binary64 :=
  let clip := Clip.ofSpan "c1" "a.mp4" (Scalar.nat 0) (Scalar.nat 1) (Scalar.nat 0)
  let crop := Crop.settled { Crop.full with x := .measured .nan }
  ⟨⟨0, 0⟩, [⟨"v1", .video, [{ clip with crop }]⟩]⟩

/-- A clip whose duration is no number. -/
def Timeline.unending : Timeline Binary64 :=
  ⟨⟨0, 0⟩, [⟨"v1", .video, [Clip.ofSpan "c1" "a.mp4" (Scalar.nat 0) .nan (Scalar.nat 0)]⟩]⟩

/-- The first timeline has a clip that is long enough, and no graph; the second has none, and a
graph. -/
theorem not_always_compiles :
    (∃ pair ∈ Timeline.uncertain.clips,
      (CompileOptions.standard : CompileOptions Binary64).minClipDuration <
        pair.2.sourceDuration) ∧
    (compileTimeline Timeline.uncertain [("a.mp4", .unavailable)] .standard).graph =
      .error (.geometry .nanToInteger) ∧
    (∀ pair ∈ Timeline.unending.clips,
      ¬(CompileOptions.standard : CompileOptions Binary64).minClipDuration <
        pair.2.sourceDuration) ∧
    (compileTimeline Timeline.unending [("a.mp4", .unavailable)] .standard).graph.isOk = true := by
  have failed : ((compileTimeline Timeline.uncertain [("a.mp4", .unavailable)] .standard).graph.map
      fun _ => ()) = .error (.geometry .nanToInteger) := by decide +kernel
  exact ⟨by decide +kernel, Except.map_eq_error_iff.mp failed, by decide +kernel,
    by decide +kernel⟩

end Montage
