import Montage.Proofs.Graph.Domain
import Montage.Proofs.Graph.Picture

/-!
# Layers off the canvas

A compile warns of a clip by its placement: four strict inequalities between the placed footprint
and the sides of the canvas. What the encoder is given are operations. The frame that a chain
makes of the source's frame, with its corner at the place that the clip's own overlay asks for,
is the layer; and the warnings are about those layers that have no pixel in common with the
canvas, one for each and in stacking order. Such a clip has its chain and its overlay all the
same.
-/
namespace Montage

namespace PixelRect

/-- A rectangle that has a pixel in common with a canvas of a width and a height. -/
def Meets (rect : PixelRect) (width height : Int) : Prop :=
  ∃ px py : Int, (0 ≤ px ∧ px < width ∧ 0 ≤ py ∧ py < height) ∧
    rect.x ≤ px ∧ px < rect.x + rect.width ∧ rect.y ≤ py ∧ py < rect.y + rect.height

/-- Where there is a common pixel, the first one is at the greater of the two corners. -/
theorem meets_iff (rect : PixelRect) (width height : Int) : rect.Meets width height ↔
    max 0 rect.x < min width (rect.x + rect.width) ∧
      max 0 rect.y < min height (rect.y + rect.height) := by
  constructor
  · rintro ⟨px, py, canvas, inside⟩
    omega
  · intro overlap
    exact ⟨max 0 rect.x, max 0 rect.y, by omega, by omega⟩

instance (rect : PixelRect) (width height : Int) : Decidable (rect.Meets width height) :=
  decidable_of_iff _ (rect.meets_iff width height).symm

end PixelRect

variable {α : Type}

/-- The size of the frame that an operation makes of a frame that it reads. -/
def FilterOp.reframe (size : Int × Int) : FilterOp α → Int × Int
  | .crop _ _ rect => (rect.width, rect.height)
  | .scale _ _ width height => (width, height)
  | .rotateFlip _ _ degrees _ _ => if degrees = 90 ∨ degrees = 270 then (size.2, size.1) else size
  | _ => size

/-- What a graph has of a clip: the operations of its chain, and where and when the layer that they
make lies over the picture below it. -/
structure Strip (α : Type) where
  chain : List (FilterOp α)
  base : Label
  top : Label
  output : Label
  x : Int
  y : Int
  start : α
  stop : α

namespace Strip

/-- The overlay of a layer. -/
def overlay (strip : Strip α) : FilterOp α :=
  .overlay strip.base strip.top strip.output strip.x strip.y strip.start strip.stop

/-- The rectangle of a layer: the frame that the chain leaves, where the overlay lays it. -/
def rect (strip : Strip α) (info : SourceInfo) : PixelRect :=
  let (width, height) := strip.chain.foldl FilterOp.reframe (info.width, info.height)
  ⟨strip.x, strip.y, width, height⟩

/-- The warning that a layer is due on a canvas. -/
def warning? (strip : Strip α) (clip : Clip α) (info : SourceInfo) (width height : Int) :
    Option OffCanvas :=
  let rect := strip.rect info
  if rect.Meets width height then none
  else some ⟨clip.id, rect.x, rect.y, rect.width, rect.height, width, height⟩

end Strip

section

variable [Scalar α]

/-- A strip that is a clip's own: its whole chain, and an overlay of what the chain makes, at the
clip's position and for as long as the clip runs. -/
structure Clip.IsLaid (cache : SourceCache) (inputs : List String) (clip : Clip α)
    (strip : Strip α) : Prop where
  chain : clip.HasChain cache inputs strip.chain
  kinds : strip.chain.map FilterOp.kind = clip.chainKinds
  top : strip.chain.getLast?.map FilterOp.output = some strip.top
  x : Scalar.roundHalfUp clip.transform.x = .ok strip.x
  y : Scalar.roundHalfUp clip.transform.y = .ok strip.y
  start : strip.start = clip.timelineOffset
  stop : strip.stop = clip.timelineEnd

/-- A placed clip's rectangle on the canvas. -/
def Placement.rect (placement : Placement α) : PixelRect :=
  ⟨placement.x, placement.y, placement.footprintWidth, placement.footprintHeight⟩

/-- The four strict inequalities of a placement are those of a common pixel, since neither the
layer nor the canvas is empty. -/
theorem Placement.overlaps_iff {clip : Clip α} {info : SourceInfo} {placement : Placement α}
    (placed : ofClip clip info = .ok placement) {width height : Int} (wide : IsEvenSide width)
    (high : IsEvenSide height) :
    placement.overlaps width height = true ↔ placement.rect.Meets width height := by
  have own := isOf_of_ofClip placed
  obtain ⟨across, down⟩ := Frame.scaledSize_isEvenSide own.scaled
  -- Turning swaps the sides at most.
  have sides : 2 ≤ placement.footprintWidth ∧ 2 ≤ placement.footprintHeight := by
    have footprint := own.footprint
    unfold Frame.footprint at footprint
    split at footprint
    all_goals
      obtain ⟨width_eq, height_eq⟩ := Prod.mk.inj footprint
      rw [width_eq, height_eq]
    · exact ⟨down.least, across.least⟩
    · exact ⟨across.least, down.least⟩
  have least := wide.least
  have least' := high.least
  rw [PixelRect.meets_iff, overlaps, rect]
  simp only [Bool.and_eq_true, decide_eq_true_eq]
  omega

namespace Clip

variable (clip : Clip α) (info : SourceInfo) (placement : Placement α) (source : Label)
  (labels : Labels)

/-- The layer of a clip is what the last operation of its chain makes. -/
theorem getLast_chain :
    (clip.chain info placement source labels).1.1.getLast?.map FilterOp.output =
      some (clip.chain info placement source labels).1.2 := by
  unfold chain stages colorStages turnStages
  dsimp only
  split
  · split <;> rfl
  · split <;> rfl

/-- The frame that a chain leaves is the footprint, whatever the frame of the source is. -/
theorem foldl_reframe_chain (placed : Placement.ofClip clip info = .ok placement)
    (size : Int × Int) :
    (clip.chain info placement source labels).1.1.foldl FilterOp.reframe size =
      (placement.footprintWidth, placement.footprintHeight) := by
  rw [(Placement.isOf_of_ofClip placed).footprint]
  have turned : (if clip.isTurned then
      FilterOp.reframe (placement.scaledWidth, placement.scaledHeight)
        (.rotateFlip source source clip.rotate.degrees clip.flipH clip.flipV : FilterOp α)
      else (placement.scaledWidth, placement.scaledHeight)) =
      Frame.footprint placement.scaledWidth placement.scaledHeight clip.rotate.degrees := by
    -- A clip without a turn stage is upright, and then the footprint is the scaled size too.
    unfold isTurned FilterOp.reframe Frame.footprint
    cases clip.rotate <;> cases clip.flipH <;> cases clip.flipV <;> rfl
  rw [← turned]
  unfold chain stages colorStages turnStages
  dsimp only
  split
  · split <;> rfl
  · split <;> rfl

end Clip

namespace PlacedClip

/-- The strip that a placed clip has in a graph, over a picture and with the next labels. -/
def strip (p : PlacedClip α) (labels comps : Labels) (base : Label) : Strip α :=
  let chain := (p.clip.chain p.info p.placement p.source labels).1
  ⟨chain.1, base, chain.2, (Labels.take "comp" comps).1, p.placement.x, p.placement.y,
    p.placement.start, p.placement.stop⟩

variable {cache : SourceCache} {inputs : List String} {clip : Clip α} {p : PlacedClip α}

theorem Places.isLaid (h : Places cache inputs clip p) (labels comps : Labels) (base : Label) :
    clip.IsLaid cache inputs (p.strip labels comps base) := by
  obtain ⟨clip_eq, info_eq, placed, source_eq⟩ := h
  subst clip_eq
  have own := Placement.isOf_of_ofClip placed
  exact {
    chain := ⟨p.placement, labels, placed, by rw [← info_eq, ← source_eq]; rfl⟩
    kinds := p.clip.map_kind_chain p.info p.placement p.source labels
    top := p.clip.getLast_chain p.info p.placement p.source labels
    x := own.x
    y := own.y
    start := own.start
    stop := own.stop }

/-- The warning about a placement is the warning about the layer that the operations make. -/
theorem Places.warning_eq (h : Places cache inputs clip p) (labels comps : Labels) (base : Label)
    {width height : Int} (wide : IsEvenSide width) (high : IsEvenSide height) :
    (p.strip labels comps base).warning? clip (cache.info clip.sourcePath) width height =
      p.offCanvas? width height := by
  obtain ⟨clip_eq, info_eq, placed, source_eq⟩ := h
  subst clip_eq
  -- The rectangle that the chain comes to is the one of the placement.
  have rect : (p.strip labels comps base).rect (cache.info p.clip.sourcePath) =
      p.placement.rect := by
    unfold Strip.rect strip
    dsimp only
    rw [p.clip.foldl_reframe_chain p.info p.placement p.source labels (by rwa [info_eq])]
    rfl
  unfold Strip.warning? offCanvas?
  simp only [rect, ← Placement.overlaps_iff placed wide high]
  rfl

/-- The chains and the overlays of a graph are those of one strip for each placed clip. -/
theorem exists_strips {clips : List (Clip α)} {placed : List (PlacedClip α)}
    (places : List.Forall₂ (Places cache inputs) clips placed) (labels comps : Labels)
    (base : Label) {width height : Int} (wide : IsEvenSide width) (high : IsEvenSide height) :
    ∃ strips, (PlacedClip.layers placed labels).1.1 = (strips.map Strip.chain).flatten ∧
      (Layer.composite (PlacedClip.layers placed labels).1.2 base comps).1.1 =
        strips.map Strip.overlay ∧
      List.Forall₂ (Clip.IsLaid cache inputs) clips strips ∧
      (clips.zip strips).filterMap (fun (clip, strip) =>
        strip.warning? clip (cache.info clip.sourcePath) width height) =
          placed.filterMap (·.offCanvas? width height) := by
  induction places generalizing labels comps base with
  | nil => exact ⟨[], rfl, rfl, .nil, rfl⟩
  | @cons clip p clips placed first _ ih =>
    let strip := p.strip labels comps base
    -- The next layer lies over this one.
    obtain ⟨strips, chains, overlays, laid, warnings⟩ :=
      ih (p.clip.chain p.info p.placement p.source labels).2 (comps.advance "comp") strip.output
    refine ⟨strip :: strips, ?_, ?_, .cons (first.isLaid labels comps base) laid, ?_⟩
    · rw [List.map_cons, List.flatten_cons, ← chains]
      rfl
    · rw [List.map_cons, ← overlays]
      rfl
    · rw [List.zip_cons_cons, List.filterMap_cons, List.filterMap_cons, warnings]
      dsimp only
      rw [first.warning_eq labels comps base wide high]

end PlacedClip

namespace CompiledGraph

variable {timeline : Timeline α} {cache : SourceCache} {options : CompileOptions α}
  {g : CompiledGraph α} {placed : List (PlacedClip α)}

/-- The strips of a compiled graph, and what is due to be said of them. -/
theorem Assembled.exists_strips (h : g.Assembled timeline cache options placed) :
    ∃ strips,
      g.part .chains = (strips.map Strip.chain).flatten ∧
      g.part .overlays = strips.map Strip.overlay ∧
      List.Forall₂ (Clip.IsLaid cache g.inputs) (timeline.visual cache options.minClipDuration)
        strips ∧
      ((timeline.visual cache options.minClipDuration).zip strips).filterMap (fun (clip, strip) =>
        strip.warning? clip (cache.info clip.sourcePath) g.width g.height) =
          placed.filterMap (·.offCanvas? g.width g.height) := by
  obtain ⟨_, parted⟩ := h.parted
  obtain ⟨wide, high⟩ := Frame.canvasSize_isEvenSide h.canvas
  obtain ⟨strips, chains, overlays, laid, warnings⟩ :=
    PlacedClip.exists_strips h.places Labels.none Labels.none (Labels.label "base" 0) wide high
  refine ⟨strips, parted.chains.trans chains, ?_, laid, warnings⟩
  exact (congrArg Prod.fst parted.overlays).trans overlays

end CompiledGraph

/-- The warnings of a compile that comes to a graph are about the graph's own operations: it has
one strip for each visual clip, in stacking order, and those are warned of whose layers have no
pixel in common with the canvas. -/
theorem warns_off_canvas (timeline : Timeline α) (cache : SourceCache)
    (options : CompileOptions α) (g : CompiledGraph α)
    (compiled : (compileTimeline timeline cache options).graph = .ok g) :
    ∃ strips,
      g.part .chains = (strips.map Strip.chain).flatten ∧
      g.part .overlays = strips.map Strip.overlay ∧
      List.Forall₂ (Clip.IsLaid cache g.inputs) (timeline.visual cache options.minClipDuration)
        strips ∧
      (compileTimeline timeline cache options).warnings =
        ((timeline.visual cache options.minClipDuration).zip strips).filterMap
          fun (clip, strip) =>
            strip.warning? clip (cache.info clip.sourcePath) g.width g.height := by
  obtain ⟨placed, assembled, warned⟩ := compileTimeline_warned timeline cache options g compiled
  obtain ⟨strips, chains, overlays, laid, warnings⟩ := assembled.exists_strips
  exact ⟨strips, chains, overlays, laid, warned.trans warnings.symm⟩

end

/-- Three clips of a source of 64 by 48 pixels: in the corner, right of the canvas next to its
edge, and left of it. The last is turned, and would reach over the edge if it were not. -/
def Timeline.scattered : Timeline Binary64 :=
  let clip (id : String) := Clip.ofSpan id "a.mp4" (Scalar.nat 0) (Scalar.nat 4) (Scalar.nat 0)
  let moved (id : String) (x : Int) (rotate : Rotation) :=
    { clip id with transform := { Transform.still with x := Scalar.ratio x 1 }, rotate }
  ⟨⟨64, 64⟩, [⟨"v1", .video,
    [clip "corner", moved "right" 64 .upright, moved "left" (-48) .quarter]⟩]⟩

theorem warns_off_canvas_scattered :
    ∃ g, (compileTimeline Timeline.scattered SourceCache.sounding .standard).graph = .ok g ∧
      ∃ strips, g.part .overlays = strips.map Strip.overlay ∧
        ((Timeline.scattered.visual SourceCache.sounding
            CompileOptions.standard.minClipDuration).zip strips).filterMap (fun (clip, strip) =>
          strip.warning? clip (SourceCache.sounding.info clip.sourcePath) g.width g.height) =
          [⟨"right", 64, 0, 64, 48, 64, 64⟩, ⟨"left", -48, 0, 48, 64, 64, 64⟩] := by
  obtain ⟨g, compiled⟩ := CompileOutcome.exists_graph
    (compileTimeline Timeline.scattered SourceCache.sounding .standard) (by decide +kernel)
  obtain ⟨strips, _, overlays, _, warnings⟩ :=
    warns_off_canvas Timeline.scattered SourceCache.sounding .standard g compiled
  have warned : (compileTimeline Timeline.scattered SourceCache.sounding .standard).warnings =
      [⟨"right", 64, 0, 64, 48, 64, 64⟩, ⟨"left", -48, 0, 48, 64, 64, 64⟩] := by
    decide +kernel
  exact ⟨g, compiled, strips, overlays, warnings.symm.trans warned⟩

end Montage
