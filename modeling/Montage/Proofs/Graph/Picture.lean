import Montage.Proofs.Attempt
import Montage.Proofs.Graph.Meaning

/-!
# What a compiled graph shows

A picture has a size and shows, at each time and pixel, a color or a moment of a source. The
operations of a graph are read one after the other as pictures of the labels that they make. The
picture of a compiled graph is then compared with the timeline itself, painted in declaration
order.
-/
namespace Montage

/-- What one pixel shows at one time. -/
inductive Shown (α : Type) where
  | color (name : String)
  | source (path : String) (time : α)
deriving DecidableEq

/-- A moving picture. Where a stream has no frame it shows nothing. -/
structure Picture (α : Type) where
  width : Int
  height : Int
  shows : α → Int × Int → Option (Shown α)

/-- The pictures that labels stand for. -/
abbrev Pictures (α : Type) := Label → Option (Picture α)

namespace Picture

variable {α : Type}

def plain (color : String) (width height : Int) : Picture α :=
  ⟨width, height, fun _ _ => some (.color color)⟩

/-- The picture of a source, of the size that the prober found. -/
def ofSource (path : String) (info : SourceInfo) : Picture α :=
  ⟨info.width, info.height, fun t _ => some (.source path t)⟩

def crop (picture : Picture α) (rect : PixelRect) : Picture α :=
  ⟨rect.width, rect.height, fun t (x, y) => picture.shows t (x + rect.x, y + rect.y)⟩

/-- The picture in another size, each pixel taken from the one that it falls on. -/
def scale (picture : Picture α) (width height : Int) : Picture α :=
  ⟨width, height, fun t (x, y) =>
    picture.shows t (x * picture.width / width, y * picture.height / height)⟩

/-- The pixel that a clockwise turn brings to a place. -/
def turnedFrom (picture : Picture α) (degrees : Int) (pixel : Int × Int) : Int × Int :=
  let (x, y) := pixel
  if degrees = 90 then (y, picture.height - 1 - x)
  else if degrees = 180 then (picture.width - 1 - x, picture.height - 1 - y)
  else if degrees = 270 then (picture.width - 1 - y, x)
  else (x, y)

/-- The picture turned clockwise and then flipped. A quarter turn swaps its sides. -/
def turn (picture : Picture α) (degrees : Int) (flipH flipV : Bool) : Picture α :=
  let (width, height) := Frame.footprint picture.width picture.height degrees
  ⟨width, height, fun t (x, y) =>
    picture.shows t (picture.turnedFrom degrees
      (if flipH then width - 1 - x else x, if flipV then height - 1 - y else y))⟩

/-- Whether a pixel of the canvas lies in the frame with its corner at `(x, y)`. -/
def frames (picture : Picture α) (x y : Int) (pixel : Int × Int) : Bool :=
  decide (x ≤ pixel.1) && decide (pixel.1 < x + picture.width)
    && decide (y ≤ pixel.2) && decide (pixel.2 < y + picture.height)

variable [Scalar α]

/-- The span of `duration` from `start`, timed to begin at `offset`, and nothing outside it. -/
def trim (picture : Picture α) (start duration offset : α) : Picture α :=
  ⟨picture.width, picture.height, fun t pixel =>
    if offset ≤ t ∧ t < offset + duration then picture.shows (start + (t - offset)) pixel
    else none⟩

/-- The top picture where and while it lies over the base, which shows elsewhere. -/
def overlay (base top : Picture α) (x y : Int) (start stop : α) : Picture α :=
  ⟨base.width, base.height, fun t pixel =>
    if (start ≤ t ∧ t < stop) ∧ top.frames x y pixel = true then
      top.shows t (pixel.1 - x, pixel.2 - y)
    else base.shows t pixel⟩

end Picture

variable {α : Type}

section

variable [Scalar α]

/-- The picture that an operation makes of those that it reads; sound has none. -/
def FilterOp.picture? (op : FilterOp α) (pictures : Pictures α) : Option (Picture α) :=
  match op with
  | colorSource _ color width height _ _ => some (.plain color width height)
  | crop source _ rect => (pictures source).map (·.crop rect)
  | trim source _ start duration offset _ => (pictures source).map (·.trim start duration offset)
  | colorAdjust source .. => pictures source
  | scale source _ width height => (pictures source).map (·.scale width height)
  | rotateFlip source _ degrees flipH flipV => (pictures source).map (·.turn degrees flipH flipV)
  | overlay base top _ x y start stop => do
    some ((← pictures base).overlay (← pictures top) x y start stop)
  | audioTrim .. => none
  | audioMix .. => none

/-- The pictures once an operation has made its label. -/
def FilterOp.paint (pictures : Pictures α) (op : FilterOp α) : Pictures α := fun l =>
  if l = op.output then op.picture? pictures else pictures l

/-- The pictures once all operations have made their labels, one after the other. -/
def FilterOp.paintAll (ops : List (FilterOp α)) (pictures : Pictures α) : Pictures α :=
  ops.foldl FilterOp.paint pictures

/-- The pictures of the inputs, each at its index. -/
def Pictures.ofInputs (cache : SourceCache) (inputs : List String) : Pictures α := fun l =>
  (inputs.zipIdx.find? fun (_, k) => streamRef k "v" = l).map fun (path, _) =>
    .ofSource path (cache.info path)

/-- The pictures of all labels of a graph. -/
def CompiledGraph.pictures (g : CompiledGraph α) (cache : SourceCache) : Pictures α :=
  FilterOp.paintAll g.ops (.ofInputs cache g.inputs)

/-- Whether a clip's footprint covers a pixel of the canvas while the clip runs. -/
def Clip.covers (clip : Clip α) (info : SourceInfo) (t : α) (pixel : Int × Int) : Bool :=
  match Placement.ofClip clip info with
  | .error _ => false
  | .ok placement =>
    decide (clip.timelineOffset ≤ t) && decide (t < clip.timelineEnd)
      && decide (placement.x ≤ pixel.1) && decide (pixel.1 < placement.x + placement.footprintWidth)
      && decide (placement.y ≤ pixel.2)
      && decide (pixel.2 < placement.y + placement.footprintHeight)

/-- The moment of its source that a clip shows. -/
def Clip.shownAt (clip : Clip α) (t : α) : Shown α :=
  .source clip.sourcePath (clip.sourceIn + (t - clip.timelineOffset))

/-- What a timeline shows: the last declared of the clips that cover a pixel, and black where
there is none. -/
def Timeline.shownAt (timeline : Timeline α) (cache : SourceCache) (minimum : α) (t : α)
    (pixel : Int × Int) : Shown α :=
  let covering := (timeline.visual cache minimum).filter fun clip =>
    clip.covers (cache.info clip.sourcePath) t pixel
  match covering.getLast? with
  | none => .color "black"
  | some clip => clip.shownAt t

/-- The picture of a clip's layer. -/
def Clip.developed (clip : Clip α) (info : SourceInfo) (placement : Placement α) : Picture α :=
  let scaled := (((Picture.ofSource clip.sourcePath info).crop placement.crop).trim
    clip.sourceIn clip.sourceDuration clip.timelineOffset).scale
      placement.scaledWidth placement.scaledHeight
  if clip.isTurned then scaled.turn clip.rotate.degrees clip.flipH clip.flipV else scaled

/-- A clip laid over a picture, which stays as it is where the clip has no place. -/
def Clip.paintOver (cache : SourceCache) (base : Picture α) (clip : Clip α) : Picture α :=
  match Placement.ofClip clip (cache.info clip.sourcePath) with
  | .error _ => base
  | .ok placement =>
    base.overlay (clip.developed (cache.info clip.sourcePath) placement) placement.x placement.y
      placement.start placement.stop

namespace Clip

theorem developed_shows (clip : Clip α) (info : SourceInfo) (placement : Placement α) (t : α)
    (pixel : Int × Int) :
    (clip.developed info placement).shows t pixel =
      if clip.timelineOffset ≤ t ∧ t < clip.timelineEnd then some (clip.shownAt t) else none := by
  unfold developed
  split <;> rfl

theorem developed_size (clip : Clip α) (info : SourceInfo) (placement : Placement α)
    (placed : Placement.ofClip clip info = .ok placement) :
    (clip.developed info placement).width = placement.footprintWidth ∧
      (clip.developed info placement).height = placement.footprintHeight := by
  have footprint := (Placement.isOf_of_ofClip placed).footprint
  have width := congrArg Prod.fst footprint
  have height := congrArg Prod.snd footprint
  dsimp only at width height
  unfold developed
  split
  · exact ⟨width.symm, height.symm⟩
  next upright =>
    -- Without a stage that turns the picture, its sides are not swapped.
    have degrees : clip.rotate.degrees = 0 := by
      simp only [isTurned, ne_eq, decide_not, Bool.or_eq_true, Bool.not_eq_true',
        decide_eq_false_iff_not, not_or, Decidable.not_not] at upright
      rw [upright.1.1]
      rfl
    rw [degrees] at width height
    exact ⟨width.symm, height.symm⟩

/-- A clip shows where it covers a pixel, and what is below it everywhere else. -/
theorem paintOver_shows (cache : SourceCache) (base : Picture α) (clip : Clip α) (t : α)
    (pixel : Int × Int) :
    (paintOver cache base clip).shows t pixel =
      if clip.covers (cache.info clip.sourcePath) t pixel then some (clip.shownAt t)
      else base.shows t pixel := by
  unfold paintOver covers
  cases placed : Placement.ofClip clip (cache.info clip.sourcePath) with
  | error e => simp only [Bool.false_eq_true, if_false]
  | ok placement =>
    have own := Placement.isOf_of_ofClip placed
    obtain ⟨width, height⟩ := clip.developed_size _ placement placed
    simp only [Picture.overlay, Picture.frames, width, height, own.start, own.stop,
      developed_shows]
    -- Outside its span a clip has no frame, and then the overlay does not look for one.
    by_cases runs : clip.timelineOffset ≤ t ∧ t < clip.timelineEnd
    · simp only [runs, and_self, if_true, true_and, decide_true, Bool.true_and]
    · rw [if_neg (fun both => runs both.1), if_neg]
      intro covered
      simp only [Bool.and_eq_true, decide_eq_true_eq] at covered
      exact runs covered.1.1.1.1

/-- Of clips laid one over the other the last that covers a pixel shows. -/
theorem foldl_paintOver_shows (cache : SourceCache) (clips : List (Clip α)) (base : Picture α)
    (t : α) (pixel : Int × Int) :
    (clips.foldl (paintOver cache) base).shows t pixel =
      match (clips.filter fun clip =>
        clip.covers (cache.info clip.sourcePath) t pixel).getLast? with
      | none => base.shows t pixel
      | some clip => some (clip.shownAt t) := by
  induction clips generalizing base with
  | nil => rfl
  | cons clip rest ih =>
    rw [List.foldl_cons, ih, List.filter_cons, paintOver_shows]
    -- The first clip shows only where none of the later ones does.
    by_cases covered : clip.covers (cache.info clip.sourcePath) t pixel = true
    · rw [if_pos covered, if_pos covered, List.getLast?_cons]
      cases (rest.filter fun clip =>
        clip.covers (cache.info clip.sourcePath) t pixel).getLast? <;> rfl
    · rw [if_neg covered, if_neg covered]

theorem foldl_paintOver_size (cache : SourceCache) (clips : List (Clip α)) (base : Picture α) :
    (clips.foldl (paintOver cache) base).width = base.width ∧
      (clips.foldl (paintOver cache) base).height = base.height := by
  induction clips generalizing base with
  | nil => exact ⟨rfl, rfl⟩
  | cons clip rest ih =>
    rw [List.foldl_cons, (ih _).1, (ih _).2]
    unfold paintOver
    split <;> exact ⟨rfl, rfl⟩

end Clip

namespace FilterOp

theorem paintAll_append (first second : List (FilterOp α)) (pictures : Pictures α) :
    paintAll (first ++ second) pictures = paintAll second (paintAll first pictures) :=
  List.foldl_append

theorem paintAll_of_not_mem (ops : List (FilterOp α)) (pictures : Pictures α) (l : Label)
    (unmade : l ∉ ops.map FilterOp.output) : paintAll ops pictures l = pictures l :=
  assignAll_of_not_mem FilterOp.picture? ops pictures l unmade

end FilterOp

/-- A stage that makes one picture of the picture before it. -/
structure Stage.Makes (stage : Stage α) (effect : Picture α → Picture α) : Prop where
  picture : ∀ source output pictures,
    (stage.op source output).picture? pictures = (pictures source).map effect
  output : ∀ source output, (stage.op source output).output = output

/-- Stages one after the other apply their effects to the picture that they begin with. -/
theorem Stage.paintAll_thread (stages : List (Stage α))
    (effects : List (Picture α → Picture α)) (makes : List.Forall₂ Stage.Makes stages effects)
    (source : Label) (labels : Labels) (pictures : Pictures α) (picture : Picture α)
    (found : pictures source = some picture) :
    FilterOp.paintAll (Stage.thread stages source labels).1.1 pictures
      (Stage.thread stages source labels).1.2 =
        some (effects.foldl (fun picture effect => effect picture) picture) := by
  induction makes generalizing source labels pictures picture with
  | nil => exact found
  | @cons stage effect stages effects first _ ih =>
    let output := Labels.label stage.stem (labels.count stage.stem)
    refine ih output (labels.advance stage.stem) _ (effect picture) ?_
    rw [FilterOp.paint, first.output, if_pos rfl, first.picture, found]
    rfl

namespace Clip

/-- A clip's chain turns the picture of its source into the picture of its layer. -/
theorem paintAll_chain (clip : Clip α) (info : SourceInfo) (placement : Placement α)
    (source : Label) (labels : Labels) (pictures : Pictures α)
    (found : pictures source = some (.ofSource clip.sourcePath info)) :
    FilterOp.paintAll (clip.chain info placement source labels).1.1 pictures
      (clip.chain info placement source labels).1.2 =
        some (clip.developed info placement) := by
  let color : List (Picture α → Picture α) :=
    if clip.colorFilters.isNeutral then [] else [fun picture => picture]
  let turn : List (Picture α → Picture α) :=
    if clip.isTurned then [fun picture => picture.turn clip.rotate.degrees clip.flipH clip.flipV]
    else []
  let effects : List (Picture α → Picture α) :=
    [fun picture => picture.crop placement.crop,
      fun picture => picture.trim clip.sourceIn clip.sourceDuration clip.timelineOffset]
      ++ color ++ [fun picture => picture.scale placement.scaledWidth placement.scaledHeight]
      ++ turn
  -- A color adjustment leaves the place of every pixel as it is.
  have colors : List.Forall₂ Stage.Makes clip.colorStages color := by
    unfold colorStages
    dsimp only [color]
    split
    · exact .nil
    · refine .cons ⟨fun source _ pictures => ?_, fun _ _ => rfl⟩ .nil
      exact Option.map_id'.symm
  have turns : List.Forall₂ Stage.Makes clip.turnStages turn := by
    unfold turnStages
    dsimp only [turn]
    split
    · exact .cons ⟨fun _ _ _ => rfl, fun _ _ => rfl⟩ .nil
    · exact .nil
  have makes : List.Forall₂ Stage.Makes (clip.stages info placement) effects := by
    refine List.rel_append (List.rel_append (List.rel_append ?_ colors) ?_) turns
    · exact .cons ⟨fun _ _ _ => rfl, fun _ _ => rfl⟩
        (.cons ⟨fun _ _ _ => rfl, fun _ _ => rfl⟩ .nil)
    · exact .cons ⟨fun _ _ _ => rfl, fun _ _ => rfl⟩ .nil
  have painted := Stage.paintAll_thread _ effects makes source labels pictures _ found
  rw [chain, painted]
  -- The optional stages are there, or they would have changed nothing.
  dsimp only [effects, color, turn, developed]
  split <;> split <;> rfl

end Clip

/-- A layer with the place and the picture of a clip. -/
structure Layer.Paints (pictures : Pictures α) (cache : SourceCache) (clip : Clip α)
    (layer : Layer α) : Prop where
  placed : Placement.ofClip clip (cache.info clip.sourcePath) = .ok layer.placement
  picture : pictures layer.label =
    some (clip.developed (cache.info clip.sourcePath) layer.placement)

theorem Layer.Paints.later {pictures : Pictures α} {cache : SourceCache} {clip : Clip α}
    {layer : Layer α} (h : layer.Paints pictures cache clip) (ops : List (FilterOp α))
    (unmade : layer.label ∉ ops.map FilterOp.output) :
    layer.Paints (FilterOp.paintAll ops pictures) cache clip := by
  refine ⟨h.placed, ?_⟩
  rw [FilterOp.paintAll_of_not_mem ops pictures _ unmade]
  exact h.picture

theorem Layer.Paints.forall₂_later {pictures : Pictures α} {cache : SourceCache}
    {clips : List (Clip α)} {layers : List (Layer α)}
    (h : List.Forall₂ (Layer.Paints pictures cache) clips layers) (ops : List (FilterOp α))
    (unmade : ∀ layer ∈ layers, layer.label ∉ ops.map FilterOp.output) :
    List.Forall₂ (Layer.Paints (FilterOp.paintAll ops pictures) cache) clips layers := by
  induction h with
  | nil => exact .nil
  | @cons clip layer clips layers first _ ih =>
    refine .cons (first.later ops (unmade layer List.mem_cons_self)) (ih ?_)
    exact fun other member => unmade other (List.mem_cons_of_mem _ member)

/-- The inputs' pictures under the labels that refer to them. -/
def Pictures.HasSources (pictures : Pictures α) (cache : SourceCache) (inputs : List String)
    (clips : List (Clip α)) : Prop :=
  ∀ clip ∈ clips, pictures (streamRef (inputIndex inputs clip.sourcePath) "v") =
    some (.ofSource clip.sourcePath (cache.info clip.sourcePath))

omit [Scalar α] in
theorem Pictures.hasSources_ofInputs (cache : SourceCache) (inputs : List String)
    (clips : List (Clip α)) (known : ∀ clip ∈ clips, clip.sourcePath ∈ inputs) :
    (Pictures.ofInputs (α := α) cache inputs).HasSources cache inputs clips := by
  intro clip member
  rw [ofInputs, find?_streamRef inputs clip.sourcePath "v" (known clip member)]
  rfl

/-- Labels that are handed out are none of the inputs' streams, so these keep their pictures. -/
theorem Pictures.HasSources.later {pictures : Pictures α} {cache : SourceCache}
    {inputs : List String} {clips : List (Clip α)} (h : pictures.HasSources cache inputs clips)
    {ops : List (FilterOp α)} {labels labels' : Labels}
    (issues : labels.Issues (ops.map FilterOp.output) labels') :
    (FilterOp.paintAll ops pictures).HasSources cache inputs clips := by
  intro clip member
  rw [FilterOp.paintAll_of_not_mem]
  · exact h clip member
  · intro issued
    exact Labels.not_issued_streamRef _ _ _ ((issues.issued _).mpr (.inr issued))

/-- The chains of placed clips make a layer of each clip. -/
theorem PlacedClip.paintAll_layers (cache : SourceCache) (inputs : List String)
    (clips : List (Clip α)) (placed : List (PlacedClip α))
    (places : List.Forall₂ (PlacedClip.Places cache inputs) clips placed)
    (known : ∀ clip ∈ clips, clip.sourcePath ∈ inputs) (labels : Labels)
    (pictures : Pictures α) (sources : pictures.HasSources cache inputs clips) :
    List.Forall₂ (Layer.Paints
        (FilterOp.paintAll (PlacedClip.layers placed labels).1.1 pictures) cache)
      clips (PlacedClip.layers placed labels).1.2 := by
  induction places generalizing labels pictures with
  | nil => exact .nil
  | @cons clip p clips placed first places ih =>
    obtain ⟨rfl, info, fits, source⟩ := first
    have known' : ∀ c ∈ clips, c.sourcePath ∈ inputs :=
      fun c member => known c (List.mem_cons_of_mem _ member)
    let chain := p.clip.chain p.info p.placement p.source labels
    let rest := PlacedClip.layers placed chain.2
    -- The label of the layer is made in this chain, so no later chain makes it again.
    have made : chain.1.2 ∈ chain.1.1.map FilterOp.output := by
      have wires := p.clip.chain_wires inputs cache p.info p.placement _
        (List.idxOf_lt_length_of_mem (known p.clip List.mem_cons_self)) labels
      change p.source = streamRef (inputs.idxOf p.clip.sourcePath : Nat) "v" at source
      rw [← source] at wires
      rcases wires.remaining chain.1.2 (Multiset.mem_singleton_self _) with pooled | made
      · exact absurd pooled (Multiset.notMem_zero _)
      · exact made
    have issues := p.clip.chain_issues p.info p.placement p.source labels
    have issuesRest := PlacedClip.layers_issues placed chain.2
    have painted : FilterOp.paintAll chain.1.1 pictures chain.1.2 =
        some (p.clip.developed p.info p.placement) := by
      refine p.clip.paintAll_chain p.info p.placement p.source labels pictures ?_
      rw [source, info]
      exact sources p.clip List.mem_cons_self
    have sources' : pictures.HasSources cache inputs clips :=
      fun c member => sources c (List.mem_cons_of_mem _ member)
    have tail := ih known' chain.2 _ (sources'.later issues)
    change List.Forall₂ (Layer.Paints (FilterOp.paintAll (chain.1.1 ++ rest.1.1) pictures) cache)
      (p.clip :: clips) (⟨chain.1.2, p.placement⟩ :: rest.1.2)
    rw [FilterOp.paintAll_append]
    refine .cons (Layer.Paints.later ⟨fits, ?_⟩ rest.1.1 ?_) tail
    · rw [painted, info]
    · intro remade
      exact issuesRest.fresh _ remade ((issues.issued _).mpr (.inr made))

/-- Overlays lay the clips of their layers over the base, the first one first. -/
theorem Layer.paintAll_composite (cache : SourceCache) (clips : List (Clip α))
    (layers : List (Layer α)) (labels : Labels) (pictures : Pictures α)
    (paints : List.Forall₂ (Layer.Paints pictures cache) clips layers)
    (issued : ∀ layer ∈ layers, labels.Issued layer.label) (base : Label) (bottom : Picture α)
    (found : pictures base = some bottom) :
    FilterOp.paintAll (Layer.composite layers base labels).1.1 pictures
      (Layer.composite layers base labels).1.2 =
        some (clips.foldl (Clip.paintOver cache) bottom) := by
  induction clips generalizing layers labels pictures base bottom with
  | nil =>
    cases paints
    exact found
  | cons clip clips ih =>
    cases paints with
    | @cons _ layer _ layers first rest =>
      let output := Labels.label "comp" (labels.count "comp")
      let op : FilterOp α := .overlay base layer.label output layer.placement.x layer.placement.y
        layer.placement.start layer.placement.stop
      -- The overlay makes a new label, so the layers that are still to come keep their pictures.
      have fresh : ¬labels.Issued output := labels.not_issued_next "comp" (by decide)
      have painted : FilterOp.paint pictures op output =
          some (Clip.paintOver cache bottom clip) := by
        rw [Clip.paintOver, first.placed]
        change (if output = output then op.picture? pictures else pictures output) = _
        rw [if_pos rfl]
        simp only [op, FilterOp.picture?, found, first.picture]
        rfl
      refine ih layers (labels.advance "comp") _ ?_ ?_ output _ painted
      · refine Layer.Paints.forall₂_later rest [op] ?_
        intro layer member remade
        rw [List.map_singleton, List.mem_singleton] at remade
        have same : layer.label = output := remade
        exact fresh (same ▸ issued layer (List.mem_cons_of_mem _ member))
      · intro layer member
        rw [Labels.issued_advance labels "comp" (by decide)]
        exact .inl (issued layer (List.mem_cons_of_mem _ member))

/-- The graph of a timeline lays the clips over a black base. -/
theorem paintAll_graphOps (cache : SourceCache) (inputs : List String) (clips : List (Clip α))
    (placed : List (PlacedClip α)) (segments : List (AudioSegment α))
    (places : List.Forall₂ (PlacedClip.Places cache inputs) clips placed)
    (known : ∀ clip ∈ clips, clip.sourcePath ∈ inputs)
    (width height fps : Int) (duration : α) (labels : Labels) (pictures : Pictures α)
    (sources : pictures.HasSources cache inputs clips) :
    FilterOp.paintAll (graphOps width height fps duration placed segments labels).1.1 pictures
      (graphOps width height fps duration placed segments labels).1.2.1 =
        some (clips.foldl (Clip.paintOver cache) (.plain "black" width height)) := by
  obtain ⟨base, chains, overlays, sound, layers, video, audio, l₁, l₂, l₃, l₄, hbase, hchains,
    hoverlays, hsound, parts⟩ := graphOps_parts width height fps duration placed segments labels
  rw [parts]
  dsimp only
  -- Each part makes labels of its own, so that what the parts before it have made stays.
  have issuesBase : labels.Issues ([base].map FilterOp.output) l₁ := by
    cases hbase
    exact .take labels "base" (by decide)
  have issuesChains := PlacedClip.layers_issues placed l₁
  have issuesOverlays := Layer.composite_issues layers base.output l₂
  have issuesSound := AudioSegment.mix_issues segments l₃
  rw [hchains] at issuesChains
  rw [hoverlays] at issuesOverlays
  rw [hsound] at issuesSound
  have baseIssued : l₂.Issued base.output :=
    (issuesChains.issued _).mpr (.inl ((issuesBase.issued _).mpr (.inr (by simp))))
  have layersIssued : ∀ layer ∈ layers, l₂.Issued layer.label := by
    intro layer member
    have wires := PlacedClip.layers_wires cache inputs clips placed places known l₁
    rw [hchains] at wires
    rcases wires.remaining layer.label
      (Multiset.mem_coe.mpr (List.mem_map_of_mem member)) with pooled | made
    · exact absurd pooled (Multiset.notMem_zero _)
    · exact (issuesChains.issued _).mpr (.inr made)
  have videoIssued : l₃.Issued video := by
    have wires := Layer.composite_wires (fun _ _ => False) layers base.output l₂
    rw [hoverlays] at wires
    rcases wires.remaining video (Multiset.mem_singleton_self _) with pooled | made
    · rcases Multiset.mem_cons.mp pooled with rfl | ofLayer
      · exact (issuesOverlays.issued _).mpr (.inl baseIssued)
      · obtain ⟨layer, member, rfl⟩ := List.mem_map.mp (Multiset.mem_coe.mp ofLayer)
        exact (issuesOverlays.issued _).mpr (.inl (layersIssued layer member))
    · exact (issuesOverlays.issued _).mpr (.inr made)
  have basePicture : FilterOp.paintAll [base] pictures base.output =
      some (.plain "black" width height) := by
    cases hbase
    exact if_pos rfl
  have paints := PlacedClip.paintAll_layers cache inputs clips placed places known l₁ _
    (sources.later issuesBase)
  rw [hchains] at paints
  have bottom : FilterOp.paintAll chains (FilterOp.paintAll [base] pictures) base.output =
      some (.plain "black" width height) := by
    rw [FilterOp.paintAll_of_not_mem, basePicture]
    intro remade
    exact issuesChains.fresh _ remade ((issuesBase.issued _).mpr (.inr (by simp)))
  have whole := Layer.paintAll_composite cache clips layers l₂ _ paints layersIssued base.output _
    bottom
  rw [hoverlays] at whole
  rw [← List.singleton_append, FilterOp.paintAll_append, FilterOp.paintAll_append,
    FilterOp.paintAll_append, FilterOp.paintAll_of_not_mem sound, whole]
  exact fun remade => issuesSound.fresh _ remade videoIssued

/-- The picture of a compiled graph has the size of the canvas, and at every time and pixel it
shows what the timeline shows there. -/
theorem shows_compileTimeline (timeline : Timeline α) (cache : SourceCache)
    (options : CompileOptions α) (g : CompiledGraph α)
    (h : (compileTimeline timeline cache options).graph = .ok g) :
    ∃ picture, g.pictures cache g.video = some picture ∧
      picture.width = g.width ∧ picture.height = g.height ∧
      ∀ t pixel, picture.shows t pixel =
        some (timeline.shownAt cache options.minClipDuration t pixel) := by
  obtain ⟨placed, assembled⟩ := compileTimeline_assembled timeline cache options g h
  have parts := assembled.ops_eq
  have ops := congrArg Prod.fst parts
  have video := congrArg (fun outputs => outputs.2.1) parts
  dsimp only at ops video
  have known : ∀ clip ∈ timeline.visual cache options.minClipDuration,
      clip.sourcePath ∈ g.inputs := by
    intro clip visual
    exact assembled.mem_inputs clip
      (timeline.mem_kept_of_mem_visual cache options.minClipDuration clip visual)
  -- Painting by labels comes to painting the layers over each other, of which the last shows.
  have painted := paintAll_graphOps cache g.inputs _ placed
    (audioSegments cache g.inputs (timeline.kept options.minClipDuration)) assembled.places known
    g.width g.height options.fps g.duration Labels.none _
    (Pictures.hasSources_ofInputs cache g.inputs _ known)
  rw [← ops, ← video] at painted
  obtain ⟨width, height⟩ := Clip.foldl_paintOver_size cache
    (timeline.visual cache options.minClipDuration) (.plain "black" g.width g.height)
  refine ⟨_, painted, width, height, ?_⟩
  intro t pixel
  rw [Clip.foldl_paintOver_shows]
  simp only [Timeline.shownAt]
  cases ((timeline.visual cache options.minClipDuration).filter fun clip =>
    clip.covers (cache.info clip.sourcePath) t pixel).getLast? <;> rfl

end

theorem shows_compileTimeline_overlapping :
    ∃ g picture, (compileTimeline Timeline.overlapping SourceCache.sounding .standard).graph =
        .ok g ∧
      g.pictures SourceCache.sounding g.video = some picture ∧
      picture.shows (Scalar.nat 3) (20, 20) = some (.source "a.mp4" (Scalar.nat 2)) ∧
      picture.shows (Scalar.nat 1) (20, 20) = some (.source "a.mp4" (Scalar.nat 1)) ∧
      picture.shows (Scalar.nat 1) (20, 60) = some (.color "black") := by
  obtain ⟨g, compiled⟩ := CompileOutcome.exists_graph
    (compileTimeline Timeline.overlapping SourceCache.sounding .standard) (by decide +kernel)
  obtain ⟨picture, found, _, _, atEvery⟩ := shows_compileTimeline _ _ _ g compiled
  refine ⟨g, picture, compiled, found, ?_, ?_, ?_⟩
  · rw [atEvery]
    decide +kernel
  · rw [atEvery]
    decide +kernel
  · rw [atEvery]
    decide +kernel

end Montage
