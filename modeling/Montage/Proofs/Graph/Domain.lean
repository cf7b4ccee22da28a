import Montage.Proofs.Graph.Outline
import Montage.Proofs.Graph.Parts
import Montage.Proofs.Timeline.Reading
import Montage.Proofs.Frame.Span

/-!
# What a renderer takes

The renderer takes pictures with even sides of two pixels or more, crops that begin inside the
frame with sides that are even or a single pixel, turns that turn or flip something, and mixes of
one sound or more. Every operation of a compiled graph is within these bounds, for sources of any
size and for clips of any scale; and within the chain of a clip the kinds come in their declared
order, those for color and for turning only where there is something to do.
-/
namespace Montage

/-- A side of a picture that can be made. -/
structure IsEvenSide (side : Int) : Prop where
  even : side % 2 = 0
  least : 2 ≤ side

/-- A side of a crop: a single pixel, or an even number of them. -/
def IsCropSide (side : Int) : Prop := side = 1 ∨ IsEvenSide side

structure PixelRect.IsCrop (rect : PixelRect) : Prop where
  x : 0 ≤ rect.x
  y : 0 ≤ rect.y
  width : IsCropSide rect.width
  height : IsCropSide rect.height

/-- A source whose size is not negative; an unknown one has the size zero. -/
structure SourceInfo.HasSize (info : SourceInfo) : Prop where
  width : 0 ≤ info.width
  height : 0 ≤ info.height

theorem SourceCache.hasSize_info {cache : SourceCache}
    (h : ∀ entry ∈ cache, entry.2.info.HasSize) (path : String) : (cache.info path).HasSize := by
  unfold info find?
  cases found : List.find? (·.1 = path) cache with
  | none => exact ⟨Int.le_refl 0, Int.le_refl 0⟩
  | some entry => exact h entry (List.mem_of_find?_eq_some found)

namespace Frame

theorem evenDown_isEvenSide (n : Int) : IsEvenSide (evenDown n) := by
  unfold evenDown
  constructor <;> omega

theorem evenUp_isEvenSide (n : Int) : IsEvenSide (evenUp n) := by
  unfold evenUp
  constructor <;> split <;> omega

theorem scaledSide_isEvenSide {α : Type} [Scalar α] {side length : Int} {scale : α}
    (scaled : scaledSide side scale = .ok length) : IsEvenSide length := by
  obtain ⟨_, _, scaled⟩ := Except.bind_eq_ok_iff.mp scaled
  obtain ⟨n, _, scaled⟩ := Except.bind_eq_ok_iff.mp scaled
  cases scaled
  exact evenUp_isEvenSide n

theorem scaledSize_isEvenSide {α : Type} [Scalar α] {width height : Int} {scale : α}
    {size : Int × Int} (scaled : scaledSize width height scale = .ok size) :
    IsEvenSide size.1 ∧ IsEvenSide size.2 := by
  obtain ⟨_, across, scaled⟩ := Except.bind_eq_ok_iff.mp scaled
  obtain ⟨_, down, scaled⟩ := Except.bind_eq_ok_iff.mp scaled
  cases scaled
  exact ⟨scaledSide_isEvenSide across, scaledSide_isEvenSide down⟩

/-- Whatever the clips are, the canvas has even sides. -/
theorem canvasSize_isEvenSide {α : Type} [Scalar α] {canvas : Canvas} {clips : List (Clip α)}
    {cache : SourceCache} {defaultWidth defaultHeight width height : Int}
    (h : canvasSize canvas clips cache defaultWidth defaultHeight = .ok (width, height)) :
    IsEvenSide width ∧ IsEvenSide height := by
  unfold canvasSize at h
  -- The sides are given, derived from the clips or the default ones, and made even in any case.
  split at h
  · cases h
    exact ⟨evenDown_isEvenSide _, evenDown_isEvenSide _⟩
  · obtain ⟨sizes, _, h⟩ := Except.bind_eq_ok_iff.mp h
    dsimp only at h
    split at h
    · cases h
      exact ⟨evenDown_isEvenSide _, evenDown_isEvenSide _⟩
    · cases h
      exact ⟨evenDown_isEvenSide _, evenDown_isEvenSide _⟩

/-- A span that does not begin before the axis is not moved there. -/
theorem fitSpan_isCrop (offset size source : Int) (inside : 0 ≤ offset) :
    0 ≤ (fitSpan offset size source).1 ∧ IsCropSide (fitSpan offset size source).2 := by
  refine ⟨fitSpan_nonneg offset size source inside, ?_⟩
  obtain ⟨least, _, _, even⟩ := evenSide_spec (min size (source - offset))
  rw [← fitSpan_snd] at least even
  by_cases single : (fitSpan offset size source).2 = 1
  · exact .inl single
  · exact .inr ⟨even single, by omega⟩

theorem cropAxis_isCrop {offset size : Percent Binary64} {source : Int} {span : Int × Int}
    (inside : offset.value.NotNegative) (sized : 0 ≤ source)
    (h : cropAxis offset size source = .ok span) : 0 ≤ span.1 ∧ IsCropSide span.2 := by
  obtain ⟨share, start, _, length, shared, rounded, _, _, rfl⟩ := exists_of_cropAxis h
  exact fitSpan_isCrop _ _ _ ((Percent.notNegative_share inside sized shared).roundHalfUp rounded)

end Frame

/-- The crop and the scaled sides of a placed clip. -/
theorem Placement.isCrop_of_ofClip {clip : Clip Binary64} {info : SourceInfo}
    {placement : Placement Binary64} (inside : clip.crop.BeginsInside) (sized : info.HasSize)
    (h : Placement.ofClip clip info = .ok placement) :
    placement.crop.IsCrop ∧ IsEvenSide placement.scaledWidth ∧
      IsEvenSide placement.scaledHeight := by
  have own := Placement.isOf_of_ofClip h
  obtain ⟨across, down⟩ := Frame.axes_of_cropRect own.crop
  obtain ⟨left, wide⟩ := Frame.cropAxis_isCrop inside.x sized.width across
  obtain ⟨top, high⟩ := Frame.cropAxis_isCrop inside.y sized.height down
  exact ⟨⟨left, top, wide, high⟩, Frame.scaledSize_isEvenSide own.scaled⟩

variable {α : Type}

/-- The parameters that a renderer takes of each kind of operation. -/
def FilterOp.InDomain : FilterOp α → Prop
  | .colorSource _ _ width height _ _ => IsEvenSide width ∧ IsEvenSide height
  | .crop _ _ rect => rect.IsCrop
  | .scale _ _ width height => IsEvenSide width ∧ IsEvenSide height
  | .rotateFlip _ _ degrees flipH flipV => degrees ≠ 0 ∨ flipH = true ∨ flipV = true
  | .audioMix sources _ count _ => count = sources.length ∧ 1 ≤ count
  | _ => True

section

variable [Scalar α]

namespace Clip

/-- The kinds of the operations in a clip's chain. -/
def chainKinds (clip : Clip α) : List FilterKind :=
  [.crop, .trim] ++ (if clip.colorFilters.isNeutral then [] else [.colorAdjust]) ++ [.scale]
    ++ (if clip.isTurned then [.rotateFlip] else [])

theorem map_kind_chain (clip : Clip α) (info : SourceInfo) (placement : Placement α)
    (source : Label) (labels : Labels) :
    (clip.chain info placement source labels).1.1.map FilterOp.kind = clip.chainKinds := by
  unfold chain stages colorStages turnStages chainKinds
  dsimp only
  split
  · split <;> rfl
  · split <;> rfl

theorem chainKinds_increasing (clip : Clip α) :
    clip.chainKinds.Pairwise fun first second => first.rank < second.rank := by
  unfold chainKinds
  split
  · split <;> decide
  · split <;> decide

theorem colorAdjust_mem_chainKinds (clip : Clip α) :
    .colorAdjust ∈ clip.chainKinds ↔ clip.colorFilters.isNeutral = false := by
  unfold chainKinds
  cases clip.colorFilters.isNeutral <;> cases clip.isTurned <;> decide

theorem rotateFlip_mem_chainKinds (clip : Clip α) :
    .rotateFlip ∈ clip.chainKinds ↔ clip.isTurned = true := by
  unfold chainKinds
  cases clip.colorFilters.isNeutral <;> cases clip.isTurned <;> decide

omit [Scalar α] in
theorem isTurned_iff (clip : Clip α) :
    clip.isTurned = true ↔ clip.rotate.degrees ≠ 0 ∨ clip.flipH = true ∨ clip.flipV = true := by
  unfold isTurned
  cases clip.rotate <;> cases clip.flipH <;> cases clip.flipV <;> decide

/-- The chain of a clip on the picture of its source. -/
def HasChain (cache : SourceCache) (inputs : List String) (clip : Clip α)
    (ops : List (FilterOp α)) : Prop :=
  ∃ placement labels, Placement.ofClip clip (cache.info clip.sourcePath) = .ok placement ∧
    ops = (clip.chain (cache.info clip.sourcePath) placement
      (streamRef (inputIndex inputs clip.sourcePath) "v") labels).1.1

/-- The kinds of a chain come in their order, and those that can be left out are there where the
clip has something for them to do. -/
structure IsOrderly (clip : Clip α) (ops : List (FilterOp α)) : Prop where
  increasing : ops.Pairwise fun first second => first.kind.rank < second.kind.rank
  colored : (∃ op ∈ ops, op.kind = .colorAdjust) ↔ clip.colorFilters.isNeutral = false
  turned : (∃ op ∈ ops, op.kind = .rotateFlip) ↔
    clip.rotate.degrees ≠ 0 ∨ clip.flipH = true ∨ clip.flipV = true

theorem HasChain.map_kind {cache : SourceCache} {inputs : List String} {clip : Clip α}
    {ops : List (FilterOp α)} (h : HasChain cache inputs clip ops) :
    ops.map FilterOp.kind = clip.chainKinds := by
  obtain ⟨placement, labels, _, rfl⟩ := h
  exact clip.map_kind_chain _ placement _ labels

theorem HasChain.isOrderly {cache : SourceCache} {inputs : List String} {clip : Clip α}
    {ops : List (FilterOp α)} (h : HasChain cache inputs clip ops) : clip.IsOrderly ops where
  increasing := by
    have kinds := clip.chainKinds_increasing
    rw [← h.map_kind, List.pairwise_map] at kinds
    exact kinds
  colored := by
    rw [← clip.colorAdjust_mem_chainKinds, ← h.map_kind, List.mem_map]
  turned := by
    rw [← clip.isTurned_iff, ← clip.rotateFlip_mem_chainKinds, ← h.map_kind, List.mem_map]

end Clip

/-- The chains of a graph, one after the other. -/
theorem PlacedClip.exists_chains {cache : SourceCache} {inputs : List String}
    {clips : List (Clip α)} {placed : List (PlacedClip α)}
    (places : List.Forall₂ (PlacedClip.Places cache inputs) clips placed) (labels : Labels) :
    ∃ chains, (PlacedClip.layers placed labels).1.1 = chains.flatten ∧
      List.Forall₂ (Clip.HasChain cache inputs) clips chains := by
  induction places generalizing labels with
  | nil => exact ⟨[], rfl, .nil⟩
  | @cons clip p clips placed first _ ih =>
    let chain := p.clip.chain p.info p.placement p.source labels
    obtain ⟨chains, ops, each⟩ := ih chain.2
    refine ⟨chain.1.1 :: chains, ?_, .cons ⟨p.placement, labels, first.placed, ?_⟩ each⟩
    · rw [List.flatten_cons, ← ops]
      rfl
    · rw [← first.info_eq, ← first.source_eq, ← first.clip_eq]

end

/-- The operations of a chain are in their domains. -/
theorem Clip.HasChain.inDomain {cache : SourceCache} {inputs : List String} {clip : Clip Binary64}
    {ops : List (FilterOp Binary64)} (h : Clip.HasChain cache inputs clip ops)
    (inside : clip.crop.BeginsInside) (sized : (cache.info clip.sourcePath).HasSize) :
    ∀ op ∈ ops, op.InDomain := by
  have kinds := h.map_kind
  obtain ⟨placement, labels, placed, rfl⟩ := h
  obtain ⟨crop, wide, high⟩ := Placement.isCrop_of_ofClip inside sized placed
  have each : ∀ op ∈ (clip.chain (cache.info clip.sourcePath) placement
      (streamRef (inputIndex inputs clip.sourcePath) "v") labels).1.1,
      op.kind = .rotateFlip ∧ (clip.isTurned = true → op.InDomain) ∨ op.InDomain := by
    refine Stage.forall_mem_thread _ (clip.forall_mem_stages _ placement ?_ ?_ ?_ ?_ ?_) _ labels
    · exact fun _ _ => .inr crop
    · exact fun _ _ => .inr trivial
    · exact fun _ _ => .inr trivial
    · exact fun _ _ => .inr ⟨wide, high⟩
    · exact fun _ _ => .inl ⟨rfl, clip.isTurned_iff.mp⟩
  intro op member
  rcases each op member with ⟨kind, domain⟩ | domain
  · -- There is a turn in the chain only where the clip is turned.
    have listed : op.kind ∈ clip.chainKinds := kinds ▸ List.mem_map_of_mem member
    rw [kind, clip.rotateFlip_mem_chainKinds] at listed
    exact domain listed
  · exact domain

theorem Clip.HasChain.inDomain_flatten {cache : SourceCache} {inputs : List String}
    {clips : List (Clip Binary64)} {chains : List (List (FilterOp Binary64))}
    (each : List.Forall₂ (Clip.HasChain cache inputs) clips chains)
    (inside : ∀ clip ∈ clips, clip.crop.BeginsInside)
    (sized : ∀ path, (cache.info path).HasSize) : ∀ op ∈ chains.flatten, op.InDomain := by
  induction each with
  | nil => exact List.forall_mem_nil _
  | @cons clip ops _ _ first _ ih =>
    obtain ⟨here, later⟩ := List.forall_mem_cons.mp inside
    rw [List.flatten_cons]
    exact List.forall_mem_append.mpr ⟨first.inDomain here (sized clip.sourcePath), ih later⟩

/-- A turn that turns or flips is not written as the word for doing nothing. -/
theorem GraphText.turnAndFlips_ne_null {degrees : Int} {flipH flipV : Bool}
    (active : degrees ≠ 0 ∨ flipH = true ∨ flipV = true) :
    turnAndFlips degrees flipH flipV ≠ .ok "null" := by
  intro null
  unfold turnAndFlips turnParts at null
  -- For each of the four turns the texts of both flips are told apart from the word by evaluation.
  split at null
  next upright =>
    cases flipH <;> cases flipV <;> revert null
    · simp [upright] at active
    all_goals decide
  · split at null
    · cases flipH <;> cases flipV <;> revert null <;> decide
    · split at null
      · cases flipH <;> cases flipV <;> revert null <;> decide
      · split at null
        · cases flipH <;> cases flipV <;> revert null <;> decide
        · cases null

open Outline in
/-- Only a turn that turns and flips nothing is written as the word that does nothing. -/
theorem FilterOp.action_ne_null {op : FilterOp Binary64} (writable : op.IsWritable)
    (domain : op.InDomain) : op.action ≠ .ok "null" := by
  intro null
  have kind := (reads_action op writable "null" null).kind
  have word : FilterKind.ofWord? (firstWord "null".toList) = some .rotateFlip := by decide
  rw [word, Option.some.injEq] at kind
  cases op with
  | rotateFlip source output degrees flipH flipV =>
    exact GraphText.turnAndFlips_ne_null domain null
  | _ => cases kind

/-- The graph of a timeline, held against the renderer's bounds. -/
structure CompiledGraph.IsAccepted (timeline : Timeline Binary64) (cache : SourceCache)
    (options : CompileOptions Binary64) (g : CompiledGraph Binary64) : Prop where
  /-- The base, of the graph's own size, comes first and is the only picture of one color. -/
  base : ∃ rest, g.ops = .baseOf g.width g.height options.fps g.duration :: rest ∧
    ∀ op ∈ rest, op.kind ≠ .colorSource
  width : IsEvenSide g.width
  height : IsEvenSide g.height
  domain : ∀ op ∈ g.ops, op.InDomain
  active : ∀ op ∈ g.ops, op.action ≠ .ok "null"
  /-- Every clip with a picture has its chain. -/
  chains : ∃ chains, g.part .chains = chains.flatten ∧
    List.Forall₂ (fun clip ops => Clip.HasChain cache g.inputs clip ops ∧ clip.IsOrderly ops)
      (timeline.visual cache options.minClipDuration) chains
  /-- Nothing comes after a mix, so there is one at most. -/
  mix : ∀ before op after, g.ops = before ++ op :: after → op.kind = .audioMix → after = []

namespace CompiledGraph

section

variable {g : CompiledGraph α}

theorem part_of_mem {part : GraphPart} {op : FilterOp α} (member : op ∈ g.part part) :
    op.kind.part = part := by
  simpa using (List.mem_filter.mp member).2

/-- The base is the first operation of a graph, and the only one of its kind. -/
theorem Arranged.base_first {fps : Int} (h : g.Arranged fps) :
    ∃ rest, g.ops = .baseOf g.width g.height fps g.duration :: rest ∧
      ∀ op ∈ rest, op.kind ≠ .colorSource := by
  refine ⟨g.part .chains ++ (g.part .overlays ++ (g.part .trims ++ g.part .mix)), ?_, ?_⟩
  · rw [← List.singleton_append, ← h.base, ← List.append_assoc, ← List.append_assoc,
      ← List.append_assoc]
    exact h.ops
  -- Each of the other parts has operations of its own kinds.
  · intro op member same
    have base : op.kind.part = .base := by rw [same]; rfl
    simp only [List.mem_append] at member
    rcases member with chain | overlay | trim | mix
    · exact nomatch base.symm.trans (part_of_mem chain)
    · exact nomatch base.symm.trans (part_of_mem overlay)
    · exact nomatch base.symm.trans (part_of_mem trim)
    · exact nomatch base.symm.trans (part_of_mem mix)

/-- A mix is the last operation of a graph. -/
theorem Arranged.last_of_mix {fps : Int} (h : g.Arranged fps) {before after : List (FilterOp α)}
    {op : FilterOp α} (split : g.ops = before ++ op :: after) (mix : op.kind = .audioMix) :
    after = [] := by
  have own : op.kind.part = .mix := by rw [mix]; rfl
  have apart : op ∉ g.part .base ++ g.part .chains ++ g.part .overlays ++ g.part .trims := by
    intro member
    simp only [List.mem_append] at member
    rcases member with ((base | chain) | overlay) | trim
    · exact nomatch own.symm.trans (part_of_mem base)
    · exact nomatch own.symm.trans (part_of_mem chain)
    · exact nomatch own.symm.trans (part_of_mem overlay)
    · exact nomatch own.symm.trans (part_of_mem trim)
  -- The last part is one operation at most, so what stands before another one is in the others.
  rcases List.eq_nil_or_concat' after with none | ⟨rest, last, rfl⟩
  · exact none
  · have ops := h.ops
    rw [h.mix, FilterOp.mixOf, split] at ops
    refine absurd ?_ apart
    split at ops
    · rw [← List.append_nil (_ ++ _ ++ _ ++ _), ← ops]
      simp
    · rw [← List.cons_append, ← List.append_assoc] at ops
      rw [← (List.append_inj' ops rfl).1]
      simp

/-- Overlays and trims of sounds have no bounds to keep. -/
theorem inDomain_of_part {part : GraphPart} (free : part = .overlays ∨ part = .trims) :
    ∀ op ∈ g.part part, op.InDomain := by
  intro op member
  rw [← part_of_mem member] at free
  rcases free with overlay | trim
  · cases op <;> trivial
  · cases op <;> trivial

theorem inDomain_mixOf (trims : List (FilterOp α)) : ∀ op ∈ FilterOp.mixOf trims, op.InDomain := by
  unfold FilterOp.mixOf
  split
  · exact List.forall_mem_nil _
  next heard =>
    refine List.forall_mem_singleton.mpr ⟨rfl, ?_⟩
    rw [List.length_map]
    exact List.length_pos_iff.mpr (by simpa using heard)

end

end CompiledGraph

theorem CompiledGraph.Assembled.isAccepted {timeline : Timeline Binary64} {cache : SourceCache}
    {options : CompileOptions Binary64} {g : CompiledGraph Binary64}
    {placed : List (PlacedClip Binary64)} (assembled : g.Assembled timeline cache options placed)
    (framed : timeline.IsFramed) (sized : ∀ entry ∈ cache, entry.2.info.HasSize) :
    g.IsAccepted timeline cache options := by
  obtain ⟨arranged, parted⟩ := assembled.parted
  obtain ⟨chains, chained, each⟩ := PlacedClip.exists_chains assembled.places Labels.none
  rw [← parted.chains] at chained
  obtain ⟨wide, high⟩ := Frame.canvasSize_isEvenSide assembled.canvas
  have inside : ∀ clip ∈ timeline.visual cache options.minClipDuration,
      clip.crop.BeginsInside := by
    intro clip seen
    obtain ⟨entry, chosen, rfl⟩ := List.mem_map.mp seen
    exact framed entry (List.mem_filter.mp (List.mem_filter.mp chosen).1).1
  -- Base and chains need the sizes and crops; the other parts are in their domains by their shape.
  have domain : ∀ op ∈ g.ops, op.InDomain := by
    rw [arranged.ops]
    simp only [List.forall_mem_append]
    refine ⟨⟨⟨⟨?base, ?chains⟩, ?overlays⟩, ?trims⟩, ?mix⟩
    case base =>
      rw [arranged.base]
      exact List.forall_mem_singleton.mpr ⟨wide, high⟩
    case chains =>
      rw [chained]
      exact Clip.HasChain.inDomain_flatten each inside (SourceCache.hasSize_info sized)
    case overlays => exact CompiledGraph.inDomain_of_part (.inl rfl)
    case trims => exact CompiledGraph.inDomain_of_part (.inr rfl)
    case mix =>
      rw [arranged.mix]
      exact CompiledGraph.inDomain_mixOf _
  exact {
    base := arranged.base_first
    width := wide
    height := high
    domain := domain
    active := fun op member =>
      FilterOp.action_ne_null (assembled.isWritable op member) (domain op member)
    chains := ⟨chains, chained, each.imp fun _ _ chain => ⟨chain, chain.isOrderly⟩⟩
    mix := fun _ _ _ split mix => arranged.last_of_mix split mix }

/-- Whatever the sizes of the sources are, known or not, a renderer takes every operation of a
compiled graph. -/
theorem isAccepted_compileTimeline (timeline : Timeline Binary64) (cache : SourceCache)
    (options : CompileOptions Binary64) (g : CompiledGraph Binary64)
    (framed : timeline.IsFramed) (sized : ∀ entry ∈ cache, entry.2.info.HasSize)
    (compiles : (compileTimeline timeline cache options).graph = .ok g) :
    g.IsAccepted timeline cache options := by
  obtain ⟨placed, assembled⟩ := compileTimeline_assembled timeline cache options g compiles
  exact assembled.isAccepted framed sized

theorem isAccepted_compileTimeline_overlapping :
    Timeline.overlapping.IsFramed ∧ (∀ entry ∈ SourceCache.sounding, entry.2.info.HasSize) ∧
      ∃ g, (compileTimeline Timeline.overlapping SourceCache.sounding .standard).graph = .ok g ∧
        g.IsAccepted Timeline.overlapping SourceCache.sounding .standard := by
  have framed : Timeline.overlapping.IsFramed := by
    intro entry member
    simp only [Timeline.clips, Timeline.overlapping, Clip.ofSpan, List.flatMap_cons,
      List.flatMap_nil, List.map_cons, List.map_nil, List.append_nil, List.cons_append,
      List.nil_append, List.mem_cons, List.not_mem_nil, or_false] at member
    rcases member with rfl | rfl <;> exact Crop.beginsInside_full
  have sized : ∀ entry ∈ SourceCache.sounding, entry.2.info.HasSize :=
    List.forall_mem_singleton.mpr ⟨by decide, by decide⟩
  obtain ⟨g, compiles⟩ := CompileOutcome.exists_graph
    (compileTimeline Timeline.overlapping SourceCache.sounding .standard) (by decide +kernel)
  exact ⟨framed, sized, g, compiles,
    isAccepted_compileTimeline _ _ .standard g framed sized compiles⟩

/-- In particular it takes what a document is compiled to, with whatever paths its sources are
resolved to. -/
theorem CompiledGraph.isAccepted_of_fromDocument {origin : Document.Origin} {document : Json}
    {timeline : Timeline Binary64} (read : Timeline.fromDocument origin document = .valid timeline)
    (resolve : String → String) {cache : SourceCache} {options : CompileOptions Binary64}
    {g : CompiledGraph Binary64} (sized : ∀ entry ∈ cache, entry.2.info.HasSize)
    (compiles : (compileTimeline (timeline.mapSources resolve) cache options).graph = .ok g) :
    g.IsAccepted (timeline.mapSources resolve) cache options := by
  obtain ⟨placed, assembled⟩ := compileTimeline_assembled _ cache options g compiles
  exact assembled.isAccepted ((Timeline.isFramed_of_fromDocument read).mapSources resolve) sized

end Montage
