import Mathlib.Data.Multiset.Count
import Mathlib.Data.Multiset.AddSub
import Montage.Proofs.Graph.Numbering

/-!
# The wiring of compiled graphs

Every label of a compiled graph is made once and read once, later than it is made; only the labels
of the output are left unread. The streams of the inputs enter at crops and at audio trims and
nowhere else.

The proof follows a pool of labels that have been made and not yet read. An operation takes its
inputs out of the pool, or from the streams that are open to it, and puts its output in. The
builders of chains, overlays and sound each leave the rest of the pool alone, so their runs can be
put one after the other.
-/
namespace Montage

/-- Operations that each take what they read out of a pool of labels, or from streams open to
them, and put what they make into it. -/
inductive Wires {α : Type} (Opens : FilterOp α → Label → Prop) :
    Multiset Label → List (FilterOp α) → Multiset Label → Prop
  | done (pool) : Wires Opens pool [] pool
  | next {op : FilterOp α} {ops} {final} (streams taken : List Label) (rest) :
      op.inputs = streams ++ taken → (∀ l ∈ streams, Opens op l) →
      Wires Opens (op.output ::ₘ rest) ops final →
      Wires Opens ((taken : Multiset Label) + rest) (op :: ops) final

namespace Wires

variable {α : Type} {Opens : FilterOp α → Label → Prop}

theorem append {a b c : Multiset Label} {first second : List (FilterOp α)}
    (h : Wires Opens a first b) (then' : Wires Opens b second c) :
    Wires Opens a (first ++ second) c := by
  induction h with
  | done => exact then'
  | next streams taken rest inputs opens _ ih =>
    exact .next streams taken rest inputs opens (ih then')

/-- What the operations do not read stays in the pool. -/
theorem beside {a b : Multiset Label} {ops : List (FilterOp α)} (h : Wires Opens a ops b)
    (others : Multiset Label) : Wires Opens (a + others) ops (b + others) := by
  induction h with
  | done => exact .done _
  | next streams taken rest inputs opens _ ih =>
    rw [Multiset.add_assoc]
    refine .next streams taken (rest + others) inputs opens ?_
    rwa [Multiset.cons_add] at ih

/-- An operation reads what was in the pool, what an earlier one made, or an open stream. -/
theorem defined {a b : Multiset Label} {ops before after : List (FilterOp α)} {op : FilterOp α}
    (h : Wires Opens a ops b) (split : ops = before ++ op :: after) (l : Label)
    (read : l ∈ op.inputs) : l ∈ a ∨ l ∈ before.map FilterOp.output ∨ Opens op l := by
  induction h generalizing before with
  | done => simp at split
  -- The first operation adds its output to the pool that the later ones read from.
  | @next first ops final streams taken rest inputs opens _ ih =>
    cases before with
    | nil =>
      obtain ⟨rfl, rfl⟩ := List.cons.inj split
      rw [inputs, List.mem_append] at read
      rcases read with stream | made
      · exact .inr (.inr (opens l stream))
      · exact .inl (Multiset.mem_add.mpr (.inl made))
    | cons _ before =>
      obtain ⟨rfl, rfl⟩ := List.cons.inj split
      rcases ih rfl with pooled | earlier | stream
      · rcases Multiset.mem_cons.mp pooled with rfl | pooled
        · exact .inr (.inl List.mem_cons_self)
        · exact .inl (Multiset.mem_add.mpr (.inr pooled))
      · exact .inr (.inl (List.mem_cons_of_mem _ earlier))
      · exact .inr (.inr stream)

theorem remaining {a b : Multiset Label} {ops : List (FilterOp α)} (h : Wires Opens a ops b)
    (l : Label) (present : l ∈ b) : l ∈ a ∨ l ∈ ops.map FilterOp.output := by
  induction h with
  | done => exact .inl present
  | @next op ops final streams taken rest _ _ _ ih =>
    rw [List.map_cons, List.mem_cons]
    rcases ih present with pooled | made
    · rcases Multiset.mem_cons.mp pooled with rfl | pooled
      · exact .inr (.inl rfl)
      · exact .inl (Multiset.mem_add.mpr (.inr pooled))
    · exact .inr (.inr made)

/-- A label is read as often as it is in the pool or made, less what is left of it. -/
theorem balance {a b : Multiset Label} {ops : List (FilterOp α)} (h : Wires Opens a ops b)
    (l : Label) (closed : ∀ op, ¬Opens op l) :
    (ops.flatMap FilterOp.inputs).count l + b.count l =
      (ops.map FilterOp.output).count l + a.count l := by
  induction h with
  | done => simp
  | @next op ops final streams taken rest inputs opens _ ih =>
    -- A label that is open to nobody is none of the streams that this operation reads.
    have unopened : streams.count l = 0 :=
      List.count_eq_zero.mpr fun stream => closed op (opens l stream)
    have made : (op.output ::ₘ rest).count l = [op.output].count l + rest.count l := by
      rw [← Multiset.singleton_add, Multiset.count_add, ← Multiset.coe_singleton,
        Multiset.coe_count]
    rw [made] at ih
    rw [List.flatMap_cons, List.map_cons, List.count_append, inputs, List.count_append, unopened,
      Multiset.count_add, Multiset.coe_count, ← List.singleton_append, List.count_append]
    omega

end Wires

/-- A stage that reads the stream before it and others besides. -/
structure Stage.Reads {α : Type} (stage : Stage α) (others : List Label) : Prop where
  stem : Labels.IsStem stage.stem
  inputs : ∀ source output, (stage.op source output).inputs = source :: others
  output : ∀ source output, (stage.op source output).output = output

namespace Stage

variable {α : Type}

/-- Stages one after the other read their source and the others, and leave one label. -/
theorem thread_wires (Opens : FilterOp α → Label → Prop) (stages : List (Stage α))
    (others : List (List Label))
    (reads : List.Forall₂ Stage.Reads stages others) (source : Label) (labels : Labels) :
    Wires Opens (source ::ₘ (others.flatten : Multiset Label))
      (Stage.thread stages source labels).1.1 {(Stage.thread stages source labels).1.2} := by
  induction reads generalizing source labels with
  | nil => exact .done _
  | @cons stage extra stages others first _ ih =>
    let output := Labels.label stage.stem (labels.count stage.stem)
    have rest := ih output (labels.advance stage.stem)
    -- The stage takes the source and its own extra labels, and leaves the others for the rest.
    have pool : source ::ₘ (((extra :: others).flatten : List Label) : Multiset Label) =
        ((source :: extra : List Label) : Multiset Label) + (others.flatten : Multiset Label) := by
      rw [List.flatten_cons, ← Multiset.coe_add, ← Multiset.cons_coe, Multiset.cons_add]
    rw [pool]
    refine .next [] (source :: extra) _ (first.inputs source output) (by simp) ?_
    rw [first.output]
    exact rest

end Stage

/-- The prober found sound in a source. -/
def SourceCache.HasSound (cache : SourceCache) (path : String) : Prop :=
  ∃ info, cache.find? path = some (.found info) ∧ info.hasAudio = true

theorem SourceCache.hasSound_of_info (cache : SourceCache) (path : String)
    (h : (cache.info path).hasAudio = true) : cache.HasSound path := by
  unfold SourceCache.info at h
  cases found : cache.find? path with
  | none => simp [found, SourceInfo.unknown] at h
  | some finding =>
    cases finding with
    | unavailable => simp [found, Finding.info, SourceInfo.unknown] at h
    | found info => exact ⟨info, found, by simpa [found, Finding.info] using h⟩

/-- The streams of inputs that an operation may read: pictures at crops, and at audio trims the
sound of sources that have any. -/
def FilterOp.Opens {α : Type} (inputs : List String) (cache : SourceCache) (op : FilterOp α)
    (l : Label) : Prop :=
  (op.kind = .crop ∧ ∃ k : Nat, k < inputs.length ∧ l = streamRef k "v") ∨
  (op.kind = .audioTrim ∧ ∃ (k : Nat) (path : String),
    inputs[k]? = some path ∧ cache.HasSound path ∧ l = streamRef k "a")

theorem FilterOp.not_opens_of_issued {α : Type} (inputs : List String) (cache : SourceCache)
    (labels : Labels) (l : Label) (issued : labels.Issued l) (op : FilterOp α) :
    ¬op.Opens inputs cache l := by
  rintro (⟨_, k, _, rfl⟩ | ⟨_, k, _, _, _, rfl⟩)
  · exact labels.not_issued_streamRef k "v" issued
  · exact labels.not_issued_streamRef k "a" issued

variable {α : Type}

namespace Layer

theorem forall₂_reads_stage (layers : List (Layer α)) :
    List.Forall₂ Stage.Reads (layers.map Layer.stage) (layers.map fun layer => [layer.label]) := by
  rw [List.forall₂_map_left_iff, List.forall₂_map_right_iff, List.forall₂_same]
  intro layer _
  exact ⟨(by decide : Labels.IsStem "comp"), fun _ _ => rfl, fun _ _ => rfl⟩

theorem composite_issues (layers : List (Layer α)) (base : Label) (labels : Labels) :
    labels.Issues ((Layer.composite layers base labels).1.1.map FilterOp.output)
      (Layer.composite layers base labels).2 :=
  (Layer.numbered_composite layers base labels).issues

/-- The overlays read the base and every layer and leave the whole picture. -/
theorem composite_wires (Opens : FilterOp α → Label → Prop) (layers : List (Layer α))
    (base : Label) (labels : Labels) :
    Wires Opens (base ::ₘ (layers.map Layer.label : Multiset Label))
      (Layer.composite layers base labels).1.1 {(Layer.composite layers base labels).1.2} := by
  have run := Stage.thread_wires Opens _ _ (forall₂_reads_stage layers) base labels
  have others : (layers.map fun layer => [layer.label]).flatten = layers.map Layer.label := by
    rw [← List.flatMap_def]
    exact (List.map_eq_flatMap ..).symm
  rwa [others] at run

end Layer

namespace AudioSegment

theorem trims_issues (segments : List (AudioSegment α)) (labels : Labels) :
    labels.Issues ((AudioSegment.trims segments labels).1.map FilterOp.output)
      (AudioSegment.trims segments labels).2 :=
  (AudioSegment.numbered_trims segments labels).issues

/-- The trims of segments whose sources are open to them leave one label each. -/
theorem trims_wires (inputs : List String) (cache : SourceCache) (segments : List (AudioSegment α))
    (sounds : ∀ s ∈ segments, ∃ (k : Nat) (path : String),
      inputs[k]? = some path ∧ cache.HasSound path ∧ s.source = streamRef k "a")
    (labels : Labels) :
    Wires (FilterOp.Opens inputs cache) 0 (AudioSegment.trims segments labels).1
      ((AudioSegment.trims segments labels).1.map FilterOp.output : Multiset Label) := by
  induction segments generalizing labels with
  | nil => exact .done 0
  | cons s rest ih =>
    have later := ih (fun s member => sounds s (List.mem_cons_of_mem _ member))
      (labels.advance "aseg")
    -- The first trim has been made, and waits beside the others.
    have beside := later.beside {Labels.label "aseg" (labels.count "aseg")}
    rw [Multiset.zero_add, Multiset.add_comm] at beside
    refine .next [s.source] [] 0 rfl ?_ beside
    intro l member
    rw [List.mem_singleton.mp member]
    exact .inr ⟨rfl, sounds s List.mem_cons_self⟩

theorem mix_issues [Scalar α] (segments : List (AudioSegment α)) (labels : Labels) :
    labels.Issues ((AudioSegment.mix segments labels).1.1.map FilterOp.output)
      (AudioSegment.mix segments labels).2 :=
  (AudioSegment.numbered_mix segments labels).issues

/-- The sound leaves the label of its mix, or nothing where there is no segment. -/
theorem mix_wires [Scalar α] (inputs : List String) (cache : SourceCache)
    (segments : List (AudioSegment α))
    (sounds : ∀ s ∈ segments, ∃ (k : Nat) (path : String),
      inputs[k]? = some path ∧ cache.HasSound path ∧ s.source = streamRef k "a")
    (labels : Labels) :
    Wires (FilterOp.Opens inputs cache) 0 (AudioSegment.mix segments labels).1.1
      ((AudioSegment.mix segments labels).1.2.toList : Multiset Label) := by
  unfold AudioSegment.mix
  split
  · exact .done 0
  · have trims := trims_wires inputs cache segments sounds labels
    rw [← Multiset.add_zero (Multiset.ofList _)] at trims
    exact trims.append (.next [] _ 0 rfl (by simp) (.done _))

end AudioSegment

section

variable [Scalar α]

namespace Clip

/-- The stages of a chain after its crop. -/
def laterStages (clip : Clip α) (info : SourceInfo) (placement : Placement α) :
    List (Stage α) :=
  [⟨"trim", fun source output =>
    .trim source output clip.sourceIn clip.sourceDuration clip.timelineOffset
      (info.isImage || clip.kind = .image)⟩]
    ++ clip.colorStages
    ++ [⟨"scale", fun source output =>
      .scale source output placement.scaledWidth placement.scaledHeight⟩]
    ++ clip.turnStages

theorem stages_eq (clip : Clip α) (info : SourceInfo) (placement : Placement α) :
    clip.stages info placement =
      ⟨"crop", fun source output => .crop source output placement.crop⟩ ::
        clip.laterStages info placement := rfl

theorem reads_of_mem_laterStages (clip : Clip α) (info : SourceInfo) (placement : Placement α)
    (stage : Stage α) (member : stage ∈ clip.laterStages info placement) : stage.Reads [] := by
  simp only [laterStages, List.mem_append, List.mem_singleton] at member
  rcases member with ((rfl | color) | rfl) | turn
  · exact ⟨(by decide : Labels.IsStem "trim"), fun _ _ => rfl, fun _ _ => rfl⟩
  · simp only [colorStages] at color
    split at color
    · simp at color
    · rw [List.mem_singleton.mp color]
      exact ⟨(by decide : Labels.IsStem "color"), fun _ _ => rfl, fun _ _ => rfl⟩
  · exact ⟨(by decide : Labels.IsStem "scale"), fun _ _ => rfl, fun _ _ => rfl⟩
  · simp only [turnStages] at turn
    split at turn
    · rw [List.mem_singleton.mp turn]
      exact ⟨(by decide : Labels.IsStem "rot"), fun _ _ => rfl, fun _ _ => rfl⟩
    · simp at turn

theorem forall₂_reads_laterStages (clip : Clip α) (info : SourceInfo)
    (placement : Placement α) :
    List.Forall₂ Stage.Reads (clip.laterStages info placement)
      ((clip.laterStages info placement).map fun _ => []) := by
  rw [List.forall₂_map_right_iff, List.forall₂_same]
  exact clip.reads_of_mem_laterStages info placement

theorem chain_issues (clip : Clip α) (info : SourceInfo) (placement : Placement α)
    (source : Label) (labels : Labels) :
    labels.Issues ((clip.chain info placement source labels).1.1.map FilterOp.output)
      (clip.chain info placement source labels).2 :=
  (clip.numbered_chain info placement source labels).issues

/-- A chain reads one picture of an input and leaves its layer. -/
theorem chain_wires (inputs : List String) (cache : SourceCache) (clip : Clip α)
    (info : SourceInfo) (placement : Placement α) (k : Nat) (below : k < inputs.length)
    (labels : Labels) :
    Wires (FilterOp.Opens inputs cache) 0
      (clip.chain info placement (streamRef k "v") labels).1.1
      {(clip.chain info placement (streamRef k "v") labels).1.2} := by
  have rest := Stage.thread_wires (FilterOp.Opens inputs cache) _ _
    (clip.forall₂_reads_laterStages info placement)
    (Labels.label "crop" (labels.count "crop")) (labels.advance "crop")
  have noOthers : ((clip.laterStages info placement).map fun _ => ([] : List Label)).flatten = [] :=
    by simp
  rw [noOthers] at rest
  rw [chain, stages_eq]
  -- Only the crop reads a stream, and the picture of the input it is.
  refine .next [streamRef k "v"] [] 0 rfl ?_ rest
  intro l member
  rw [List.mem_singleton.mp member]
  exact .inl ⟨rfl, k, below, rfl⟩

end Clip

namespace PlacedClip

theorem layers_issues (placed : List (PlacedClip α)) (labels : Labels) :
    labels.Issues ((PlacedClip.layers placed labels).1.1.map FilterOp.output)
      (PlacedClip.layers placed labels).2 :=
  (PlacedClip.numbered_layers placed labels).issues

/-- The chains of placed clips leave their layers. -/
theorem layers_wires (cache : SourceCache) (inputs : List String) (clips : List (Clip α))
    (placed : List (PlacedClip α))
    (places : List.Forall₂ (PlacedClip.Places cache inputs) clips placed)
    (known : ∀ clip ∈ clips, clip.sourcePath ∈ inputs) (labels : Labels) :
    Wires (FilterOp.Opens inputs cache) 0 (PlacedClip.layers placed labels).1.1
      ((PlacedClip.layers placed labels).1.2.map Layer.label : Multiset Label) := by
  induction places generalizing labels with
  | nil => exact .done 0
  | @cons clip p clips placed first _ ih =>
    have source : p.source = streamRef (inputs.idxOf clip.sourcePath : Nat) "v" :=
      first.source_eq
    have below : inputs.idxOf clip.sourcePath < inputs.length :=
      List.idxOf_lt_length_of_mem (known clip List.mem_cons_self)
    have chain := p.clip.chain_wires inputs cache p.info p.placement _ below labels
    rw [← source] at chain
    have rest := ih (fun c member => known c (List.mem_cons_of_mem _ member))
      (p.clip.chain p.info p.placement p.source labels).2
    -- The layer of the first chain waits beside the other chains.
    have beside := rest.beside {(p.clip.chain p.info p.placement p.source labels).1.2}
    rw [Multiset.zero_add, Multiset.add_comm] at beside
    exact chain.append beside

end PlacedClip

theorem graphOps_issues (width height fps : Int) (duration : α) (placed : List (PlacedClip α))
    (segments : List (AudioSegment α)) (labels : Labels) :
    labels.Issues
      ((graphOps width height fps duration placed segments labels).1.1.map FilterOp.output)
      (graphOps width height fps duration placed segments labels).2 :=
  (numbered_graphOps width height fps duration placed segments labels).issues

/-- All operations together leave the labels of the output. -/
theorem graphOps_wires (cache : SourceCache) (inputs : List String) (clips : List (Clip α))
    (placed : List (PlacedClip α)) (segments : List (AudioSegment α))
    (places : List.Forall₂ (PlacedClip.Places cache inputs) clips placed)
    (known : ∀ clip ∈ clips, clip.sourcePath ∈ inputs)
    (sounds : ∀ s ∈ segments, ∃ (k : Nat) (path : String),
      inputs[k]? = some path ∧ cache.HasSound path ∧ s.source = streamRef k "a")
    (width height fps : Int) (duration : α) (labels : Labels) :
    Wires (FilterOp.Opens inputs cache) 0
      (graphOps width height fps duration placed segments labels).1.1
      ((graphOps width height fps duration placed segments labels).1.2.1 ::ₘ
        (graphOps width height fps duration placed segments labels).1.2.2.toList) := by
  obtain ⟨base, chains, overlays, sound, layers, video, audio, l₁, l₂, l₃, l₄, hbase, hchains,
    hoverlays, hsound, parts⟩ := graphOps_parts width height fps duration placed segments labels
  have first : Wires (FilterOp.Opens inputs cache) 0 [base] {base.output} := by
    cases hbase
    exact .next [] [] 0 rfl (by simp) (.done _)
  have second := (PlacedClip.layers_wires cache inputs clips placed places known l₁).beside
    {base.output}
  have third := Layer.composite_wires (FilterOp.Opens inputs cache) layers base.output l₂
  have fourth := (AudioSegment.mix_wires inputs cache segments sounds l₃).beside {video}
  -- What the base leaves is passed by the chains, and what the overlays leave by the sounds.
  rw [hchains, Multiset.zero_add, Multiset.add_comm] at second
  rw [hoverlays] at third
  rw [hsound, Multiset.zero_add, Multiset.add_comm] at fourth
  rw [parts]
  exact ((first.append second).append third).append fourth

/-- A graph in which labels are single assignments and are used up. -/
structure CompiledGraph.WellWired (g : CompiledGraph α) (cache : SourceCache) : Prop where
  /-- No two operations make one label. -/
  distinct : (g.ops.map FilterOp.output).Nodup
  /-- What is read has been made before, or is a stream of an input. -/
  defined : ∀ before op after, g.ops = before ++ op :: after → ∀ l ∈ op.inputs,
    l ∈ before.map FilterOp.output ∨
      ∃ k : Nat, k < g.inputs.length ∧ (l = streamRef k "v" ∨ l = streamRef k "a")
  /-- A label that is not an output is read once, by an operation after the one that makes it. -/
  readOnce : ∀ before op after, g.ops = before ++ op :: after → op.output ∉ g.outputLabels →
    (g.ops.flatMap FilterOp.inputs).count op.output = 1 ∧
      ∃ reader ∈ after, op.output ∈ reader.inputs
  /-- The outputs are made and left unread. -/
  returned : ∀ l ∈ g.outputLabels,
    l ∈ g.ops.map FilterOp.output ∧ ∀ op ∈ g.ops, l ∉ op.inputs
  /-- Pictures of inputs enter at crops. -/
  pictures : ∀ op ∈ g.ops, ∀ k : Int, streamRef k "v" ∈ op.inputs → op.kind = .crop
  /-- The sound of an input enters at audio trims, where the prober found any. -/
  sounds : ∀ op ∈ g.ops, ∀ k : Int, streamRef k "a" ∈ op.inputs → op.kind = .audioTrim ∧
    ∃ (n : Nat) (path : String), k = n ∧ g.inputs[n]? = some path ∧ cache.HasSound path

theorem audioSegments_sounds (cache : SourceCache) (inputs : List String) (clips : List (Clip α))
    (known : ∀ clip ∈ clips, clip.sourcePath ∈ inputs) (s : AudioSegment α)
    (member : s ∈ audioSegments cache inputs clips) :
    ∃ (k : Nat) (path : String),
      inputs[k]? = some path ∧ cache.HasSound path ∧ s.source = streamRef k "a" := by
  obtain ⟨clip, present, found⟩ := List.mem_filterMap.mp member
  unfold AudioSegment.ofClip? at found
  split at found
  next audible =>
    cases found
    have below := List.idxOf_lt_length_of_mem (known clip present)
    refine ⟨inputs.idxOf clip.sourcePath, clip.sourcePath, ?_,
      cache.hasSound_of_info _ audible, rfl⟩
    rw [List.getElem?_eq_getElem below, List.getElem_idxOf]
  next => simp at found

namespace CompiledGraph

variable {g : CompiledGraph α} {cache : SourceCache}

omit [Scalar α] in
/-- A label that is read at all is read by a later operation. -/
theorem exists_reader (distinct : (g.ops.map FilterOp.output).Nodup)
    (wires : Wires (FilterOp.Opens g.inputs cache) 0 g.ops (g.outputLabels : Multiset Label))
    (closed : ∀ l ∈ g.ops.map FilterOp.output, ∀ op : FilterOp α, ¬op.Opens g.inputs cache l)
    (before after : List (FilterOp α)) (op : FilterOp α) (split : g.ops = before ++ op :: after)
    (read : op.output ∈ g.ops.flatMap FilterOp.inputs) :
    ∃ reader ∈ after, op.output ∈ reader.inputs := by
  have made : op.output ∈ g.ops.map FilterOp.output := by simp [split]
  obtain ⟨reader, present, input⟩ := List.mem_flatMap.mp read
  obtain ⟨pre, post, whole⟩ := List.append_of_mem present
  -- The reader stands after a maker of the label, and the label has no second maker.
  have earlier : op.output ∈ pre.map FilterOp.output := by
    rcases wires.defined whole op.output input with pooled | earlier | stream
    · exact absurd pooled (Multiset.notMem_zero _)
    · exact earlier
    · exact absurd stream (closed _ made reader)
  obtain ⟨maker, inPre, same⟩ := List.mem_map.mp earlier
  obtain ⟨left, right, shape⟩ := List.append_of_mem inPre
  have sameSplit : before ++ op :: after = left ++ maker :: (right ++ reader :: post) := by
    rw [← split, whole, shape, List.append_assoc, List.cons_append]
  have position : before.length = left.length := by
    have nodup := distinct
    rw [List.nodup_iff_injective_getElem] at nodup
    have atOp : (g.ops.map FilterOp.output)[before.length]? = some op.output := by
      simp [split]
    have atMaker : (g.ops.map FilterOp.output)[left.length]? = some op.output := by
      simp [split, sameSplit, same]
    obtain ⟨h₁, e₁⟩ := List.getElem?_eq_some_iff.mp atOp
    obtain ⟨h₂, e₂⟩ := List.getElem?_eq_some_iff.mp atMaker
    exact Fin.mk.inj (@nodup ⟨before.length, h₁⟩ ⟨left.length, h₂⟩ (e₁.trans e₂.symm))
  obtain ⟨_, tails⟩ := List.append_inj sameSplit position
  obtain ⟨_, rfl⟩ := List.cons.inj tails
  exact ⟨reader, by simp, input⟩

omit [Scalar α] in
/-- Operations that use up the labels they make, apart from those of the output, make a well-wired
graph, if every label is made once and none can be taken for a stream of an input. -/
theorem wellWired_of_wires (distinct : (g.ops.map FilterOp.output).Nodup)
    (wires : Wires (FilterOp.Opens g.inputs cache) 0 g.ops (g.outputLabels : Multiset Label))
    (closed : ∀ l ∈ g.ops.map FilterOp.output, ∀ op : FilterOp α, ¬op.Opens g.inputs cache l)
    (unnamed : ∀ l ∈ g.ops.map FilterOp.output, ∀ (k : Int) (stream : String),
      l ≠ streamRef k stream) : g.WellWired cache := by
  have made (l : Label) (h : l ∈ g.ops.map FilterOp.output) :
      (g.ops.map FilterOp.output).count l = 1 := List.count_eq_one_of_mem distinct h
  -- A label is made once, so it is read once or left over once.
  have total (l : Label) (h : l ∈ g.ops.map FilterOp.output) :
      (g.ops.flatMap FilterOp.inputs).count l + g.outputLabels.count l = 1 := by
    have balance := wires.balance l (closed l h)
    rw [made l h] at balance
    simpa using balance
  -- The name of a stream is no label that is made, so it was open to whoever reads it.
  have opened (op : FilterOp α) (member : op ∈ g.ops) (k : Int) (stream : String)
      (read : streamRef k stream ∈ op.inputs) : op.Opens g.inputs cache (streamRef k stream) := by
    obtain ⟨before, after, split⟩ := List.append_of_mem member
    rcases wires.defined split _ read with pooled | earlier | stream
    · exact absurd pooled (Multiset.notMem_zero _)
    · refine absurd rfl (unnamed _ ?_ k stream)
      rw [split, List.map_append]
      exact List.mem_append_left _ earlier
    · exact stream
  refine ⟨distinct, ?_, ?_, ?_, ?_, ?_⟩
  -- An operation reads what was made before it, or a stream of an input.
  · intro before op after split l read
    rcases wires.defined split l read with pooled | earlier | stream
    · exact absurd pooled (Multiset.notMem_zero _)
    · exact .inl earlier
    · rcases stream with ⟨_, k, below, rfl⟩ | ⟨_, k, path, found, _, rfl⟩
      · exact .inr ⟨k, below, .inl rfl⟩
      · exact .inr ⟨k, (List.getElem?_eq_some_iff.mp found).1, .inr rfl⟩
  -- A label that is not returned is read, and once.
  · intro before op after split unreturned
    have member : op.output ∈ g.ops.map FilterOp.output := by simp [split]
    have count := total op.output member
    rw [List.count_eq_zero.mpr unreturned, Nat.add_zero] at count
    have read : op.output ∈ g.ops.flatMap FilterOp.inputs :=
      List.count_pos_iff.mp (by omega)
    exact ⟨count, exists_reader distinct wires closed before after op split read⟩
  -- A label that is returned is made, and its one use is spent.
  · intro l returned
    have positive := List.count_pos_iff.mpr returned
    have member : l ∈ g.ops.map FilterOp.output := by
      rcases wires.remaining l (Multiset.mem_coe.mpr returned) with pooled | made
      · exact absurd pooled (Multiset.notMem_zero _)
      · exact made
    refine ⟨member, ?_⟩
    intro op present read
    have readAtAll := List.count_pos_iff.mpr (List.mem_flatMap.mpr ⟨op, present, read⟩)
    have count := total l member
    omega
  -- A picture's stream is open to a crop only, and a sound's stream to a trim of the sound.
  · intro op member k read
    rcases opened op member k "v" read with ⟨kind, _⟩ | ⟨_, n, _, _, _, same⟩
    · exact kind
    · exact absurd ((Labels.streamRef_inj _ _ _ _).mp same).2 (by decide)
  · intro op member k read
    rcases opened op member k "a" read with ⟨_, n, _, same⟩ | ⟨kind, n, path, found, sound, same⟩
    · exact absurd ((Labels.streamRef_inj _ _ _ _).mp same).2 (by decide)
    · exact ⟨kind, n, path, ((Labels.streamRef_inj _ _ _ _).mp same).1, found, sound⟩

end CompiledGraph

/-- A compile hands out every label once and uses up every label but those of the output. -/
theorem wellWired_compileTimeline (timeline : Timeline α) (cache : SourceCache)
    (options : CompileOptions α) (g : CompiledGraph α)
    (h : (compileTimeline timeline cache options).graph = .ok g) : g.WellWired cache := by
  obtain ⟨placed, assembled⟩ := compileTimeline_assembled timeline cache options g h
  have parts := assembled.ops_eq
  have ops := congrArg Prod.fst parts
  have outputs := congrArg Prod.snd parts
  dsimp only at ops outputs
  have video := congrArg Prod.fst outputs
  have audio := congrArg Prod.snd outputs
  dsimp only at video audio
  have issues := graphOps_issues g.width g.height options.fps g.duration placed
    (audioSegments cache g.inputs (timeline.kept options.minClipDuration)) Labels.none
  have wires := graphOps_wires cache g.inputs _ placed _ assembled.places
    (fun clip visual => assembled.mem_inputs clip
      (timeline.mem_kept_of_mem_visual cache options.minClipDuration clip visual))
    (audioSegments_sounds cache g.inputs (timeline.kept options.minClipDuration)
      assembled.mem_inputs)
    g.width g.height options.fps g.duration Labels.none
  rw [← ops] at issues
  rw [← ops, ← video, ← audio] at wires
  -- A label that has been handed out is no name of a stream.
  have issued : ∀ l ∈ g.ops.map FilterOp.output, Labels.Issued _ l :=
    fun l made => (issues.issued l).mpr (.inr made)
  refine CompiledGraph.wellWired_of_wires issues.nodup wires ?_ ?_
  · intro l made op
    exact FilterOp.not_opens_of_issued g.inputs cache _ l (issued l made) op
  · rintro l made k stream rfl
    exact Labels.not_issued_streamRef _ k stream (issued _ made)

end

theorem wellWired_compileTimeline_overlapping :
    ∃ g, (compileTimeline Timeline.overlapping SourceCache.sounding .standard).graph = .ok g ∧
      g.WellWired SourceCache.sounding := by
  obtain ⟨g, compiled⟩ := CompileOutcome.exists_graph
    (compileTimeline Timeline.overlapping SourceCache.sounding .standard) (by decide +kernel)
  exact ⟨g, compiled, wellWired_compileTimeline _ _ _ g compiled⟩

end Montage
