import Montage.Proofs.Graph.Assembly

/-!
# The parts of a graph

A graph is its base, the chains, the overlays, the trims of the sounds and their mix, in this
order. All parts take their labels from one supply, but each part takes labels of stems of its
own. So a part numbers its labels as if it were alone, and does not notice how many labels the
other parts have taken.
-/
namespace Montage

namespace Labels

/-- Two supplies from which equally many labels of each of some stems were taken. -/
def Agree (stems : List String) (labels other : Labels) : Prop :=
  ∀ stem ∈ stems, labels.count stem = other.count stem

theorem Agree.mono {stems more : List String} {labels other : Labels} (h : Agree more labels other)
    (fewer : ∀ stem ∈ stems, stem ∈ more) : Agree stems labels other :=
  fun stem listed => h stem (fewer stem listed)

/-- A builder that takes labels of some stems only, and to whose outcome nothing matters but how
many labels of these were taken before. -/
structure Draws {β : Type} (stems : List String) (build : StateM Labels β) : Prop where
  outcome : ∀ labels other, Agree stems labels other → (build labels).1 = (build other).1
  agree : ∀ labels other, Agree stems labels other → Agree stems (build labels).2 (build other).2
  unused : ∀ labels stem, stem ∉ stems → (build labels).2.count stem = labels.count stem

namespace Draws

variable {β γ : Type} {stems : List String}

theorem pure (b : β) : Draws stems (Pure.pure b : StateM Labels β) :=
  ⟨fun _ _ _ => rfl, fun _ _ same => same, fun _ _ _ => rfl⟩

theorem take {stem : String} (member : stem ∈ stems) : Draws stems (Labels.take stem) where
  outcome := by
    intro labels other same
    exact congrArg (label stem) (same stem member)
  agree := by
    intro labels other same drawn listed
    change (labels.advance stem).count drawn = (other.advance stem).count drawn
    rw [count_advance, count_advance, same stem member, same drawn listed]
  unused := by
    intro labels drawn unlisted
    change (labels.advance stem).count drawn = labels.count drawn
    rw [count_advance, if_neg]
    rintro rfl
    exact unlisted member

theorem bind {build : StateM Labels β} {next : β → StateM Labels γ} (first : Draws stems build)
    (second : ∀ b, Draws stems (next b)) : Draws stems (build >>= next) where
  outcome := by
    intro labels other same
    change (next (build labels).1 (build labels).2).1 = (next (build other).1 (build other).2).1
    rw [first.outcome labels other same]
    exact (second _).outcome _ _ (first.agree labels other same)
  agree := by
    intro labels other same
    change Agree stems (next (build labels).1 (build labels).2).2
      (next (build other).1 (build other).2).2
    rw [first.outcome labels other same]
    exact (second _).agree _ _ (first.agree labels other same)
  unused := by
    intro labels stem unlisted
    change (next (build labels).1 (build labels).2).2.count stem = _
    rw [(second _).unused _ stem unlisted, first.unused labels stem unlisted]

/-- Where no label of its stems was taken before, a builder does what it does first of all. -/
theorem alone {build : StateM Labels β} (h : Draws stems build) {labels : Labels}
    (untaken : Agree stems labels none) : (build labels).1 = (build none).1 :=
  h.outcome labels none untaken

/-- A builder leaves the labels of other stems for the builders after it. -/
theorem leaves {build : StateM Labels β} (h : Draws stems build) {labels : Labels}
    {others : List String} (apart : ∀ stem ∈ others, stem ∉ stems)
    (untaken : Agree others labels none) : Agree others (build labels).2 none := by
  intro stem listed
  rw [h.unused labels stem (apart stem listed)]
  exact untaken stem listed

end Draws

end Labels

open Labels (Draws)

variable {α : Type}

namespace Stage

theorem draws_thread {stems : List String} (stages : List (Stage α))
    (listed : ∀ stage ∈ stages, stage.stem ∈ stems) (source : Label) :
    Draws stems (Stage.thread stages source) := by
  induction stages generalizing source with
  | nil => exact .pure _
  | cons stage rest ih =>
    obtain ⟨first, later⟩ := List.forall_mem_cons.mp listed
    exact .bind (.take first) fun output => .bind (ih later output) fun _ => .pure _

/-- More stages go on from the label that the first ones have left. -/
theorem thread_append (stages more : List (Stage α)) (source : Label) :
    Stage.thread (stages ++ more) source = (do
      let (ops, middle) ← Stage.thread stages source
      let (later, last) ← Stage.thread more middle
      pure (ops ++ later, last)) := by
  induction stages generalizing source with
  | nil => simp [thread]
  | cons stage rest ih => simp only [List.cons_append, thread, ih, bind_assoc, pure_bind]

end Stage

/-- The part of a graph that an operation belongs to. -/
inductive GraphPart where
  | base
  | chains
  | overlays
  | trims
  | mix
deriving DecidableEq

def FilterKind.part : FilterKind → GraphPart
  | colorSource => .base
  | crop => .chains
  | trim => .chains
  | colorAdjust => .chains
  | scale => .chains
  | rotateFlip => .chains
  | overlay => .overlays
  | audioTrim => .trims
  | audioMix => .mix

/-- The operations of one part of a graph. -/
def CompiledGraph.part (g : CompiledGraph α) (part : GraphPart) : List (FilterOp α) :=
  g.ops.filter (·.kind.part = part)

/-- All operations belong to one part. -/
def FilterOp.AllOf (part : GraphPart) (ops : List (FilterOp α)) : Prop :=
  ∀ op ∈ ops, op.kind.part = part

theorem FilterOp.AllOf.filter_eq {part : GraphPart} {ops : List (FilterOp α)}
    (h : FilterOp.AllOf part ops) (asked : GraphPart) :
    ops.filter (·.kind.part = asked) = if part = asked then ops else [] := by
  split
  next same =>
    subst same
    exact List.filter_eq_self.mpr fun op member => by simp [h op member]
  next differ => exact List.filter_eq_nil_iff.mpr fun op member => by simp [h op member, differ]

/-- The black base, under the first label of its stem. -/
def FilterOp.baseOf (width height fps : Int) (duration : α) : FilterOp α :=
  .colorSource (Labels.label "base" 0) "black" width height duration fps

theorem baseLayer_draws (width height fps : Int) (duration : α) :
    Draws ["base"] (baseLayer width height fps duration) :=
  .bind (.take (List.mem_singleton_self _)) fun _ => .pure _

/-- The mix of the trims that there are, under the first label of its stem. -/
def FilterOp.mixOf (trims : List (FilterOp α)) : List (FilterOp α) :=
  if trims.isEmpty then [] else [.mix (trims.map FilterOp.output) (Labels.label "aout" 0)]

theorem Layer.draws_composite (layers : List (Layer α)) (base : Label) :
    Draws ["comp"] (Layer.composite layers base) := by
  apply Stage.draws_thread
  rw [List.forall_mem_map]
  intro layer _
  exact List.mem_singleton_self _

theorem Layer.allOf_composite (layers : List (Layer α)) (base : Label) (labels : Labels) :
    FilterOp.AllOf .overlays (Layer.composite layers base labels).1.1 := by
  apply Stage.forall_mem_thread
  rw [List.forall_mem_map]
  intro layer _ _ _
  rfl

namespace AudioSegment

theorem draws_trims (segments : List (AudioSegment α)) :
    Draws ["aseg"] (AudioSegment.trims segments) := by
  induction segments with
  | nil => exact .pure _
  | cons s rest ih =>
    exact .bind (.take (List.mem_singleton_self _)) fun _ => .bind ih fun _ => .pure _

theorem trims_append (segments more : List (AudioSegment α)) :
    AudioSegment.trims (segments ++ more) = (do
      let ops ← AudioSegment.trims segments
      let later ← AudioSegment.trims more
      pure (ops ++ later)) := by
  induction segments with
  | nil => simp [trims]
  | cons s rest ih => simp only [List.cons_append, trims, ih, bind_assoc, pure_bind]

theorem allOf_trims (segments : List (AudioSegment α)) (labels : Labels) :
    FilterOp.AllOf .trims (AudioSegment.trims segments labels).1 := by
  induction segments generalizing labels with
  | nil => exact List.forall_mem_nil _
  | cons s rest ih => exact List.forall_mem_cons.mpr ⟨rfl, ih (labels.advance "aseg")⟩

/-- The sound of a graph is its trims and their mix. -/
theorem mix_eq (segments : List (AudioSegment α)) {labels : Labels}
    (untaken : Labels.Agree ["aseg", "aout"] labels Labels.none) :
    (AudioSegment.mix segments labels).1 =
      ((AudioSegment.trims segments Labels.none).1 ++
          FilterOp.mixOf (AudioSegment.trims segments Labels.none).1,
        (FilterOp.mixOf (AudioSegment.trims segments Labels.none).1).head?.map
          FilterOp.output) := by
  cases segments with
  | nil => rfl
  | cons s rest =>
    -- Labels of other stems have no say in the trims, and the trims leave the mix's label untaken.
    have alone := (draws_trims (s :: rest)).alone (untaken.mono (by decide))
    have left : Labels.Agree ["aout"] (AudioSegment.trims (s :: rest) labels).2 Labels.none :=
      (draws_trims (s :: rest)).leaves (by decide) (untaken.mono (by decide))
    let trims := AudioSegment.trims (s :: rest) labels
    change (trims.1 ++ [.mix (trims.1.map FilterOp.output)
        (Labels.label "aout" (trims.2.count "aout"))],
      some (Labels.label "aout" (trims.2.count "aout"))) = _
    rw [alone, left "aout" (List.mem_singleton_self _)]
    rfl

end AudioSegment

variable [Scalar α]

/-- The stems of the labels that chains make. -/
def Clip.stems : List String := ["crop", "trim", "color", "scale", "rot"]

theorem Clip.draws_chain (clip : Clip α) (info : SourceInfo) (placement : Placement α)
    (source : Label) : Draws Clip.stems (clip.chain info placement source) := by
  refine Stage.draws_thread _ (clip.forall_mem_stages info placement ?_ ?_ ?_ ?_ ?_) source
  all_goals simp [Clip.stems]

theorem Clip.allOf_chain (clip : Clip α) (info : SourceInfo) (placement : Placement α)
    (source : Label) (labels : Labels) :
    FilterOp.AllOf .chains (clip.chain info placement source labels).1.1 := by
  refine Stage.forall_mem_thread _ (clip.forall_mem_stages info placement ?_ ?_ ?_ ?_ ?_) source
    labels
  all_goals exact fun _ _ => rfl

namespace PlacedClip

theorem draws_layers (placed : List (PlacedClip α)) :
    Draws Clip.stems (PlacedClip.layers placed) := by
  induction placed with
  | nil => exact .pure _
  | cons p rest ih =>
    exact .bind (p.clip.draws_chain p.info p.placement p.source) fun _ =>
      .bind ih fun _ => .pure _

theorem layers_append (placed more : List (PlacedClip α)) :
    PlacedClip.layers (placed ++ more) = (do
      let (ops, below) ← PlacedClip.layers placed
      let (later, above) ← PlacedClip.layers more
      pure (ops ++ later, below ++ above)) := by
  induction placed with
  | nil => simp [layers]
  | cons p rest ih =>
    simp only [List.cons_append, layers, ih, bind_assoc, pure_bind, List.append_assoc]

theorem allOf_layers (placed : List (PlacedClip α)) (labels : Labels) :
    FilterOp.AllOf .chains (PlacedClip.layers placed labels).1.1 := by
  induction placed generalizing labels with
  | nil => exact List.forall_mem_nil _
  | cons p rest ih =>
    let chain := p.clip.chain p.info p.placement p.source labels
    exact List.forall_mem_append.mpr
      ⟨p.clip.allOf_chain p.info p.placement p.source labels, ih chain.2⟩

end PlacedClip

/-- Every part of a graph is what its builder makes first of all. -/
theorem graphOps_eq (width height fps : Int) (duration : α) (placed : List (PlacedClip α))
    (segments : List (AudioSegment α)) :
    (graphOps width height fps duration placed segments Labels.none).1 =
      let chains := (PlacedClip.layers placed Labels.none).1
      let overlays := (Layer.composite chains.2 (Labels.label "base" 0) Labels.none).1
      let trims := (AudioSegment.trims segments Labels.none).1
      (.baseOf width height fps duration :: chains.1 ++ overlays.1 ++
          (trims ++ FilterOp.mixOf trims),
        overlays.2, (FilterOp.mixOf trims).head?.map FilterOp.output) := by
  obtain ⟨base, chains, overlays, sound, layers, video, audio, l₁, l₂, l₃, l₄, hbase, hchains,
    hoverlays, hsound, parts⟩ :=
    graphOps_parts width height fps duration placed segments Labels.none
  -- The stems that are still untaken become fewer from part to part.
  have first := (baseLayer_draws width height fps duration).leaves
    (by decide : ∀ stem ∈ Clip.stems ++ ["comp", "aseg", "aout"], stem ∉ ["base"])
    (fun _ _ => rfl : Labels.Agree _ Labels.none Labels.none)
  rw [hbase] at first
  have second := (PlacedClip.draws_layers placed).leaves
    (by decide : ∀ stem ∈ ["comp", "aseg", "aout"], stem ∉ Clip.stems) (first.mono (by decide))
  rw [hchains] at second
  have third := (Layer.draws_composite layers base.output).leaves
    (by decide : ∀ stem ∈ ["aseg", "aout"], stem ∉ ["comp"]) (second.mono (by decide))
  rw [hoverlays] at third
  have chained := (PlacedClip.draws_layers placed).alone (first.mono (by decide))
  rw [hchains] at chained
  have laid := (Layer.draws_composite layers base.output).alone (second.mono (by decide))
  rw [hoverlays] at laid
  have sounded := AudioSegment.mix_eq segments third
  rw [hsound] at sounded
  cases hbase
  rw [parts]
  dsimp only at chained laid sounded ⊢
  rw [← chained]
  change (_ :: chains ++ overlays ++ sound, video, audio) = _
  obtain ⟨rfl, rfl⟩ := Prod.mk.inj sounded
  obtain ⟨rfl, rfl⟩ := Prod.mk.inj laid
  rfl

/-- Besides its chains, overlays and trims, a graph is determined by its size and duration: these
are the base's, and the mix, if there is one, reads every trim and makes the label of the sound. -/
structure CompiledGraph.Arranged (fps : Int) (g : CompiledGraph α) : Prop where
  ops : g.ops =
    g.part .base ++ g.part .chains ++ g.part .overlays ++ g.part .trims ++ g.part .mix
  base : g.part .base = [.baseOf g.width g.height fps g.duration]
  mix : g.part .mix = FilterOp.mixOf (g.part .trims)
  audio : g.audio = (g.part .mix).head?.map FilterOp.output

namespace CompiledGraph

omit [Scalar α] in
/-- The parts of operations that follow each other in the order of the parts. -/
theorem part_of_ops {g : CompiledGraph α} {base chains overlays trims mix : List (FilterOp α)}
    (ops : g.ops = base ++ chains ++ overlays ++ trims ++ mix)
    (allBase : FilterOp.AllOf .base base) (allChains : FilterOp.AllOf .chains chains)
    (allOverlays : FilterOp.AllOf .overlays overlays) (allTrims : FilterOp.AllOf .trims trims)
    (allMix : FilterOp.AllOf .mix mix) :
    g.part .base = base ∧ g.part .chains = chains ∧ g.part .overlays = overlays ∧
      g.part .trims = trims ∧ g.part .mix = mix := by
  unfold part
  rw [ops]
  simp only [List.filter_append, allBase.filter_eq, allChains.filter_eq, allOverlays.filter_eq,
    allTrims.filter_eq, allMix.filter_eq]
  simp

variable {timeline : Timeline α} {cache : SourceCache} {options : CompileOptions α}
  {g : CompiledGraph α} {placed : List (PlacedClip α)}

/-- The parts of a compiled graph, each made by its builder first of all. -/
structure Parted (placed : List (PlacedClip α)) (segments : List (AudioSegment α))
    (g : CompiledGraph α) : Prop where
  chains : g.part .chains = (PlacedClip.layers placed Labels.none).1.1
  overlays : (g.part .overlays, g.video) =
    (Layer.composite (PlacedClip.layers placed Labels.none).1.2 (Labels.label "base" 0)
      Labels.none).1
  trims : g.part .trims = (AudioSegment.trims segments Labels.none).1

theorem Assembled.parted (h : g.Assembled timeline cache options placed) :
    g.Arranged options.fps ∧
      g.Parted placed (audioSegments cache g.inputs (timeline.kept options.minClipDuration)) := by
  let segments := audioSegments cache g.inputs (timeline.kept options.minClipDuration)
  let chains := (PlacedClip.layers placed Labels.none).1
  let overlays := (Layer.composite chains.2 (Labels.label "base" 0) Labels.none).1
  let trims := (AudioSegment.trims segments Labels.none).1
  have ops := h.ops_eq.trans (graphOps_eq g.width g.height options.fps g.duration placed segments)
  obtain ⟨ops, labels⟩ := Prod.mk.inj ops
  obtain ⟨video, audio⟩ := Prod.mk.inj labels
  have order : g.ops = [.baseOf g.width g.height options.fps g.duration] ++ chains.1 ++
      overlays.1 ++ trims ++ FilterOp.mixOf trims := by
    rw [ops]
    simp [chains, overlays, trims, segments]
  have allMix : FilterOp.AllOf .mix (FilterOp.mixOf trims) := by
    unfold FilterOp.mixOf
    split
    · exact List.forall_mem_nil _
    · exact List.forall_mem_singleton.mpr rfl
  -- The parts come one after the other, and each is of a sort of its own, so the sort finds it.
  obtain ⟨base_eq, chains_eq, overlays_eq, trims_eq, mix_eq⟩ :=
    part_of_ops order (List.forall_mem_singleton.mpr rfl) (PlacedClip.allOf_layers _ _)
      (Layer.allOf_composite _ _ _) (AudioSegment.allOf_trims _ _) allMix
  constructor
  · refine ⟨?_, base_eq, ?_, ?_⟩
    · rw [base_eq, chains_eq, overlays_eq, trims_eq, mix_eq, order]
    · rw [mix_eq, trims_eq]
    · rw [mix_eq, audio]
  · exact ⟨chains_eq, Prod.ext overlays_eq video, trims_eq⟩

end CompiledGraph

end Montage
