import Montage.Proofs.Graph.Assembly
import Montage.Proofs.Graph.Labels

/-!
# Numbering

A label's number is how often its stem was asked for before. So the labels handed out differ from
each other, and those of one stem do not depend on what is asked for between them. A compile asks
for one label an operation, each of the stem of the operation's kind.
-/
namespace Montage

namespace Labels

/-- The labels handed out for stems one after the other, and the counts after them. -/
def handOut (labels : Labels) (stems : List String) : List Label × Labels :=
  stems.mapM take labels

theorem handOut_cons (labels : Labels) (stem : String) (rest : List String) :
    labels.handOut (stem :: rest) =
      (label stem (labels.count stem) :: ((labels.advance stem).handOut rest).1,
        ((labels.advance stem).handOut rest).2) := by
  unfold handOut
  rw [List.mapM_cons]
  rfl

theorem handOut_append (labels : Labels) (stems more : List String) :
    labels.handOut (stems ++ more) =
      ((labels.handOut stems).1 ++ ((labels.handOut stems).2.handOut more).1,
        ((labels.handOut stems).2.handOut more).2) := by
  induction stems generalizing labels with
  | nil => rfl
  | cons stem rest ih => simp only [List.cons_append, handOut_cons, ih]

/-- Every request is answered, with the number of requests for its stem before it. -/
theorem getElem?_handOut (labels : Labels) (stems : List String) (i : Nat) :
    (labels.handOut stems).1[i]? =
      stems[i]?.map fun stem => label stem (labels.count stem + (stems.take i).count stem) := by
  induction stems generalizing labels i with
  | nil => rfl
  | cons first rest ih =>
    rw [handOut_cons]
    cases i with
    | zero => simp
    | succ i =>
      -- The first request counts for the later ones of its stem, by the list on one side and by
      -- the labels on the other.
      rw [List.getElem?_cons_succ, List.getElem?_cons_succ, ih]
      congr 1
      funext stem
      rw [count_advance, List.take_succ_cons, List.count_cons]
      by_cases same : stem = first
      · subst same
        rw [if_pos rfl, beq_self_eq_true, if_pos rfl]
        congr 1
        omega
      · rw [if_neg same, if_neg (by simpa using Ne.symm same), Nat.add_zero]

theorem length_handOut (labels : Labels) (stems : List String) :
    (labels.handOut stems).1.length = stems.length := by
  induction stems generalizing labels with
  | nil => rfl
  | cons stem rest ih => rw [handOut_cons, List.length_cons, List.length_cons, ih]

/-- A label is one of a stem that was asked for, and its number was not used before. -/
theorem of_mem_handOut (labels : Labels) (stems : List String) (l : Label)
    (member : l ∈ (labels.handOut stems).1) :
    ∃ stem ∈ stems, ∃ n, labels.count stem ≤ n ∧ l = label stem n := by
  obtain ⟨i, found⟩ := List.mem_iff_getElem?.mp member
  rw [getElem?_handOut] at found
  obtain ⟨stem, asked, rfl⟩ := Option.map_eq_some_iff.mp found
  exact ⟨stem, List.mem_of_getElem? asked, _, Nat.le_add_right _ _, rfl⟩

theorem nodup_handOut (labels : Labels) (stems : List String)
    (ends : ∀ stem ∈ stems, EndsInNoDigit stem) : (labels.handOut stems).1.Nodup := by
  induction stems generalizing labels with
  | nil => exact List.nodup_nil
  | cons first rest ih =>
    obtain ⟨firstEnds, restEnds⟩ := List.forall_mem_cons.mp ends
    rw [handOut_cons, List.nodup_cons]
    refine ⟨fun again => ?_, ih (labels.advance first) restEnds⟩
    -- A later label of the first stem has a greater number.
    obtain ⟨stem, asked, n, later, same⟩ := of_mem_handOut _ _ _ again
    obtain ⟨rfl, rfl⟩ := (label_inj first stem _ n firstEnds (restEnds stem asked)).mp same
    rw [count_advance, if_pos rfl] at later
    omega

/-- Stems that can be read off their labels are handed labels that were not handed out before. -/
theorem issues_handOut (labels : Labels) (stems : List String)
    (areStems : ∀ stem ∈ stems, IsStem stem) :
    labels.Issues (labels.handOut stems).1 (labels.handOut stems).2 := by
  induction stems generalizing labels with
  | nil => exact .nil labels
  | cons stem rest ih =>
    obtain ⟨first, later⟩ := List.forall_mem_cons.mp areStems
    rw [handOut_cons]
    exact (Issues.take labels stem first).append (ih (labels.advance stem) later)

theorem streamRef_not_mem_handOut (labels : Labels) (stems : List String)
    (colonless : ∀ stem ∈ stems, ':' ∉ stem.toList) (input : Int) (stream : String) :
    streamRef input stream ∉ (labels.handOut stems).1 := by
  intro member
  obtain ⟨stem, asked, n, _, same⟩ := of_mem_handOut _ _ _ member
  exact colon_not_mem_label stem n (colonless stem asked) (same ▸ colon_mem_streamRef input stream)

end Labels

/-- The stem of the labels that operations of a kind make. -/
def FilterKind.stem : FilterKind → String
  | colorSource => "base"
  | crop => "crop"
  | trim => "trim"
  | colorAdjust => "color"
  | scale => "scale"
  | rotateFlip => "rot"
  | overlay => "comp"
  | audioTrim => "aseg"
  | audioMix => "aout"

theorem FilterKind.isStem_stem (kind : FilterKind) : Labels.IsStem kind.stem := by
  cases kind <;> decide

variable {α : Type}

/-- Operations make the labels that are handed out between two states, each the next one of the
stem of its kind. -/
def FilterOp.Numbered (labels : Labels) (ops : List (FilterOp α)) (labels' : Labels) : Prop :=
  labels.handOut (ops.map (·.kind.stem)) = (ops.map FilterOp.output, labels')

namespace FilterOp.Numbered

theorem nil (labels : Labels) : Numbered (α := α) labels [] labels := rfl

theorem cons {labels labels' : Labels} {op : FilterOp α} {rest : List (FilterOp α)}
    (next : op.output = Labels.label op.kind.stem (labels.count op.kind.stem))
    (later : Numbered (labels.advance op.kind.stem) rest labels') :
    Numbered labels (op :: rest) labels' := by
  unfold Numbered at later ⊢
  rw [List.map_cons, List.map_cons, Labels.handOut_cons, later, next]

theorem append {a b c : Labels} {ops more : List (FilterOp α)} (first : Numbered a ops b)
    (second : Numbered b more c) : Numbered a (ops ++ more) c := by
  unfold Numbered at first second ⊢
  rw [List.map_append, List.map_append, Labels.handOut_append, first, second]

/-- So each label is made once, and none was made before. -/
theorem issues {labels labels' : Labels} {ops : List (FilterOp α)}
    (h : Numbered labels ops labels') : labels.Issues (ops.map FilterOp.output) labels' := by
  have issued := labels.issues_handOut (ops.map (·.kind.stem))
    (List.forall_mem_map.mpr fun op _ => op.kind.isStem_stem)
  rwa [h] at issued

end FilterOp.Numbered

open FilterOp (Numbered)

/-- A stage whose operation makes the label taken for it, and is of the kind of its stem. -/
structure Stage.IsOfKind (stage : Stage α) : Prop where
  stem : ∀ source output, (stage.op source output).kind.stem = stage.stem
  output : ∀ source output, (stage.op source output).output = output

theorem Stage.numbered_thread (stages : List (Stage α)) (kinds : ∀ stage ∈ stages, stage.IsOfKind)
    (source : Label) (labels : Labels) :
    Numbered labels (Stage.thread stages source labels).1.1
      (Stage.thread stages source labels).2 := by
  induction stages generalizing source labels with
  | nil => exact .nil labels
  | cons stage rest ih =>
    obtain ⟨first, later⟩ := List.forall_mem_cons.mp kinds
    refine .cons ?_ ?_
    · rw [first.stem, first.output]
    · rw [first.stem]
      exact ih later _ (labels.advance stage.stem)

theorem Layer.numbered_composite (layers : List (Layer α)) (base : Label) (labels : Labels) :
    Numbered labels (Layer.composite layers base labels).1.1
      (Layer.composite layers base labels).2 := by
  apply Stage.numbered_thread
  rw [List.forall_mem_map]
  intro layer _
  exact ⟨fun _ _ => rfl, fun _ _ => rfl⟩

namespace AudioSegment

theorem numbered_trims (segments : List (AudioSegment α)) (labels : Labels) :
    Numbered labels (AudioSegment.trims segments labels).1
      (AudioSegment.trims segments labels).2 := by
  induction segments generalizing labels with
  | nil => exact .nil labels
  | cons s rest ih => exact .cons rfl (ih (labels.advance "aseg"))

theorem numbered_mix (segments : List (AudioSegment α)) (labels : Labels) :
    Numbered labels (AudioSegment.mix segments labels).1.1
      (AudioSegment.mix segments labels).2 := by
  cases segments with
  | nil => exact .nil labels
  | cons s rest => exact (numbered_trims (s :: rest) labels).append (.cons rfl (.nil _))

end AudioSegment

variable [Scalar α]

theorem Clip.numbered_chain (clip : Clip α) (info : SourceInfo) (placement : Placement α)
    (source : Label) (labels : Labels) :
    Numbered labels (clip.chain info placement source labels).1.1
      (clip.chain info placement source labels).2 := by
  refine Stage.numbered_thread _ (clip.forall_mem_stages info placement ?_ ?_ ?_ ?_ ?_) source
    labels
  all_goals exact ⟨fun _ _ => rfl, fun _ _ => rfl⟩

theorem PlacedClip.numbered_layers (placed : List (PlacedClip α)) (labels : Labels) :
    Numbered labels (PlacedClip.layers placed labels).1.1
      (PlacedClip.layers placed labels).2 := by
  induction placed generalizing labels with
  | nil => exact .nil labels
  | cons p rest ih =>
    exact (p.clip.numbered_chain p.info p.placement p.source labels).append (ih _)

theorem numbered_graphOps (width height fps : Int) (duration : α) (placed : List (PlacedClip α))
    (segments : List (AudioSegment α)) (labels : Labels) :
    Numbered labels (graphOps width height fps duration placed segments labels).1.1
      (graphOps width height fps duration placed segments labels).2 := by
  obtain ⟨base, chains, overlays, sound, layers, video, audio, l₁, l₂, l₃, l₄, hbase, hchains,
    hoverlays, hsound, parts⟩ :=
    graphOps_parts width height fps duration placed segments labels
  -- Each part begins with the labels that the part before it has left.
  have chained := PlacedClip.numbered_layers placed l₁
  rw [hchains] at chained
  have laid := Layer.numbered_composite layers base.output l₂
  rw [hoverlays] at laid
  have sounded := AudioSegment.numbered_mix segments l₃
  rw [hsound] at sounded
  rw [parts]
  cases hbase
  exact ((Numbered.cons rfl chained).append laid).append sounded

/-- A compile asks for the label of each operation in turn. -/
theorem CompiledGraph.Assembled.numbered {timeline : Timeline α} {cache : SourceCache}
    {options : CompileOptions α} {g : CompiledGraph α} {placed : List (PlacedClip α)}
    (h : g.Assembled timeline cache options placed) :
    g.ops.map FilterOp.output = (Labels.none.handOut (g.ops.map (·.kind.stem))).1 := by
  have ops := congrArg Prod.fst h.ops_eq
  dsimp only at ops
  rw [ops]
  exact (congrArg Prod.fst (numbered_graphOps g.width g.height options.fps g.duration placed
    (audioSegments cache g.inputs (timeline.kept options.minClipDuration)) Labels.none)).symm

/-- A fresh supply answers every request. No label is handed out twice where no stem ends in a
digit, and none is the name of a stream where no stem holds a colon. Requests for one stem with
equally many requests for it before them are answered alike, whatever else is asked for. A compile
asks for one label an operation, of stems that end in no digit and hold no colon. -/
theorem Labels.handOut_none_apart (stems : List String) :
    (none.handOut stems).1.length = stems.length ∧
    ((∀ stem ∈ stems, EndsInNoDigit stem) → (none.handOut stems).1.Nodup) ∧
    ((∀ stem ∈ stems, ':' ∉ stem.toList) →
      ∀ (input : Int) (stream : String), streamRef input stream ∉ (none.handOut stems).1) ∧
    (∀ (others : List String) (stem : String) (i j : Nat),
      stems[i]? = some stem → others[j]? = some stem →
      (stems.take i).count stem = (others.take j).count stem →
      ∃ l, (none.handOut stems).1[i]? = some l ∧ (none.handOut others).1[j]? = some l) ∧
    ∀ (timeline : Timeline α) (cache : SourceCache) (options : CompileOptions α)
      (g : CompiledGraph α), (compileTimeline timeline cache options).graph = .ok g →
      g.ops.map FilterOp.output = (none.handOut (g.ops.map (·.kind.stem))).1 ∧
      ∀ stem ∈ g.ops.map (·.kind.stem), EndsInNoDigit stem ∧ ':' ∉ stem.toList := by
  refine ⟨length_handOut none stems, nodup_handOut none stems,
    streamRef_not_mem_handOut none stems, ?interleaved, ?compiled⟩
  -- A label says how often its stem was asked for before, and nothing else.
  case interleaved =>
    intro others stem i j here there equally
    refine ⟨label stem (none.count stem + (stems.take i).count stem), ?_, ?_⟩
    · rw [getElem?_handOut, here, Option.map_some]
    · rw [getElem?_handOut, there, Option.map_some, equally]
  case compiled =>
    intro timeline cache options g compiled
    obtain ⟨placed, assembled⟩ := compileTimeline_assembled timeline cache options g compiled
    refine ⟨assembled.numbered, List.forall_mem_map.mpr fun op _ => ?_⟩
    have isStem := op.kind.isStem_stem
    exact ⟨isStem.withoutDigit, isStem.withoutColon⟩

/-- Two stems that are asked for in turn, one of which has a digit inside, and a compile. -/
theorem Labels.handOut_none_apart_inTurn :
    let stems := ["crop", "h264x", "crop"]
    (none.handOut stems).1.Nodup ∧ streamRef 0 "v" ∉ (none.handOut stems).1 ∧
      (∃ l, (none.handOut stems).1[2]? = some l ∧
        (none.handOut ["crop", "crop"]).1[1]? = some l) ∧
      ∃ g, (compileTimeline Timeline.overlapping SourceCache.sounding .standard).graph = .ok g ∧
        g.ops.map FilterOp.output = (none.handOut (g.ops.map (·.kind.stem))).1 := by
  intro stems
  have areStems : ∀ stem ∈ stems, IsStem stem := by decide
  obtain ⟨g, compiled⟩ := CompileOutcome.exists_graph
    (compileTimeline Timeline.overlapping SourceCache.sounding .standard) (by decide +kernel)
  obtain ⟨_, distinct, unlike, alike, asked⟩ := handOut_none_apart (α := Binary64) stems
  exact ⟨distinct fun stem asked => (areStems stem asked).withoutDigit,
    unlike (fun stem asked => (areStems stem asked).withoutColon) 0 "v",
    alike ["crop", "crop"] "crop" 2 1 rfl rfl (by decide),
    g, compiled, (asked _ _ _ g compiled).1⟩

/-- A stem may not end in a digit: the eleventh label of one is the first of the other. -/
example : ¬(Labels.none.handOut (List.replicate 11 "a" ++ ["a1"])).1.Nodup := by decide

end Montage
