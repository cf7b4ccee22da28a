import Montage.Proofs.Graph.Wiring

/-!
# Meanings of labels

An operation gives its label a meaning, made of the meanings of the labels that it reads. The
operations of a graph are read in their order, from the meanings of the inputs' streams on.
-/
namespace Montage

/-- What labels stand for. A label may stand for nothing. -/
abbrev Meanings (ν : Type) := Label → Option ν

namespace FilterOp

variable {α ν : Type} (meaning? : FilterOp α → Meanings ν → Option ν)

/-- The meanings once an operation has made its label. -/
def assign (meanings : Meanings ν) (op : FilterOp α) : Meanings ν := fun l =>
  if l = op.output then meaning? op meanings else meanings l

/-- The meanings once all operations have made their labels, one after the other. -/
def assignAll (ops : List (FilterOp α)) (meanings : Meanings ν) : Meanings ν :=
  ops.foldl (assign meaning?) meanings

theorem assign_output (meanings : Meanings ν) (op : FilterOp α) :
    assign meaning? meanings op op.output = meaning? op meanings :=
  if_pos rfl

theorem assignAll_append (first second : List (FilterOp α)) (meanings : Meanings ν) :
    assignAll meaning? (first ++ second) meanings =
      assignAll meaning? second (assignAll meaning? first meanings) :=
  List.foldl_append

theorem assignAll_of_not_mem (ops : List (FilterOp α)) (meanings : Meanings ν) (l : Label)
    (unmade : l ∉ ops.map FilterOp.output) : assignAll meaning? ops meanings l = meanings l := by
  induction ops generalizing meanings with
  | nil => rfl
  | cons op rest ih =>
    simp only [List.map_cons, List.mem_cons, not_or] at unmade
    change assignAll meaning? rest (assign meaning? meanings op) l = _
    rw [ih _ unmade.2, assign, if_neg unmade.1]

end FilterOp

/-- The name of an input's stream leads back to the input. -/
theorem find?_streamRef (inputs : List String) (path stream : String) (h : path ∈ inputs) :
    (inputs.zipIdx.find? fun (_, k) =>
      streamRef k stream = streamRef (inputIndex inputs path) stream) =
        some (path, inputs.idxOf path) := by
  have below := List.idxOf_lt_length_of_mem h
  let named := fun (entry : String × Nat) =>
    decide (streamRef entry.2 stream = streamRef (inputIndex inputs path) stream)
  have listed : (path, inputs.idxOf path) ∈ inputs.zipIdx := by
    rw [List.mem_zipIdx_iff_getElem?, List.getElem?_eq_getElem below, List.getElem_idxOf]
  have present : (inputs.zipIdx.find? named).isSome = true :=
    List.find?_isSome.mpr ⟨_, listed, decide_eq_true rfl⟩
  obtain ⟨⟨other, k⟩, found⟩ := Option.isSome_iff_exists.mp present
  -- Streams of different inputs have different names, so what is found has the path's own index.
  have matching : named (other, k) = true := List.find?_some found
  have index := ((Labels.streamRef_inj _ _ _ _).mp (of_decide_eq_true matching)).1
  have entry := List.mem_zipIdx_iff_getElem?.mp (List.mem_of_find?_eq_some found)
  obtain rfl : k = inputs.idxOf path := Int.ofNat_inj.mp index
  rw [List.getElem?_eq_getElem below, List.getElem_idxOf, Option.some.injEq] at entry
  change inputs.zipIdx.find? named = _
  dsimp only at entry
  rw [found, entry]

end Montage
