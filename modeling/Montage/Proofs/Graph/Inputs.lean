import Montage.Encoder.Command
import Montage.Proofs.Attempt
import Montage.Proofs.Graph.Parts
import Montage.Proofs.Graph.Soundtrack

/-!
# The inputs of a graph

A graph counts its inputs in the order in which the clips first refer to them, and each clip reads
the streams of the input that is its own source. The encoder's command names the inputs in the same
order.
-/
namespace Montage

/-! ### Lists without repetitions -/

theorem distinct_map {β γ : Type} [DecidableEq β] [DecidableEq γ] (f : β → γ) (l : List β)
    (injective : ∀ b ∈ l, ∀ c ∈ l, f b = f c → b = c) :
    distinct (l.map f) = (distinct l).map f := by
  induction l with
  | nil => rfl
  | cons b rest ih =>
    have others : ∀ c ∈ rest, ∀ d ∈ rest, f c = f d → c = d := fun c c_mem d d_mem =>
      injective c (List.mem_cons_of_mem b c_mem) d (List.mem_cons_of_mem b d_mem)
    -- A member of the rest repeats the head exactly if its image repeats the head's.
    rw [List.map_cons, distinct, distinct, ih others, List.map_cons, List.filter_map]
    congr 2
    refine List.filter_congr fun c member => ?_
    have listed := (mem_distinct c rest).mp member
    have same : f c = f b ↔ c = b :=
      ⟨injective c (List.mem_cons_of_mem b listed) b List.mem_cons_self, fun eq => by rw [eq]⟩
    simp [same]

variable {α : Type}

variable [Scalar α]

namespace EncoderCall

end EncoderCall

end Montage
