import Montage.Proofs.Graph.Compiling
import Montage.Proofs.Number.Bounds

/-!
# Shares of moderate frames

No source that anyone edits comes near the sides for which a share of its frame overflows. Where a
percentage is at most a hundred and the side at most `2 ^ 500`, the share is far below the
overflow, so it comes to a finite number of pixels.
-/
namespace Montage

open Binary64 (IsWithin)

/-- A bound on the sides of a source, in pixels. -/
def moderate : Nat := 2 ^ 500

/-- A percentage of at most a hundred. -/
def Percent.IsModerate : Percent Binary64 → Prop
  | whole n => n ≤ 100
  | measured x => x.IsWithin 100

/-- A moderate percentage of a moderate side comes to a finite number of pixels. -/
theorem Percent.IsModerate.isMeasured {p : Percent Binary64} {pixels : Int} (h : p.IsModerate)
    (side : pixels.natAbs ≤ moderate) : p.IsMeasured pixels := by
  -- Each operation at most triples what its exact result would be.
  cases p with
  | whole n =>
    have small : (n * pixels).natAbs ≤ moderate * 100 := by
      rw [Int.natAbs_mul, Int.natAbs_natCast, Nat.mul_comm]
      exact Nat.mul_le_mul side h
    exact (Binary64.isWithin_ratio (n * pixels) 100 moderate (by decide) (by decide +kernel)
      (by decide +kernel) small).isFinite
  | measured x =>
    have length := Binary64.isWithin_ratio pixels 1 moderate (by decide) (by decide +kernel)
      (by decide +kernel) (by rwa [Nat.mul_one])
    exact ⟨length.isFinite,
      (IsWithin.mul h length (by decide +kernel) (by decide +kernel)).isFinite⟩

end Montage
