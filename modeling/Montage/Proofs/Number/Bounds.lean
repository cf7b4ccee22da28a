import Montage.Proofs.Number.Finite

/-!
# How large results get

Rounding at most triples a size of one or more. So a chain of operations on numbers of moderate
size stays far below the overflow, and what it comes to can be bounded factor by factor.
-/
namespace Montage.Binary64

/-- A rank in terms of its significand and exponent. -/
theorem units_significand (shift significand : Nat) (most : significand ≤ 2 ^ 53)
    (normal : shift = 0 ∨ 2 ^ 52 ≤ significand) :
    units (shift * 2 ^ 52 + significand) = significand * 2 ^ shift := by
  rw [units_eq]
  -- A significand that was rounded up to the next power of two belongs to the next exponent.
  rcases Nat.lt_or_eq_of_le most with below | full
  · have exponent : (shift * 2 ^ 52 + significand) / 2 ^ 52 - 1 = shift := by omega
    rw [exponent, Nat.add_sub_cancel_left]
  · have exponent : (shift * 2 ^ 52 + significand) / 2 ^ 52 - 1 = shift + 1 := by omega
    have rest : shift * 2 ^ 52 + significand - (shift + 1) * 2 ^ 52 = 2 ^ 52 := by omega
    rw [exponent, rest, full, ← Nat.pow_add, ← Nat.pow_add]
    congr 1
    omega

theorem units_nearestRank_le (num den : Nat) :
    units (nearestRank num den) ≤ 2 * (num / den) + 1 := by
  have bounds := roundQuotient_bounds num (den * 2 ^ ((num / den).log2 - 52))
  rw [← Nat.div_div_eq_div_mul] at bounds
  have small := div_two_pow_log2_lt (num / den)
  have normal : (num / den).log2 - 52 = 0 ∨
      2 ^ 52 ≤ num / den / 2 ^ ((num / den).log2 - 52) := by
    rcases Nat.eq_zero_or_pos ((num / den).log2 - 52) with least | larger
    · exact .inl least
    · exact .inr (le_div_two_pow_log2 (num / den) (by omega))
  have unit : 2 ^ ((num / den).log2 - 52) ≤ num / den + 1 := by
    rcases normal with least | large
    · rw [least, Nat.pow_zero]
      exact Nat.le_add_left 1 _
    · have kept := (Nat.le_div_iff_mul_le (Nat.two_pow_pos _)).mp large
      omega
  -- Rounding adds one unit of the last place at most, and that is no more than the size itself.
  rw [nearestRank_eq, units_significand _ _ (by omega) (by omega)]
  have cut := Nat.div_mul_le_self (num / den) (2 ^ ((num / den).log2 - 52))
  have raised := Nat.mul_le_mul_right (2 ^ ((num / den).log2 - 52)) bounds.2
  rw [Nat.succ_mul] at raised
  omega

/-- A finite number of at most so many times one. -/
def IsWithin (x : Binary64) (bound : Nat) : Prop :=
  ∃ s r, x = finite s r ∧ units r ≤ bound * one

theorem IsWithin.isFinite {x : Binary64} {bound : Nat} (h : x.IsWithin bound) :
    x.isFinite = true := by
  obtain ⟨s, r, rfl, _⟩ := h
  rfl

/-- A size of one or more is at most tripled when it is rounded. -/
theorem isWithin_ofUnits (negative : Bool) (num den bound : Nat) (positive : 0 < den)
    (least : 1 ≤ bound) (room : bound * one < overflow) (small : num ≤ bound * one * den) :
    (ofUnits negative num den).IsWithin (3 * bound) := by
  have cut : num / den ≤ bound * one := Nat.div_le_of_le_mul (by rwa [Nat.mul_comm])
  have finite : nearestRank num den < finiteCount := by
    rw [nearestRank_lt_iff num den positive]
    exact Nat.lt_of_le_of_lt small (Nat.mul_lt_mul_of_pos_right room positive)
  rw [ofUnits, ofRank, dif_pos finite]
  refine ⟨_, _, rfl, Nat.le_trans (units_nearestRank_le num den) ?_⟩
  have whole : 1 ≤ bound * one := Nat.mul_pos least one_pos
  rw [Nat.mul_assoc]
  omega

theorem isWithin_ratio (num : Int) (den bound : Nat) (positive : 0 < den) (least : 1 ≤ bound)
    (room : bound * one < overflow) (small : num.natAbs ≤ bound * den) :
    (Scalar.ratio num den : Binary64).IsWithin (3 * bound) := by
  change (ofRatio num den).IsWithin (3 * bound)
  rw [ofRatio]
  refine isWithin_ofUnits _ _ _ _ positive least room ?_
  rw [Nat.mul_right_comm]
  exact Nat.mul_le_mul_right one small

theorem IsWithin.mul {x y : Binary64} {a b : Nat} (hx : x.IsWithin a) (hy : y.IsWithin b)
    (least : 1 ≤ a * b) (room : a * b * one < overflow) : (x * y).IsWithin (3 * (a * b)) := by
  obtain ⟨s, r, rfl, hr⟩ := hx
  obtain ⟨t, q, rfl, hq⟩ := hy
  change (Binary64.mul _ _).IsWithin (3 * (a * b))
  rw [Binary64.mul]
  refine isWithin_ofUnits _ _ _ _ one_pos least room ?_
  calc units r * units q ≤ a * one * (b * one) := Nat.mul_le_mul hr hq
    _ = a * b * one * one := by ring

end Montage.Binary64
