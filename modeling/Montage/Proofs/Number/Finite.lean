import Mathlib.Tactic.Ring
import Montage.Number.Scalar

/-!
# Where doubles end

The result of an operation is infinite when its exact size reaches `overflow`, half a unit of the
last place past the greatest finite double, and finite below it. Hence adding a half, or dividing
by a hundred, never leaves the finite doubles, and a product does so exactly when it is too large.
-/
namespace Montage

namespace Binary64

theorem one_pos : 0 < one := by decide

theorem units_eq (rank : Nat) :
    units rank =
      (rank - (rank / 2 ^ 52 - 1) * 2 ^ 52) * 2 ^ (rank / 2 ^ 52 - 1) := by
  simp only [units, Nat.shiftLeft_eq, Nat.shiftRight_eq_div_pow]

theorem nearestRank_eq (num den : Nat) :
    nearestRank num den = ((num / den).log2 - 52) * 2 ^ 52 +
      roundQuotient num (den * 2 ^ ((num / den).log2 - 52)) := by
  simp only [nearestRank, Nat.shiftLeft_eq]

/-- The least size, in units of the least positive double, that rounds to infinity. -/
def overflow : Nat := (2 ^ 54 - 1) * 2 ^ 2044

theorem two_mul_units (n k : Nat) : 2 * (n * 2 ^ k) = n * 2 ^ (k + 1) := by
  ring

theorem two_mul_overflow : 2 * overflow = (2 ^ 54 - 1) * 2 ^ 2045 := by
  rw [overflow, two_mul_units]

theorem le_overflow (k : Nat) (below : k ≤ 2044) : 2 ^ 53 * 2 ^ k ≤ overflow := by
  apply Nat.mul_le_mul (by decide)
  apply Nat.pow_le_pow_right (by decide)
  exact below

theorem overflow_le (k : Nat) (above : 2046 ≤ k) : overflow ≤ 2 ^ 52 * 2 ^ k := by
  have factor : 2 ^ 2 ≤ 2 ^ (k - 2044) := Nat.pow_le_pow_right Nat.two_pos (by omega)
  have split : 2 ^ 52 * 2 ^ k = 2 ^ 52 * 2 ^ (k - 2044) * 2 ^ 2044 := by
    rw [Nat.mul_assoc, ← Nat.pow_add 2 (k - 2044), Nat.sub_add_cancel (by omega)]
  rw [split]
  apply Nat.mul_le_mul_right
  omega

theorem roundQuotient_bounds (num den : Nat) :
    num / den ≤ roundQuotient num den ∧ roundQuotient num den ≤ num / den + 1 := by
  unfold roundQuotient
  dsimp only
  split
  · omega
  · split <;> omega

/-- An odd number is kept below the half above it, which goes to the even number. -/
theorem roundQuotient_le_iff (num den k : Nat) (odd : k % 2 = 1) (positive : 0 < den) :
    roundQuotient num den ≤ k ↔ 2 * num < (2 * k + 1) * den := by
  have whole := Nat.div_add_mod num den
  have rest := Nat.mod_lt num positive
  have middle : (2 * k + 1) * den = 2 * (den * k) + den := by ring
  rw [middle]
  -- Rounding changes the quotient by one at most, so the remainder matters only where it is `k`.
  rcases Nat.lt_trichotomy (num / den) k with below | here | above
  · have reached : den * (num / den) + den ≤ den * k := by
      rw [← Nat.mul_succ]
      exact Nat.mul_le_mul_left den below
    have most := (roundQuotient_bounds num den).2
    exact iff_of_true (by omega) (by omega)
  · rw [here] at whole
    unfold roundQuotient
    rw [here]
    dsimp only
    split
    · omega
    · split <;> omega
  · have passed : den * k + den ≤ den * (num / den) := by
      rw [← Nat.mul_succ]
      exact Nat.mul_le_mul_left den above
    have least := (roundQuotient_bounds num den).1
    exact iff_of_false (by omega) (by omega)

theorem div_two_pow_log2_lt (q : Nat) : q / 2 ^ (q.log2 - 52) < 2 ^ 53 := by
  rw [Nat.div_lt_iff_lt_mul (Nat.two_pow_pos _), ← Nat.pow_add]
  refine Nat.lt_of_lt_of_le Nat.lt_log2_self (Nat.pow_le_pow_right (by decide) ?_)
  omega

theorem le_div_two_pow_log2 (q : Nat) (normal : 52 ≤ q.log2) :
    2 ^ 52 ≤ q / 2 ^ (q.log2 - 52) := by
  rw [Nat.le_div_iff_mul_le (Nat.two_pow_pos _), ← Nat.pow_add]
  have exponent : 52 + (q.log2 - 52) = q.log2 := by omega
  rw [exponent]
  refine Nat.log2_self_le ?_
  rintro rfl
  simp at normal

/-- A size has a finite double nearest to it exactly below the overflow. -/
theorem nearestRank_lt_iff (num den : Nat) (positive : 0 < den) :
    nearestRank num den < finiteCount ↔ num < overflow * den := by
  have unit : 0 < den * 2 ^ ((num / den).log2 - 52) := Nat.mul_pos positive (Nat.two_pow_pos _)
  have bounds := roundQuotient_bounds num (den * 2 ^ ((num / den).log2 - 52))
  rw [← Nat.div_div_eq_div_mul] at bounds
  have scaled : num < overflow * den ↔ num / den < overflow :=
    (Nat.div_lt_iff_lt_mul positive).symm
  -- Only at the last exponent of the finite doubles does it depend on the rounding.
  rcases Nat.lt_trichotomy ((num / den).log2 - 52) 2045 with below | last | above
  · have significand := div_two_pow_log2_lt (num / den)
    have finite : nearestRank num den < finiteCount := by
      rw [nearestRank_eq, finiteCount]
      omega
    have small : num / den < overflow := by
      refine Nat.lt_of_lt_of_le ?_ (le_overflow _ (Nat.le_of_lt_succ below))
      exact (Nat.div_lt_iff_lt_mul (Nat.two_pow_pos _)).mp significand
    exact iff_of_true finite (scaled.mpr small)
  · rw [last] at unit
    have edge : nearestRank num den < finiteCount ↔
        roundQuotient num (den * 2 ^ 2045) ≤ 2 ^ 53 - 1 := by
      rw [nearestRank_eq, finiteCount, last]
      omega
    have double : (2 * (2 ^ 53 - 1) + 1) * (den * 2 ^ 2045) = 2 * (overflow * den) := by
      rw [← Nat.mul_assoc 2, two_mul_overflow]
      generalize 2 ^ 2045 = unit
      ring
    rw [edge, roundQuotient_le_iff _ _ _ (by decide) unit, double]
    omega
  · have significand := le_div_two_pow_log2 (num / den) (by omega)
    have infinite : finiteCount ≤ nearestRank num den := by
      rw [nearestRank_eq, finiteCount]
      omega
    have large : overflow ≤ num / den := by
      refine Nat.le_trans (overflow_le _ above) ?_
      exact (Nat.le_div_iff_mul_le (Nat.two_pow_pos _)).mp significand
    exact iff_of_false (Nat.not_lt.mpr infinite) (fun h => Nat.not_lt.mpr large (scaled.mp h))

theorem isFinite_ofUnits (negative : Bool) (num den : Nat) (positive : 0 < den) :
    (ofUnits negative num den).isFinite = true ↔ num < overflow * den := by
  rw [← nearestRank_lt_iff num den positive, ofUnits, ofRank]
  split
  next finite => exact iff_of_true rfl finite
  next infinite => exact iff_of_false nofun infinite

/-- Between the greatest finite double and the overflow there is half a unit of the last place. -/
theorem units_add_le_overflow (rank : Fin finiteCount) :
    units rank + 2 ^ 2044 ≤ overflow := by
  have bound : rank.val < 2047 * 2 ^ 52 := rank.isLt
  -- No double is above the one of the greatest significand at the last exponent.
  have significand : rank.val - (rank.val / 2 ^ 52 - 1) * 2 ^ 52 ≤ 2 ^ 53 - 1 := by omega
  have exponent : 2 ^ (rank.val / 2 ^ 52 - 1) ≤ 2 ^ (2044 + 1) := by
    apply Nat.pow_le_pow_right (by decide)
    omega
  have greatest : units rank ≤ (2 ^ 53 - 1) * 2 ^ (2044 + 1) := by
    rw [units_eq]
    exact Nat.mul_le_mul significand exponent
  rw [← two_mul_units] at greatest
  unfold overflow
  generalize 2 ^ 2044 = unit at greatest ⊢
  omega

theorem natAbs_signedUnits (negative : Bool) (rank : Nat) :
    (signedUnits negative rank).natAbs = units rank := by
  cases negative <;> simp [signedUnits]

theorem half_eq : (Scalar.ratio 1 2 : Binary64) = finite false ⟨1022 * 2 ^ 52, by decide⟩ := by
  decide +kernel

theorem hundred_eq :
    (Scalar.nat 100 : Binary64) = finite false ⟨1029 * 2 ^ 52 + 9 * 2 ^ 48, by decide⟩ := by
  decide +kernel

/-- Adding a half keeps a finite number finite. -/
theorem isFinite_add_half (x : Binary64) : (x + Scalar.ratio 1 2).isFinite = x.isFinite := by
  rw [half_eq]
  cases x with
  | nan => rfl
  | infinite negative => rfl
  | finite negative rank =>
    have room := units_add_le_overflow rank
    change (add _ _).isFinite = true
    simp only [add]
    split
    · rfl
    · refine (isFinite_ofUnits _ _ 1 Nat.one_pos).mpr ?_
      -- The units of a half do not reach from the greatest number to the overflow.
      have sum := Int.natAbs_add_le (signedUnits negative rank) (signedUnits false (1022 * 2 ^ 52))
      rw [natAbs_signedUnits, natAbs_signedUnits] at sum
      have half : units (1022 * 2 ^ 52) < 2 ^ 2044 := by decide +kernel
      omega

/-- A hundredth of a number is finite exactly when the number is. -/
theorem isFinite_div_hundred (x : Binary64) : (x / Scalar.nat 100).isFinite = x.isFinite := by
  rw [hundred_eq]
  cases x with
  | nan => rfl
  | infinite negative => rfl
  | finite negative rank =>
    have room := units_add_le_overflow rank
    change (div _ _).isFinite = true
    simp only [div]
    rw [if_neg (by decide)]
    refine (isFinite_ofUnits _ _ _ (by decide)).mpr ?_
    -- The quotient has no more units than the number had.
    have hundred : units (1029 * 2 ^ 52 + 9 * 2 ^ 48) = 100 * one := by decide
    rw [hundred]
    have below : units rank < overflow := by
      have unit := Nat.two_pow_pos 2044
      omega
    calc units rank * one < overflow * one := Nat.mul_lt_mul_of_pos_right below one_pos
      _ ≤ overflow * (100 * one) :=
        Nat.mul_le_mul_left _ (Nat.le_mul_of_pos_left one (by decide))

/-- Numbers are comparable unless one of them is `nan`. -/
theorem le_iff_not_lt (x y : Binary64) : x ≤ y ↔ ¬y < x ∧ x ≠ nan ∧ y ≠ nan := by
  change le x y = true ↔ ¬lt y x = true ∧ _
  cases x <;> cases y <;> simp [le, lt, place]

/-- A number has a greatest integer below it exactly when it is finite. -/
theorem toInteger_eq_ok_iff (whole : Int → Int) (x : Binary64) :
    (∃ n, x.toInteger whole = .ok n) ↔ x.isFinite = true := by
  cases x <;> simp [toInteger, isFinite]

end Binary64

/-- A number can be rounded exactly when it is finite. -/
theorem Scalar.roundHalfUp_eq_ok_iff (x : Binary64) :
    (∃ n, Scalar.roundHalfUp x = .ok n) ↔ x.isFinite = true := by
  rw [← Binary64.isFinite_add_half]
  exact Binary64.toInteger_eq_ok_iff (fun n => n / (Binary64.one : Int)) (x + Scalar.ratio 1 2)

end Montage
