import Montage.Proofs.Number.Bounds
import Montage.Proofs.Number.Sign

/-!
# Where nothing is rounded

A size with a significand of 53 bits is the size of a double, so an operation with such a result
does not round. In particular the natural numbers below `2 ^ 52` are doubles: once and halves of
them are too, and so such a number times one, rounded to the nearest integer, is the number.
-/
namespace Montage.Binary64

theorem roundQuotient_mul (n den : Nat) (positive : 0 < den) :
    roundQuotient (n * den) den = n := by
  unfold roundQuotient
  rw [Nat.mul_div_cancel n positive, Nat.mul_mod_left]
  exact if_pos positive

/-- A size of 53 bits has a double of just that size. -/
theorem units_nearestRank (significand exponent den : Nat) (positive : 0 < den)
    (fits : significand < 2 ^ 53) :
    units (nearestRank (significand * 2 ^ exponent * den) den) = significand * 2 ^ exponent := by
  have small : significand * 2 ^ exponent < 2 ^ (53 + exponent) := by
    rw [Nat.pow_add]
    exact Nat.mul_lt_mul_of_pos_right fits (Nat.two_pow_pos _)
  -- The unit of the last place is no greater than the factor that is there.
  have below : (significand * 2 ^ exponent).log2 - 52 ≤ exponent := by
    rcases Nat.eq_zero_or_pos (significand * 2 ^ exponent) with none | some
    · rw [none]
      exact Nat.zero_le _
    · have bits := (Nat.log2_lt (Nat.pos_iff_ne_zero.mp some)).mpr small
      omega
  have cut : significand * 2 ^ exponent * den / den = significand * 2 ^ exponent :=
    Nat.mul_div_cancel _ positive
  have most := div_two_pow_log2_lt (significand * 2 ^ exponent)
  have normal := le_div_two_pow_log2 (significand * 2 ^ exponent)
  rw [nearestRank_eq, cut]
  generalize shift_eq : (significand * 2 ^ exponent).log2 - 52 = shift at below most normal ⊢
  obtain ⟨rest, rfl⟩ := Nat.exists_eq_add_of_le below
  have split : significand * 2 ^ (shift + rest) = significand * 2 ^ rest * 2 ^ shift := by
    rw [Nat.add_comm, Nat.pow_add, Nat.mul_assoc]
  have kept : significand * 2 ^ (shift + rest) / 2 ^ shift = significand * 2 ^ rest := by
    rw [split, Nat.mul_div_cancel _ (Nat.two_pow_pos shift)]
  rw [kept] at most normal
  rw [split, Nat.mul_assoc _ (2 ^ shift) den, Nat.mul_comm (2 ^ shift) den,
    roundQuotient_mul _ _ (Nat.mul_pos positive (Nat.two_pow_pos shift))]
  refine units_significand shift _ (Nat.le_of_lt most) ?_
  rcases Nat.eq_zero_or_pos shift with none | some
  · exact .inl none
  · exact .inr (normal (by omega))

/-- A double that is not below zero, of an exact size. -/
def HasUnits (x : Binary64) (n : Nat) : Prop := ∃ r, x = finite false r ∧ units r = n

theorem hasUnits_ofUnits (significand exponent den : Nat) (positive : 0 < den)
    (fits : significand < 2 ^ 53) (room : significand * 2 ^ exponent < overflow) :
    (ofUnits false (significand * 2 ^ exponent * den) den).HasUnits
      (significand * 2 ^ exponent) := by
  have finite : nearestRank (significand * 2 ^ exponent * den) den < finiteCount := by
    rw [nearestRank_lt_iff _ den positive]
    exact Nat.mul_lt_mul_of_pos_right room positive
  rw [ofUnits, ofRank, dif_pos finite]
  exact ⟨_, rfl, units_nearestRank significand exponent den positive fits⟩

/-- One and a half are powers of two, as sizes. -/
theorem exists_half_eq : ∃ k ≤ 2043, units (1022 * 2 ^ 52) = 2 ^ k ∧ one = 2 ^ (k + 1) :=
  ⟨1073, by decide, by decide +kernel, by decide +kernel⟩

/-- The double of a natural number. -/
def IsWhole (x : Binary64) (n : Nat) : Prop := x.HasUnits (n * one)

theorem IsWhole.isFinite {x : Binary64} {n : Nat} (h : x.IsWhole n) : x.isFinite = true := by
  obtain ⟨r, rfl, _⟩ := h
  rfl

theorem isWhole_ofUnits (n den : Nat) (positive : 0 < den) (small : n < 2 ^ 53) :
    (ofUnits false (n * one * den) den).IsWhole n := by
  obtain ⟨k, most, _, one_eq⟩ := exists_half_eq
  rw [IsWhole, one_eq]
  refine hasUnits_ofUnits n (k + 1) den positive small ?_
  exact Nat.lt_of_lt_of_le (Nat.mul_lt_mul_of_pos_right small (Nat.two_pow_pos _))
    (le_overflow (k + 1) (Nat.succ_le_succ most))

theorem isWhole_ratio (n : Nat) (small : n < 2 ^ 53) :
    (Scalar.ratio (n : Int) 1 : Binary64).IsWhole n := by
  have whole := isWhole_ofUnits n 1 Nat.one_pos small
  rw [Nat.mul_one] at whole
  change (ofRatio n 1).IsWhole n
  rw [ofRatio, decide_eq_false (Int.not_lt.mpr (Int.natCast_nonneg n)), Int.natAbs_natCast]
  exact whole

theorem IsWhole.mul_one {x y : Binary64} {n : Nat} (h : x.IsWhole n) (unit : y.IsWhole 1)
    (small : n < 2 ^ 53) : (x * y).IsWhole n := by
  obtain ⟨r, rfl, size⟩ := h
  obtain ⟨q, rfl, size'⟩ := unit
  change (mul _ _).IsWhole n
  rw [mul, size, size', Nat.one_mul]
  exact isWhole_ofUnits n one one_pos small

theorem signedUnits_false (rank : Nat) : signedUnits false rank = units rank := rfl

/-- A natural number is rounded to itself. -/
theorem IsWhole.roundHalfUp {x : Binary64} {n : Nat} (h : x.IsWhole n) (small : n < 2 ^ 52) :
    Scalar.roundHalfUp x = .ok (n : Int) := by
  obtain ⟨r, rfl, size⟩ := h
  obtain ⟨k, most, half, one_eq⟩ := exists_half_eq
  have double : one = 2 * 2 ^ k := one_eq.trans (Nat.pow_succ' ..)
  -- With the half added, the size is an odd number of halves, and that is a double too.
  have total : signedUnits false r + signedUnits false (1022 * 2 ^ 52) =
      ((2 * n + 1) * 2 ^ k * 1 : Nat) := by
    rw [signedUnits_false, signedUnits_false, size, half, double, ← Int.natCast_add]
    exact congrArg Nat.cast (by ring)
  have room : (2 * n + 1) * 2 ^ k < overflow :=
    Nat.lt_of_lt_of_le (Nat.mul_lt_mul_of_pos_right (by omega : 2 * n + 1 < 2 ^ 53)
      (Nat.two_pow_pos k)) (le_overflow k (by omega))
  obtain ⟨q, sum, size'⟩ := hasUnits_ofUnits (2 * n + 1) k 1 Nat.one_pos (by omega) room
  have positive : 0 < (2 * n + 1) * 2 ^ k * 1 := by
    rw [Nat.mul_one]
    exact Nat.mul_pos (Nat.succ_pos _) (Nat.two_pow_pos k)
  rw [Scalar.roundHalfUp, half_eq]
  change floor (add _ _) = _
  rw [add, total, if_neg (by omega), decide_eq_false (by omega), Int.natAbs_natCast, sum]
  have halved : (2 * n + 1) / 2 = n := by omega
  rw [floor, toInteger, signedUnits_false, size', double, ← Int.natCast_ediv,
    Nat.mul_div_mul_right _ _ (Nat.two_pow_pos k), halved]

end Montage.Binary64
