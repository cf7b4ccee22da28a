import Montage.Proofs.Attempt
import Montage.Proofs.Number.Finite
import Montage.Timeline.Basic

/-!
# Which results are below zero

Rounding keeps the sign of a result, and the size zero is rounded to zero. So products, hundredths
and rounded values of numbers that are not below zero are not below zero either, and neither is
what is left of a number when no more than it is taken away.
-/
namespace Montage

namespace Binary64

theorem zero_eq : (Scalar.nat 0 : Binary64) = zero false := by decide

/-- A zero of either sign, a positive number, or no number. -/
def NotNegative (x : Binary64) : Prop := ¬x < Scalar.nat 0

@[simp] theorem notNegative_nan : NotNegative nan := by
  rw [NotNegative, zero_eq]
  exact Bool.false_ne_true

@[simp] theorem notNegative_infinite (s : Bool) : NotNegative (infinite s) ↔ s = false := by
  rw [NotNegative, zero_eq]
  cases s <;> decide

@[simp] theorem notNegative_finite (s : Bool) (r : Fin finiteCount) :
    NotNegative (finite s r) ↔ s = false ∨ r.val = 0 := by
  rw [NotNegative, zero_eq]
  change ¬lt (finite s r) (finite false _) = true ↔ _
  cases s with
  | false => simp [lt, place]
  | true => simp [lt, place]

theorem nearestRank_zero (den : Nat) : nearestRank 0 den = 0 := by
  simp [nearestRank_eq, roundQuotient]

theorem notNegative_ofUnits (s : Bool) (num den : Nat) (h : s = false ∨ num = 0) :
    NotNegative (ofUnits s num den) := by
  rw [ofUnits, ofRank]
  split
  next finite =>
    refine (notNegative_finite _ _).mpr (h.imp_right ?_)
    rintro rfl
    exact nearestRank_zero den
  next infinite =>
    refine (notNegative_infinite _).mpr (h.resolve_right ?_)
    rintro rfl
    exact infinite (by rw [nearestRank_zero]; decide)

theorem notNegative_ratio (num : Int) (den : Nat) (h : 0 ≤ num) :
    NotNegative (Scalar.ratio num den) := by
  change NotNegative (ofRatio num den)
  rw [ofRatio]
  exact notNegative_ofUnits _ _ _ (.inl (decide_eq_false (Int.not_lt.mpr h)))

theorem notNegative_nat (n : Nat) : NotNegative (Scalar.nat n) := by
  rw [Scalar.nat]
  exact notNegative_ratio n 1 (Int.natCast_nonneg n)

theorem units_eq_zero {rank : Nat} (h : rank = 0) : units rank = 0 := by
  rw [h, units_eq]
  simp

theorem NotNegative.mul {x y : Binary64} (hx : x.NotNegative) (hy : y.NotNegative) :
    (x * y).NotNegative := by
  change (Binary64.mul x y).NotNegative
  cases x with
  | nan => exact notNegative_nan
  | infinite s =>
    rw [notNegative_infinite] at hx
    cases y with
    | nan => exact notNegative_nan
    | infinite t => simpa [Binary64.mul, hx] using hy
    | finite t b =>
      simp only [Binary64.mul]
      split
      next => exact notNegative_nan
      next nonzero =>
        -- A factor that is not zero has its sign for a reason.
        rw [notNegative_finite] at hy
        simp [hx, hy.resolve_right nonzero]
  | finite s a =>
    rw [notNegative_finite] at hx
    cases y with
    | nan => exact notNegative_nan
    | infinite t =>
      simp only [Binary64.mul]
      split
      next => exact notNegative_nan
      next nonzero =>
        rw [notNegative_infinite] at hy
        simp [hy, hx.resolve_right nonzero]
    | finite t b =>
      rw [notNegative_finite] at hy
      refine notNegative_ofUnits _ _ _ ?_
      rcases hx with rfl | zero
      · rcases hy with rfl | zero
        · exact .inl rfl
        · exact .inr (by rw [units_eq_zero zero, Nat.mul_zero])
      · exact .inr (by rw [units_eq_zero zero, Nat.zero_mul])

theorem NotNegative.div_hundred {x : Binary64} (h : x.NotNegative) :
    (x / Scalar.nat 100).NotNegative := by
  rw [hundred_eq]
  change (div x _).NotNegative
  cases x with
  | nan => exact notNegative_nan
  | infinite s =>
    rw [notNegative_infinite] at h
    simp [div, h]
  | finite s a =>
    rw [notNegative_finite] at h
    simp only [div]
    rw [if_neg (by decide)]
    refine notNegative_ofUnits _ _ _ ?_
    rcases h with rfl | zero
    · exact .inl rfl
    · exact .inr (by rw [units_eq_zero zero, Nat.zero_mul])

theorem NotNegative.signedUnits {s : Bool} {r : Fin finiteCount} (h : (finite s r).NotNegative) :
    0 ≤ signedUnits s r := by
  rw [notNegative_finite] at h
  rcases h with rfl | zero
  · exact Int.natCast_nonneg _
  · rw [Binary64.signedUnits, units_eq_zero zero]
    split <;> exact Int.le_refl 0

/-- The sum of two finite numbers that are not below zero together. -/
theorem notNegative_add {s t : Bool} {a b : Fin finiteCount}
    (h : 0 ≤ Binary64.signedUnits s a + Binary64.signedUnits t b) :
    NotNegative (finite s a + finite t b) := by
  change (add _ _).NotNegative
  simp only [add]
  split
  next => exact (notNegative_finite _ _).mpr (.inr rfl)
  next => exact notNegative_ofUnits _ _ _ (.inl (decide_eq_false (Int.not_lt.mpr h)))

theorem NotNegative.add_half {x : Binary64} (h : x.NotNegative) :
    (x + Scalar.ratio 1 2).NotNegative := by
  rw [half_eq]
  cases x with
  | nan => exact notNegative_nan
  | infinite s => exact h
  | finite s a =>
    apply notNegative_add
    have half : 0 ≤ Binary64.signedUnits false (1022 * 2 ^ 52) := Int.natCast_nonneg _
    exact Int.add_nonneg h.signedUnits half

theorem NotNegative.floor {x : Binary64} (h : x.NotNegative) {n : Int} (found : x.floor = .ok n) :
    0 ≤ n := by
  cases x with
  | nan => cases found
  | infinite s => cases found
  | finite s r =>
    cases found
    exact Int.ediv_nonneg h.signedUnits (Int.natCast_nonneg _)

/-- A number that is not below zero is not rounded below it. -/
theorem NotNegative.roundHalfUp {x : Binary64} (h : x.NotNegative) {n : Int}
    (found : Scalar.roundHalfUp x = .ok n) : 0 ≤ n :=
  h.add_half.floor found

/-- A later double of the order of ranks is at least as great. -/
theorem units_mono {a b : Nat} (le : a ≤ b) : units a ≤ units b := by
  induction le with
  | refl => exact Nat.le_refl _
  | @step b _ ih =>
    refine Nat.le_trans ih ?_
    rw [units_eq, units_eq]
    have exponent : (b + 1) / 2 ^ 52 = b / 2 ^ 52 ∨ (b + 1) / 2 ^ 52 = b / 2 ^ 52 + 1 := by omega
    rcases exponent with same | next
    · rw [same]
      apply Nat.mul_le_mul_right
      omega
    · cases here : b / 2 ^ 52 with
      | zero =>
        rw [next, here]
        apply Nat.mul_le_mul_right
        omega
      | succ shift =>
        -- The first double of the next exponent has half the significand in twice the unit.
        have unit : 2 ^ (shift + 1) = 2 * 2 ^ shift := Nat.pow_succ'
        rw [next, here, Nat.add_sub_cancel, Nat.add_sub_cancel, unit, ← Nat.mul_assoc]
        apply Nat.mul_le_mul_right
        omega

/-- What is left of a hundred when no more is taken away. -/
theorem notNegative_hundred_sub {x : Binary64} (h : ¬Scalar.nat 100 < x) :
    (Scalar.nat 100 - x).NotNegative := by
  rw [hundred_eq] at h ⊢
  change (add _ (neg x)).NotNegative
  cases x with
  | nan => exact notNegative_nan
  | infinite s =>
    cases s with
    | false => exact absurd (by decide) h
    | true => exact (notNegative_infinite _).mpr rfl
  | finite s r =>
    apply notNegative_add
    cases s with
    | true => exact Int.add_nonneg (Int.natCast_nonneg _) (Int.natCast_nonneg _)
    | false =>
      -- Ranks are in the order of the numbers.
      have below : r.val ≤ 1029 * 2 ^ 52 + 9 * 2 ^ 48 := by
        change ¬lt _ _ = true at h
        simp only [lt, place, decide_eq_true_eq] at h
        simp only [Bool.false_eq_true, if_false] at h
        omega
      have size := units_mono below
      change 0 ≤ (units (1029 * 2 ^ 52 + 9 * 2 ^ 48) : Int) + -(units r.val : Int)
      omega

end Binary64

/-- A share of a size is not below zero where the percentage is not. -/
theorem Percent.notNegative_share {p : Percent Binary64} {pixels : Int}
    (h : p.value.NotNegative) (size : 0 ≤ pixels) {length : Binary64}
    (found : p.share pixels = .ok length) : length.NotNegative := by
  -- A whole percentage is divided exactly, a measured one as a double.
  cases p with
  | whole n =>
    simp only [share, Scalar.quotient] at found
    split at found
    · cases found
      exact Binary64.notNegative_ratio _ _ (Int.mul_nonneg (Int.natCast_nonneg n) size)
    · cases found
  | measured x =>
    obtain ⟨pixels', converted, found⟩ := Except.bind_eq_ok_iff.mp found
    cases found
    simp only [Scalar.ofInt] at converted
    split at converted
    · cases converted
      exact (h.mul (Binary64.notNegative_ratio _ _ size)).div_hundred
    · cases converted

end Montage
