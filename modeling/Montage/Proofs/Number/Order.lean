import Montage.Proofs.Number.Exact

/-!
# The order of doubles

Every double but `nan` has a place among the integers, and comparisons compare places. A place
belongs to one double only, except that the two zeros share theirs. So the greatest of several
numbers is the same in whatever order they are compared, as long as no negative zero is among
them; and a sum is a negative zero only if both summands are.
-/
namespace Montage.Binary64

theorem exists_place {x : Binary64} (number : x ≠ nan) : ∃ a, place x = some a := by
  cases x with
  | nan => exact absurd rfl number
  | infinite s => exact ⟨_, rfl⟩
  | finite s r => exact ⟨_, rfl⟩

theorem place_zero : place (Scalar.nat 0) = some 0 := by decide

section

variable {x y : Binary64} {a b : Int}

theorem lt_iff_place (hx : place x = some a) (hy : place y = some b) : x < y ↔ a < b := by
  change lt x y = true ↔ a < b
  rw [lt, hx, hy, decide_eq_true_iff]

theorem le_iff_place (hx : place x = some a) (hy : place y = some b) : x ≤ y ↔ a ≤ b := by
  change le x y = true ↔ a ≤ b
  rw [le, hx, hy, decide_eq_true_iff]

theorem place_larger (hx : place x = some a) (hy : place y = some b) :
    place (Scalar.larger x y) = some (max a b) := by
  unfold Scalar.larger
  split
  next less =>
    rw [lt_iff_place hx hy] at less
    rw [hy, max_eq_right (Int.le_of_lt less)]
  next least =>
    rw [lt_iff_place hx hy] at least
    rw [hx, max_eq_left (Int.not_lt.mp least)]

/-- Two doubles in one place are the same, or two zeros. -/
theorem eq_or_zero_of_place (hx : place x = some a) (hy : place y = some a) :
    x = y ∨ a = 0 ∧ ∃ s t, x = zero s ∧ y = zero t := by
  have zeros (s : Bool) (r : Fin finiteCount) (none : r.val = 0) : finite s r = zero s :=
    congrArg (finite s) (Fin.ext none)
  cases x with
  | nan => cases hx
  | infinite s =>
    cases y with
    | nan => cases hy
    | infinite t => grind [place]
    | finite t q => grind [place]
  | finite s r =>
    cases y with
    | nan => cases hy
    | infinite t => grind [place]
    | finite t q =>
      -- A sign is lost in the place only where the rank is zero.
      by_cases none : r.val = 0 ∧ q.val = 0
      · refine .inr ⟨by grind [place], s, t, zeros s r none.1, zeros t q none.2⟩
      · left
        grind [place]

theorem exists_place_of_le (h : x ≤ y) :
    ∃ a b, place x = some a ∧ place y = some b ∧ a ≤ b := by
  have compared : le x y = true := h
  cases hx : place x with
  | none =>
    rw [le, hx] at compared
    cases compared
  | some a =>
    cases hy : place y with
    | none =>
      rw [le, hx, hy] at compared
      cases compared
    | some b => exact ⟨a, b, rfl, rfl, (le_iff_place hx hy).mp h⟩

/-- Equal numbers are those in one place. -/
theorem equal_iff_place (hy : place y = some b) : Scalar.equal x y = true ↔ place x = some b := by
  rw [Scalar.equal, Bool.and_eq_true, decide_eq_true_iff, decide_eq_true_iff]
  constructor
  · rintro ⟨upper, lower⟩
    obtain ⟨a, b', hx, hy', below⟩ := exists_place_of_le upper
    cases hy.symm.trans hy'
    rw [hx, Int.le_antisymm below ((le_iff_place hy hx).mp lower)]
  · intro hx
    rw [le_iff_place hx hy, le_iff_place hy hx]
    exact ⟨Int.le_refl b, Int.le_refl b⟩

theorem le_trans {z : Binary64} (first : x ≤ y) (second : y ≤ z) : x ≤ z := by
  obtain ⟨a, b, hx, hy, below⟩ := exists_place_of_le first
  obtain ⟨b', c, hy', hz, above⟩ := exists_place_of_le second
  cases hy.symm.trans hy'
  exact (le_iff_place hx hz).mpr (Int.le_trans below above)

theorem le_rfl (number : x ≠ nan) : x ≤ x := by
  obtain ⟨a, hx⟩ := exists_place number
  exact (le_iff_place hx hx).mpr (Int.le_refl a)

end

/-- The greater of two numbers is one of them, and not below either. -/
theorem larger_spec {x y : Binary64} (hx : x ≠ nan) (hy : y ≠ nan) :
    (Scalar.larger x y = x ∨ Scalar.larger x y = y) ∧
      x ≤ Scalar.larger x y ∧ y ≤ Scalar.larger x y := by
  obtain ⟨a, hx⟩ := exists_place hx
  obtain ⟨b, hy⟩ := exists_place hy
  have larger := place_larger hx hy
  refine ⟨?_, ?_, ?_⟩
  · unfold Scalar.larger
    split
    · exact .inr rfl
    · exact .inl rfl
  · rw [le_iff_place hx larger]
    exact le_max_left a b
  · rw [le_iff_place hy larger]
    exact le_max_right a b

/-- The last of several numbers that was greater than all before it is the greatest. -/
theorem foldl_larger_spec (x : Binary64) (others : List Binary64)
    (numbers : ∀ y ∈ x :: others, y ≠ nan) :
    others.foldl Scalar.larger x ∈ x :: others ∧
      ∀ y ∈ x :: others, y ≤ others.foldl Scalar.larger x := by
  induction others generalizing x with
  | nil =>
    have number := numbers x (List.mem_singleton_self x)
    refine ⟨List.mem_singleton_self x, ?_⟩
    intro y listed
    rw [List.mem_singleton.mp listed]
    exact le_rfl number
  | cons y rest ih =>
    obtain ⟨hx, later⟩ := List.forall_mem_cons.mp numbers
    obtain ⟨hy, later⟩ := List.forall_mem_cons.mp later
    obtain ⟨either, left, right⟩ := larger_spec hx hy
    -- The fold goes on from the greater of the first two, which is one of them.
    have number : Scalar.larger x y ≠ nan := by
      rcases either with first | second
      · rwa [first]
      · rwa [second]
    obtain ⟨member, greatest⟩ := ih (Scalar.larger x y) (List.forall_mem_cons.mpr ⟨number, later⟩)
    have largest := greatest _ List.mem_cons_self
    refine ⟨by grind, ?_⟩
    intro z listed
    rcases List.mem_cons.mp listed with rfl | listed
    · exact le_trans left largest
    · rcases List.mem_cons.mp listed with rfl | listed
      · exact le_trans right largest
      · exact greatest z (List.mem_cons_of_mem _ listed)

/-- Finite numbers have a sum, if not always a finite one. -/
theorem add_ne_nan {x y : Binary64} (hx : x.isFinite = true) (hy : y.isFinite = true) :
    x + y ≠ nan := by
  cases x with
  | nan => cases hx
  | infinite s => cases hx
  | finite s a =>
    cases y with
    | nan => cases hy
    | infinite t => cases hy
    | finite t b =>
      change add _ _ ≠ nan
      -- The sum is counted in units, and such a count is rounded to a number or to infinity.
      rw [add, ofUnits, ofRank]
      split
      · intro same
        cases same
      · split <;> intro same <;> cases same

theorem nearestRank_pos {n : Nat} (positive : 0 < n) : 0 < nearestRank n 1 := by
  rw [nearestRank_eq, Nat.div_one, Nat.one_mul]
  rcases Nat.eq_zero_or_pos (n.log2 - 52) with least | larger
  · -- Below the first power of two with rounding, the number is its own rank.
    have exact := roundQuotient_mul n 1 Nat.one_pos
    rw [Nat.mul_one] at exact
    rw [least, Nat.pow_zero, exact]
    omega
  · omega

/-- What is not zero is not rounded to zero, and a sum with a positive number that comes to zero
comes to the positive one. -/
theorem add_ne_negative_zero {x y : Binary64} (hx : x.isFinite = true) (hy : y.isFinite = true)
    (positive : Scalar.nat 0 < y) : x + y ≠ zero true := by
  cases x with
  | nan => cases hx
  | infinite s => cases hx
  | finite s a =>
    cases y with
    | nan => cases hy
    | infinite t => cases hy
    | finite t b =>
      -- The sum can take the sign of a zero only from two negative summands.
      have plus : t = false := by
        rw [lt_iff_place place_zero rfl] at positive
        cases t
        · rfl
        · simp only [if_true] at positive
          omega
      subst plus
      change add _ _ ≠ zero true
      rw [add]
      split
      · rw [Bool.and_false]
        intro same
        cases same
      next some =>
        rw [ofUnits, ofRank]
        split
        · intro zero
          obtain ⟨_, rank⟩ := Binary64.finite.inj zero
          have more := nearestRank_pos (Int.natAbs_pos.mpr some)
          exact absurd (congrArg Fin.val rank) (Nat.pos_iff_ne_zero.mp more)
        · intro same
          cases same

end Montage.Binary64
