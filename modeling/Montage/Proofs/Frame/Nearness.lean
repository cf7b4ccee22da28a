import Mathlib.Data.Rat.Floor
import Mathlib.Tactic.Linarith
import Montage.Proofs.Attempt
import Montage.Proofs.Frame.Span

/-!
# How near a crop is to what was asked for

In exact arithmetic an axis of a crop begins at a rational number `a` of pixels and is `b` of them
long, and both are rounded separately. The span that comes out begins less than a pixel from `a`,
and is at most one and a half pixels shorter than `b`.

Two corrections look as if they made this worse. The cut at the far edge takes a pixel away only
if both roundings went up by exactly a half, so it takes away what rounding added. And the span is
moved back only if nothing was left of it before it became one pixel, so by one pixel, from the
end of the axis.
-/
namespace Montage

/-- The two percentages of an axis that ends inside the frame. -/
structure Percent.Spans (offset size : Percent Rat) : Prop where
  begins : 0 ≤ offset.value
  least : 1 ≤ size.value
  most : size.value ≤ 100
  ends : offset.value + size.value ≤ 100

/-- An amount and the integer it is rounded to, a half upward. -/
structure IsRounded (a : Rat) (n : Int) : Prop where
  lower : (n : Rat) ≤ a + 1 / 2
  upper : a + 1 / 2 < n + 1

theorem Scalar.roundHalfUp_rat (a : Rat) : ∃ n, Scalar.roundHalfUp a = .ok n ∧ IsRounded a n := by
  have half : a + Scalar.ratio 1 2 = a + 1 / 2 := by
    change a + ((1 : Int) : Rat) / ((2 : Nat) : Rat) = a + 1 / 2
    norm_num
  refine ⟨⌊a + 1 / 2⌋, ?_, Int.floor_le _, Int.lt_floor_add_one _⟩
  rw [Scalar.roundHalfUp, half]
  rfl

theorem Scalar.nat_rat (n : Nat) : (Scalar.nat n : Rat) = n := by
  change (((n : Nat) : Int) : Rat) / ((1 : Nat) : Rat) = n
  simp

theorem Scalar.larger_rat (a b : Rat) : Scalar.larger a b = max a b := by
  unfold larger
  split
  next less => exact (max_eq_right (le_of_lt less)).symm
  next least => exact (max_eq_left (not_lt.mp least)).symm

theorem Scalar.smaller_rat (a b : Rat) : Scalar.smaller a b = min a b := by
  unfold smaller
  split
  next less => exact (min_eq_right (le_of_lt less)).symm
  next most => exact (min_eq_left (not_lt.mp most)).symm

namespace Percent

/-- The percentage of a number of pixels, without rounding. -/
def amount (p : Percent Rat) (pixels : Int) : Rat := p.value * pixels / 100

theorem share_rat (p : Percent Rat) (pixels : Int) : p.share pixels = .ok (p.amount pixels) := by
  cases p with
  | whole n =>
    rw [amount, value, Scalar.nat_rat]
    change Except.ok ((((n : Int) * pixels : Int) : Rat) / ((100 : Nat) : Rat)) = _
    push_cast
    rfl
  | measured x =>
    change Except.ok (x * ((pixels : Rat) / ((1 : Nat) : Rat)) /
      ((((100 : Nat) : Int) : Rat) / ((1 : Nat) : Rat))) = Except.ok (x * pixels / 100)
    norm_num

/-- Each axis of a settled crop ends inside the frame. -/
theorem spans_settled {offset size : Percent Rat} (begins : 0 ≤ offset.value)
    (most : size.value ≤ 100) :
    Spans (offset.atMost (Scalar.nat 100 - (size.atLeast (Scalar.nat 1)).value))
      (size.atLeast (Scalar.nat 1)) := by
  -- The size is settled first, and the corner is held back by it.
  have side : 1 ≤ (size.atLeast (Scalar.nat 1)).value ∧
      (size.atLeast (Scalar.nat 1)).value ≤ 100 := by
    rw [value_atLeast, Scalar.larger_rat, Scalar.nat_rat, Nat.cast_one]
    exact ⟨le_max_right _ _, max_le most (by norm_num)⟩
  have corner : (Scalar.nat 100 : Rat) = 100 := Scalar.nat_rat 100
  constructor
  · rw [value_atMost, Scalar.smaller_rat, corner]
    exact le_min begins (by linarith [side.2])
  · exact side.1
  · exact side.2
  · rw [value_atMost, Scalar.smaller_rat, corner]
    linarith [min_le_right offset.value (100 - (size.atLeast (Scalar.nat 1)).value)]

end Percent

namespace Frame

theorem cropAxis_rat (offset size : Percent Rat) (source : Int) :
    ∃ start length, IsRounded (offset.amount source) start ∧
      IsRounded (size.amount source) length ∧
      cropAxis offset size source = .ok (fitSpan start length source) := by
  obtain ⟨start, rounded, near⟩ := Scalar.roundHalfUp_rat (offset.amount source)
  obtain ⟨length, rounded', near'⟩ := Scalar.roundHalfUp_rat (size.amount source)
  refine ⟨start, length, near, near', ?_⟩
  rw [cropAxis, Percent.share_rat, Percent.share_rat]
  refine Except.bind_eq_ok_iff.mpr ⟨_, rfl, Except.bind_eq_ok_iff.mpr ⟨start, rounded, ?_⟩⟩
  exact Except.bind_eq_ok_iff.mpr ⟨_, rfl, Except.bind_eq_ok_iff.mpr ⟨length, rounded', rfl⟩⟩

section

variable {a b : Rat} {start length source : Int}

/-- The far edge cuts off no more than what rounding added. -/
theorem cut_near (starts : IsRounded a start) (long : IsRounded b length)
    (ends : a + b ≤ source) : b - 1 / 2 ≤ (min length (source - start) : Int) := by
  -- Each rounding adds a half at most, so the sum is past the edge by a pixel at most.
  have apart : length ≤ source - start ∨ length = source - start + 1 := by
    have total : (start : Rat) + length < source + 2 := by
      linarith [starts.lower, long.lower]
    have whole : start + length < source + 2 := by exact_mod_cast total
    omega
  rcases apart with fits | past
  · rw [min_eq_left fits]
    linarith [long.upper]
  · -- Both roundings went up by a half, and the axis ends where the source does.
    have equal : (length : Rat) = source - start + 1 := by exact_mod_cast past
    rw [min_eq_right (by omega)]
    push_cast
    linarith [starts.lower]

/-- Evening takes another pixel away, and only a side of no pixels is made longer. -/
theorem fitSpan_snd_near (starts : IsRounded a start) (long : IsRounded b length)
    (ends : a + b ≤ source) :
    b - 3 / 2 ≤ (fitSpan start length source).2 ∧
      ((fitSpan start length source).2 : Rat) ≤ max 1 (b + 1 / 2) := by
  have cut := cut_near starts long ends
  obtain ⟨_, most, least, _⟩ := evenSide_spec (min length (source - start))
  rw [← fitSpan_snd] at most least
  constructor
  · -- Rounding and the cut take half a pixel, and evening a whole one.
    have kept : ((min length (source - start) : Int) : Rat) - 1 ≤
        (fitSpan start length source).2 := by exact_mod_cast least
    linarith
  · have side : (fitSpan start length source).2 ≤ max 1 length := by omega
    calc ((fitSpan start length source).2 : Rat) ≤ max 1 (length : Rat) := by exact_mod_cast side
      _ ≤ max 1 (b + 1 / 2) := max_le_max_left 1 long.lower

/-- Only a span that begins at the end of its axis is moved, and that by a pixel. -/
theorem fitSpan_fst_cases (length : Int) (above : 0 ≤ start) (most : start ≤ source)
    (room : 1 ≤ source) :
    (fitSpan start length source).1 = start ∨
      start = source ∧ (fitSpan start length source).1 = source - 1 := by
  have begins := fitSpan_fst start length source (fitSpan_le length above room)
  obtain ⟨least, side⟩ := fitSpan_size start length source
  omega

theorem fitSpan_fst_near (starts : IsRounded a start) (begins : 0 ≤ a) (present : 0 < b)
    (ends : a + b ≤ source) : |((fitSpan start length source).1 : Rat) - a| < 1 := by
  obtain ⟨lower, upper⟩ := starts
  -- The start is an integer less than half a pixel outside the axis, so it is on it.
  have above : 0 ≤ start := by
    have : (-1 : Rat) < start := by linarith
    have : -1 < start := by exact_mod_cast this
    omega
  have most : start ≤ source := by
    have : (start : Rat) < source + 1 := by linarith
    have : start < source + 1 := by exact_mod_cast this
    omega
  have room : 1 ≤ source := by
    have : (0 : Rat) < source := by linarith
    exact_mod_cast this
  rw [abs_lt]
  rcases fitSpan_fst_cases length above most room with kept | ⟨rfl, moved⟩
  · rw [kept]
    constructor <;> linarith
  · -- The axis is not empty, so it begins before the end of the source.
    rw [moved]
    push_cast
    constructor <;> linarith

end

/-- In exact arithmetic, for every axis that ends inside the frame and every source that has
pixels: all corrections together move the beginning by less than a pixel, and shorten the axis by
one and a half at most. -/
theorem cropAxis_near (offset size : Percent Rat) (source : Int) (spans : offset.Spans size)
    (room : 1 ≤ source) : ∃ start length : Int, cropAxis offset size source = .ok (start, length) ∧
      |(start : Rat) - offset.value * source / 100| < 1 ∧
      size.value * source / 100 - 3 / 2 ≤ length ∧
      (length : Rat) ≤ max 1 (size.value * source / 100 + 1 / 2) := by
  have pixels : (1 : Rat) ≤ source := by exact_mod_cast room
  -- In pixels the axis begins at nothing or later, has a length and ends inside the source.
  have begins : 0 ≤ offset.amount source :=
    div_nonneg (mul_nonneg spans.begins (by linarith)) (by norm_num)
  have present : 0 < size.amount source := by
    have positive : 0 < size.value := by linarith [spans.least]
    exact div_pos (mul_pos positive (by linarith)) (by norm_num)
  have ends : offset.amount source + size.amount source ≤ source := by
    have share := mul_le_mul_of_nonneg_right spans.ends (show (0 : Rat) ≤ source by linarith)
    rw [Percent.amount, Percent.amount]
    linarith
  obtain ⟨start, length, starts, long, found⟩ := cropAxis_rat offset size source
  exact ⟨_, _, found, fitSpan_fst_near starts begins present ends,
    fitSpan_snd_near starts long ends⟩

/-- The right edge of a source of one pixel: its offset is rounded up to the end of the axis, and
the span of no pixels is made one and moved back. -/
theorem cropAxis_near_sample :
    (Crop.rightEdge : Crop Rat).x.Spans Crop.rightEdge.w ∧ ∃ start length : Int,
      cropAxis (Crop.rightEdge : Crop Rat).x Crop.rightEdge.w 1 = .ok (start, length) ∧
      |(start : Rat) - (Crop.rightEdge : Crop Rat).x.value * (1 : Int) / 100| < 1 ∧
      (Crop.rightEdge : Crop Rat).w.value * (1 : Int) / 100 - 3 / 2 ≤ (length : Rat) ∧
      (length : Rat) ≤ max 1 ((Crop.rightEdge : Crop Rat).w.value * (1 : Int) / 100 + 1 / 2) := by
  have spans : (Crop.rightEdge : Crop Rat).x.Spans Crop.rightEdge.w := by
    apply Percent.spans_settled
    · rw [Percent.value, Scalar.nat_rat]
      norm_num
    · rw [Percent.value, Scalar.nat_rat]
      norm_num
  exact ⟨spans, cropAxis_near _ _ 1 spans (by decide)⟩

end Frame

end Montage
