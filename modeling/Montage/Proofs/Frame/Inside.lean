import Montage.Proofs.Frame.Span
import Montage.Proofs.Graph.Moderate
import Montage.Proofs.Timeline.Reading

/-!
# Crops inside their frames

A crop that was read from a document has percentages from zero to a hundred. So it begins on the
frame, and its rectangle lies inside any frame that has pixels, wherever the percentages come to a
finite number of them. For a percentage that is finite itself this fails only where the product
with the side of the source overflows, and no side up to `2 ^ 500` is that long.
-/
namespace Montage

open Document (Origin)

/-- A percentage from zero to a hundred, or no number. -/
structure Percent.IsPart (p : Percent Binary64) : Prop extends p.InRange where
  whole : ∀ n, p = .whole n → n ≤ 100

namespace Percent

theorem isPart_of_withDefault {key : Document.Key} {n : Nat} (least : n ≤ 100)
    (most : ¬(Scalar.nat 100 : Binary64) < Scalar.nat n) {fields : Document.Fields}
    {p : Percent Binary64}
    (h : key.withDefault (.whole n) Document.percent fields = .valid p) : p.IsPart := by
  refine ⟨inRange_of_withDefault most h, ?_⟩
  intro m here
  rcases Document.Key.withDefault_eq_valid h with rfl | ⟨v, read⟩
  · cases here
    exact least
  · obtain ⟨_, _, rfl⟩ := Document.Checked.map_eq_valid_iff.mp read
    cases here

theorem IsPart.atLeast_one {p : Percent Binary64} (h : p.IsPart) :
    (p.atLeast (Scalar.nat 1)).IsPart := by
  refine ⟨⟨?_, h.toInRange.atLeast_one⟩, ?_⟩ <;> unfold Percent.atLeast
  · split
    · exact Binary64.notNegative_nat 1
    · exact h.least
  · intro n here
    split at here
    · cases here
    · exact h.whole n here

end Percent

theorem Binary64.lt_trans {x y z : Binary64} (first : x < y) (second : y < z) : x < z := by
  change lt x y = true at first
  change lt y z = true at second
  change lt x z = true
  unfold lt at *
  grind

/-- A bound that is less than a percentage is not greater than a hundred either. -/
theorem Percent.IsPart.atMost {p : Percent Binary64} (h : p.IsPart) {bound : Binary64}
    (least : bound.NotNegative) : (p.atMost bound).IsPart := by
  refine ⟨⟨Percent.notNegative_atMost h.least least, ?_⟩, ?_⟩ <;> unfold Percent.atMost
  · split
    next lower => exact fun above => h.most (Binary64.lt_trans above lower)
    next => exact h.most
  · intro n here
    split at here
    · cases here
    · exact h.whole n here

/-- A part that is a number is moderate. -/
theorem Percent.IsPart.isModerate {p : Percent Binary64} (h : p.IsPart)
    (finite : p.value.isFinite = true) : p.IsModerate := by
  cases p with
  | whole n => exact h.whole n rfl
  | measured x =>
    cases x with
    | nan => cases finite
    | infinite s => cases finite
    | finite s r =>
      refine ⟨s, r, rfl, ?_⟩
      -- The rank of a hundred, as a double; ranks are in the order of the numbers.
      have hundred : Binary64.units (1029 * 2 ^ 52 + 9 * 2 ^ 48) = 100 * Binary64.one := by
        decide
      rw [← hundred]
      apply Binary64.units_mono
      rcases (Binary64.notNegative_finite s r).mp h.least with rfl | zero
      · have most := h.most
        rw [Binary64.hundred_eq] at most
        change ¬Binary64.lt _ (Binary64.finite false r) = true at most
        simp only [Binary64.lt, Binary64.place, decide_eq_true_eq, Bool.false_eq_true,
          if_false] at most
        omega
      · rw [zero]
        exact Nat.zero_le _

namespace Crop

/-- A crop that some document was read as. -/
def IsValidated (crop : Crop Binary64) : Prop :=
  ∃ origin v, fromDocument origin v = .valid crop

/-- A crop of four numbers. -/
structure IsFinite (crop : Crop Binary64) : Prop where
  x : crop.x.value.isFinite = true
  y : crop.y.value.isFinite = true
  w : crop.w.value.isFinite = true
  h : crop.h.value.isFinite = true

/-- A crop of four percentages from zero to a hundred. -/
structure IsProper (crop : Crop Binary64) : Prop where
  x : crop.x.IsPart
  y : crop.y.IsPart
  w : crop.w.IsPart
  h : crop.h.IsPart

theorem isProper_settled {crop : Crop Binary64} (proper : crop.IsProper) :
    crop.settled.IsProper := by
  rw [settled]
  constructor
  · dsimp only
    exact proper.x.atMost (Binary64.notNegative_hundred_sub proper.w.atLeast_one.most)
  · dsimp only
    exact proper.y.atMost (Binary64.notNegative_hundred_sub proper.h.atLeast_one.most)
  · exact proper.w.atLeast_one
  · exact proper.h.atLeast_one

theorem IsValidated.isProper {crop : Crop Binary64} (read : crop.IsValidated) :
    crop.IsProper := by
  obtain ⟨origin, v, read⟩ := read
  obtain ⟨fields, x, y, w, h, readX, readY, readW, readH, rfl⟩ := exists_of_fromDocument read
  -- The corner defaults to nothing and the sides to all of the frame.
  have none : ¬(Scalar.nat 100 : Binary64) < Scalar.nat 0 := by decide +kernel
  have all : ¬(Scalar.nat 100 : Binary64) < Scalar.nat 100 := by decide +kernel
  exact isProper_settled ⟨Percent.isPart_of_withDefault (by decide) none readX,
    Percent.isPart_of_withDefault (by decide) none readY,
    Percent.isPart_of_withDefault (by decide) all readW,
    Percent.isPart_of_withDefault (by decide) all readH⟩

end Crop

namespace Binary64

theorem finite_mul_zero (s t : Bool) (r : Fin finiteCount) :
    finite s r * zero t = zero (s ^^ t) := by
  change mul (finite s r) (finite t ⟨0, _⟩) = _
  rw [mul, units_eq_zero rfl, Nat.mul_zero]
  cases s ^^ t <;> decide

theorem zero_div_hundred (s : Bool) : zero s / Scalar.nat 100 = zero s := by
  cases s <;> decide +kernel

end Binary64

/-- A percentage of no pixels is none. -/
theorem Percent.rounds_zero {p : Percent Binary64} (finite : p.value.isFinite = true) {n : Int}
    {length : Binary64} (found : p.share 0 = .ok length)
    (rounded : Scalar.roundHalfUp length = .ok n) : n = 0 := by
  -- The share is a zero of one sign or the other.
  have zero : ∃ s, length = Binary64.zero s := by
    cases p with
    | whole n =>
      simp only [share, Scalar.quotient, Int.mul_zero] at found
      split at found
      · cases found
        exact ⟨false, by decide⟩
      · cases found
    | measured x =>
      cases x with
      | nan => cases finite
      | infinite s => cases finite
      | finite s r =>
        obtain ⟨pixels, converted, found⟩ := Except.bind_eq_ok_iff.mp found
        cases found
        obtain ⟨_, rfl⟩ := (Scalar.ofInt_eq_ok_iff 0 pixels).mp converted
        refine ⟨s, ?_⟩
        have none : (Scalar.ratio 0 1 : Binary64) = Binary64.zero false := by decide
        rw [none, Binary64.finite_mul_zero, Bool.xor_false, Binary64.zero_div_hundred]
  obtain ⟨s, rfl⟩ := zero
  have none : Scalar.roundHalfUp (Binary64.zero s) = .ok 0 := by
    cases s <;> decide +kernel
  rw [none] at rounded
  cases rounded
  rfl

namespace Frame

/-- A span on an axis with pixels; an axis without any has the span of its first pixel. -/
structure IsFitted (source : Int) (span : Int × Int) : Prop where
  inside : 1 ≤ source → IsSpan source span
  blank : source = 0 → span = (0, 1)

theorem isFitted_of_cropAxis {offset size : Percent Binary64} {source : Int} {span : Int × Int}
    (begins : offset.value.NotNegative) (left : offset.value.isFinite = true)
    (wide : size.value.isFinite = true) (found : cropAxis offset size source = .ok span) :
    IsFitted source span := by
  obtain ⟨_, start, _, length, shared, rounded, shared', rounded', rfl⟩ :=
    exists_of_cropAxis found
  constructor
  · intro room
    -- Only the sign of the offset is needed: whatever the size is, it is cut.
    have above := (Percent.notNegative_share begins (by omega) shared).roundHalfUp rounded
    exact isSpan_fitSpan length above room
  · rintro rfl
    rw [Percent.rounds_zero left shared rounded, Percent.rounds_zero wide shared' rounded',
      fitSpan_zero]

end Frame

/-- A rectangle that lies inside a frame on both axes. -/
structure PixelRect.IsFitted (rect : PixelRect) (width height : Int) : Prop where
  across : Frame.IsFitted width (rect.x, rect.width)
  down : Frame.IsFitted height (rect.y, rect.height)

namespace Frame

theorem isFitted_of_cropRect {crop : Crop Binary64} {width height : Int} {rect : PixelRect}
    (proper : crop.IsProper) (finite : crop.IsFinite)
    (found : cropRect crop width height = .ok rect) : rect.IsFitted width height := by
  obtain ⟨across, down⟩ := axes_of_cropRect found
  exact ⟨isFitted_of_cropAxis proper.x.least finite.x finite.w across,
    isFitted_of_cropAxis proper.y.least finite.y finite.h down⟩

/-- On sides of moderate length the percentages of a proper crop come to finite numbers. -/
theorem exists_cropRect {crop : Crop Binary64} {width height : Int} (proper : crop.IsProper)
    (finite : crop.IsFinite) (wide : width.natAbs ≤ moderate) (high : height.natAbs ≤ moderate) :
    ∃ rect, cropRect crop width height = .ok rect := by
  refine (cropRect_eq_ok_iff crop width height).mpr ⟨⟨?_, ?_⟩, ?_, ?_⟩
  · exact (proper.x.isModerate finite.x).isMeasured wide
  · exact (proper.w.isModerate finite.w).isMeasured wide
  · exact (proper.y.isModerate finite.y).isMeasured high
  · exact (proper.h.isModerate finite.h).isMeasured high

/-- Whatever offset and size the percentages of an axis are rounded to, the span lies on an axis
that has pixels. A crop that was read has a rectangle whenever its percentages come to finite
numbers of pixels, in particular on every source of moderate sides; and that lies inside the
source, with the first pixel for a side that has none. -/
theorem crop_isFitted (crop : Crop Binary64) (width height : Int) (read : crop.IsValidated)
    (finite : crop.IsFinite) :
    (∀ offset size source : Int, 0 ≤ offset → 1 ≤ source →
      IsSpan source (fitSpan offset size source)) ∧
    ((∃ rect, cropRect crop width height = .ok rect) ↔
      (crop.x.IsMeasured width ∧ crop.w.IsMeasured width) ∧
        crop.y.IsMeasured height ∧ crop.h.IsMeasured height) ∧
    (width.natAbs ≤ moderate → height.natAbs ≤ moderate →
      ∃ rect, cropRect crop width height = .ok rect) ∧
    ∀ rect, cropRect crop width height = .ok rect → rect.IsFitted width height := by
  refine ⟨?_, cropRect_eq_ok_iff crop width height, exists_cropRect read.isProper finite, ?_⟩
  · intro offset size source begins room
    exact isSpan_fitSpan size begins room
  · intro rect found
    exact isFitted_of_cropRect read.isProper finite found

end Frame

namespace Crop

theorem isValidated_rightEdge : IsValidated rightEdge :=
  ⟨.value, .obj [("x", .int 99), ("w", .int 3)], by decide +kernel⟩

theorem isFinite_rightEdge : IsFinite rightEdge := by
  constructor <;> decide +kernel

/-- The full width, asked for as a percentage. -/
def fullWidth : Crop Binary64 := settled { full with w := .measured (Scalar.nat 100) }

theorem isValidated_fullWidth : fullWidth.IsValidated :=
  ⟨.value, .obj [("w", .int 100)], by decide +kernel⟩

theorem isFinite_fullWidth : fullWidth.IsFinite := by
  constructor <;> decide +kernel

end Crop

namespace Frame

/-- A span past the end of its axis, and the right edge of a source of one pixel across and none
down. -/
theorem crop_isFitted_sample : IsSpan 5 (fitSpan 4 3 5) ∧
    ∃ rect, cropRect (Crop.rightEdge : Crop Binary64) 1 0 = .ok rect ∧ rect.IsFitted 1 0 := by
  obtain ⟨spans, _, moderate, fitted⟩ :=
    crop_isFitted Crop.rightEdge 1 0 Crop.isValidated_rightEdge Crop.isFinite_rightEdge
  obtain ⟨rect, found⟩ := moderate (by decide +kernel) (by decide +kernel)
  exact ⟨spans 4 3 5 (by decide) (by decide), rect, found, fitted rect found⟩

/-- A hundred percent of `2 ^ 1020` pixels is computed as a hundred times that number first, and
no double is as great as that. -/
theorem not_crop_isFitted : Crop.fullWidth.IsValidated ∧ Crop.fullWidth.IsFinite ∧
    cropRect Crop.fullWidth (1 <<< 1020) 1 = .error .infinityToInteger :=
  ⟨Crop.isValidated_fullWidth, Crop.isFinite_fullWidth, by decide +kernel⟩

end Frame

end Montage
