import Montage.Frame.Crop
import Montage.Proofs.Attempt

/-!
# Spans of pixels

A span is cut at the far edge of its axis, is at least one pixel long, loses a pixel if it is odd
and longer than one, and is moved back if it still does not fit. On an axis of at least one pixel
the result always lies on the axis, whatever was asked for, as long as it begins at zero or later.
-/
namespace Montage

namespace Frame

/-- The even side next to a number of pixels and not above it, or one pixel where there is none. -/
def evenSide (n : Int) : Int :=
  let present := max n 1
  if 1 < present && present % 2 ≠ 0 then present - 1 else present

/-- Such a side is one pixel short at most. -/
theorem evenSide_spec (n : Int) : 1 ≤ evenSide n ∧ evenSide n ≤ max n 1 ∧ n - 1 ≤ evenSide n ∧
    (evenSide n ≠ 1 → evenSide n % 2 = 0) := by
  simp only [evenSide, Bool.and_eq_true, decide_eq_true_eq]
  split <;> omega

section

variable (offset size source : Int)

theorem fitSpan_eq : fitSpan offset size source =
    if evenSide (min size (source - offset)) ≤ source then
      (max 0 (min offset (source - evenSide (min size (source - offset)))),
        evenSide (min size (source - offset)))
    else (offset, evenSide (min size (source - offset))) := by
  -- The edge test compares sums of offset and size; read as a minimum it is one cut of the size.
  have cut : (if source < offset + size then source - offset else size) =
      min size (source - offset) := by
    split <;> omega
  unfold fitSpan
  rw [cut]
  rfl

theorem fitSpan_snd :
    (fitSpan offset size source).2 = evenSide (min size (source - offset)) := by
  rw [fitSpan_eq]
  split <;> rfl

theorem fitSpan_nonneg (begins : 0 ≤ offset) : 0 ≤ (fitSpan offset size source).1 := by
  rw [fitSpan_eq]
  split
  · exact Int.le_max_left 0 _
  · exact begins

/-- The side of a crop is at least a pixel, and ends where the source ends or before. -/
theorem fitSpan_size : 1 ≤ (fitSpan offset size source).2 ∧
    (fitSpan offset size source).2 ≤ max 1 (source - offset) := by
  obtain ⟨least, most, _, _⟩ := evenSide_spec (min size (source - offset))
  rw [fitSpan_snd]
  omega

/-- A span that is no longer than its axis begins where it was asked to, unless it is moved. -/
theorem fitSpan_fst (fits : (fitSpan offset size source).2 ≤ source) :
    (fitSpan offset size source).1 =
      max 0 (min offset (source - (fitSpan offset size source).2)) := by
  rw [fitSpan_snd] at fits ⊢
  rw [fitSpan_eq, if_pos fits]

end

/-- A span of pixels on an axis: one pixel or more, and an even number of them unless it is one. -/
structure IsSpan (source : Int) (span : Int × Int) : Prop where
  begins : 0 ≤ span.1
  long : 1 ≤ span.2
  ends : span.1 + span.2 ≤ source
  even : span.2 ≠ 1 → span.2 % 2 = 0

/-- A span that begins on its axis at least one pixel before the end can be cut to fit, and one
that begins later is a single pixel, which fits too. -/
theorem fitSpan_le {offset source : Int} (size : Int) (begins : 0 ≤ offset) (room : 1 ≤ source) :
    (fitSpan offset size source).2 ≤ source := by
  have most := (fitSpan_size offset size source).2
  omega

theorem isSpan_fitSpan {offset source : Int} (size : Int) (begins : 0 ≤ offset)
    (room : 1 ≤ source) : IsSpan source (fitSpan offset size source) := by
  -- Once the span is not longer than the axis, the move back is never skipped.
  have fits := fitSpan_le size begins room
  have moved := fitSpan_fst offset size source fits
  obtain ⟨long, _, _, even⟩ := evenSide_spec (min size (source - offset))
  rw [← fitSpan_snd] at long even
  exact ⟨by omega, long, by omega, even⟩

/-- An axis without pixels has one all the same. -/
theorem fitSpan_zero : fitSpan 0 0 0 = (0, 1) := by decide

/-- The span of an axis is fitted from what its two percentages are rounded to. -/
theorem exists_of_cropAxis {α : Type} [Scalar α] {offset size : Percent α} {source : Int}
    {span : Int × Int} (found : cropAxis offset size source = .ok span) :
    ∃ share start share' length, offset.share source = .ok share ∧
      Scalar.roundHalfUp share = .ok start ∧ size.share source = .ok share' ∧
      Scalar.roundHalfUp share' = .ok length ∧ span = fitSpan start length source := by
  obtain ⟨share, shared, found⟩ := Except.bind_eq_ok_iff.mp found
  obtain ⟨start, rounded, found⟩ := Except.bind_eq_ok_iff.mp found
  obtain ⟨share', shared', found⟩ := Except.bind_eq_ok_iff.mp found
  obtain ⟨length, rounded', found⟩ := Except.bind_eq_ok_iff.mp found
  cases found
  exact ⟨share, start, share', length, shared, rounded, shared', rounded', rfl⟩

theorem axes_of_cropRect {α : Type} [Scalar α] {crop : Crop α} {width height : Int}
    {rect : PixelRect} (found : cropRect crop width height = .ok rect) :
    cropAxis crop.x crop.w width = .ok (rect.x, rect.width) ∧
      cropAxis crop.y crop.h height = .ok (rect.y, rect.height) := by
  obtain ⟨across, foundX, found⟩ := Except.bind_eq_ok_iff.mp found
  obtain ⟨down, foundY, found⟩ := Except.bind_eq_ok_iff.mp found
  cases found
  exact ⟨foundX, foundY⟩

end Frame

/-- The last three percent of the width, at the full height: a crop whose corner is moved back. -/
def Crop.rightEdge {α : Type} [Scalar α] : Crop α :=
  settled ⟨.measured (Scalar.nat 99), .whole 0, .measured (Scalar.nat 3), .whole 100⟩

end Montage
