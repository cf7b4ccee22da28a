import Montage.Proofs.Frame.Inside
import Montage.Proofs.Number.Order

/-!
# Numbers moved into their ranges

A number outside its range is moved to the nearer end of it when a document is read, and a crop is
moved back until it ends inside the frame. Both go by comparing, and `nan` compares with nothing,
so it is never moved. Hence each number that is read for a crop or for color filters is in its
range exactly if a number was given for it, and a crop ends inside the frame on an axis exactly if
numbers were given for both its offset and its side.
-/
namespace Montage

open Document (Fields Key Origin)

namespace Binary64

variable {x y low high : Binary64}

theorem lt_irrefl (x : Binary64) : ¬x < x := by
  change ¬lt x x = true
  unfold lt
  cases place x <;> simp

theorem ne_nan_of_lt (h : x < y) : x ≠ nan ∧ y ≠ nan := by
  change lt x y = true at h
  constructor
  · rintro rfl
    cases h
  · rintro rfl
    cases x <;> cases h

theorem ratio_ne_nan (num : Int) (den : Nat) : (Scalar.ratio num den : Binary64) ≠ nan := by
  change ofRatio num den ≠ nan
  rw [ofRatio, ofUnits, ofRank]
  split <;> intro same <;> cases same

theorem nat_ne_nan (n : Nat) : (Scalar.nat n : Binary64) ≠ nan := by
  rw [Scalar.nat]
  exact ratio_ne_nan n 1

theorem not_larger_lt (x low : Binary64) : ¬Scalar.larger x low < low := by
  unfold Scalar.larger
  split
  · exact lt_irrefl low
  next above => exact above

theorem not_lt_smaller (x high : Binary64) : ¬high < Scalar.smaller x high := by
  unfold Scalar.smaller
  split
  · exact lt_irrefl high
  next below => exact below

/-- A bound moves only what it compares with. -/
theorem larger_eq_nan_iff (x low : Binary64) : Scalar.larger x low = nan ↔ x = nan := by
  unfold Scalar.larger
  split
  next less => exact iff_of_false (ne_nan_of_lt less).2 (ne_nan_of_lt less).1
  next => rfl

theorem smaller_eq_nan_iff (x high : Binary64) : Scalar.smaller x high = nan ↔ x = nan := by
  unfold Scalar.smaller
  split
  next less => exact iff_of_false (ne_nan_of_lt less).1 (ne_nan_of_lt less).2
  next => rfl

/-- A number moved to the nearer end of an interval that it lies outside of. -/
def clamp (low high x : Binary64) : Binary64 := Scalar.smaller (Scalar.larger x low) high

theorem clamp_eq_nan_iff (low high x : Binary64) : clamp low high x = nan ↔ x = nan := by
  rw [clamp, smaller_eq_nan_iff, larger_eq_nan_iff]

/-- Neither below an interval nor above it. -/
structure IsClamped (low high x : Binary64) : Prop where
  least : ¬x < low
  most : ¬high < x

theorem isClamped_clamp (ordered : ¬high < low) (x : Binary64) :
    IsClamped low high (clamp low high x) := by
  refine ⟨?_, not_lt_smaller _ high⟩
  unfold clamp Scalar.smaller
  split
  · exact ordered
  · exact not_larger_lt x low

theorem IsClamped.clamp_eq (h : IsClamped low high x) : clamp low high x = x := by
  rw [clamp, Scalar.larger, if_neg h.least, Scalar.smaller, if_neg h.most]

/-- From one number to another. -/
structure IsBetween (low high x : Binary64) : Prop where
  least : low ≤ x
  most : x ≤ high

theorem IsClamped.isBetween_iff (h : IsClamped low high x) (hl : low ≠ nan) (hh : high ≠ nan) :
    IsBetween low high x ↔ x ≠ nan := by
  constructor
  · intro between
    exact ((le_iff_not_lt _ _).mp between.least).2.2
  · intro number
    exact ⟨(le_iff_not_lt _ _).mpr ⟨h.least, hl, number⟩,
      (le_iff_not_lt _ _).mpr ⟨h.most, number, hh⟩⟩

/-- Between two numbers lies what was moved there, and that is what was a number before. -/
theorem isBetween_clamp_iff (hl : low ≠ nan) (hh : high ≠ nan) (ordered : ¬high < low) :
    IsBetween low high (clamp low high x) ↔ x ≠ nan := by
  rw [(isClamped_clamp ordered x).isBetween_iff hl hh, ne_eq, clamp_eq_nan_iff]

/-- What is left of a hundred when a percentage is taken away is a number if that is one. -/
theorem hundred_sub_eq_nan_iff (h : IsClamped (Scalar.nat 0) (Scalar.nat 100) x) :
    Scalar.nat 100 - x = nan ↔ x = nan := by
  rw [hundred_eq] at h ⊢
  cases x with
  | nan => exact iff_of_true rfl rfl
  | infinite s =>
    cases s with
    | false => exact absurd (by decide) h.most
    | true => exact absurd (by decide) h.least
  | finite s r =>
    refine iff_of_false ?_ (by intro same; cases same)
    exact add_ne_nan rfl rfl

end Binary64

namespace Document

variable {α β : Type} {key : Key} {fields : Fields}

theorem Key.withDefault_map {default a : α} {check : Json → Checked α} (f : α → β)
    (default' : β) (given : key.withDefault default check fields = .valid a) :
    key.withDefault default' (fun v => (check v).map f) fields = .valid (f a) ∨
      a = default ∧ key.withDefault default' (fun v => (check v).map f) fields =
        .valid default' := by
  unfold withDefault at given ⊢
  split at given
  next spelling v found =>
    left
    dsimp only
    rw [Checked.under_eq_valid_iff.mp given]
    rfl
  next =>
    cases given
    exact .inr ⟨rfl, rfl⟩

theorem clamped_eq (low high : Binary64) :
    clamped low high = fun v => (number v).map (Binary64.clamp low high) := rfl

theorem percent_eq : percent = fun v => (number v).map
    fun x => .measured (Binary64.clamp (Scalar.nat 0) (Scalar.nat 100) x) := by
  funext v
  rw [percent, clamped]
  cases number v <;> simp only [Checked.map, Binary64.clamp]

/-- A number that is given is moved into its interval, and so is the default that stands for it,
if that is in the interval itself. -/
theorem withDefault_clamped {low high default x : Binary64}
    (kept : Binary64.IsClamped low high default)
    (given : key.withDefault default number fields = .valid x) :
    key.withDefault default (clamped low high) fields = .valid (Binary64.clamp low high x) := by
  rw [clamped_eq]
  rcases key.withDefault_map (Binary64.clamp low high) default given with read | ⟨rfl, left⟩
  · exact read
  · rw [left, kept.clamp_eq]

theorem withDefault_percent {n : Nat} {x : Binary64}
    (kept : Binary64.IsClamped (Scalar.nat 0) (Scalar.nat 100) (Scalar.nat n))
    (given : key.withDefault (Scalar.nat n) number fields = .valid x) :
    ∃ p, key.withDefault (.whole n) percent fields = .valid p ∧
      p.value = Binary64.clamp (Scalar.nat 0) (Scalar.nat 100) x := by
  rw [percent_eq]
  rcases key.withDefault_map (fun x =>
    Percent.measured (Binary64.clamp (Scalar.nat 0) (Scalar.nat 100) x)) (.whole n) given
    with read | ⟨rfl, left⟩
  · exact ⟨_, read, rfl⟩
  · exact ⟨_, left, kept.clamp_eq.symm⟩

end Document

namespace Crop

open Binary64 (IsClamped IsBetween clamp)

/-- An offset and a side that are left as they are: both in their ranges, and no offset after which
the side would end past the axis. -/
structure IsSettledAxis (offset side : Binary64) : Prop where
  begins : IsClamped (Scalar.nat 0) (Scalar.nat 100) offset
  wide : IsClamped (Scalar.nat 1) (Scalar.nat 100) side
  ends : ¬Scalar.nat 100 - side < offset

/-- A side of one percent or more is one of none or more. -/
theorem IsSettledAxis.side {offset side : Binary64} (h : IsSettledAxis offset side) :
    IsClamped (Scalar.nat 0) (Scalar.nat 100) side := by
  refine ⟨fun below => h.wide.least (Binary64.lt_trans below ?_), h.wide.most⟩
  decide +kernel

structure IsSettled (crop : Crop Binary64) : Prop where
  across : IsSettledAxis crop.x.value crop.w.value
  down : IsSettledAxis crop.y.value crop.h.value

theorem isSettled_settled {crop : Crop Binary64} (kept : crop.settled.IsProper) :
    crop.settled.IsSettled := by
  refine ⟨⟨⟨kept.x.least, kept.x.most⟩, ⟨?_, kept.w.most⟩, ?_⟩,
    ⟨⟨kept.y.least, kept.y.most⟩, ⟨?_, kept.h.most⟩, ?_⟩⟩ <;> rw [settled] <;> dsimp only
  · rw [Percent.value_atLeast]
    exact Binary64.not_larger_lt _ _
  · rw [Percent.value_atMost]
    exact Binary64.not_lt_smaller _ _
  · rw [Percent.value_atLeast]
    exact Binary64.not_larger_lt _ _
  · rw [Percent.value_atMost]
    exact Binary64.not_lt_smaller _ _

theorem IsValidated.isSettled {crop : Crop Binary64} (read : crop.IsValidated) :
    crop.IsSettled := by
  have kept := read.isProper
  obtain ⟨_, _, read⟩ := read
  obtain ⟨_, x, y, w, h, _, _, _, _, rfl⟩ := exists_of_fromDocument read
  exact isSettled_settled kept

/-- What becomes of an offset and a side that were given: each is in its range exactly if it was
given as a number, and the side ends on the axis exactly if both were. -/
structure IsClampedAxis (given given' offset side : Binary64) : Prop where
  begins : Scalar.nat 0 ≤ offset ↔ given ≠ .nan
  wide : IsBetween (Scalar.nat 1) (Scalar.nat 100) side ↔ given' ≠ .nan
  ends : offset ≤ Scalar.nat 100 - side ↔ given ≠ .nan ∧ given' ≠ .nan

theorem IsSettledAxis.isClampedAxis {given given' offset side : Binary64}
    (h : IsSettledAxis offset side) (first : offset = .nan ↔ given = .nan)
    (second : side = .nan ↔ given' = .nan) : IsClampedAxis given given' offset side := by
  have number := Binary64.nat_ne_nan
  have left := Binary64.hundred_sub_eq_nan_iff h.side
  constructor
  · rw [Binary64.le_iff_not_lt, ne_eq given, ← first]
    exact ⟨fun kept => kept.2.2, fun begun => ⟨h.begins.least, number 0, begun⟩⟩
  · rw [h.wide.isBetween_iff (number 1) (number 100), ne_eq given', ← second]
  · rw [Binary64.le_iff_not_lt, ne_eq given, ← first, ne_eq given', ← second, ← left]
    exact ⟨fun kept => kept.2, fun numbers => ⟨h.ends, numbers⟩⟩

/-- What the fields of a crop are read as before they are moved. -/
structure IsGiven (fields : Fields) (x y w h : Binary64) : Prop where
  x : xKey.withDefault (Scalar.nat 0) Document.number fields = .valid x
  y : yKey.withDefault (Scalar.nat 0) Document.number fields = .valid y
  w : wKey.withDefault (Scalar.nat 100) Document.number fields = .valid w
  h : hKey.withDefault (Scalar.nat 100) Document.number fields = .valid h

/-- Four numbers are a crop, whatever they are. -/
theorem exists_of_isGiven (origin : Origin) {fields : Fields} {x y w h : Binary64}
    (given : IsGiven fields x y w h) :
    ∃ crop, fromDocument origin (.obj fields) = .valid crop ∧
      IsClampedAxis x w crop.x.value crop.w.value ∧
      IsClampedAxis y h crop.y.value crop.h.value := by
  have none : IsClamped (Scalar.nat 0) (Scalar.nat 100) (Scalar.nat 0) :=
    ⟨by decide, by decide +kernel⟩
  have all : IsClamped (Scalar.nat 0) (Scalar.nat 100) (Scalar.nat 100) :=
    ⟨by decide +kernel, by decide +kernel⟩
  obtain ⟨x', readX, valueX⟩ := Document.withDefault_percent none given.x
  obtain ⟨y', readY, valueY⟩ := Document.withDefault_percent none given.y
  obtain ⟨w', readW, valueW⟩ := Document.withDefault_percent all given.w
  obtain ⟨h', readH, valueH⟩ := Document.withDefault_percent all given.h
  have read : fromDocument origin (.obj fields) = .valid (settled ⟨x', y', w', h'⟩) := by
    change fromFields fields = _
    rw [fromFields, readX, readY, readW, readH]
    rfl
  -- A crop that was read is settled, so only `nan` is left to be followed through the clamps.
  have kept : IsSettled _ := IsValidated.isSettled ⟨origin, _, read⟩
  refine ⟨_, read, kept.across.isClampedAxis ?_ ?_, kept.down.isClampedAxis ?_ ?_⟩ <;>
    rw [settled] <;> dsimp only
  · rw [Percent.value_atMost, Binary64.smaller_eq_nan_iff, valueX, Binary64.clamp_eq_nan_iff]
  · rw [Percent.value_atLeast, Binary64.larger_eq_nan_iff, valueW, Binary64.clamp_eq_nan_iff]
  · rw [Percent.value_atMost, Binary64.smaller_eq_nan_iff, valueY, Binary64.clamp_eq_nan_iff]
  · rw [Percent.value_atLeast, Binary64.larger_eq_nan_iff, valueH, Binary64.clamp_eq_nan_iff]

end Crop

namespace ColorFilters

open Binary64 (IsClamped IsBetween clamp)

/-- What the fields of color filters are read as before they are moved. -/
structure IsGiven (fields : Fields) (brightness contrast saturation gamma : Binary64) : Prop where
  brightness : brightnessKey.withDefault (Scalar.nat 100) Document.number fields =
    .valid brightness
  contrast : contrastKey.withDefault (Scalar.nat 100) Document.number fields = .valid contrast
  saturation : saturationKey.withDefault (Scalar.nat 100) Document.number fields =
    .valid saturation
  gamma : gammaKey.withDefault (Scalar.nat 1) Document.number fields = .valid gamma

/-- What becomes of the fields that were given: each is within its limits exactly if it was given
as a number. -/
structure IsClampedFrom (brightness contrast saturation gamma : Binary64)
    (filters : ColorFilters Binary64) : Prop where
  brightness : IsBetween (Scalar.nat 0) (Scalar.nat 200) filters.brightness ↔ brightness ≠ .nan
  contrast : IsBetween (Scalar.nat 0) (Scalar.nat 1000) filters.contrast ↔ contrast ≠ .nan
  saturation : IsBetween (Scalar.nat 0) (Scalar.nat 300) filters.saturation ↔ saturation ≠ .nan
  gamma : IsBetween (Scalar.ratio 1 10) (Scalar.nat 10) filters.gamma ↔ gamma ≠ .nan

/-- Color filters within their limits, as far as they can be compared. -/
structure IsSettled (filters : ColorFilters Binary64) : Prop where
  brightness : IsClamped (Scalar.nat 0) (Scalar.nat 200) filters.brightness
  contrast : IsClamped (Scalar.nat 0) (Scalar.nat 1000) filters.contrast
  saturation : IsClamped (Scalar.nat 0) (Scalar.nat 300) filters.saturation
  gamma : IsClamped (Scalar.ratio 1 10) (Scalar.nat 10) filters.gamma

theorem isSettled_neutral : (neutral : ColorFilters Binary64).IsSettled := by
  constructor <;> constructor <;> decide +kernel

/-- Four numbers are color filters, whatever they are. -/
theorem exists_of_isGiven (origin : Origin) {fields : Fields} {b c s g : Binary64}
    (given : IsGiven fields b c s g) :
    ∃ filters, fromDocument origin (.obj fields) = .valid filters ∧
      filters.IsClampedFrom b c s g := by
  have kept := isSettled_neutral
  -- The filters are the four clamped numbers, and no number is refused on the way.
  refine ⟨⟨clamp (Scalar.nat 0) (Scalar.nat 200) b, clamp (Scalar.nat 0) (Scalar.nat 1000) c,
    clamp (Scalar.nat 0) (Scalar.nat 300) s, clamp (Scalar.ratio 1 10) (Scalar.nat 10) g⟩, ?_, ?_⟩
  · change fromFields fields = _
    rw [fromFields]
    dsimp only
    rw [Document.withDefault_clamped kept.brightness given.brightness,
      Document.withDefault_clamped kept.contrast given.contrast,
      Document.withDefault_clamped kept.saturation given.saturation,
      Document.withDefault_clamped kept.gamma given.gamma]
    rfl
  · have number := Binary64.nat_ne_nan
    constructor <;> dsimp only
    · exact Binary64.isBetween_clamp_iff (number 0) (number 200) (by decide +kernel)
    · exact Binary64.isBetween_clamp_iff (number 0) (number 1000) (by decide +kernel)
    · exact Binary64.isBetween_clamp_iff (number 0) (number 300) (by decide +kernel)
    · exact Binary64.isBetween_clamp_iff (Binary64.ratio_ne_nan 1 10) (number 10)
        (by decide +kernel)

end ColorFilters

/-- Whatever numbers are given for a crop and for color filters, there is a crop and there are color
filters; and every bound on them holds exactly if what it is a bound on was given as a number. -/
theorem clamped_unless_nan (origin : Origin) (fields : Fields) :
    (∀ x y w h, Crop.IsGiven fields x y w h →
      ∃ crop, Crop.fromDocument origin (.obj fields) = .valid crop ∧
        Crop.IsClampedAxis x w crop.x.value crop.w.value ∧
        Crop.IsClampedAxis y h crop.y.value crop.h.value) ∧
    ∀ b c s g, ColorFilters.IsGiven fields b c s g →
      ∃ filters, ColorFilters.fromDocument origin (.obj fields) = .valid filters ∧
        filters.IsClampedFrom b c s g :=
  ⟨fun _ _ _ _ given => Crop.exists_of_isGiven origin given,
    fun _ _ _ _ given => ColorFilters.exists_of_isGiven origin given⟩

/-- Numbers out of their ranges, of which one is not finite and two are `nan`. -/
def outOfRange : Fields :=
  [("x", .int 150), ("y", .text "nan"), ("w", .text "inf"), ("brightness", .int 500),
    ("contrast", .text "nan"), ("gamma", .text "-inf")]

theorem clamped_unless_nan_outOfRange :
    (Crop.IsGiven outOfRange (Scalar.nat 150) .nan (.infinite false) (Scalar.nat 100) ∧
      ∃ crop, Crop.fromDocument .body (.obj outOfRange) = .valid crop ∧
        crop.x.value ≤ Scalar.nat 100 - crop.w.value ∧
        ¬crop.y.value ≤ Scalar.nat 100 - crop.h.value) ∧
    ColorFilters.IsGiven outOfRange (Scalar.nat 500) .nan (Scalar.nat 100) (.infinite true) ∧
      ∃ filters, ColorFilters.fromDocument .body (.obj outOfRange) = .valid filters ∧
        Binary64.IsBetween (Scalar.ratio 1 10) (Scalar.nat 10) filters.gamma ∧
        ¬Binary64.IsBetween (Scalar.nat 0) (Scalar.nat 1000) filters.contrast := by
  -- Of each axis one number is too large and another one is none.
  have given :
      Crop.IsGiven outOfRange (Scalar.nat 150) .nan (.infinite false) (Scalar.nat 100) := by
    constructor <;> decide +kernel
  have given' : ColorFilters.IsGiven outOfRange (Scalar.nat 500) .nan (Scalar.nat 100)
      (.infinite true) := by
    constructor <;> decide +kernel
  obtain ⟨crops, filters⟩ := clamped_unless_nan .body outOfRange
  obtain ⟨crop, read, across, down⟩ := crops _ _ _ _ given
  obtain ⟨colors, read', clamped⟩ := filters _ _ _ _ given'
  refine ⟨⟨given, crop, read, across.ends.mpr ⟨by decide +kernel, by decide⟩, ?_⟩,
    given', colors, read', clamped.gamma.mpr (by decide), ?_⟩
  · exact fun ends => (down.ends.mp ends).1 rfl
  · exact fun between => clamped.contrast.mp between rfl

/-- A side that is given as `nan` is neither at least one percent nor at most all of the frame, and
so is a brightness. -/
theorem not_always_clamped :
    (∃ crop, Crop.fromDocument .value (.obj [("w", .text "nan")]) = .valid crop ∧
      ¬Scalar.nat 1 ≤ crop.w.value ∧ ¬crop.w.value ≤ Scalar.nat 100 ∧
      ¬crop.x.value ≤ Scalar.nat 100 - crop.w.value) ∧
    ∃ filters, ColorFilters.fromDocument .value (.obj [("brightness", .text "nan")]) =
      .valid filters ∧ ¬filters.brightness ≤ Scalar.nat 200 := by
  refine ⟨⟨Crop.settled { Crop.full with w := .measured .nan }, ?_⟩,
    ⟨{ ColorFilters.neutral with brightness := .nan }, ?_⟩⟩
  · decide +kernel
  · decide +kernel

end Montage
