import Mathlib.Data.List.Nodup
import Montage.Graph.Label

/-!
# Labels are told apart

A label is a stem and a number. A stem that ends in no digit and holds no colon can be read off
its labels, so no two labels of a compile are the same, and none is the name of an input's stream.
-/
namespace Montage

namespace Labels

/-- A stem whose labels show where their number begins. -/
def EndsInNoDigit (stem : String) : Prop :=
  ∀ c, stem.toList.getLast? = some c → c.isDigit = false

/-- A stem that can be read off its labels and makes no names of streams. -/
structure IsStem (stem : String) : Prop where
  withoutDigit : EndsInNoDigit stem
  withoutColon : ':' ∉ stem.toList

instance (stem : String) : Decidable (IsStem stem) :=
  decidable_of_iff
    ((stem.toList.getLast?.all fun c => !c.isDigit) = true ∧ ':' ∉ stem.toList)
    ⟨fun ⟨last, colon⟩ => ⟨fun c h => by simpa [h] using last, colon⟩,
      fun h => ⟨by cases last : stem.toList.getLast? <;> simp [h.withoutDigit _, last],
        h.withoutColon⟩⟩

theorem toList_label (stem : String) (n : Nat) :
    (label stem n).toList = stem.toList ++ Nat.toDigits 10 n := by
  simp [label]

theorem isDigit_of_mem_digits (n : Nat) (c : Char) (h : c ∈ Nat.toDigits 10 n) :
    c.isDigit = true :=
  Nat.isDigit_of_mem_toDigits (by decide) (by decide) h

/-- The characters of a label before its closing run of digits are the stem's. -/
theorem dropWhile_reverse_label (stem : String) (n : Nat) (h : EndsInNoDigit stem) :
    (label stem n).toList.reverse.dropWhile Char.isDigit = stem.toList.reverse := by
  -- From the end, the digits of the number come first, and the stem ends in none.
  rw [toList_label, List.reverse_append, List.dropWhile_append_of_pos]
  · have last := h
    simp only [EndsInNoDigit, ← List.head?_reverse] at last
    cases shape : stem.toList.reverse with
    | nil => rfl
    | cons c rest =>
      rw [List.dropWhile_cons_of_neg]
      simp [last c (by simp [shape])]
  · intro c member
    exact isDigit_of_mem_digits n c (List.mem_reverse.mp member)

/-- A label tells its stem and its number, as no stem ends in a digit. -/
theorem label_inj (s t : String) (m n : Nat) (hs : EndsInNoDigit s) (ht : EndsInNoDigit t) :
    label s m = label t n ↔ s = t ∧ m = n := by
  constructor
  · intro same
    -- Without its digits at the end a label is its stem.
    have stems : s.toList.reverse = t.toList.reverse := by
      rw [← dropWhile_reverse_label s m hs, same, dropWhile_reverse_label t n ht]
    have stem : s = t := String.toList_inj.mp (List.reverse_inj.mp stems)
    subst stem
    have digits : Nat.toDigits 10 m = Nat.toDigits 10 n := by
      have chars := congrArg String.toList same
      rw [toList_label, toList_label] at chars
      exact List.append_cancel_left chars
    have numbers := congrArg (fun ds => Nat.ofDigitChars 10 ds 0) digits
    exact ⟨rfl, by simpa using numbers⟩
  · rintro ⟨rfl, rfl⟩
    rfl

theorem colon_mem_streamRef (input : Int) (stream : String) :
    ':' ∈ (streamRef input stream).toList := by
  simp [streamRef]

theorem colon_not_mem_digits (n : Nat) : ':' ∉ Nat.toDigits 10 n := fun member =>
  absurd (isDigit_of_mem_digits n ':' member) (by decide)

theorem toList_toString_natCast (n : Nat) : (toString (n : Int)).toList = Nat.toDigits 10 n := by
  change (toString n).toList = _
  simp

theorem toList_toString_negSucc (n : Nat) :
    (toString (Int.negSucc n)).toList = '-' :: Nat.toDigits 10 (n + 1) := by
  change ("-" ++ toString (n + 1)).toList = _
  simp

/-- Different integers are written differently. -/
theorem toString_int_injective (m n : Int) (h : toString m = toString n) : m = n := by
  have chars := congrArg String.toList h
  -- A minus sign is no digit, so the two signs agree before the numbers are compared.
  have dash (k : Nat) (rest : List Char) : Nat.toDigits 10 k ≠ '-' :: rest := fun same =>
    absurd (isDigit_of_mem_digits k '-' (by simp [same])) (by decide)
  cases m with
  | ofNat m =>
    rw [Int.ofNat_eq_natCast, toList_toString_natCast] at chars
    cases n with
    | ofNat n =>
      rw [Int.ofNat_eq_natCast, toList_toString_natCast] at chars
      have numbers := congrArg (fun ds => Nat.ofDigitChars 10 ds 0) chars
      simp only [Nat.ofDigitChars_ten_toDigits] at numbers
      rw [numbers]
    | negSucc n =>
      rw [toList_toString_negSucc] at chars
      exact absurd chars (dash m _)
  | negSucc m =>
    rw [toList_toString_negSucc] at chars
    cases n with
    | ofNat n =>
      rw [Int.ofNat_eq_natCast, toList_toString_natCast] at chars
      exact absurd chars.symm (dash n _)
    | negSucc n =>
      rw [toList_toString_negSucc, List.cons.injEq] at chars
      have numbers := congrArg (fun ds => Nat.ofDigitChars 10 ds 0) chars.2
      simpa using numbers

theorem colon_not_mem_toString (n : Int) : ':' ∉ (toString n).toList := by
  cases n with
  | ofNat n =>
    rw [Int.ofNat_eq_natCast, toList_toString_natCast]
    exact colon_not_mem_digits n
  | negSucc n =>
    rw [toList_toString_negSucc, List.mem_cons]
    rintro (dash | digit)
    · exact absurd dash (by decide)
    · exact colon_not_mem_digits _ digit

/-- The name of a stream tells its input and its kind. -/
theorem streamRef_inj (m n : Int) (s t : String) :
    streamRef m s = streamRef n t ↔ m = n ∧ s = t := by
  constructor
  · intro same
    have chars := congrArg String.toList same
    simp only [streamRef, String.toList_append, List.append_assoc] at chars
    -- The number ends at the first colon, since it has none itself.
    have colon (k : Int) (rest : List Char) :
        ((toString k).toList ++ (":".toList ++ rest)).takeWhile (· ≠ ':') =
          (toString k).toList := by
      rw [List.takeWhile_append_of_pos]
      · simp
      · intro c member
        simp only [decide_eq_true_eq]
        exact fun same => colon_not_mem_toString k (same ▸ member)
    have numbers := congrArg (List.takeWhile (· ≠ ':')) chars
    rw [colon, colon] at numbers
    have number := toString_int_injective m n (String.toList_inj.mp numbers)
    subst number
    have rest := List.append_cancel_left (List.append_cancel_left chars)
    exact ⟨rfl, String.toList_inj.mp rest⟩
  · rintro ⟨rfl, rfl⟩
    rfl

theorem colon_not_mem_label (stem : String) (n : Nat) (h : ':' ∉ stem.toList) :
    ':' ∉ (label stem n).toList := by
  rw [toList_label, List.mem_append]
  rintro (inStem | inDigits)
  · exact h inStem
  · exact colon_not_mem_digits n inDigits

/-- Whether a label is among those handed out. -/
def Issued (labels : Labels) (l : Label) : Prop :=
  ∃ stem n, IsStem stem ∧ n < labels.count stem ∧ l = label stem n

/-- No label that is handed out is the name of a stream. -/
theorem not_issued_streamRef (labels : Labels) (input : Int) (stream : String) :
    ¬labels.Issued (streamRef input stream) := by
  rintro ⟨stem, n, h, _, same⟩
  exact colon_not_mem_label stem n h.withoutColon (same ▸ colon_mem_streamRef input stream)

/-- The label that is handed out next is new. -/
theorem not_issued_next (labels : Labels) (stem : String) (h : IsStem stem) :
    ¬labels.Issued (label stem (labels.count stem)) := by
  rintro ⟨other, n, ho, below, same⟩
  obtain ⟨rfl, rfl⟩ := (label_inj stem other _ n h.withoutDigit ho.withoutDigit).mp same
  exact Nat.lt_irrefl _ below

/-- A request hands out one more label. -/
theorem issued_advance (labels : Labels) (stem : String) (h : IsStem stem) (l : Label) :
    (labels.advance stem).Issued l ↔
      labels.Issued l ∨ l = label stem (labels.count stem) := by
  constructor
  · rintro ⟨other, n, ho, below, rfl⟩
    rw [count_advance] at below
    split at below
    next same =>
      subst same
      -- Below the new count there are the old labels and the one just given out.
      rcases Nat.lt_succ_iff_lt_or_eq.mp below with lt | rfl
      · exact .inl ⟨other, n, ho, lt, rfl⟩
      · exact .inr rfl
    next => exact .inl ⟨other, n, ho, below, rfl⟩
  · rintro (⟨other, n, ho, below, rfl⟩ | rfl)
    · refine ⟨other, n, ho, ?_, rfl⟩
      rw [count_advance]
      split
      next same => subst same; omega
      next => exact below
    · exact ⟨stem, labels.count stem, h, by simp [count_advance], rfl⟩

/-- The labels handed out between two states: each once, and none before. -/
structure Issues (labels : Labels) (new : List Label) (labels' : Labels) : Prop where
  nodup : new.Nodup
  fresh : ∀ l ∈ new, ¬labels.Issued l
  issued : ∀ l, labels'.Issued l ↔ labels.Issued l ∨ l ∈ new

namespace Issues

theorem nil (labels : Labels) : Issues labels [] labels :=
  ⟨List.nodup_nil, by simp, by simp⟩

theorem take (labels : Labels) (stem : String) (h : IsStem stem) :
    Issues labels [label stem (labels.count stem)] (labels.advance stem) :=
  ⟨List.nodup_singleton _, by simpa using not_issued_next labels stem h,
    by simpa using issued_advance labels stem h⟩

theorem append {a b c : Labels} {xs ys : List Label} (first : Issues a xs b)
    (second : Issues b ys c) : Issues a (xs ++ ys) c where
  nodup := by
    refine List.nodup_append'.mpr ⟨first.nodup, second.nodup, ?_⟩
    intro l inFirst inSecond
    exact second.fresh l inSecond ((first.issued l).mpr (.inr inFirst))
  fresh := by
    intro l member old
    rcases List.mem_append.mp member with inFirst | inSecond
    · exact first.fresh l inFirst old
    · exact second.fresh l inSecond ((first.issued l).mpr (.inl old))
  issued := by
    intro l
    rw [second.issued, first.issued, List.mem_append, or_assoc]

end Issues

end Labels

end Montage
