import Montage.Media.Probe
import Montage.Proofs.Attempt
import Montage.Proofs.Number.Finite

/-!
# Numbers that can be written down

A whole number with too many digits is refused when a report is read, and no double has nearly so
many. So every side of a picture that a report states can be written down again, and the line
about its source never fails.
-/
namespace Montage

namespace Numeral

/-- A whole number with few enough digits for a text. -/
def IsShort (n : Int) : Prop := n.natAbs < Nat.pow 10 maxDigits

theorem isShort_iff {n : Int} : IsShort n ↔ n.natAbs < 10 ^ maxDigits := by
  rw [IsShort, Nat.pow_eq]

theorem text?_of_isShort {n : Int} (short : IsShort n) : text? n = some (toString n) :=
  if_pos short

theorem text?_of_not_isShort {n : Int} (long : ¬IsShort n) : text? n = none :=
  if_neg long

theorem isShort_of_lt {n : Int} (few : n.natAbs < 10 ^ 4) : IsShort n :=
  isShort_iff.mpr (Nat.lt_of_lt_of_le few (Nat.pow_le_pow_right (by decide) (by decide)))

theorem isShort_zero : IsShort 0 := isShort_of_lt (by decide)

theorem isShort_one : IsShort 1 := isShort_of_lt (by decide)

theorem isShort_max {n : Int} (short : IsShort n) : IsShort (max n 0) := by
  rcases Int.le_total n 0 with le | le
  · rw [Int.max_eq_right le]
    exact isShort_zero
  · rwa [Int.max_eq_left le]

theorem digit_le {c : Char} (digit : c.isDigit = true) : c.toNat - 0x30 ≤ 9 := by
  simp only [Char.isDigit, Bool.and_eq_true, decide_eq_true_eq] at digit
  have most : c.toNat ≤ 57 := UInt32.le_iff_toNat_le.mp digit.2
  omega

/-- Digits make up a number below the power of ten that has one digit more. -/
theorem digitsValue_lt (digits : List Char) (each : ∀ c ∈ digits, c.isDigit = true) :
    digitsValue digits < 10 ^ digits.length := by
  -- The fold is followed from any number on; each digit multiplies by ten what is left to reach.
  have fold (n : Nat) :
      digits.foldl (fun n c => 10 * n + (c.toNat - 0x30)) n < (n + 1) * 10 ^ digits.length := by
    induction digits generalizing n with
    | nil => simp
    | cons c rest ih =>
      obtain ⟨digit, others⟩ := List.forall_mem_cons.mp each
      have first := digit_le digit
      calc (c :: rest).foldl (fun n c => 10 * n + (c.toNat - 0x30)) n
          < (10 * n + (c.toNat - 0x30) + 1) * 10 ^ rest.length := ih others _
        _ ≤ ((n + 1) * 10) * 10 ^ rest.length := Nat.mul_le_mul_right _ (by omega)
        _ = (n + 1) * 10 ^ (c :: rest).length := by
          rw [List.length_cons, Nat.pow_succ, Nat.mul_assoc, Nat.mul_comm 10]
  simpa [digitsValue] using fold 0

/-- A number whose digits are few enough is short, with either sign. -/
theorem isShort_of_digits {digits : List Char} (each : ∀ c ∈ digits, c.isDigit = true)
    (few : digits.length ≤ maxDigits) (negative : Bool) :
    IsShort (if negative then -(digitsValue digits : Int) else digitsValue digits) := by
  have bound : digitsValue digits < 10 ^ maxDigits :=
    Nat.lt_of_lt_of_le (digitsValue_lt digits each) (Nat.pow_le_pow_right (by decide) few)
  cases negative
  · simpa [isShort_iff] using bound
  · simpa [isShort_iff] using bound

theorem isDigit_of_mem_takeWhile (text : List Char) :
    ∀ c ∈ text.takeWhile Char.isDigit, c.isDigit = true :=
  fun _ member => List.all_eq_true.mp (List.all_takeWhile) _ member

theorem isShort_of_whole {text : List Char} {n : Int} (read : whole text = .value n) :
    IsShort n := by
  unfold whole digitRun at read
  dsimp only at read
  split at read
  · cases read
  · split at read
    · cases read
    next few =>
      split at read
      · cases read
      · cases read
        exact isShort_of_digits (isDigit_of_mem_takeWhile _) (Nat.not_lt.mp few) _

end Numeral

open Numeral (IsShort)

/-- No double is too large to be written down. -/
theorem Binary64.isShort_of_truncate {x : Binary64} {n : Int} (cut : x.truncate = .ok n) :
    IsShort n := by
  cases x with
  | nan => cases cut
  | infinite negative => cases cut
  | finite negative rank =>
    cases cut
    -- The integer part is the number of units over those of a one.
    have bound : units rank < 2 ^ 2098 := by
      have most := units_add_le_overflow rank
      have edge : overflow < 2 ^ 2098 := by decide +kernel
      omega
    rw [Numeral.isShort_iff]
    calc ((signedUnits negative rank).tdiv one).natAbs
        = units rank / one := by
          rw [Int.natAbs_tdiv, natAbs_signedUnits, Int.natAbs_natCast]
          rfl
      _ ≤ units rank := Nat.div_le_self _ _
      _ < 2 ^ 2098 := bound
      _ < 10 ^ Numeral.maxDigits := by decide +kernel

namespace Json

/-- A value in which every whole number is short. -/
inductive IsShort : Json → Prop
  | null : IsShort .null
  | bool (b : Bool) : IsShort (.bool b)
  | int (n : Int) (short : Numeral.IsShort n) : IsShort (.int n)
  | float (x : Binary64) : IsShort (.float x)
  | text (s : String) : IsShort (.text s)
  | arr (items : List Json) (each : ∀ item ∈ items, IsShort item) : IsShort (.arr items)
  | obj (fields : Fields) (each : ∀ field ∈ fields, IsShort field.2) : IsShort (.obj fields)

theorem isShort_of_readNumber {cursor after : Cursor} {v : Json}
    (read : readNumber cursor = .ok (v, after)) : v.IsShort := by
  unfold readNumber at read
  extract_lets negative body integer afterInteger fraction pointed exponent length at read
  -- The integer is a run of digits, and a run that is too long is refused.
  have digits : ∀ c ∈ integer, c.isDigit = true := by
    clear_value body
    dsimp only [integer]
    split
    · simp
    · exact Numeral.isDigit_of_mem_takeWhile _
  split at read
  · cases read
  · split at read
    · split at read
      · cases read
      next few =>
        cases read
        have short := Numeral.isShort_of_digits digits (Nat.not_lt.mp few) negative
        exact .int _ (by simpa using short)
    · cases read
      exact .float _

theorem isShort_of_readScalar {cursor after : Cursor} {v : Json}
    (read : readScalar cursor = .ok (v, after)) : v.IsShort := by
  unfold readScalar at read
  split at read
  next word value found =>
    cases read
    have listed := List.mem_of_find?_eq_some found
    simp only [words, List.mem_cons, Prod.mk.injEq, List.not_mem_nil, or_false] at listed
    rcases listed with ⟨_, rfl⟩ | ⟨_, rfl⟩ | ⟨_, rfl⟩ | ⟨_, rfl⟩ | ⟨_, rfl⟩ | ⟨_, rfl⟩
    · exact .null
    · exact .bool _
    · exact .bool _
    · exact .float _
    · exact .float _
    · exact .float _
  · exact isShort_of_readNumber read

theorem forall_mem_setField {P : Json → Prop} (key : String) {value : Json} {fields : Fields}
    (each : ∀ field ∈ fields, P field.2) (own : P value) :
    ∀ field ∈ setField key value fields, P field.2 := by
  induction fields with
  | nil => simpa [setField] using own
  | cons field rest ih =>
    obtain ⟨first, others⟩ := List.forall_mem_cons.mp each
    simp only [setField]
    split
    · exact List.forall_mem_cons.mpr ⟨own, others⟩
    · exact List.forall_mem_cons.mpr ⟨first, ih others⟩

/-- Whatever the reader makes of a text with so much fuel, its whole numbers are short. -/
structure ReadsShort (fuel : Nat) : Prop where
  value : ∀ {levels cursor v after}, readValue fuel levels cursor = .ok (v, after) → v.IsShort
  items : ∀ {levels cursor items v after}, readItems fuel levels cursor items = .ok (v, after) →
    (∀ item ∈ items, item.IsShort) → v.IsShort
  fields : ∀ {levels cursor fields v after},
    readFields fuel levels cursor fields = .ok (v, after) →
      (∀ field ∈ fields, field.2.IsShort) → v.IsShort

theorem readsShort_zero : ReadsShort 0 := by
  refine ⟨?_, ?_, ?_⟩
  · intro levels cursor v after read
    rw [readValue] at read
    cases read
  · intro levels cursor items v after read
    rw [readItems] at read
    cases read
  · intro levels cursor fields v after read
    rw [readFields] at read
    cases read

namespace ReadsShort

variable {fuel levels : Nat} {cursor after : Cursor} {v : Json} (h : ReadsShort fuel)

include h

theorem value_succ (read : readValue (fuel + 1) levels cursor = .ok (v, after)) : v.IsShort := by
  rw [readValue.eq_def] at read
  dsimp only at read
  -- A text, a list, an object, or else one of the scalars.
  split at read
  · obtain ⟨_, _, read⟩ := Except.bind_eq_ok_iff.mp read
    cases read
    exact .text _
  · split at read
    · cases read
    · split at read
      · cases read
        exact .arr _ (List.forall_mem_nil _)
      · exact h.items read (List.forall_mem_nil _)
  · split at read
    · cases read
    · split at read
      · cases read
        exact .obj _ (List.forall_mem_nil _)
      · exact h.fields read (List.forall_mem_nil _)
  · exact isShort_of_readScalar read

theorem items_succ {items : List Json}
    (read : readItems (fuel + 1) levels cursor items = .ok (v, after))
    (each : ∀ item ∈ items, item.IsShort) : v.IsShort := by
  rw [readItems] at read
  obtain ⟨⟨item, next⟩, first, read⟩ := Except.bind_eq_ok_iff.mp read
  have all := List.forall_mem_cons.mpr ⟨h.value first, each⟩
  dsimp only at read
  split at read
  · cases read
    exact .arr _ fun other member => all other (List.mem_reverse.mp member)
  · exact h.items read all
  · cases read

theorem fields_succ {fields : Fields}
    (read : readFields (fuel + 1) levels cursor fields = .ok (v, after))
    (each : ∀ field ∈ fields, field.2.IsShort) : v.IsShort := by
  rw [readFields] at read
  split at read
  · cases read
  · obtain ⟨⟨key, afterKey⟩, _, read⟩ := Except.bind_eq_ok_iff.mp read
    dsimp only at read
    split at read
    · cases read
    · obtain ⟨⟨value, afterValue⟩, first, read⟩ := Except.bind_eq_ok_iff.mp read
      -- A field that was read before may be overwritten by the new one.
      have all := forall_mem_setField key each (h.value first)
      dsimp only at read
      split at read
      · cases read
        exact .obj _ all
      · exact h.fields read all
      · cases read

end ReadsShort

theorem readsShort (fuel : Nat) : ReadsShort fuel := by
  induction fuel with
  | zero => exact readsShort_zero
  | succ fuel ih => exact ⟨ih.value_succ, ih.items_succ, ih.fields_succ⟩

theorem isShort_of_read {text : String} {v : Json} (read : Json.read text = .ok v) :
    v.IsShort := by
  rw [Json.read] at read
  dsimp only at read
  split at read
  · cases read
  · obtain ⟨⟨value, after⟩, first, read⟩ := Except.bind_eq_ok_iff.mp read
    dsimp only at read
    split at read
    · cases read
      exact (readsShort _).value first
    · cases read

theorem IsShort.lookup {fields : Fields} {key : String} {v : Json}
    (short : (Json.obj fields).IsShort) (found : lookup fields key = some v) : v.IsShort := by
  cases short with
  | obj _ each =>
    obtain ⟨field, listed, rfl⟩ := Option.map_eq_some_iff.mp found
    exact each field (List.mem_of_find?_eq_some listed)

end Json

namespace Report

theorem isShort_of_integer {v : Json} {n : Int} (short : v.IsShort) (made : integer v = .ok n) :
    IsShort n := by
  -- A report writes no long number, and a fraction or a text that is converted has no more digits.
  cases short with
  | int n short =>
    cases made
    exact short
  | bool b =>
    cases made
    cases b
    · exact Numeral.isShort_zero
    · exact Numeral.isShort_one
  | float x => exact Binary64.isShort_of_truncate (Except.mapError_eq_ok_iff.mp made)
  | text s =>
    simp only [integer] at made
    split at made
    next read =>
      cases made
      cases found : numeral? s with
      | none =>
        rw [found] at read
        cases read
      | some digits =>
        rw [found] at read
        exact Numeral.isShort_of_whole read
    · cases made
    · cases made
  | null | arr | obj => cases made

theorem isShort_of_side {fields : Json.Fields} {key : String} {n : Int}
    (short : (Json.obj fields).IsShort) (made : side fields key = .ok n) : IsShort n := by
  simp only [side] at made
  split at made
  next v found =>
    split at made
    · exact isShort_of_integer (short.lookup found) made
    · cases made
      exact Numeral.isShort_zero
  · cases made
    exact Numeral.isShort_zero

theorem isShort_of_items {v : Json} {items : List Json} (short : v.IsShort)
    (listed : Report.items v = .ok items) : ∀ item ∈ items, item.IsShort := by
  -- The items of an object are its keys, and those of a text its letters.
  cases short with
  | arr _ each =>
    cases listed
    exact each
  | obj fields _ =>
    cases listed
    intro item member
    obtain ⟨field, _, rfl⟩ := List.mem_map.mp member
    exact .text _
  | text s =>
    cases listed
    intro item member
    obtain ⟨letter, _, rfl⟩ := List.mem_map.mp member
    exact .text _
  | null | bool | int | float => cases listed

/-- Streams whose picture has sides that can be written down. -/
structure Streams.IsShort (known : Streams) : Prop where
  width : Numeral.IsShort known.width
  height : Numeral.IsShort known.height

theorem Streams.IsShort.add {known next : Streams} {stream : Json} (h : known.IsShort)
    (short : stream.IsShort) (added : known.add stream = .ok next) : next.IsShort := by
  obtain ⟨fields, found, read⟩ := Except.bind_eq_ok_iff.mp added
  obtain rfl : stream = .obj fields := by
    cases stream <;> cases found
    rfl
  split at read
  · obtain ⟨width, wide, read⟩ := Except.bind_eq_ok_iff.mp read
    obtain ⟨height, high, read⟩ := Except.bind_eq_ok_iff.mp read
    cases read
    exact ⟨isShort_of_side short wide, isShort_of_side short high⟩
  · cases read
    exact ⟨h.width, h.height⟩

theorem Streams.IsShort.foldlM {known last : Streams} {streams : List Json} (h : known.IsShort)
    (short : ∀ stream ∈ streams, stream.IsShort)
    (read : streams.foldlM Streams.add known = .ok last) : last.IsShort := by
  induction streams generalizing known with
  | nil =>
    cases read
    exact h
  | cons stream rest ih =>
    obtain ⟨first, others⟩ := List.forall_mem_cons.mp short
    obtain ⟨next, added, read⟩ := Except.bind_eq_ok_iff.mp read
    exact ih (h.add first added) others read

end Report

/-- What a report that was read says of a picture can be written down. -/
theorem MediaSummary.isShort_ofReport {report : Json} {summary : MediaSummary}
    (short : report.IsShort) (made : ofReport report = .ok summary) : summary.streams.IsShort := by
  obtain ⟨fields, found, made⟩ := Except.bind_eq_ok_iff.mp made
  obtain ⟨items, listed, made⟩ := Except.bind_eq_ok_iff.mp made
  obtain ⟨known, read, made⟩ := Except.bind_eq_ok_iff.mp made
  obtain ⟨duration, _, made⟩ := Except.bind_eq_ok_iff.mp made
  cases made
  obtain rfl : report = .obj fields := by
    cases report <;> cases found
    rfl
  have streams : ((Json.lookup fields "streams").getD (.arr [])).IsShort := by
    cases given : Json.lookup fields "streams" with
    | none => exact .arr _ (List.forall_mem_nil _)
    | some v => exact short.lookup given
  have none : Report.Streams.none.IsShort := ⟨Numeral.isShort_zero, Numeral.isShort_zero⟩
  exact none.foldlM (Report.isShort_of_items streams listed) read

/-- What a run of the tool says of a picture can be written down. -/
theorem ProbeRun.isShort_summary {run : ProbeRun} {path : String} {summary : MediaSummary}
    (made : run.summary path = .ok summary) : summary.streams.IsShort := by
  cases run with
  | timedOut => cases made
  | notStarted failure =>
    simp only [ProbeRun.summary] at made
    split at made <;> cases made
  | exited returncode report diagnostic =>
    simp only [ProbeRun.summary] at made
    split at made
    · cases made
    · obtain ⟨value, read, made⟩ := Except.bind_eq_ok_iff.mp made
      -- The report that the tool printed was read by the reader above.
      have short : value.IsShort := by
        unfold readReport at read
        split at read
        next given =>
          cases read
          exact Json.isShort_of_read given
        all_goals cases read
      exact MediaSummary.isShort_ofReport short (Except.mapError_eq_ok_iff.mp made)

namespace SourceInfo

theorem exists_sideText_iff (n : Int) : (∃ text, Report.sideText n = .ok text) ↔ IsShort n := by
  unfold Report.sideText
  constructor
  · rintro ⟨text, written⟩
    by_contra long
    rw [Numeral.text?_of_not_isShort long] at written
    cases written
  · intro short
    rw [Numeral.text?_of_isShort short]
    exact ⟨_, rfl⟩

/-- There is a line about a source exactly when both sides of its picture can be written down. -/
theorem exists_line_iff (path : String) (info : SourceInfo) :
    (∃ line, info.line path = .ok line) ↔ IsShort info.width ∧ IsShort info.height := by
  rw [← exists_sideText_iff, ← exists_sideText_iff]
  unfold line
  simp only [Except.exists_bind_eq_ok_iff]
  constructor
  · rintro ⟨width, wide, height, high, _⟩
    exact ⟨⟨width, wide⟩, ⟨height, high⟩⟩
  · rintro ⟨⟨width, wide⟩, ⟨height, high⟩⟩
    exact ⟨width, wide, height, high, _, rfl⟩

/-- Measures say something of a source when they give integers with a line about them. -/
theorem told_eq_ok_iff {path : String} {measures : Measures} {info : SourceInfo} :
    told path measures = .ok info ↔
      ofMeasures path measures = .ok info ∧ IsShort info.width ∧ IsShort info.height := by
  unfold told
  rw [← exists_line_iff path]
  constructor
  · intro given
    obtain ⟨taken, usable, rest⟩ := Except.bind_eq_ok_iff.mp given
    obtain ⟨line, logged, same⟩ := Except.bind_eq_ok_iff.mp rest
    cases same
    exact ⟨usable, line, logged⟩
  · rintro ⟨usable, line, logged⟩
    exact Except.bind_eq_ok_iff.mpr ⟨info, usable, Except.bind_eq_ok_iff.mpr ⟨line, logged, rfl⟩⟩

/-- Nothing fails in what a render makes of the summary of a report. -/
theorem told_of_isShort {summary : MediaSummary} (short : summary.streams.IsShort)
    (path : String) :
    told path summary.measures = .ok ⟨max summary.streams.width 0, max summary.streams.height 0,
      summary.streams.hasAudio && !MediaType.isImage path, MediaType.isImage path⟩ := by
  rw [told_eq_ok_iff]
  exact ⟨rfl, Numeral.isShort_max short.width, Numeral.isShort_max short.height⟩

end SourceInfo

end Montage
