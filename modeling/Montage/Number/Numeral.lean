import Montage.Number.Decimal

/-!
# Numerals

Reading numbers from texts that people and tools write. A whole number is an optional sign and
digits; a number may also have a fraction, an exponent, or be one of the words for infinity and
not-a-number in any letter case. Underscores that group digits are taken out beforehand.
-/
namespace Montage.Numeral

/-- A text without its underscores, or nothing if one of them does not stand between two
characters of a class. `inside` says that a character of the class stands just before. -/
def ungroup? (isInner : Char → Bool) (inside : Bool) : List Char → Option (List Char)
  | [] => some []
  | c :: rest =>
    if c = '_' then
      if inside && rest.head?.any isInner then ungroup? isInner false rest else none
    else (ungroup? isInner (isInner c) rest).map (c :: ·)

/-- A text without its underscores, where each stands between two digits. -/
def ungroupDigits? (text : List Char) : Option (List Char) := ungroup? Char.isDigit false text

/-- A text without its underscores, where none stands at an end or beside another. -/
def ungroupLoosely? (text : List Char) : Option (List Char) := ungroup? (· ≠ '_') false text

def digitsValue (digits : List Char) : Nat :=
  digits.foldl (fun n c => 10 * n + (c.toNat - 0x30)) 0

/-- Whether a leading sign is a minus, and what follows it. -/
def sign : List Char → Bool × List Char
  | '+' :: rest => (false, rest)
  | '-' :: rest => (true, rest)
  | rest => (false, rest)

/-- The longest whole numeral that is read or written; a longer one is refused as too long. -/
def maxDigits : Nat := 4300

def tooLongMessage (digits : Nat) : String :=
  s!"Exceeds the limit ({maxDigits} digits) for integer string conversion: value has {digits} "
    ++ "digits; use sys.set_int_max_str_digits() to increase the limit"

/-- The text of a whole number; one with more digits than are read has none either. -/
def text? (n : Int) : Option String :=
  if n.natAbs < Nat.pow 10 maxDigits then some (toString n) else none

def noTextMessage : String :=
  s!"Exceeds the limit ({maxDigits} digits) for integer string conversion; "
    ++ "use sys.set_int_max_str_digits() to increase the limit"

/-- What a text is as a whole number. -/
inductive Whole where
  | value (n : Int)
  | tooLong (digits : Nat)
  | malformed
deriving DecidableEq

/-- The digits at the front of a text and what follows them. -/
def digitRun (text : List Char) : List Char × List Char :=
  (text.takeWhile Char.isDigit, text.dropWhile Char.isDigit)

/-- A text as a whole number. -/
def whole (text : List Char) : Whole :=
  let (negative, body) := sign text
  let (digits, after) := digitRun body
  if digits.isEmpty then .malformed
  else if maxDigits < digits.length then .tooLong digits.length
  else if !after.isEmpty then .malformed
  else .value (if negative then -(digitsValue digits : Int) else digitsValue digits)

/-- An exponent mark with its number, or no exponent at all. -/
def exponent? : List Char → Option Int
  | [] => some 0
  | c :: rest =>
    if c = 'e' || c = 'E' then
      let (negative, body) := sign rest
      let (digits, after) := digitRun body
      if digits.isEmpty || !after.isEmpty then none
      else some (if negative then -(digitsValue digits : Int) else digitsValue digits)
    else none

/-- An unsigned decimal numeral. -/
def decimal? (text : List Char) : Option Decimal :=
  let (integer, after) := digitRun text
  let (fraction, tail) :=
    match after with
    | '.' :: rest => digitRun rest
    | _ => ([], after)
  if integer.isEmpty && fraction.isEmpty then none
  else (exponent? tail).map fun e => ⟨digitsValue (integer ++ fraction), e - fraction.length⟩

/-- A number in decimal notation or by its word. -/
def number? (text : List Char) : Option Binary64 :=
  let (negative, body) := sign text
  let word := String.ofList (body.map Char.toLower)
  if word = "nan" then some .nan
  else if word = "inf" || word = "infinity" then some (.infinite negative)
  else (decimal? body).map (Decimal.toBinary64 negative)

end Montage.Numeral
