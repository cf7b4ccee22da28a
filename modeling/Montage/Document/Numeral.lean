import Montage.Number.Numeral
import Montage.Text.Blank

/-!
# Numerals of a document

How a document's texts are read as numbers. Blanks around the number do not count. A whole number
may have a plus, leading zeros and a fraction of zeros, which are taken off first; underscores are
taken out where none stands at an end or beside another. What is left is a plain numeral.
-/
namespace Montage.Document

/-- What follows a leading plus; a minus after it is refused. -/
def withoutPlus? : List Char → Option (List Char)
  | '+' :: '-' :: _ => none
  | '+' :: rest => some rest
  | text => some text

/-- A text after zeros and underscores, the last of which is `last`. A fraction keeps the
character before its point, and a text that ends keeps its own last character. -/
def afterZeros? (last : Char) : List Char → Option (List Char)
  | [] => some [last]
  | c :: rest =>
    if c = '0' || c = '_' then afterZeros? c rest
    else if c = '-' || c.isDigit then some (c :: rest)
    else if c = '.' then some (last :: c :: rest)
    else none

/-- A text without leading zeros; nothing if it starts with neither a digit nor a minus. -/
def withoutLeadingZeros? : List Char → Option (List Char)
  | [] => none
  | c :: rest =>
    if c = '0' then afterZeros? c rest
    else if c = '-' || c.isDigit then some (c :: rest)
    else none

/-- A text without a fraction of zeros. -/
def withoutZeroFraction (text : List Char) : List Char :=
  match text.dropWhile (· ≠ '.') with
  | _ :: zeros =>
    if !zeros.isEmpty && zeros.all (· = '0') then text.takeWhile (· ≠ '.') else text
  | [] => text

/-- An optional minus and digits, of which the first is no zero unless it is the only one. The
sign counts among the characters that a numeral may have. -/
def plainWhole (text : List Char) : Numeral.Whole :=
  let body := if text.head? = some '-' then text.drop 1 else text
  let (digits, after) := Numeral.digitRun body
  let size := text.length - after.length
  if digits.isEmpty || (digits.head? = some '0' && 1 < digits.length) then .malformed
  else if Numeral.maxDigits < size then .tooLong size
  else if !after.isEmpty then .malformed
  else
    let value : Int := Numeral.digitsValue digits
    .value (if text.head? = some '-' then -value else value)

/-- A text of a document as a whole number. -/
def wholeOfText (text : String) : Numeral.Whole :=
  match (withoutPlus? (Text.trim Text.isBlank text.toList)).bind withoutLeadingZeros? with
  | some digits =>
    let digits := withoutZeroFraction digits
    plainWhole ((Numeral.ungroupLoosely? digits).getD digits)
  | none => .malformed

/-- A text of a document as a number. One with underscores may have no blanks. -/
def numberOfText? (text : String) : Option Binary64 :=
  match Numeral.number? (Text.trim Text.isBlank text.toList) with
  | some x => some x
  | none => (Numeral.ungroupLoosely? text.toList).bind Numeral.number?

end Montage.Document
