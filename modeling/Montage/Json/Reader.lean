import Montage.Json.Value
import Montage.Number.Numeral

/-!
# Reading JSON

The reader takes the JSON grammar together with the words `NaN`, `Infinity` and `-Infinity`. Of a
repeated key the last value wins. It stops at the first character that fits no continuation and
says what it expected and where, and it stops at values that are nested too deeply.
-/
namespace Montage.Json

/-- The two kinds of values that hold others. -/
inductive Nesting where
  | array
  | object
deriving DecidableEq

/-- What a text lacked, or had too much of. -/
inductive Complaint where
  | byteOrderMark
  | expectedValue
  | expectedName
  | expectedColon
  | expectedComma
  | extraData
  | unterminatedString
  | controlCharacter
  | invalidEscape
  | invalidUnicodeEscape
  | integerTooLong (digits : Nat)
  | tooDeep (value : Nesting)
deriving DecidableEq

/-- A complaint and the number of characters before the place it is about. -/
structure ReadError where
  complaint : Complaint
  position : Nat
deriving DecidableEq

def Nesting.name : Nesting → String
  | array => "array"
  | object => "object"

/-- What is said of a value of a kind that is nested too deeply. -/
def Nesting.tooDeepMessage (value : Nesting) : String :=
  "maximum recursion depth exceeded while decoding a JSON " ++ value.name
    ++ " from a unicode string"

def Complaint.message : Complaint → String
  | byteOrderMark => "Unexpected UTF-8 BOM (decode using utf-8-sig)"
  | expectedValue => "Expecting value"
  | expectedName => "Expecting property name enclosed in double quotes"
  | expectedColon => "Expecting ':' delimiter"
  | expectedComma => "Expecting ',' delimiter"
  | extraData => "Extra data"
  | unterminatedString => "Unterminated string starting at"
  | controlCharacter => "Invalid control character at"
  | invalidEscape => "Invalid \\escape"
  | invalidUnicodeEscape => "Invalid \\uXXXX escape"
  | integerTooLong digits => Numeral.tooLongMessage digits
  | tooDeep value => value.tooDeepMessage

/-- The complaint with its line, column and character number in the text. -/
def ReadError.message (e : ReadError) (text : String) : String :=
  let before := text.toList.take e.position
  let line := before.count '\n' + 1
  let column := (before.reverse.takeWhile (· ≠ '\n')).length + 1
  let place := s!": line {line} column {column} (char {e.position})"
  e.complaint.message ++ place

/-- The unread part of a text and the number of characters before it. -/
structure Cursor where
  position : Nat
  rest : List Char

namespace Cursor

def advance (c : Cursor) (n : Nat) : Cursor := ⟨c.position + n, c.rest.drop n⟩

def fail (c : Cursor) (complaint : Complaint) : ReadError := ⟨complaint, c.position⟩

def isGap (c : Char) : Bool := c = ' ' || c = '\t' || c = '\n' || c = '\r'

/-- The cursor after any blanks. -/
def skipGap (c : Cursor) : Cursor :=
  c.advance (c.rest.takeWhile isGap).length

end Cursor

/-- The value of a hexadecimal digit in either case. -/
def hexValue? (c : Char) : Option Nat :=
  if '0' ≤ c && c ≤ '9' then some (c.toNat - 0x30)
  else if 'a' ≤ c && c ≤ 'f' then some (c.toNat - 0x61 + 10)
  else if 'A' ≤ c && c ≤ 'F' then some (c.toNat - 0x41 + 10)
  else none

/-- The value of the first four characters as hexadecimal digits. -/
def fourHex? (chars : List Char) : Option Nat :=
  match chars.take 4 with
  | [a, b, c, d] => do
    let a ← hexValue? a
    let b ← hexValue? b
    let c ← hexValue? c
    let d ← hexValue? d
    pure (((a * 16 + b) * 16 + c) * 16 + d)
  | _ => none

def isHighSurrogate (n : Nat) : Bool := 0xd800 ≤ n && n ≤ 0xdbff
def isLowSurrogate (n : Nat) : Bool := 0xdc00 ≤ n && n ≤ 0xdfff

/-- The character a one-letter escape stands for. -/
def shortEscape? (c : Char) : Option Char :=
  if c = '\x22' || c = '\\' || c = '/' then some c
  else if c = 'b' then some '\x08'
  else if c = 'f' then some '\x0c'
  else if c = 'n' then some '\n'
  else if c = 'r' then some '\r'
  else if c = 't' then some '\t'
  else none

/-- The escape whose letter `u` the cursor is at: what it stands for and the length after the
letter. A high surrogate joins with an escape of a low one that follows it. -/
def unicodeEscape (at_u : Cursor) : Except ReadError (Text.Letter × Nat) :=
  let digits := at_u.rest.drop 1
  let refuse := Except.error (at_u.fail .invalidUnicodeEscape)
  if digits.length ≤ 4 then refuse
  else
    match fourHex? digits with
    | none => refuse
    | some first =>
      let after := digits.drop 4
      if isHighSurrogate first && decide (6 < after.length)
          && after.take 2 = ['\\', 'u'] then
        match fourHex? (after.drop 2) with
        | none => .error ((at_u.advance 6).fail .invalidUnicodeEscape)
        | some second =>
          if isLowSurrogate second then
            .ok (.ofNat (0x10000 + (first - 0xd800) * 0x400 + (second - 0xdc00)), 10)
          else .ok (.ofNat first, 4)
      else .ok (.ofNat first, 4)

/-- The rest of a string whose opening quote stands at `start`, its letters so far reversed. -/
def stringTail (start : Cursor) :
    Nat → Cursor → List Text.Letter → Except ReadError (String × Cursor)
  | 0, _, _ => .error (start.fail .unterminatedString)
  | fuel + 1, cursor, read =>
    match cursor.rest with
    | [] => .error (start.fail .unterminatedString)
    | '\x22' :: _ => .ok (Text.ofLetters read.reverse, cursor.advance 1)
    | '\\' :: [] => .error (start.fail .unterminatedString)
    | '\\' :: c :: _ =>
      if c = 'u' then do
        let (letter, length) ← unicodeEscape (cursor.advance 1)
        stringTail start fuel (cursor.advance (2 + length)) (letter :: read)
      else
        match shortEscape? c with
        | some c => stringTail start fuel (cursor.advance 2) (.char c :: read)
        | none => .error (cursor.fail .invalidEscape)
    | c :: _ =>
      if c.toNat ≤ 0x1f then .error (cursor.fail .controlCharacter)
      else stringTail start fuel (cursor.advance 1) (.char c :: read)

/-- The string whose opening quote the cursor is at. -/
def readString (cursor : Cursor) : Except ReadError (String × Cursor) :=
  stringTail cursor cursor.rest.length (cursor.advance 1) []

/-- The fraction at the front of a text, its point included; none without a digit after it. -/
def fractionDigits : List Char → List Char
  | '.' :: rest => rest.takeWhile Char.isDigit
  | _ => []

/-- The exponent at the front of a text with its length; none without a digit. -/
def exponentPart : List Char → Option (Int × Nat)
  | c :: rest =>
    if c = 'e' || c = 'E' then
      let (negative, body) := Numeral.sign rest
      let digits := body.takeWhile Char.isDigit
      if digits.isEmpty then none
      else
        let size : Int := Numeral.digitsValue digits
        some (if negative then -size else size, 1 + (rest.length - body.length) + digits.length)
    else none
  | [] => none

/-- The number at the cursor. -/
def readNumber (cursor : Cursor) : Except ReadError (Json × Cursor) :=
  let negative := cursor.rest.head? = some '-'
  let body := if negative then cursor.rest.drop 1 else cursor.rest
  let integer :=
    match body with
    | '0' :: _ => ['0']
    | _ => body.takeWhile Char.isDigit
  if integer.isEmpty then .error (cursor.fail .expectedValue)
  else
    let afterInteger := body.drop integer.length
    let fraction := fractionDigits afterInteger
    let pointed := if fraction.isEmpty then 0 else fraction.length + 1
    let exponent := exponentPart (afterInteger.drop pointed)
    let length := (if negative then 1 else 0) + integer.length + pointed
    if fraction.isEmpty && exponent.isNone then
      if Numeral.maxDigits < integer.length then
        .error (cursor.fail (.integerTooLong integer.length))
      else
        let size : Int := Numeral.digitsValue integer
        .ok (int (if negative then -size else size), cursor.advance length)
    else
      let (power, exponentLength) := exponent.getD (0, 0)
      let digits := Numeral.digitsValue (integer ++ fraction)
      .ok (float (Decimal.toBinary64 negative ⟨digits, power - fraction.length⟩),
        cursor.advance (length + exponentLength))

/-- The words that stand for values. -/
def words : List (List Char × Json) := [
  ("null".toList, null), ("true".toList, bool true), ("false".toList, bool false),
  ("NaN".toList, float .nan), ("Infinity".toList, float (.infinite false)),
  ("-Infinity".toList, float (.infinite true))]

/-- A word or a number at the cursor. -/
def readScalar (cursor : Cursor) : Except ReadError (Json × Cursor) :=
  match words.find? fun (word, _) => word.isPrefixOf cursor.rest with
  | some (word, value) => .ok (value, cursor.advance word.length)
  | none => readNumber cursor

/-- How deeply values may be nested. -/
def maxDepth : Nat := 975

mutual

/-- The value at the cursor, in which values may be nested for so many levels. Every nested value
is at least one character further on, so the length of the text is fuel enough. -/
def readValue (fuel levels : Nat) (cursor : Cursor) : Except ReadError (Json × Cursor) :=
  match fuel with
  | 0 => .error (cursor.fail .expectedValue)
  | fuel + 1 =>
    match cursor.rest with
    | '\x22' :: _ => do
      let (value, after) ← readString cursor
      .ok (text value, after)
    | '[' :: _ =>
      match levels with
      | 0 => .error (cursor.fail (.tooDeep .array))
      | levels + 1 =>
        let first := (cursor.advance 1).skipGap
        if first.rest.head? = some ']' then .ok (arr [], first.advance 1)
        else readItems fuel levels first []
    | '\x7b' :: _ =>
      match levels with
      | 0 => .error (cursor.fail (.tooDeep .object))
      | levels + 1 =>
        let first := (cursor.advance 1).skipGap
        if first.rest.head? = some '\x7d' then .ok (obj [], first.advance 1)
        else readFields fuel levels first []
    | _ => readScalar cursor

/-- The items of an array from the one at the cursor on, those before it reversed. -/
def readItems (fuel levels : Nat) (cursor : Cursor) (items : List Json) :
    Except ReadError (Json × Cursor) :=
  match fuel with
  | 0 => .error (cursor.fail .expectedValue)
  | fuel + 1 => do
    let (item, after) ← readValue fuel levels cursor
    let next := after.skipGap
    match next.rest.head? with
    | some ']' => .ok (arr (item :: items).reverse, next.advance 1)
    | some ',' => readItems fuel levels (next.advance 1).skipGap (item :: items)
    | _ => .error (next.fail .expectedComma)

/-- The fields of an object from the one at the cursor on. -/
def readFields (fuel levels : Nat) (cursor : Cursor) (fields : Fields) :
    Except ReadError (Json × Cursor) :=
  match fuel with
  | 0 => .error (cursor.fail .expectedName)
  | fuel + 1 => do
    if cursor.rest.head? ≠ some '\x22' then .error (cursor.fail .expectedName)
    let (key, afterKey) ← readString cursor
    let colon := afterKey.skipGap
    if colon.rest.head? ≠ some ':' then .error (colon.fail .expectedColon)
    let (value, afterValue) ← readValue fuel levels (colon.advance 1).skipGap
    let fields := setField key value fields
    let next := afterValue.skipGap
    match next.rest.head? with
    | some '\x7d' => .ok (obj fields, next.advance 1)
    | some ',' => readFields fuel levels (next.advance 1).skipGap fields
    | _ => .error (next.fail .expectedComma)

end

/-- The one value that a text holds. -/
def read (text : String) : Except ReadError Json := do
  let chars := text.toList
  if chars.head? = some '\ufeff' then .error ⟨.byteOrderMark, 0⟩
  let (value, after) ← readValue (2 * chars.length + 1) maxDepth (Cursor.skipGap ⟨0, chars⟩)
  let tail := after.skipGap
  if tail.rest.isEmpty then .ok value else .error (tail.fail .extraData)

end Montage.Json
