import Montage.Text.Letter
import Montage.Text.Printable

/-!
# Quoted texts

How a message quotes a path or a literal: in single quotes, or in double quotes where the text
has a single quote and no double one. Backslashes, the quote itself and characters that are not
printable are escaped, so the quoted text is one printable line. A letter that has no bytes where
it needs some is named by its place in the text.
-/
namespace Montage.Text

def hexDigit (n : Nat) : Char := Nat.digitChar n

/-- The last `width` hexadecimal digits of a number. -/
def hex (width n : Nat) : List Char :=
  (List.range width).reverse.map fun i => hexDigit (n >>> (4 * i) % 16)

def backslash : Char := '\\'

/-- A character inside quotes of the given kind. -/
def quoteChar (quote c : Char) : List Char :=
  if c = quote || c = backslash then [backslash, c]
  else if c = '\t' then [backslash, 't']
  else if c = '\n' then [backslash, 'n']
  else if c = '\r' then [backslash, 'r']
  else if isPrintable c then [c]
  else if c.toNat ≤ 0xff then backslash :: 'x' :: hex 2 c.toNat
  else if c.toNat ≤ 0xffff then backslash :: 'u' :: hex 4 c.toNat
  else backslash :: 'U' :: hex 8 c.toNat

/-- A letter inside quotes of the given kind. -/
def quoteLetter (quote : Char) : Letter → List Char
  | .char c => quoteChar quote c
  | .surrogate unit => backslash :: 'u' :: hex 4 (surrogateBase + unit)

def quoteLetters (letters : List Letter) : String :=
  let single := letters.contains (.char '\x27') && !letters.contains (.char '\x22')
  let mark := if single then '\x22' else '\x27'
  String.ofList (mark :: letters.flatMap (quoteLetter mark) ++ [mark])

def quote (text : String) : String := quoteLetters (letters text)

/-- Why a text cannot be encoded: a run of surrogates, by the number of letters before it and its
length, and the first of them. -/
structure EncodeError where
  position : Nat
  length : Nat
  unit : Fin 0x800
deriving DecidableEq

/-- The run of surrogates from the first letter on that has no bytes. -/
def encodeError? (hasBytes : Letter → Bool) (text : String) : Option EncodeError :=
  let letters := letters text
  match letters.dropWhile hasBytes with
  | .surrogate unit :: rest =>
    let length := 1 + (rest.takeWhile Letter.isSurrogate).length
    some ⟨letters.length - (rest.length + 1), length, unit⟩
  | _ => none

def EncodeError.message (e : EncodeError) : String :=
  let what :=
    if e.length = 1 then
      "character " ++ quoteLetters [.surrogate e.unit] ++ s!" in position {e.position}"
    else s!"characters in position {e.position}-{e.position + e.length - 1}"
  "'utf-8' codec can't encode " ++ what ++ ": surrogates not allowed"

end Montage.Text
