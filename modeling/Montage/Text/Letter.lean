/-!
# Letters

A text may hold a surrogate that is no part of a pair. No character stands for it, so in a text it
has a stand-in: a mark, and a character after it. The mark is a code point that no character has;
one that a text has all the same is held twice. A text without marks is held as it is.
-/
namespace Montage.Text

/-- The first surrogate. -/
def surrogateBase : Nat := 0xd800

/-- A character, or a surrogate that stands alone, by its place among the surrogates. -/
inductive Letter where
  | char (c : Char)
  | surrogate (unit : Fin 0x800)
deriving DecidableEq

/-- The character before a stand-in. -/
def mark : Char := Char.ofNat 0x10ffff

/-- The number of the stand-in for the first surrogate. -/
def standInBase : Nat := 0x10d800

namespace Letter

def isChar : Letter → Bool
  | char _ => true
  | surrogate _ => false

def isSurrogate : Letter → Bool
  | char _ => false
  | surrogate _ => true

def char? : Letter → Option Char
  | char c => some c
  | surrogate _ => none

/-- The letter of a code point or of a surrogate. -/
def ofNat (n : Nat) : Letter :=
  if h : n.isValidChar then char (Char.ofNatAux n h) else surrogate (Fin.ofNat 0x800 n)

/-- The characters that hold a letter. -/
def held : Letter → List Char
  | char c => if c = mark then [mark, mark] else [c]
  | surrogate unit => [mark, Char.ofNat (standInBase + unit)]

/-- What the character after a mark stands for. -/
def ofStandIn (c : Char) : Letter :=
  if standInBase ≤ c.toNat && c.toNat < standInBase + 0x800 then
    surrogate (Fin.ofNat 0x800 (c.toNat - standInBase))
  else char c

/-- Whether a letter of a file's name has a byte: a name whose bytes are not well-formed is shown
with a surrogate for each byte that is out of place. -/
def isNameable : Letter → Bool
  | char _ => true
  | surrogate unit => 0x480 ≤ unit.val && unit.val < 0x500

/-- How many bytes a letter of a file's name has. -/
def nameSize : Letter → Nat
  | char c => c.utf8Size
  | surrogate _ => 1

end Letter

/-- The text of letters. -/
def ofLetters (letters : List Letter) : String := String.ofList (letters.flatMap Letter.held)

/-- The text of characters as they come from outside. -/
def ofChars (chars : List Char) : String := ofLetters (chars.map .char)

/-- The letters that characters hold. -/
def heldBy : List Char → List Letter
  | [] => []
  | [c] => [.char c]
  | c :: d :: rest =>
    if c = mark then .ofStandIn d :: heldBy rest else .char c :: heldBy (d :: rest)

def letters (text : String) : List Letter := heldBy text.toList

/-- Whether a text has no lone surrogate, so that it can be encoded. -/
def isEncodable (text : String) : Bool := (letters text).all Letter.isChar

/-- The characters of a text as they go outside. -/
def plain (text : String) : String := String.ofList ((letters text).filterMap Letter.char?)

/-- The UTF-8 bytes of a text that can be encoded. -/
def bytes (text : String) : List UInt8 := (plain text).toUTF8.toList

/-- How many bytes a text has as the name of a file or as a path. -/
def nameSize (text : String) : Nat :=
  (letters text).foldr (fun letter size => letter.nameSize + size) 0

theorem Letter.ofStandIn_standIn (unit : Fin 0x800) :
    ofStandIn (Char.ofNat (standInBase + unit)) = surrogate unit := by
  have small := unit.isLt
  have valid : (standInBase + unit.val).isValidChar := by
    unfold standInBase
    exact .inr ⟨by omega, by omega⟩
  have number : (Char.ofNat (standInBase + unit)).toNat = standInBase + unit.val := by
    rw [Char.ofNat, dif_pos valid]
    rfl
  rw [ofStandIn, number, if_pos (by simp), Nat.add_sub_cancel_left, Fin.ofNat_val_eq_self]

/-- A letter is told from what follows it. -/
theorem heldBy_held_append (letter : Letter) (rest : List Char) :
    heldBy (letter.held ++ rest) = letter :: heldBy rest := by
  cases letter with
  | char c =>
    by_cases marked : c = mark
    · subst marked
      rfl
    · rw [Letter.held, if_neg marked]
      cases rest with
      | nil => rfl
      | cons d rest => rw [List.singleton_append, heldBy, if_neg marked]
  | surrogate unit =>
    change heldBy (mark :: Char.ofNat (standInBase + unit) :: rest) = _
    rw [heldBy, if_pos rfl, Letter.ofStandIn_standIn]

/-- A text holds the letters that it is made of. -/
@[simp] theorem letters_ofLetters (letters : List Letter) :
    Text.letters (ofLetters letters) = letters := by
  rw [Text.letters, ofLetters, String.toList_ofList]
  induction letters with
  | nil => rfl
  | cons letter rest ih => rw [List.flatMap_cons, heldBy_held_append, ih]

end Montage.Text
