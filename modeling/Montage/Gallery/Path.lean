import Montage.Text.Quoted

/-!
# Paths

A path is a root, empty for a relative path, and the names that follow it. Empty names and single
dots vanish when a path is read; double dots stay, since only a file tree can say where they lead.
A last name that is put in later is kept as it is given: it may have idle pieces beside the one
that counts.
-/
namespace Montage

structure Path where
  root : String
  names : List String
deriving DecidableEq

namespace Path

/-- A name that stands for no step. -/
def isIdle (name : String) : Bool := name.isEmpty || name = "."

/-- The pieces of a text between its slashes. -/
def pieces (text : String) : List String :=
  (text.toList.splitOn '/').map String.ofList

def namesOf (text : String) : List String := (pieces text).filter (!isIdle ·)

/-- The root of a text: exactly two leading slashes are kept apart from one. -/
def rootOf (text : String) : String :=
  match text.toList with
  | '/' :: '/' :: '/' :: _ => "/"
  | '/' :: '/' :: _ => "//"
  | '/' :: _ => "/"
  | _ => ""

def ofString (text : String) : Path := ⟨rootOf text, namesOf text⟩

/-- The absolute path of names. -/
def absolute (names : List String) : Path := ⟨"/", names⟩

def isAbsolute (p : Path) : Bool := !p.root.isEmpty

def text (p : Path) : String :=
  if p.root.isEmpty && p.names.isEmpty then "."
  else p.root ++ String.intercalate "/" p.names

/-- The pieces that a file system takes one by one. -/
def steps (p : Path) : List String := p.names.flatMap pieces

/-- Whether a name has a null character, or a letter without a byte, in it. -/
def isUnfitName (name : String) : Bool :=
  (Text.letters name).any fun letter => letter = .char '\x00' || !letter.isNameable

/-- Whether no file system takes the path. -/
def isUnfit (p : Path) : Bool := p.names.any isUnfitName

/-- One path after another; an absolute one starts anew. -/
def join (p q : Path) : Path := if q.isAbsolute then q else ⟨p.root, p.names ++ q.names⟩

def parent (p : Path) : Path := ⟨p.root, p.names.dropLast⟩

/-- The last name; a path without names has none. -/
def name (p : Path) : String := p.names.getLastD ""

/-- The last step; a path without names has none. -/
def lastStep (p : Path) : String := p.steps.getLastD ""

/-- Whether the last step is the name of an entry in the directory before it. -/
def isHeld (p : Path) : Bool := !isIdle p.lastStep && p.lastStep ≠ ".."

/-- Whether the path is the other one or lies under it. -/
def isUnder (p base : Path) : Bool := p.root = base.root && base.names.isPrefixOf p.names

/-- The part of a path that follows another one. -/
def relativeTo? (p base : Path) : Option Path :=
  if p.isUnder base then some ⟨"", p.names.drop base.names.length⟩ else none

/-- A name cut before its last dot, if that is neither its first nor its last character. -/
def splitName (name : String) : String × String :=
  let chars := name.toList
  let extension := (chars.reverse.takeWhile (· ≠ '.')).reverse
  let stem := chars.take (chars.length - extension.length - 1)
  if extension.isEmpty || stem.isEmpty then (name, "")
  else (String.ofList stem, String.ofList ('.' :: extension))

/-- The last name up to its extension. -/
def stem (p : Path) : String := (splitName p.name).1

/-- The extension of the last name, its dot included. -/
def extension (p : Path) : String := (splitName p.name).2

/-- Whether a text has one name, before which and after which idle pieces may stand. A slash at
either end is too much. -/
def isSingleName (name : String) : Bool :=
  !name.startsWith "/" && !name.endsWith "/" && (namesOf name).length = 1

/-- The path with another last name, which is kept as it is given. -/
def withName? (p : Path) (name : String) : Option Path :=
  if p.names.isEmpty || !isSingleName name then none
  else some ⟨p.root, p.names.dropLast ++ [name]⟩

/-- The path with each name before a double dot removed together with it. -/
def collapsed (p : Path) : Path :=
  let step (kept : List String) (name : String) :=
    if name = ".." then kept.dropLast else kept ++ [name]
  ⟨p.root, p.names.foldl step []⟩

end Path

end Montage
