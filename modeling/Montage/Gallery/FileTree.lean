import Montage.Gallery.Path

/-!
# File trees

A file tree maps absolute positions, the names from the root on, to directories, files and
symbolic links. The operations are those of a file system: they follow links on the way to a
path's last name, and say by an error number why they fail. They fail only for reasons that the tree
shows; rights, a full disk and what else a system may refuse are not part of it.
-/
namespace Montage

inductive Entry where
  | directory
  | file (content : String)
  | link (target : String)
deriving DecidableEq

/-- The names from the root to an entry. -/
abbrev Position := List String

inductive Errno where
  | noEntry
  | busy
  | alreadyExists
  | notDirectory
  | isDirectory
  | invalid
  | nameTooLong
  | notEmpty
  | linkLoop
deriving DecidableEq

namespace Errno

def number : Errno → Nat
  | noEntry => 2
  | busy => 16
  | alreadyExists => 17
  | notDirectory => 20
  | isDirectory => 21
  | invalid => 22
  | nameTooLong => 36
  | notEmpty => 39
  | linkLoop => 40

def description : Errno → String
  | noEntry => "No such file or directory"
  | busy => "Device or resource busy"
  | alreadyExists => "File exists"
  | notDirectory => "Not a directory"
  | isDirectory => "Is a directory"
  | invalid => "Invalid argument"
  | nameTooLong => "File name too long"
  | notEmpty => "Directory not empty"
  | linkLoop => "Too many levels of symbolic links"

end Errno

/-- Why an operation on a path failed. -/
inductive FileError where
  /-- The file system refused; a move has two paths. -/
  | refused (errno : Errno) (path : String) (target : Option String)
  | nullCharacter
  /-- A text has no bytes. -/
  | unencodable (error : Text.EncodeError)
  /-- The links of a path lead back to themselves. -/
  | endlessLinks (path : String)
  | invalidName (name : String)
  /-- Nobody's home is known. -/
  | unknownHome
deriving DecidableEq

namespace FileError

def message : FileError → String
  | refused errno path target =>
    let second := match target with
      | some target => " -> " ++ Text.quote target
      | none => ""
    s!"[Errno {errno.number}] " ++ errno.description ++ ": " ++ Text.quote path ++ second
  | nullCharacter => "embedded null byte"
  | unencodable error => error.message
  | endlessLinks path => "Symlink loop from " ++ Text.quote path
  | invalidName name => "Invalid name " ++ Text.quote name
  | unknownHome => "Could not determine home directory."

def isRefusal : FileError → Bool
  | refused .. => true
  | _ => false

/-- Why no file system takes a path that is unfit. -/
def unfit (path : Path) : FileError :=
  (Text.encodeError? Text.Letter.isNameable path.text).elim nullCharacter unencodable

end FileError

structure FileTree where
  entries : List (Position × Entry)

namespace FileTree

/-- The entry at a position; the root is always a directory. -/
def get? (tree : FileTree) (position : Position) : Option Entry :=
  if position.isEmpty then some .directory
  else (tree.entries.find? (·.1 = position)).map (·.2)

def erase (tree : FileTree) (position : Position) : FileTree :=
  ⟨tree.entries.filter (·.1 ≠ position)⟩

def set (tree : FileTree) (position : Position) (entry : Entry) : FileTree :=
  ⟨(tree.erase position).entries ++ [(position, entry)]⟩

theorem get?_erase (tree : FileTree) (p q : Position) (h : q ≠ []) :
    (tree.erase p).get? q = if q = p then none else tree.get? q := by
  simp only [get?, erase, List.isEmpty_iff, h, if_false, List.find?_filter]
  by_cases hq : q = p
  · subst hq
    simp
  · simp only [hq, if_false]
    congr 2
    funext e
    by_cases he : e.1 = q <;> simp [he, hq]

theorem get?_set (tree : FileTree) (p q : Position) (e : Entry) (h : q ≠ []) :
    (tree.set p e).get? q = if q = p then some e else tree.get? q := by
  have erased := get?_erase tree p q h
  simp only [get?, List.isEmpty_iff, h, if_false] at erased
  simp only [get?, set, List.isEmpty_iff, h, if_false, List.find?_append, Option.map_or, erased]
  by_cases hq : q = p
  · subst hq; simp
  · have hp : ¬ p = q := fun e => hq e.symm
    simp [hq, hp]

/-- The longest name that a directory can hold, in bytes. -/
def maxNameBytes : Nat := 255

/-- The longest path, in bytes, its end mark included. -/
def maxPathBytes : Nat := 4096

/-- How many links one operation follows. -/
def maxLinks : Nat := 40

/-- How a path is taken at its last name. -/
inductive Ending where
  /-- A link there is what the path names. -/
  | kept
  /-- A link there is followed. -/
  | followed
  /-- A link there is followed to a file to be written, whose name no slash may follow. -/
  | written
deriving DecidableEq

/-- The position reached from a directory by names, and the entry there if there is one. Only the
last name may be missing. -/
def walk (tree : FileTree) (ending : Ending) (links : Nat) (position : Position) :
    List String → Except Errno (Position × Option Entry)
  | [] => .ok (position, tree.get? position)
  | name :: rest =>
    if tree.get? position ≠ some .directory then .error .notDirectory
    else if Path.isIdle name then walk tree ending links position rest
    else if name = ".." then walk tree ending links position.dropLast rest
    else if ending = .written && !rest.isEmpty && rest.all String.isEmpty then
      .error .isDirectory
    else if maxNameBytes < Text.nameSize name then .error .nameTooLong
    else
      let next := position ++ [name]
      match tree.get? next with
      | none => if rest.isEmpty then .ok (next, none) else .error .noEntry
      | some (.link target) =>
        if rest.isEmpty && ending = .kept then .ok (next, some (.link target))
        else
          match links with
          | 0 => .error .linkLoop
          | links + 1 =>
            walk tree ending links (if target.startsWith "/" then [] else position)
              (Path.pieces target ++ rest)
      | some _ => walk tree ending links next rest
termination_by names => (links, names.length)

/-- What a path names: the position and the entry, if there is one. -/
def locate (tree : FileTree) (ending : Ending) (path : Path) :
    Except Errno (Position × Option Entry) :=
  if maxPathBytes ≤ Text.nameSize path.text then .error .nameTooLong
  else tree.walk ending maxLinks [] path.steps

def fail {α : Type} (errno : Errno) (path : Path) : Except FileError α :=
  .error (.refused errno path.text none)

/-- What a path names, or why no operation on it can succeed. -/
def find (tree : FileTree) (ending : Ending) (path : Path) :
    Except FileError (Position × Option Entry) :=
  if path.isUnfit then .error (.unfit path)
  else
    match tree.locate ending path with
    | .error e => fail e path
    | .ok found => .ok found

/-- The entry that a path leads to, all links followed. -/
def stat (tree : FileTree) (path : Path) : Except Errno Entry := do
  match ← tree.locate .followed path with
  | (_, some entry) => .ok entry
  | (_, none) => .error .noEntry

/-- Whether an error only says that there is nothing of the kind. -/
def saysAbsent (e : Errno) : Bool := e = .noEntry || e = .notDirectory || e = .linkLoop

/-- Whether a path leads to an entry of a kind. -/
def test (tree : FileTree) (kind : Entry → Bool) (path : Path) : Except FileError Bool :=
  if path.isUnfit then .ok false
  else
    match tree.stat path with
    | .ok entry => .ok (kind entry)
    | .error e => if saysAbsent e then .ok false else fail e path

def isDirectory (tree : FileTree) (path : Path) : Except FileError Bool :=
  tree.test (· = .directory) path

def doesExist (tree : FileTree) (path : Path) : Except FileError Bool :=
  tree.test (fun _ => true) path

/-- The content of the file that a path leads to. -/
def content? (tree : FileTree) (path : Path) : Option String :=
  match tree.find .followed path with
  | .ok (_, some (.file content)) => some content
  | _ => none

/-- The tree without the file or link that a path names. -/
def unlink (tree : FileTree) (path : Path) : Except FileError FileTree := do
  match ← tree.find .kept path with
  | (_, none) => fail .noEntry path
  | (_, some .directory) => fail .isDirectory path
  | (position, some _) => .ok (tree.erase position)

/-- The tree with the file that a path leads to made or overwritten. -/
def write (tree : FileTree) (path : Path) (content : String) : Except FileError FileTree := do
  match ← tree.find .written path with
  | (_, some .directory) => fail .isDirectory path
  | (position, _) => .ok (tree.set position (.file content))

def makeDirectory (tree : FileTree) (path : Path) : Except FileError FileTree := do
  match ← tree.find .kept path with
  | (_, some _) => fail .alreadyExists path
  | (position, none) => .ok (tree.set position .directory)

/-- Whether a position has entries under it. -/
def hasChildren (tree : FileTree) (position : Position) : Bool :=
  tree.entries.any fun e => position.isPrefixOf e.1 && e.1 ≠ position

/-- The tree with the entry at a position, and all under it, moved to another one. -/
def move (tree : FileTree) (source target : Position) : FileTree :=
  ⟨(tree.erase target).entries.map fun e =>
    if source.isPrefixOf e.1 then (target ++ e.1.drop source.length, e.2) else e⟩

/-- The directory that a path's last step is looked up in. -/
def holder (tree : FileTree) (path : Path) : Except Errno Position :=
  if maxPathBytes ≤ Text.nameSize path.text then .error .nameTooLong
  else
    match tree.walk .followed maxLinks [] path.steps.dropLast with
    | .error e => .error e
    | .ok (position, some .directory) => .ok position
    | .ok (_, some _) => .error .notDirectory
    | .ok (_, none) => .error .noEntry

/-- The position of a name in a directory, and the entry there if there is one. -/
def child (tree : FileTree) (position : Position) (name : String) :
    Except Errno (Position × Option Entry) :=
  if maxNameBytes < Text.nameSize name then .error .nameTooLong
  else .ok (position ++ [name], tree.get? (position ++ [name]))

/-- Why an entry cannot be moved onto another one. -/
def moveObstacle (tree : FileTree) (source : Position) (entry : Entry) (target : Position)
    (present : Option Entry) : Option Errno :=
  if source.isPrefixOf target then some .invalid
  else if target.isPrefixOf source then some .notEmpty
  else
    match present with
    | none => none
    | some .directory =>
      if entry ≠ .directory then some .isDirectory
      else if tree.hasChildren target then some .notEmpty
      else none
    | some _ => if entry = .directory then some .notDirectory else none

/-- The tree with what one path names moved to where another path points. Both directories are
found before either entry is looked up. -/
def moved (tree : FileTree) (source target : Path) : Except Errno FileTree := do
  let sourceHolder ← tree.holder source
  let targetHolder ← tree.holder target
  if !source.isHeld || !target.isHeld then .error .busy
  else
    match ← tree.child sourceHolder source.lastStep with
    | (_, none) => .error .noEntry
    | (start, some entry) =>
      let (goal, present) ← tree.child targetHolder target.lastStep
      if start = goal then .ok tree
      else
        match tree.moveObstacle start entry goal present with
        | some e => .error e
        | none => .ok (tree.move start goal)

/-- The tree with what one path names moved to where another path points, in place of what is
there. -/
def rename (tree : FileTree) (source target : Path) : Except FileError FileTree :=
  if source.isUnfit then .error (.unfit source)
  else if target.isUnfit then .error (.unfit target)
  else
    match tree.moved source target with
    | .error e => .error (.refused e source.text (some target.text))
    | .ok tree => .ok tree

/-- The directories above a position, made where they are missing. -/
def withParents (tree : FileTree) (position : Position) : FileTree :=
  (List.range position.length).foldl
    (fun tree n =>
      let p := position.take n
      if (tree.get? p).isSome then tree else tree.set p .directory) tree

/-- The entries below a position, by the names that follow it. -/
def below (tree : FileTree) (position : Position) : List (Position × Entry) :=
  tree.entries.filterMap fun e =>
    if position.isPrefixOf e.1 && e.1 ≠ position then some (e.1.drop position.length, e.2)
    else none

end FileTree

end Montage
