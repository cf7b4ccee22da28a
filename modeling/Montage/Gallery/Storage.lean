import Montage.Gallery.Resolve
import Montage.Render.Error

/-!
# Gallery storage

All files of a gallery lie under one root. A path that a request names is resolved first, and
refused when it leads out of the root; an output is written next to its destination under a
temporary name and then moved into place.
-/
namespace Montage

/-- Why storage cannot do what it is asked. -/
inductive StorageError where
  | refused (error : RenderError)
  | file (error : FileError)
deriving DecidableEq

structure Storage where
  /-- The resolved directory that confines all files. -/
  root : Path
  tempSuffix : String

namespace Storage

/-- The resolved form of a path under the root, which it is relative to. -/
def resolve (s : Storage) (tree : FileTree) (path : Path) (shown : String) :
    Except StorageError Path := do
  let full ← (tree.resolve (s.root.join path)).mapError .file
  if full.isUnder s.root then .ok full
  else .error (.refused (.say .pathOutsideRoot ("Access denied: " ++ shown)))

/-- The form in which a path under the root is shown. -/
def relative? (s : Storage) (full : Path) : Option String :=
  (full.relativeTo? s.root).map Path.text

/-- The resolved form of a path that can be an output file: neither the root nor a directory. -/
def fileDestination (s : Storage) (tree : FileTree) (path : Path) (shown : String) :
    Except StorageError Path := do
  let full ← s.resolve tree path shown
  let isDirectory ←
    if full = s.root then .ok true else (tree.isDirectory full).mapError .file
  if isDirectory then
    .error (.refused (.say .invalidDestination ("Destination is a directory: " ++ shown)))
  else .ok full

/-- The output file of a request. A new name that is not empty takes the place of the
destination's own, and is resolved from there. -/
def destination (s : Storage) (tree : FileTree) (path : String) (newName : Option String) :
    Except StorageError Path := do
  let full ← s.fileDestination tree (Path.ofString path) path
  match newName with
  | none => .ok full
  | some name =>
    if name.isEmpty || name = full.name then .ok full
    else
      let relative := (full.relativeTo? s.root).getD ⟨"", []⟩
      let renamed := relative.parent.join (Path.ofString name)
      s.fileDestination tree renamed renamed.text

/-- The temporary file next to a destination, with the destination's extension. -/
def tempPath (s : Storage) (destination : Path) : Except FileError Path :=
  let name := destination.stem ++ s.tempSuffix ++ destination.extension
  match destination.withName? name with
  | some path => .ok path
  | none => .error (.invalidName name)

/-- A tree after an operation, with what the operation logged and came to. -/
structure Outcome (α : Type) where
  tree : FileTree
  log : List String
  result : α

/-- Deletes a file if it is there; a refusal is only logged. -/
def discard (tree : FileTree) (path : Path) : Outcome (Except FileError Bool) :=
  match tree.unlink path with
  | .ok tree => ⟨tree, [], .ok true⟩
  | .error (.refused .noEntry _ _) => ⟨tree, [], .ok false⟩
  | .error e =>
    if e.isRefusal then
      ⟨tree, ["[FINALIZE] Could not remove " ++ path.text ++ ": " ++ e.message], .ok false⟩
    else ⟨tree, [], .error e⟩

/-- The tree after each of two steps of a replacement, and the error that ended it: what is at
the destination is removed, and the temporary file is moved there. -/
def replaceSteps (tree : FileTree) (temp destination : Path) : FileTree × Option FileError :=
  match tree.doesExist destination with
  | .error e => (tree, some e)
  | .ok present =>
    match (if present then tree.unlink destination else .ok tree) with
    | .error e => (tree, some e)
    | .ok cleared =>
      match cleared.rename temp destination with
      | .error e => (cleared, some e)
      | .ok moved => (moved, none)

/-- Moves a temporary file over a destination. -/
def replace (tree : FileTree) (temp destination : Path) : FileTree × Except StorageError Unit :=
  match replaceSteps tree temp destination with
  | (tree, none) => (tree, .ok ())
  | (tree, some e) =>
    if e.isRefusal then (tree, .error (.refused (.say .finalize e.message)))
    else (tree, .error (.file e))

end Storage

end Montage
