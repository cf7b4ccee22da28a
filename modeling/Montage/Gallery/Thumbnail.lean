import Montage.Digest.Md5
import Montage.Gallery.FileTree

/-!
# Cached thumbnails

The thumbnail of a gallery file has the digest of the file's path relative to the root as its
name. When the file is written anew, its thumbnail is out of date and is deleted.
-/
namespace Montage

structure ThumbnailCache where
  directory : Path

namespace ThumbnailCache

/-- The cache in a directory of the gallery. -/
def ofRoot (root : Path) (directoryName : String) : ThumbnailCache :=
  ⟨root.join (Path.ofString directoryName)⟩

/-- The thumbnail of a file by the file's relative path, which has to have bytes. -/
def path (cache : ThumbnailCache) (relative : String) : Path :=
  cache.directory.join (Path.ofString (Md5.hexDigest relative ++ ".jpg"))

/-- The thumbnail of a file, or why its relative path has no bytes to take the digest of. -/
def path? (cache : ThumbnailCache) (relative : String) : Except FileError Path :=
  match Text.encodeError? Text.Letter.isChar relative with
  | some error => .error (.unencodable error)
  | none => .ok (cache.path relative)

def slashed (path : String) : String := path.map fun c => if c = '\\' then '/' else c

/-- The tree without the thumbnail of a file, and what was logged. A path may be spelled with
backslashes. -/
def invalidate (cache : ThumbnailCache) (tree : FileTree) (relative : String) :
    Except FileError (FileTree × List String) := do
  let relative := slashed relative
  match tree.unlink (← cache.path? relative) with
  | .ok tree => .ok (tree, [])
  | .error (.refused .noEntry _ _) => .ok (tree, [])
  | .error e =>
    if e.isRefusal then
      .ok (tree, ["[THUMB] Failed to invalidate " ++ relative ++ ": " ++ e.message])
    else .error e

end ThumbnailCache

end Montage
