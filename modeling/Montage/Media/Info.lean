/-!
# Source information

What a compile knows of each source: its picture size, whether it has sound, and whether it is a
still image. A source whose probe failed counts as silent and without size.
-/
namespace Montage

structure SourceInfo where
  width : Int
  height : Int
  hasAudio : Bool
  isImage : Bool
deriving DecidableEq

def SourceInfo.unknown : SourceInfo := ⟨0, 0, false, false⟩

/-- What probing a source came to. A failed probe is told apart from one that found nothing. -/
inductive Finding where
  | found (info : SourceInfo)
  | unavailable
deriving DecidableEq

def Finding.info : Finding → SourceInfo
  | found info => info
  | unavailable => .unknown

/-- The findings by path, in first-reference order. -/
abbrev SourceCache := List (String × Finding)

namespace SourceCache

def find? (cache : SourceCache) (path : String) : Option Finding :=
  (List.find? (·.1 = path) cache).map (·.2)

/-- The information on a source; one that is not in the cache is unknown. -/
def info (cache : SourceCache) (path : String) : SourceInfo :=
  ((cache.find? path).map Finding.info).getD .unknown

end SourceCache

end Montage
