/-!
# Media types by name

Whether a source is a still image is told by its name alone: by the type that a `data:` name
declares, else by the extension in front of any compression suffix.

The guess is that of the library as it cuts a scheme off at the first colon and knows its built-in
types. Its later versions first read the name as a URL, which fails for `//[x.mp4`, and all of them
can learn more types from tables of the system. Of resolved paths, which begin with one slash, only
the tables can tell the versions apart.
-/
namespace Montage.MediaType

/-- What stands before the first colon, if that is some text without a slash, and what follows. -/
def splitScheme (name : List Char) : Option (List Char × List Char) :=
  let scheme := name.takeWhile fun c => c ≠ '/' && c ≠ ':'
  match name.drop scheme.length with
  | ':' :: rest => if scheme.isEmpty then none else some (scheme, rest)
  | _ => none

def lower (text : List Char) : List Char := text.map Char.toLower

/-- A name cut before the extension of its last part, which may be empty; dots that lead the part
start no extension. The extension keeps its dot. -/
def splitExtension (name : List Char) : List Char × List Char :=
  let part := (name.reverse.takeWhile (· ≠ '/')).reverse
  let tail := (part.reverse.takeWhile (· ≠ '.')).reverse
  let stem := part.take (part.length - tail.length - 1)
  if tail.length < part.length && stem.any (· ≠ '.') then
    (name.take (name.length - tail.length - 1), '.' :: tail)
  else (name, [])

/-- Extensions that are short for an extension with a compression suffix. -/
def contracted : List (String × String) := [
  (".svgz", ".svg.gz"), (".tgz", ".tar.gz"), (".taz", ".tar.gz"), (".tz", ".tar.gz"),
  (".tbz2", ".tar.bz2"), (".txz", ".tar.xz")]

/-- Compression suffixes; their letter case matters. -/
def compressions : List String := [".gz", ".Z", ".bz2", ".xz", ".br"]

def imageExtensions : List String := [
  ".avif", ".bmp", ".gif", ".ief", ".jpg", ".jpe", ".jpeg", ".heic", ".heif", ".png", ".svg",
  ".tiff", ".tif", ".ico", ".ras", ".pnm", ".pbm", ".pgm", ".ppm", ".rgb", ".xbm", ".xpm", ".xwd"]

/-- The extension that tells the type of a name. -/
def decidingExtension (name : List Char) : List Char :=
  let (base, extension) := splitExtension name
  let (base, extension) :=
    match contracted.find? (·.1.toList = lower extension) with
    | some (_, full) => splitExtension (base ++ full.toList)
    | none => (base, extension)
  if compressions.contains (String.ofList extension) then (splitExtension base).2 else extension

/-- The type that the part of a `data:` name after its scheme declares: what stands before the
first semicolon or the comma, plain text where that is no type at all. -/
def declared? (content : List Char) : Option (List Char) :=
  if content.contains ',' then
    let type := (content.takeWhile (· ≠ ',')).takeWhile (· ≠ ';')
    some (if type.contains '=' || !type.contains '/' then "text/plain".toList else type)
  else none

def hasImageExtension (name : List Char) : Bool :=
  imageExtensions.contains (String.ofList (lower (decidingExtension name)))

/-- Whether a path names a still image. -/
def isImage (path : String) : Bool :=
  match splitScheme path.toList with
  | none => hasImageExtension path.toList
  | some (scheme, rest) =>
    if lower scheme = "data".toList then
      match declared? rest with
      | some type => "image/".toList.isPrefixOf type
      | none => false
    else hasImageExtension rest

end Montage.MediaType
