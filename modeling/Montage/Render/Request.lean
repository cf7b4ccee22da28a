import Montage.Timeline.Document

/-!
# Render requests and results

A request names a timeline and the file to write, relative to the gallery root. A result says
where the file is, or why there is none.
-/
namespace Montage

open Document (Checked Key Fields Origin)

structure RenderRequest where
  timeline : Timeline Binary64
  destinationPath : String
  /-- A file name that replaces the destination's own. -/
  newName : Option String

namespace RenderRequest

def timelineKey : Key := .plain "timeline"
def destinationPathKey : Key := ⟨"destination_path", "destinationPath"⟩
def newNameKey : Key := ⟨"new_name", "newName"⟩

def fromFields (origin : Origin) (fields : Fields) : Checked RenderRequest :=
  mk <$> timelineKey.required (Timeline.fromDocument origin) fields
    <*> destinationPathKey.required Document.text fields
    <*> newNameKey.withDefault none (Document.optional Document.text) fields

def fromDocument (origin : Origin) : Json → Checked RenderRequest :=
  Document.object origin "RenderRequest" (fromFields origin)

def toDocument (spelling : Key → String) (r : RenderRequest) : Json :=
  .obj [(spelling timelineKey, r.timeline.toDocument spelling),
    (spelling destinationPathKey, .text r.destinationPath),
    (spelling newNameKey, (r.newName.map Json.text).getD .null)]

end RenderRequest

structure RenderResult where
  success : Bool
  /-- The written file, relative to the gallery root. -/
  path : Option String
  error : Option String
  errorCode : Option String
  warnings : List String
deriving DecidableEq

namespace RenderResult

def succeeded (path : String) (warnings : List String) : RenderResult :=
  ⟨true, some path, none, none, warnings⟩

def failed (error errorCode : String) : RenderResult :=
  ⟨false, none, some error, some errorCode, []⟩

def fromFields (fields : Fields) : Checked RenderResult :=
  let optionalText := Document.optional Document.text
  mk <$> (Key.plain "success").required Document.boolean fields
    <*> (Key.plain "path").withDefault none optionalText fields
    <*> (Key.plain "error").withDefault none optionalText fields
    <*> (Key.plain "error_code").withDefault none optionalText fields
    <*> (Key.plain "warnings").withDefault [] (Document.list Document.text) fields

def fromDocument (origin : Origin) : Json → Checked RenderResult :=
  Document.object origin "RenderResult" fromFields

/-- All texts of a result. -/
def texts (r : RenderResult) : List String :=
  r.path.toList ++ r.error.toList ++ r.errorCode.toList ++ r.warnings

def toDocument (r : RenderResult) : Json :=
  let optionalText (s : Option String) := (s.map Json.text).getD .null
  .obj [("success", .bool r.success), ("path", optionalText r.path),
    ("error", optionalText r.error), ("error_code", optionalText r.errorCode),
    ("warnings", .arr (r.warnings.map .text))]

end RenderResult

end Montage
