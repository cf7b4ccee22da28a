import Montage.Document.Problem
import Montage.Json.Value

/-!
# Rejected documents

A problem is shown by its code, its path and its message. The value that a problem is about is
found by following the path in the rejected document.
-/
namespace Montage

namespace Document

def Place.toDocument : Place → Json
  | .key name => .text name
  | .index i => .int i

def Problem.toDocument (p : Problem) : Json :=
  .obj [("type", .text p.reason.code), ("loc", .arr (p.path.map Place.toDocument)),
    ("msg", .text p.reason.message)]

end Document

namespace Json

/-- The value at the end of a path. -/
def at? : Json → List Document.Place → Option Json
  | v, [] => some v
  | v, .key name :: rest => (v.get? name).bind fun v => at? v rest
  | arr items, .index i :: rest => (items[i]?).bind fun v => at? v rest
  | _, .index _ :: _ => none

mutual

/-- Whether all numbers and all texts of a value, its keys among them, are of certain kinds. -/
def all (number : Binary64 → Bool) (text : String → Bool) : Json → Bool
  | float x => number x
  | .text s => text s
  | arr items => allItems number text items
  | obj fields => allFields number text fields
  | _ => true

def allItems (number : Binary64 → Bool) (text : String → Bool) : List Json → Bool
  | [] => true
  | item :: rest => all number text item && allItems number text rest

def allFields (number : Binary64 → Bool) (text : String → Bool) : Fields → Bool
  | [] => true
  | (key, value) :: rest =>
    text key && all number text value && allFields number text rest

end

/-- Whether all numbers of a value are finite, so that the value has a written form. -/
def isWritable (v : Json) : Bool := v.all Binary64.isFinite fun _ => true

/-- Whether no text of a value has a lone surrogate, so that its written form has bytes. -/
def isEncodable (v : Json) : Bool := v.all (fun _ => true) Text.isEncodable

end Json

/-- The value that a problem of a document is about: the object that lacks a field, or the refused
value itself. -/
def Document.Problem.subject (p : Document.Problem) (document : Json) : Json :=
  (document.at? (if p.reason = .presence then p.path.dropLast else p.path)).getD .null

end Montage
