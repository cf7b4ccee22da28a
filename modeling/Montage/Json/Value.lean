import Montage.Number.Binary64
import Montage.Text.Letter

/-!
# JSON values

Whole numbers keep every digit and are told apart from doubles. An object has each key once, in
the order in which the keys first came.
-/
namespace Montage

inductive Json where
  | null
  | bool (value : Bool)
  | int (value : Int)
  | float (value : Binary64)
  | text (value : String)
  | arr (items : List Json)
  | obj (fields : List (String × Json))

namespace Json

instance : Inhabited Json := ⟨null⟩

abbrev Fields := List (String × Json)

/-- A list of pairs with a key set: in place where the key is present, else at the end. -/
def setField (key : String) (value : Json) : Fields → Fields
  | [] => [(key, value)]
  | (k, v) :: rest => if k = key then (k, value) :: rest else (k, v) :: setField key value rest

def lookup (fields : Fields) (key : String) : Option Json :=
  (fields.find? (·.1 = key)).map (·.2)

/-- The value of a key of an object. -/
def get? : Json → String → Option Json
  | obj fields, key => lookup fields key
  | _, _ => none

/-- The value counted as a truth value: zeros, empty things, `false` and `null` are not true,
not-a-number is. -/
def truthy : Json → Bool
  | null => false
  | bool b => b
  | int n => n ≠ 0
  | float x => x ≠ Binary64.zero false && x ≠ Binary64.zero true
  | text s => !s.isEmpty
  | arr items => !items.isEmpty
  | obj fields => !fields.isEmpty

end Json

end Montage
