/-!
# Problems of a document

What is wrong with a document, and where: a problem has the path of keys and list indexes that
leads to the value it is about. Checks of separate parts are combined so that every problem is
reported, in the order of the parts.
-/
namespace Montage.Document

inductive Place where
  | key (name : String)
  | index (i : Nat)
deriving DecidableEq

/-- What was asked of a value and not met. -/
inductive Reason where
  | text
  | number
  | readableNumber
  | atLeastZero
  | integer
  | wholeInteger
  | readableInteger
  | integerInRange
  | finiteNumber
  | boolean
  | readableBoolean
  /-- One of the choices, as they are listed to the user. -/
  | choice (listed : String)
  | list
  /-- An object that is a model of the given name. -/
  | model (name : String)
  /-- An object of a request body. -/
  | attributes
  | presence
  /-- Text that is no JSON document at all. -/
  | document
deriving DecidableEq

namespace Reason

def code : Reason → String
  | text => "string_type"
  | number => "float_type"
  | readableNumber => "float_parsing"
  | atLeastZero => "greater_than_equal"
  | integer => "int_type"
  | wholeInteger => "int_from_float"
  | readableInteger => "int_parsing"
  | integerInRange => "int_parsing_size"
  | finiteNumber => "finite_number"
  | boolean => "bool_type"
  | readableBoolean => "bool_parsing"
  | choice _ => "literal_error"
  | list => "list_type"
  | model _ => "model_type"
  | attributes => "model_attributes_type"
  | presence => "missing"
  | document => "json_invalid"

def message : Reason → String
  | text => "Input should be a valid string"
  | number => "Input should be a valid number"
  | readableNumber => "Input should be a valid number, unable to parse string as a number"
  | atLeastZero => "Input should be greater than or equal to 0"
  | integer => "Input should be a valid integer"
  | wholeInteger => "Input should be a valid integer, got a number with a fractional part"
  | readableInteger => "Input should be a valid integer, unable to parse string as an integer"
  | integerInRange => "Unable to parse input string as an integer, exceeded maximum size"
  | finiteNumber => "Input should be a finite number"
  | boolean => "Input should be a valid boolean"
  | readableBoolean => "Input should be a valid boolean, unable to interpret input"
  | choice listed => s!"Input should be {listed}"
  | list => "Input should be a valid list"
  | model name => s!"Input should be a valid dictionary or instance of {name}"
  | attributes => "Input should be a valid dictionary or object to extract fields from"
  | presence => "Field required"
  | document => "JSON decode error"

end Reason

structure Problem where
  path : List Place
  reason : Reason
deriving DecidableEq

def Problem.under (place : Place) (p : Problem) : Problem := { p with path := place :: p.path }

/-- A value, or the problems for which there is none. -/
inductive Checked (α : Type) where
  | valid (value : α)
  | invalid (problems : List Problem)
deriving DecidableEq

namespace Checked

variable {α β : Type}

def map (f : α → β) : Checked α → Checked β
  | valid a => valid (f a)
  | invalid ps => invalid ps

/-- Both parts are checked, whatever the first one gives. -/
def apply (f : Checked (α → β)) (a : Checked α) : Checked β :=
  match f, a with
  | valid f, valid a => valid (f a)
  | valid _, invalid ps => invalid ps
  | invalid ps, valid _ => invalid ps
  | invalid ps, invalid qs => invalid (ps ++ qs)

instance : Applicative Checked where
  pure := valid
  seq f a := apply f (a ())

/-- A further check of a valid value. -/
def andThen (a : Checked α) (f : α → Checked β) : Checked β :=
  match a with
  | valid a => f a
  | invalid ps => invalid ps

def fail (reason : Reason) : Checked α := invalid [⟨[], reason⟩]

/-- The check of the value at a place, its problems told from further out. -/
def under (place : Place) : Checked α → Checked α
  | valid a => valid a
  | invalid ps => invalid (ps.map (·.under place))

/-- Items checked one by one, each at its index from `i` on. -/
def items (check : β → Checked α) (i : Nat) : List β → Checked (List α)
  | [] => valid []
  | b :: rest =>
    apply (map List.cons (under (.index i) (check b))) (items check (i + 1) rest)

end Checked

end Montage.Document
