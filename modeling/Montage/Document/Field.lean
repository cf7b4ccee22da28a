import Montage.Document.Numeral
import Montage.Document.Problem
import Montage.Json.Value

/-!
# Fields of a document

How a JSON value is taken as a text, number, integer, truth value, choice or list. Numbers may
also stand in texts, and truth values may be numbers or words. A field is found under either of
two spellings of its key.
-/
namespace Montage.Document

/-- What an object is held to be when it turns out not to be one. -/
inductive Origin where
  /-- A value handed over by a program: the message names the model. -/
  | value
  /-- The body of a request. -/
  | body
deriving DecidableEq

def text : Json → Checked String
  | .text s => .valid s
  | _ => .fail .text

def number : Json → Checked Binary64
  | .int n =>
    let x := Binary64.ofRatio n 1
    if x.isFinite then .valid x else .fail .number
  | .float x => .valid x
  | .bool b => .valid (Binary64.ofRatio (if b then 1 else 0) 1)
  | .text s =>
    match numberOfText? s with
    | some x => .valid x
    | none => .fail .readableNumber
  | _ => .fail .number

/-- Two to the 63rd: one more than the greatest signed 64-bit integer. -/
def machineLimit : Int := 0x8000000000000000

/-- A number in the range of a 64-bit integer, both ends excluded. -/
def isMachineSized (n : Int) : Bool := decide (-machineLimit < n) && decide (n < machineLimit)

/-- A number without fraction, as an integer. -/
def integerOfNumber (x : Binary64) : Checked Int :=
  if !x.isFinite then .fail .finiteNumber
  else if !x.isIntegral then .fail .wholeInteger
  else
    match x.truncate with
    | .ok n => if isMachineSized n then .valid n else .fail .integerInRange
    | .error _ => .fail .finiteNumber

def integer : Json → Checked Int
  | .int n => .valid n
  | .float x => integerOfNumber x
  | .bool b => .valid (if b then 1 else 0)
  | .text s =>
    match wholeOfText s with
    | .value n => .valid n
    | .tooLong _ => .fail .integerInRange
    | .malformed => .fail .readableInteger
  | _ => .fail .integer

def falseWords : List String := ["0", "off", "f", "false", "n", "no"]
def trueWords : List String := ["1", "on", "t", "true", "y", "yes"]

def booleanOfInteger (n : Int) : Checked Bool :=
  if n = 0 then .valid false else if n = 1 then .valid true else .fail .readableBoolean

def boolean : Json → Checked Bool
  | .bool b => .valid b
  | .int n =>
    if -machineLimit ≤ n && n < machineLimit then booleanOfInteger n else .fail .boolean
  | .float x =>
    match integerOfNumber x with
    | .valid n => booleanOfInteger n
    | .invalid _ => .fail .boolean
  | .text s =>
    let word := String.ofList (s.toList.map Char.toLower)
    if falseWords.contains word then .valid false
    else if trueWords.contains word then .valid true
    else .fail .readableBoolean
  | _ => .fail .boolean

def list {α : Type} (check : Json → Checked α) : Json → Checked (List α)
  | .arr items => Checked.items check 0 items
  | _ => .fail .list

def optional {α : Type} (check : Json → Checked α) : Json → Checked (Option α)
  | .null => .valid none
  | v => (check v).map some

/-- One of the listed words. -/
def word {α : Type} (listed : String) (choices : List (String × α)) : Json → Checked α
  | .text s =>
    match choices.find? (·.1 = s) with
    | some (_, a) => .valid a
    | none => .fail (.choice listed)
  | _ => .fail (.choice listed)

/-- A number that is not negative. Not-a-number is refused too. -/
def nonnegative (check : Json → Checked Binary64) (v : Json) : Checked Binary64 :=
  (check v).andThen fun x =>
    if Binary64.zero false ≤ x then .valid x else .fail .atLeastZero

def natural (v : Json) : Checked Nat :=
  (integer v).andThen fun n => if 0 ≤ n then .valid n.toNat else .fail .atLeastZero

/-- The two spellings of a key: the document's own and the plain one. -/
structure Key where
  name : String
  documentName : String

/-- A key with one spelling. -/
def Key.plain (name : String) : Key := ⟨name, name⟩

abbrev Fields := Json.Fields

/-- The value of a key and the spelling it stands under; the document's own spelling wins. -/
def Key.find (key : Key) (fields : Fields) : Option (String × Json) :=
  match Json.lookup fields key.documentName with
  | some v => some (key.documentName, v)
  | none => (Json.lookup fields key.name).map (key.name, ·)

/-- A field that may be left out. -/
def Key.withDefault {α : Type} (key : Key) (default : α) (check : Json → Checked α)
    (fields : Fields) : Checked α :=
  match key.find fields with
  | some (spelling, v) => (check v).under (.key spelling)
  | none => .valid default

/-- A field that has to be there. -/
def Key.required {α : Type} (key : Key) (check : Json → Checked α) (fields : Fields) :
    Checked α :=
  match key.find fields with
  | some (spelling, v) => (check v).under (.key spelling)
  | none => .invalid [⟨[.key key.documentName], .presence⟩]

/-- An object whose fields make up a model. -/
def object {α : Type} (origin : Origin) (name : String) (check : Fields → Checked α) :
    Json → Checked α
  | .obj fields => check fields
  | _ =>
    match origin with
    | .value => .fail (.model name)
    | .body => .fail .attributes

end Montage.Document
