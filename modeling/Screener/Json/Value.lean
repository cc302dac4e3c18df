/-! Documents as trees. An object keeps its fields in the order they are written in; `normal` is the
form in which the keys of every object ascend and the last of several equal keys stands. -/
namespace Screener.Json

/-- A number of a document. Whole numbers that fit a machine word are kept apart from doubles. -/
inductive Number where
  | integer (n : Int)
  | double (x : Float)
  deriving Repr, BEq

inductive Value where
  | null
  | boolean (b : Bool)
  | number (n : Number)
  | text (s : String)
  | array (items : List Value)
  | object (fields : List (String × Value))
  deriving Repr, Inhabited

abbrev Fields := List (String × Value)

def Value.kind : Value → String
  | .null => "null"
  | .boolean _ => "boolean"
  | .number _ => "number"
  | .text _ => "string"
  | .array _ => "array"
  | .object _ => "object"

/-- A double as a document holds it: there is no number for infinity, nor for no number. -/
def Value.ofFloat (x : Float) : Value := if x.isFinite then .number (.double x) else .null

def Value.ofNat (n : Nat) : Value := .number (.integer n)

def Value.ofOption {α : Type} (f : α → Value) : Option α → Value
  | none => .null
  | some x => f x

def Number.toFloat : Number → Float
  | .integer n => Float.ofInt n
  | .double x => x

/-- Puts a field in its place among fields with ascending keys. A field with the same key, which stands
further on in the document, is kept instead. -/
def Fields.place (field : String × Value) : Fields → Fields
  | [] => [field]
  | next :: rest =>
    if field.1 < next.1 then field :: next :: rest
    else if field.1 = next.1 then next :: rest
    else next :: Fields.place field rest

mutual

def Value.normal : Value → Value
  | .array items => .array (normalItems items)
  | .object fields => .object (normalFields fields)
  | other => other

def normalItems : List Value → List Value
  | [] => []
  | item :: rest => item.normal :: normalItems rest

def normalFields : List (String × Value) → List (String × Value)
  | [] => []
  | (key, value) :: rest => Fields.place (key, value.normal) (normalFields rest)

end

end Screener.Json
