import SqlTemplate.Json.Reader

/-!
# Scalars

JSON values become scalars: an integer that fits sixty-four bits with a sign stays one, other
numbers are doubles, and arrays and objects are bound as JSON.
-/

namespace SqlTemplate
open SqlTemplate.Decimal

inductive Scalar where
  | null
  | bool (value : Bool)
  | int (value : Int64)
  | float (value : Float)
  | text (value : String)
  | json (value : Json)
deriving Inhabited

namespace Scalar

def int64? (n : Int) : Option Int64 :=
  if Int64.minValue.toInt ≤ n && n ≤ Int64.maxValue.toInt then some (Int64.ofInt n) else none

def ofJson : Json → Scalar
  | .null => null
  | .bool value => bool value
  | .integer n =>
    match int64? n with
    | some value => int value
    | none => float (Float.ofInt n)
  | .number x => float x
  | .string s => text s
  | other => json other

def toJson : Scalar → Json
  | null => .null
  | bool value => .bool value
  | int value => .integer value.toInt
  | float value => .number value
  | text value => .string value
  | json value => value

/-- The kinds of scalars, in the order in which a reader tries them on a JSON value. -/
def kinds : List (Json → Option Scalar) :=
  [ fun | .null => some null | _ => none
  , fun | .bool value => some (bool value) | _ => none
  , fun | .integer n => (int64? n).map int | _ => none
  , fun | .integer n => some (float (Float.ofInt n)) | .number x => some (float x) | _ => none
  , fun | .string s => some (text s) | _ => none
  , fun value => some (json value) ]

def read? (value : Json) : Option Scalar := kinds.findSome? (· value)

/-- The scalar of a JSON text. Its kind is that of the value as it is written. -/
def parse? (text : String) : Option Scalar := do
  match ← read? (← Json.written? text) with
  | json value => return json (← Json.settle? text value)
  | other => return other

def layout : Layout where
  inFull _ := true
  wholeSuffix := ""
  tie := .up
  nan := "NaN"
  infinity := "inf"
  negativeInfinity := "-inf"

def quote (s : String) : String :=
  let doubled := s.toList.flatMap fun c => if c == '\'' then ['\'', '\''] else [c]
  "'" ++ String.ofList doubled ++ "'"

def display : Scalar → String
  | null => "NULL"
  | bool value => toString value
  | int value => toString value.toInt
  | float value => layout.text value
  | text value => quote value
  | json value => "'" ++ value.compact ++ "'"

end Scalar
end SqlTemplate
