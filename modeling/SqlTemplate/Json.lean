import SqlTemplate.Decimal

/-!
# JSON values

The fields of an object that was read stand in the order of their names, and of fields with
one name the last counts. Values are written without spaces, or with a line for each item.
-/

namespace SqlTemplate
open SqlTemplate.Decimal

inductive Json where
  | null
  | bool (value : Bool)
  /-- An integer; a reader makes only those from `-2 ^ 63` to `2 ^ 64 - 1`. -/
  | integer (value : Int)
  | number (value : Float)
  | string (value : String)
  | array (items : List Json)
  | object (fields : List (String × Json))
deriving Inhabited

namespace Json

/-- Sets a field among fields that stand in the order of their names. -/
def insertField (name : String) (value : Json) : List (String × Json) → List (String × Json)
  | [] => [(name, value)]
  | (first, old) :: fields =>
    if name < first then (name, value) :: (first, old) :: fields
    else if name == first then (name, value) :: fields
    else (first, old) :: insertField name value fields

def ofFields (fields : List (String × Json)) : Json :=
  object (fields.foldl (fun sorted (name, value) => insertField name value sorted) [])

/-- Below `1e-5` and from `1e16` on, doubles are written with a power of ten. -/
def layout : Layout where
  inFull power := -5 ≤ power && power < 16
  wholeSuffix := ".0"
  tie := .even
  nan := "null"
  infinity := "null"
  negativeInfinity := "null"

def escape (c : Char) : String :=
  match c with
  | '"' => "\\\""
  | '\\' => "\\\\"
  | '\n' => "\\n"
  | '\r' => "\\r"
  | '\t' => "\\t"
  | '\x08' => "\\b"
  | '\x0c' => "\\f"
  | c =>
    if c.toNat < 0x20 then
      let high := Nat.digitChar (c.toNat / 16)
      let low := Nat.digitChar (c.toNat % 16)
      String.ofList ['\\', 'u', '0', '0', high, low]
    else c.toString

def quote (s : String) : String :=
  "\"" ++ s.toList.foldl (fun text c => text ++ escape c) "" ++ "\""

def bracket (left right : String) (texts : List String) : String :=
  left ++ ",".intercalate texts ++ right

def block (left right margin : String) (texts : List String) : String :=
  match texts with
  | [] => left ++ right
  | texts =>
    let inner := margin ++ "  "
    left ++ "\n" ++ ",\n".intercalate (texts.map (inner ++ ·)) ++ "\n" ++ margin ++ right

def atom : Json → String
  | bool value => toString value
  | integer value => toString value
  | number value => layout.text value
  | string value => quote value
  | _ => "null"

mutual

def compact : Json → String
  | array items => bracket "[" "]" (compactItems items)
  | object fields => bracket "\x7b" "\x7d" (compactFields fields)
  | other => atom other

def compactItems : List Json → List String
  | [] => []
  | item :: items => compact item :: compactItems items

def compactFields : List (String × Json) → List String
  | [] => []
  | (name, value) :: fields => (quote name ++ ":" ++ compact value) :: compactFields fields

end

mutual

def prettyFrom (margin : String) : Json → String
  | array items => block "[" "]" margin (prettyItems (margin ++ "  ") items)
  | object fields => block "\x7b" "\x7d" margin (prettyFields (margin ++ "  ") fields)
  | other => atom other

def prettyItems (margin : String) : List Json → List String
  | [] => []
  | item :: items => prettyFrom margin item :: prettyItems margin items

def prettyFields (margin : String) : List (String × Json) → List String
  | [] => []
  | (name, value) :: fields =>
    (quote name ++ ": " ++ prettyFrom margin value) :: prettyFields margin fields

end

def pretty (value : Json) : String := prettyFrom "" value

end Json
end SqlTemplate
