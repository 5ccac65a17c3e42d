import SqlTemplate.Text

/-!
# SQL text

A quote opens a string and a quote closes it; in between, a backslash takes the next character
with it. Two quotes in a row close a string and open the next, so they never leave the text of
one string. Outside strings, white space is brought into normal form and placeholders are
rewritten.
-/

namespace SqlTemplate.Sql
open SqlTemplate.Text

inductive Place where
  | outside
  | quoted
  /-- Inside a string, right after a backslash. -/
  | escaped
deriving Repr, DecidableEq

def Place.next : Place → Char → Place
  | outside, c => if c == '\'' then quoted else outside
  | quoted, c => if c == '\'' then outside else if c == '\\' then escaped else quoted
  | escaped, _ => quoted

def Place.after (place : Place) (cs : List Char) : Place := cs.foldl next place

theorem Place.after_append (place : Place) (cs ds : List Char) :
    place.after (cs ++ ds) = (place.after cs).after ds := List.foldl_append

/-- One space for each run of white space outside strings, except at the ends. The flags
say whether anything was kept before, and whether white space was skipped since. -/
def squeeze (place : Place) (kept gap : Bool) : List Char → List Char
  | [] => []
  | c :: cs =>
    if place == .outside && isBlank c then squeeze place kept true cs
    else if kept && gap then ' ' :: c :: squeeze (place.next c) true false cs
    else c :: squeeze (place.next c) true false cs

def dropSemicolon (cs : List Char) : List Char :=
  if cs.getLast? == some ';' then trimEnd cs.dropLast else cs

def normalize (cs : List Char) : List Char := dropSemicolon (squeeze .outside false false cs)

def normalizeText (sql : String) : String := String.ofList (normalize sql.toList)

def placeholder (index : UInt32) : String := "$" ++ toString index.toNat

inductive PlaceholderStyle where
  | dollar
  | question
deriving Repr, DecidableEq

/-- A question mark for every placeholder outside strings. The flag says that the digits
of a replaced placeholder are being skipped. -/
def questionMarks (place : Place) (number : Bool) : List Char → List Char
  | [] => []
  | c :: cs =>
    if number && c.isDigit then questionMarks place true cs
    else if place == .outside && c == '$' && cs.head?.any Char.isDigit then
      '?' :: questionMarks place true cs
    else c :: questionMarks (place.next c) false cs

namespace PlaceholderStyle

def ofUrl (url : String) : PlaceholderStyle :=
  if url.startsWith "postgres:" || url.startsWith "postgresql:" then dollar else question

def rewrite (style : PlaceholderStyle) (statement : String) : String :=
  match style with
  | dollar => statement
  | question => String.ofList (questionMarks .outside false statement.toList)

end PlaceholderStyle
end SqlTemplate.Sql
