import SqlTemplate.Text

/-!
# Positions in a source text

A line ends with a line feed, with a carriage return and a line feed, or with a carriage
return alone. An error is shown with its position, the line of the source that it lies in, and
a caret under its column; the lines that are shown end with a line feed.
-/

namespace SqlTemplate.Source
open SqlTemplate.Text

/-- Lines and columns count from one, in thirty-two bits that wrap around. -/
structure Position where
  line : UInt32
  column : UInt32
deriving Repr, DecidableEq, Inhabited

def Position.first : Position := ⟨1, 1⟩

def Position.text (p : Position) : String := s!"{p.line}:{p.column}"

/-- A character ends a line unless it is a carriage return in front of a line feed. -/
def endsLine (c : Char) (next : Option Char) : Bool :=
  c == '\n' || (c == '\r' && next != some '\n')

def isLineBreak (c : Char) : Bool := c == '\n' || c == '\r'

structure Cursor where
  position : Position := Position.first
  /-- Only white space lies between the start of the line and the cursor. -/
  leading : Bool := true
deriving Repr, DecidableEq

namespace Cursor

def step (cursor : Cursor) (c : Char) (next : Option Char) : Cursor :=
  if endsLine c next then
    { position := ⟨cursor.position.line + 1, 1⟩, leading := true }
  else
    { position := ⟨cursor.position.line, cursor.position.column + 1⟩
      leading := cursor.leading && isBlank c }

/-- Past the characters of a text that `after` follows. -/
def advance (cursor : Cursor) : List Char → (after : List Char) → Cursor
  | [], _ => cursor
  | c :: cs, after => (cursor.step c (cs.head?.or after.head?)).advance cs after

theorem advance_append (cursor : Cursor) (u v after : List Char) :
    cursor.advance (u ++ v) after = (cursor.advance u (v ++ after)).advance v after := by
  induction u generalizing cursor with
  | nil => rfl
  | cons c cs ih =>
    have next : (cs ++ v).head?.or after.head? = cs.head?.or (v ++ after).head? := by
      cases cs <;> cases v <;> simp
    simp only [List.cons_append, advance, next, ih]

end Cursor
end SqlTemplate.Source

namespace SqlTemplate.Terminal

inductive Colour where
  | red | green | yellow | blue | cyan | white
deriving Repr, DecidableEq

def Colour.code : Colour → String
  | red => "31"
  | green => "32"
  | yellow => "33"
  | blue => "34"
  | cyan => "36"
  | white => "37"

structure Style where
  bold : Bool := false
  dimmed : Bool := false
  colour : Option Colour := none
deriving Repr, DecidableEq

namespace Style

def bolded : Style := { bold := true }

def faint : Style := { dimmed := true }

def of (colour : Colour) : Style := { colour := some colour }

def boldOf (colour : Colour) : Style := { bold := true, colour := some colour }

def opening (style : Style) : String :=
  let codes := (if style.bold then ["1"] else []) ++ (if style.dimmed then ["2"] else []) ++
    (style.colour.map Colour.code).toList
  "\x1b[" ++ ";".intercalate codes ++ "m"

end Style

def reset : String := "\x1b[0m"

/-- A text in a style, if colours are on. Where the text resets the style itself, the style
begins again. -/
def paint (colours : Bool) (style : Style) (text : String) : String :=
  if colours then
    style.opening ++ text.replace reset (reset ++ style.opening) ++ reset
  else text

end SqlTemplate.Terminal

namespace SqlTemplate.Source
open SqlTemplate.Terminal

/-- A line without the carriage return that stands before its line feed. -/
def dropReturn (line : List Char) : List Char :=
  if line.getLast? == some '\r' then line.dropLast else line

/-- The lines of a text; what follows the last line feed is a line unless it is empty. -/
def lines : List Char → List (List Char)
  | [] => []
  | c :: cs =>
    match h : (c :: cs).dropWhile (· != '\n') with
    | [] => [c :: cs]
    | _ :: rest =>
      have : rest.length ≤ cs.length := by
        have := (List.dropWhile_suffix (l := c :: cs) (· != '\n')).length_le
        rw [h] at this
        exact Nat.le_of_succ_le_succ this
      dropReturn ((c :: cs).takeWhile (· != '\n')) :: lines rest
termination_by cs => cs.length

def caretPad (line : List Char) (column : Nat) : List Char :=
  (line.take (column - 1)).map fun c => if c == '\t' then '\t' else ' '

/-- A message and the place in a source text that it is about. Nothing of the source is
shown if it has no such line. -/
def snippet (message source : String) (position : Position) (colours : Bool) : String :=
  let number := max position.line.toNat 1
  let label := toString number
  let gutter := String.ofList (List.replicate label.length ' ')
  let blue := paint colours (.of .blue)
  let loud := paint colours (.boldOf .red)
  let header := loud "error:" ++ " " ++ paint colours .bolded message ++ "\n" ++
    gutter ++ blue "-->" ++ " " ++ position.text ++ "\n"
  match (lines source.toList)[number - 1]? with
  | none => header
  | some line =>
    let bar := blue "|"
    header ++ gutter ++ " " ++ bar ++ "\n" ++
      blue label ++ " " ++ bar ++ " " ++ String.ofList line ++ "\n" ++
      gutter ++ " " ++ bar ++ " " ++ String.ofList (caretPad line position.column.toNat) ++
      loud "^" ++ "\n"

end SqlTemplate.Source
