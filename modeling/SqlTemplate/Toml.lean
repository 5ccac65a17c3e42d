import SqlTemplate.Json.Reader

/-!
# Settings of a TOML text

Settings are names with strings, integers or tables, one on each line. What may be added to a
table later depends on how it came to be: one between braces is complete, and dotted names lead
only through tables that no header has named. Every step of reading makes the text shorter, and
the length of the text bounds the number of steps.
-/

namespace SqlTemplate.Toml

inductive Origin where
  | braces
  /-- It lay on the way of a dotted name. -/
  | dotted
  | header
  /-- It lay on the way of a header. -/
  | implied
deriving Repr, DecidableEq

/-- A value by its kind. Settings have no use for arrays other than empty ones. -/
inductive Value where
  | string (value : String)
  | integer (value : Int)
  | emptyArray
  | table (origin : Origin) (entries : List (String × Value))

abbrev Entries := List (String × Value)

def Value.isEmpty : Value → Bool
  | emptyArray => true
  | table _ entries => entries.isEmpty
  | _ => false

structure Path where
  front : List String
  last : String
deriving Repr, DecidableEq

def Path.names (path : Path) : List String := path.front ++ [path.last]

namespace Entries

def set (name : String) (value : Value) : Entries → Entries
  | [] => [(name, value)]
  | (first, old) :: entries =>
    if first == name then (name, value) :: entries else (first, old) :: set name value entries

/-- Changes the table that some names lead to. Tables that `enters` does not allow are not
entered, and missing ones come to be by way of `origin`. -/
def within? (origin : Origin) (enters : Origin → Bool) (change : Entries → Option Entries) :
    List String → Entries → Option Entries
  | [], entries => change entries
  | name :: names, entries =>
    match entries.lookup name with
    | none => (within? origin enters change names []).map fun inner =>
      set name (.table origin inner) entries
    | some (.table old inner) =>
      if enters old then
        (within? origin enters change names inner).map fun inner =>
          set name (.table old inner) entries
      else none
    | some _ => none

def add? (name : String) (value : Value) (entries : Entries) : Option Entries :=
  if (entries.lookup name).isSome then none else some (entries ++ [(name, value)])

def define? (path : Path) (value : Value) : Entries → Option Entries :=
  within? .dotted (fun origin => origin == .dotted || origin == .implied)
    (add? path.last value) path.front

def openTable? (path : Path) : Entries → Option Entries :=
  within? .implied (· != .braces) (enter path.last) path.front
where
  enter (name : String) (entries : Entries) : Option Entries :=
    match entries.lookup name with
    | none => some (set name (.table .header []) entries)
    | some (.table .implied inner) => some (set name (.table .header inner) entries)
    | some _ => none

def defineIn? (table : List String) (path : Path) (value : Value) : Entries → Option Entries :=
  within? .implied (fun _ => true) (define? path value) table

end Entries

def isGap (c : Char) : Bool := c == ' ' || c == '\t'

def isPlain (c : Char) : Bool := c == '\t' || (0x20 ≤ c.toNat && c.toNat != 0x7F)

def newline? : List Char → Option (List Char)
  | '\n' :: cs => some cs
  | '\r' :: '\n' :: cs => some cs
  | _ => none

theorem newline?_shorter {cs rest : List Char} (h : newline? cs = some rest) :
    rest.length < cs.length := by
  unfold newline? at h
  split at h <;> simp at h <;> subst h <;> exact Nat.lt_of_lt_of_le (Nat.lt_succ_self _) (by simp)

def code? (count : Nat) (cs : List Char) : Option (Char × List Char) := do
  let digits := cs.take count
  guard (digits.length == count)
  let code ← digits.foldlM (fun n c => (Json.hexDigit? c).map (16 * n + ·)) 0
  return (← Json.character? code, cs.drop count)

def escaped? : List Char → Option (Char × List Char)
  | 'b' :: cs => some ('\x08', cs)
  | 't' :: cs => some ('\t', cs)
  | 'n' :: cs => some ('\n', cs)
  | 'f' :: cs => some ('\x0c', cs)
  | 'r' :: cs => some ('\r', cs)
  | '"' :: cs => some ('"', cs)
  | '\\' :: cs => some ('\\', cs)
  | 'u' :: cs => code? 4 cs
  | 'U' :: cs => code? 8 cs
  | _ => none

theorem code?_length_le {count : Nat} {cs rest : List Char} {c : Char}
    (h : code? count cs = some (c, rest)) : rest.length ≤ cs.length := by
  obtain ⟨-, -, h⟩ := Option.bind_eq_some_iff.mp h
  obtain ⟨_, -, h⟩ := Option.bind_eq_some_iff.mp h
  obtain ⟨_, -, same⟩ := Option.bind_eq_some_iff.mp h
  cases same
  simp

theorem escaped?_length_le {cs rest : List Char} {c : Char} (h : escaped? cs = some (c, rest)) :
    rest.length ≤ cs.length := by
  unfold escaped? at h
  split at h
  case h_8 | h_9 => have := code?_length_le h; simp; omega
  case h_10 => simp at h
  all_goals simp at h; simp [← h.2]

/-- The rest of a text behind a backslash and the end of its line, without the white space
and the line breaks that follow. -/
def continuation? (cs : List Char) : Option (List Char) :=
  (newline? (cs.dropWhile isGap)).map skip
where
  skip (cs : List Char) : List Char :=
    match cs with
    | ' ' :: cs => skip cs
    | '\t' :: cs => skip cs
    | '\n' :: cs => skip cs
    | '\r' :: '\n' :: cs => skip cs
    | cs => cs

theorem continuation?_length_le {cs rest : List Char} (h : continuation? cs = some rest) :
    rest.length ≤ cs.length := by
  have skipped : ∀ text, (continuation?.skip text).length ≤ text.length := by
    intro text
    fun_induction continuation?.skip text <;> simp <;> omega
  obtain ⟨line, found, same⟩ := Option.map_eq_some_iff.mp h
  have := newline?_shorter found
  have := (List.dropWhile_suffix (l := cs) isGap).length_le
  have := skipped line
  rw [same] at this
  omega

def basic? : List Char → Option (List Char × List Char)
  | [] => none
  | '"' :: cs => some ([], cs)
  | '\\' :: cs =>
    match h : escaped? cs with
    | some (c, rest) =>
      have := escaped?_length_le h
      (basic? rest).map (Prod.map (c :: ·) id)
    | none => none
  | c :: cs => if isPlain c then (basic? cs).map (Prod.map (c :: ·) id) else none
termination_by cs => cs.length

def literal? : List Char → Option (List Char × List Char)
  | [] => none
  | c :: cs =>
    if c == '\'' then some ([], cs)
    else if isPlain c then (literal? cs).map (Prod.map (c :: ·) id)
    else none

/-- Quotes that belong to a string although triple quotes stand there: up to two of a longer
run do. The rest of the text comes with them. -/
def closing (quote : Char) (cs : List Char) : List Char × List Char :=
  let run := (cs.takeWhile (· == quote)).length
  let inside := min (run - 3) 2
  (List.replicate inside quote, cs.drop (inside + 3))

def multiline? (quote : Char) : List Char → Option (List Char × List Char)
  | [] => none
  | c :: cs =>
    if c == quote && cs.take 2 == [quote, quote] then some (closing quote (c :: cs))
    else if c == '\\' && quote == '"' then
      match h : continuation? cs with
      | some rest =>
        have := continuation?_length_le h
        multiline? quote rest
      | none =>
        match h' : escaped? cs with
        | some (c, rest) =>
          have := escaped?_length_le h'
          (multiline? quote rest).map (Prod.map (c :: ·) id)
        | none => none
    else if isPlain c then (multiline? quote cs).map (Prod.map (c :: ·) id)
    else
      match h : newline? (c :: cs) with
      | some rest =>
        have := Nat.le_of_lt_succ (newline?_shorter h)
        (multiline? quote rest).map (Prod.map ('\n' :: ·) id)
      | none => none
termination_by cs => cs.length

def string? : List Char → Option (String × List Char)
  | '"' :: '"' :: '"' :: cs => lines '"' cs
  | '\'' :: '\'' :: '\'' :: cs => lines '\'' cs
  | '"' :: cs => (basic? cs).map (Prod.map String.ofList id)
  | '\'' :: cs => (literal? cs).map (Prod.map String.ofList id)
  | _ => none
where
  lines (quote : Char) (cs : List Char) : Option (String × List Char) :=
    (multiline? quote ((newline? cs).getD cs)).map (Prod.map String.ofList id)

def skipGap (cs : List Char) : List Char := cs.dropWhile isGap

/-! ### Integers -/

/-- Digits of a base with single underscores between them, as a number, and the rest. -/
def number? (base : Nat) (cs : List Char) : Option (Nat × List Char) :=
  match digit? cs with
  | none => none
  | some (d, rest) => some (more base d rest)
where
  digit? : List Char → Option (Nat × List Char)
    | [] => none
    | c :: cs => (Json.hexDigit? c).bind fun d => if d < base then some (d, cs) else none
  more (base n : Nat) : List Char → Nat × List Char
    | [] => (n, [])
    | [c] =>
      match Json.hexDigit? c with
      | some d => if d < base then (n * base + d, []) else (n, [c])
      | none => (n, [c])
    | c :: d :: cs =>
      match Json.hexDigit? (if c == '_' then d else c) with
      | some digit =>
        if base ≤ digit then (n, c :: d :: cs)
        else if c == '_' then more base (n * base + digit) cs
        else more base (n * base + digit) (d :: cs)
      | none => (n, c :: d :: cs)

def decimal? (cs : List Char) : Option (Nat × List Char) :=
  match cs with
  | '0' :: rest => some (0, rest)
  | cs => number? 10 cs

def integer? : List Char → Option (Int × List Char)
  | '0' :: 'x' :: cs => (number? 16 cs).map (Prod.map Int.ofNat id)
  | '0' :: 'o' :: cs => (number? 8 cs).map (Prod.map Int.ofNat id)
  | '0' :: 'b' :: cs => (number? 2 cs).map (Prod.map Int.ofNat id)
  | '+' :: cs => (decimal? cs).map (Prod.map Int.ofNat id)
  | '-' :: cs => (decimal? cs).map (Prod.map (fun (n : Nat) => -(n : Int)) id)
  | cs => (decimal? cs).map (Prod.map Int.ofNat id)

/-! ### Names -/

def isKeyChar (c : Char) : Bool := c.isAlphanum || c == '_' || c == '-'

def key? (cs : List Char) : Option (String × List Char) :=
  match cs with
  | '"' :: rest => (basic? rest).map (Prod.map String.ofList id)
  | '\'' :: rest => (literal? rest).map (Prod.map String.ofList id)
  | cs =>
    match cs.takeWhile isKeyChar with
    | [] => none
    | key => some (String.ofList key, cs.dropWhile isKeyChar)

def path? : (bound : Nat) → List Char → Option (Path × List Char)
  | 0, _ => none
  | bound + 1, cs => do
    let (name, rest) ← key? cs
    match skipGap rest with
    | '.' :: rest => do
      let (path, rest) ← path? bound (skipGap rest)
      return ({ path with front := name :: path.front }, rest)
    | _ => return (⟨[], name⟩, rest)

/-! ### Lines -/

def lineEnd? (cs : List Char) : Option (List Char) :=
  let rest :=
    match skipGap cs with
    | '#' :: comment => comment.dropWhile isPlain
    | rest => rest
  if rest.isEmpty then some [] else newline? rest

def skipLines : (bound : Nat) → List Char → List Char
  | 0, cs => cs
  | bound + 1, cs =>
    match lineEnd? cs with
    | some rest => skipLines bound rest
    | none => skipGap cs

/-! ### Values -/

def atom? (cs : List Char) : Option (Value × List Char) :=
  match string? cs with
  | some (s, rest) => some (.string s, rest)
  | none => do
    let (n, rest) ← integer? cs
    guard (Int64.minValue.toInt ≤ n && n ≤ Int64.maxValue.toInt)
    return (.integer n, rest)

mutual

def value? : (bound : Nat) → List Char → Option (Value × List Char)
  | 0, _ => none
  | bound + 1, cs =>
    match cs with
    | '[' :: rest =>
      match skipLines bound rest with
      | ']' :: rest => some (.emptyArray, rest)
      | _ => none
    | '\x7b' :: rest =>
      match skipGap rest with
      | '\x7d' :: rest => some (.table .braces [], rest)
      | rest => (entries? bound [] rest).map (Prod.map (.table .braces) id)
    | cs => atom? cs

def entries? : (bound : Nat) → Entries → List Char → Option (Entries × List Char)
  | 0, _, _ => none
  | bound + 1, entries, cs => do
    let (path, rest) ← path? bound (skipGap cs)
    match skipGap rest with
    | '=' :: rest => do
      let (value, rest) ← value? bound (skipGap rest)
      let entries ← entries.define? path value
      match skipGap rest with
      | ',' :: rest => entries? bound entries rest
      | '\x7d' :: rest => return (entries, rest)
      | _ => none
    | _ => none

end

def setting? (cs : List Char) : Option ((Path × Value) × List Char) := do
  let (path, rest) ← path? cs.length cs
  match skipGap rest with
  | '=' :: rest => do
    let (value, rest) ← value? rest.length (skipGap rest)
    return ((path, value), rest)
  | _ => none

def header? (cs : List Char) : Option (Path × List Char) := do
  let (path, rest) ← path? cs.length (skipGap cs)
  match skipGap rest with
  | ']' :: rest => return (path, rest)
  | _ => none

/-- The settings of a text, added to those that came before it. Names belong to the table
that was opened last. -/
def settingsFrom? : (bound : Nat) → (table : List String) → Entries → List Char →
    Option Entries
  | _, _, entries, [] => some entries
  | 0, _, _, _ => none
  | bound + 1, table, entries, cs =>
    match lineEnd? cs with
    | some rest => settingsFrom? bound table entries rest
    | none =>
      match skipGap cs with
      | '[' :: rest => do
        let (path, rest) ← header? rest
        settingsFrom? bound path.names (← entries.openTable? path) (← lineEnd? rest)
      | cs => do
        let ((path, value), rest) ← setting? cs
        settingsFrom? bound table (← entries.defineIn? table path value) (← lineEnd? rest)

def settings? (text : String) : Option Entries :=
  let cs := text.toList
  let cs := if cs.head? == some '\ufeff' then cs.tail else cs
  settingsFrom? cs.length [] [] cs

end SqlTemplate.Toml
