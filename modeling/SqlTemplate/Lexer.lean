import SqlTemplate.Source

/-!
# Reading tokens

A template is cut into lexemes from left to right. Two dashes begin a comment that ends with
the line; where nothing but white space stands before them on the line, they may begin a
directive instead. All other text is plain SQL, except for strings, parameters and white space.
Reading loses nothing (`Lexeme.read_append`) and always moves on (`Lexeme.read_shorter`).
-/

namespace SqlTemplate
open SqlTemplate.Text SqlTemplate.Source SqlTemplate.Identifier

inductive TokenKind where
  | name
  | docs
  | fragment
  | parameter
deriving Repr, DecidableEq

def TokenKind.title : TokenKind → String
  | name => "name"
  | docs => "docs"
  | fragment => "fragment"
  | parameter => "named parameter"

structure Token where
  kind : TokenKind
  /-- The identifier of a name or a parameter, trimmed docs, or SQL text in which a run of
  white space is one space. -/
  value : String
  raw : String
  position : Position
deriving Repr, DecidableEq

def Token.isBlank (token : Token) : Bool :=
  token.kind == .fragment && Text.allBlank token.value

inductive LexFault where
  | unterminatedString
  | invalidQueryName (name : String)
  | unexpectedCharacter (c : Char)
deriving Repr, DecidableEq

def LexFault.message : LexFault → String
  | unterminatedString => "unterminated string"
  | invalidQueryName name => s!"invalid query name '{name}'"
  | unexpectedCharacter c => s!"unexpected character '{c}'"

structure LexError where
  position : Position
  fault : LexFault
deriving Repr, DecidableEq

def LexError.message (e : LexError) : String :=
  s!"Lex error at line {e.position.line}: {e.fault.message}"

inductive Lexeme where
  | token (kind : TokenKind) (value raw : List Char)
  | comment (raw : List Char)
deriving Repr, DecidableEq

def Lexeme.raw : Lexeme → List Char
  | token _ _ raw => raw
  | comment raw => raw

/-! ### Strings, directives and plain text -/

/-- The text after an opening quote up to the quote that closes the string, and the rest.
Two quotes, or a backslash and any character, stay inside. -/
def stringBody : List Char → Option (List Char × List Char)
  | '\'' :: '\'' :: cs => (stringBody cs).map (Prod.map ('\'' :: '\'' :: ·) id)
  | '\'' :: cs => some (['\''], cs)
  | '\\' :: c :: cs => (stringBody cs).map (Prod.map ('\\' :: c :: ·) id)
  | '\\' :: [] => none
  | c :: cs => (stringBody cs).map (Prod.map (c :: ·) id)
  | [] => none

/-- What a line says after a keyword, if only spaces and tabs stand before the keyword. -/
def directive? (keyword : String) (line : List Char) : Option (List Char) :=
  behind? keyword.toList (line.dropWhile fun c => c == ' ' || c == '\t')

/-- The longest plain SQL text at the front, and the rest. A colon before an identifier and
two dashes end it, but two colons never open a parameter. -/
def plainText : List Char → List Char × List Char
  | ':' :: ':' :: cs => (plainText cs).map (':' :: ':' :: ·) id
  | ':' :: cs =>
    if cs.head?.any isHead then ([], ':' :: cs) else (plainText cs).map (':' :: ·) id
  | '-' :: cs => if cs.head? == some '-' then ([], '-' :: cs) else (plainText cs).map ('-' :: ·) id
  | c :: cs =>
    if isBlank c || c == '\'' then ([], c :: cs) else (plainText cs).map (c :: ·) id
  | [] => ([], [])

/-- What two dashes begin, given the rest of their line: a directive where one may stand,
and otherwise a comment. -/
def dashed (leading : Bool) (line : List Char) : Except LexFault Lexeme :=
  let raw := '-' :: '-' :: line
  match if leading then directive? "name:" line else none with
  | some rest =>
    let name := trim rest
    if isIdentifier name then .ok (.token .name name raw)
    else .error (.invalidQueryName (String.ofList name))
  | none =>
    match if leading then directive? "docs:" line else none with
    | some rest => .ok (.token .docs (trim rest) raw)
    | none => .ok (.comment raw)

/-! ### Lexemes -/

def Lexeme.read (leading : Bool) (c : Char) (cs : List Char) :
    Except LexFault (Lexeme × List Char) :=
  if isBlank c then
    .ok (.token .fragment [' '] (c :: cs.takeWhile isBlank), cs.dropWhile isBlank)
  else if c == '-' && cs.head? == some '-' then
    let line := cs.tail.takeWhile (!isLineBreak ·)
    (dashed leading line).map fun lexeme => (lexeme, cs.tail.dropWhile (!isLineBreak ·))
  else if c == '\'' then
    match stringBody cs with
    | some (body, rest) => .ok (.token .fragment (c :: body) (c :: body), rest)
    | none => .error .unterminatedString
  else if c == ':' && cs.head?.any isHead then
    let name := cs.takeWhile isTail
    .ok (.token .parameter name (c :: name), cs.dropWhile isTail)
  else
    match plainText (c :: cs) with
    | ([], _) => .error (.unexpectedCharacter c)
    | (text, rest) => .ok (.token .fragment text text, rest)

theorem stringBody_append {cs body rest : List Char} (h : stringBody cs = some (body, rest)) :
    body ++ rest = cs := by
  fun_induction stringBody cs generalizing body rest with
  | case1 cs ih | case3 c cs ih =>
    obtain ⟨⟨b, r⟩, found, same⟩ := Option.map_eq_some_iff.mp h
    simp only [Prod.map, id, Prod.mk.injEq] at same
    simp [← same.1, ← same.2, ih found]
  | case5 c cs _ _ _ _ ih =>
    obtain ⟨⟨b, r⟩, found, same⟩ := Option.map_eq_some_iff.mp h
    simp only [Prod.map, id, Prod.mk.injEq] at same
    simp [← same.1, ← same.2, ih found]
  | case2 cs => simp only [Option.some.injEq, Prod.mk.injEq] at h; simp [← h.1, ← h.2]
  | case4 | case6 => simp at h

theorem plainText_append (cs : List Char) : (plainText cs).1 ++ (plainText cs).2 = cs := by
  fun_induction plainText cs <;> simp_all

theorem dashed_raw {leading : Bool} {line : List Char} {lexeme : Lexeme}
    (h : dashed leading line = .ok lexeme) : lexeme.raw = '-' :: '-' :: line := by
  unfold dashed at h
  split at h
  · dsimp only at h
    split at h <;> simp at h
    simp [← h, Lexeme.raw]
  · dsimp only at h
    split at h <;> simp at h <;> simp [← h, Lexeme.raw]

/-- A lexeme and the rest of the text make up the text. -/
theorem Lexeme.read_append {leading : Bool} {c : Char} {cs rest : List Char} {lexeme : Lexeme}
    (h : Lexeme.read leading c cs = .ok (lexeme, rest)) : lexeme.raw ++ rest = c :: cs := by
  unfold Lexeme.read at h
  split at h
  · simp at h; simp [← h.1, ← h.2, Lexeme.raw]
  split at h
  · next dashes =>
    simp only [Bool.and_eq_true, beq_iff_eq] at dashes
    obtain ⟨tail, rfl⟩ : ∃ tail, cs = '-' :: tail := by
      cases cs <;> simp_all
    cases found : dashed leading (tail.takeWhile (!isLineBreak ·)) with
    | error e => simp [found, Except.map] at h
    | ok x =>
      simp [found, Except.map] at h
      simp [← h.1, ← h.2, dashed_raw found, dashes.1]
  split at h
  · split at h
    · next found => simp at h; simp [← h.1, ← h.2, Lexeme.raw, stringBody_append found]
    · simp at h
  split at h
  · simp at h; simp [← h.1, ← h.2, Lexeme.raw]
  have whole := plainText_append (c :: cs)
  split at h
  · simp at h
  · next found => simp at h; rw [found] at whole; simpa [← h.1, ← h.2, Lexeme.raw] using whole

theorem Lexeme.read_raw_ne_nil {leading : Bool} {c : Char} {cs rest : List Char}
    {lexeme : Lexeme} (h : Lexeme.read leading c cs = .ok (lexeme, rest)) : lexeme.raw ≠ [] := by
  unfold Lexeme.read at h
  split at h
  · simp at h; simp [← h.1, Lexeme.raw]
  split at h
  · cases found : dashed leading (cs.tail.takeWhile (!isLineBreak ·)) with
    | error e => simp [found, Except.map] at h
    | ok x =>
      simp [found, Except.map] at h
      simp [← h.1, dashed_raw found]
  split at h
  · split at h <;> simp at h; simp [← h.1, Lexeme.raw]
  split at h
  · simp at h; simp [← h.1, Lexeme.raw]
  split at h
  · simp at h
  · next nonempty _ => simp at h; simpa [← h.1, Lexeme.raw] using nonempty

theorem Lexeme.read_shorter {leading : Bool} {c : Char} {cs rest : List Char} {lexeme : Lexeme}
    (h : Lexeme.read leading c cs = .ok (lexeme, rest)) : rest.length < (c :: cs).length := by
  have whole := congrArg List.length (Lexeme.read_append h)
  have some := List.length_pos_iff.mpr (Lexeme.read_raw_ne_nil h)
  simp only [List.length_append] at whole
  omega

structure Placed where
  position : Position
  lexeme : Lexeme
deriving Repr, DecidableEq

def lexemes (cursor : Cursor) : List Char → Except LexError (List Placed)
  | [] => .ok []
  | c :: cs =>
    match h : Lexeme.read cursor.leading c cs with
    | .error fault => .error ⟨cursor.position, fault⟩
    | .ok (lexeme, rest) =>
      have := Nat.le_of_lt_succ (Lexeme.read_shorter h)
      (lexemes (cursor.advance lexeme.raw rest) rest).map (⟨cursor.position, lexeme⟩ :: ·)
termination_by cs => cs.length

def Placed.token? : Placed → Option Token
  | ⟨position, .token kind value raw⟩ =>
    some { kind, value := String.ofList value, raw := String.ofList raw, position }
  | ⟨_, .comment _⟩ => none

def tokenize (text : String) : Except LexError (List Token) :=
  (lexemes {} text.toList).map (List.filterMap Placed.token?)

end SqlTemplate
