import SqlTemplate.Proofs.Lexemes

/-!
# Where the lexer comes to

The lexer takes one lexeme after the other from the front of a text (`Scan`), and none of them
is empty. At the front of every text there is a lexeme, unless a string is left open there or
a line begins with a directive whose name is no identifier (`exists_fits_or_blocked`). So a
text has tokens unless the lexer comes to such a place (`tokenize_error_iff`).
-/

namespace SqlTemplate
open SqlTemplate.Text SqlTemplate.Identifier SqlTemplate.Sql SqlTemplate.Source

/-! ### Where no lexeme can be read -/

/-- The text behind a quote closes the string: with a quote that no other quote follows. -/
def Closes (cs : List Char) : Prop :=
  ∃ body rest, cs = body ++ rest ∧ StringBody body ∧ rest.head? ≠ some '\''

/-- Why nothing can be read at the front of a text. -/
inductive Blocked (leading : Bool) : List Char → LexFault → Prop where
  | string {cs : List Char} (stays : ¬ Closes cs) : Blocked leading ('\'' :: cs) .unterminatedString
  | name {line said rest : List Char} (isLine : Line line rest) (first : leading)
      (directive : Directive "name:" line said) (other : isIdentifier (trim said) = false) :
      Blocked leading ('-' :: '-' :: (line ++ rest)) (.invalidQueryName (String.ofList (trim said)))

theorem stringBody_eq_none {cs : List Char} (stays : ¬ Closes cs) : stringBody cs = none := by
  cases found : stringBody cs with
  | none => rfl
  | some split =>
    obtain ⟨body, rest⟩ := split
    obtain ⟨isBody, ends⟩ := StringBody.of_stringBody found
    exact absurd ⟨body, rest, (stringBody_append found).symm, isBody, ends⟩ stays

theorem dashed_eq_error_iff {leading : Bool} {line : List Char} {fault : LexFault} :
    dashed leading line = .error fault ↔
      ∃ said, leading ∧ Directive "name:" line said ∧ isIdentifier (trim said) = false ∧
        fault = .invalidQueryName (String.ofList (trim said)) := by
  constructor
  · intro h
    unfold dashed at h
    dsimp only at h
    split at h
    · next said found =>
      obtain ⟨first, found⟩ := Option.ite_none_right_eq_some.mp found
      by_cases identifier : isIdentifier (trim said)
      · rw [if_pos identifier] at h
        cases h
      · rw [if_neg identifier] at h
        cases h
        exact ⟨said, first, Directive.name_iff.mp found, by simpa using identifier, rfl⟩
    · split at h <;> cases h
  · rintro ⟨said, first, directive, other, rfl⟩
    simp [dashed, first, Directive.name_iff.mpr directive, other]

/-- At the front of a text there is a lexeme, or a reason why there is none: where plain text
ends, another kind of lexeme begins. -/
theorem exists_fits_or_blocked (leading : Bool) {text : List Char} (nonempty : text ≠ []) :
    (∃ (lexeme : Lexeme) (rest : List Char), lexeme.raw ++ rest = text ∧ lexeme.Fits leading rest) ∨
      ∃ fault, Blocked leading text fault := by
  by_cases stops : Stops text
  · cases stops with
    | nil => exact absurd rfl nonempty
    | @blank c cs blank =>
      obtain ⟨inside, ends⟩ := span_spec (p := isBlank) (c :: cs)
      have taken : (c :: cs).takeWhile isBlank ≠ [] := by simp [blank]
      exact Or.inl ⟨_, _, List.takeWhile_append_dropWhile, .blank taken inside ends⟩
    | @quote cs =>
      by_cases closes : Closes cs
      · obtain ⟨body, rest, rfl, isBody, ends⟩ := closes
        exact Or.inl ⟨_, rest, rfl, .string isBody ends⟩
      · exact Or.inr ⟨_, .string closes⟩
    | @parameter c cs head =>
      have identifier : isIdentifier ((c :: cs).takeWhile isTail) :=
        isIdentifier_takeWhile (by simpa using head)
      refine Or.inl ⟨_, (c :: cs).dropWhile isTail, ?_, .parameter identifier (span_spec _).2⟩
      exact congrArg (':' :: ·) List.takeWhile_append_dropWhile
    | @dashes cs =>
      obtain ⟨inside, ends⟩ := span_spec (p := (!isLineBreak ·)) cs
      have isLine : Line (cs.takeWhile (!isLineBreak ·)) (cs.dropWhile (!isLineBreak ·)) :=
        ⟨by simpa using inside, by simpa using ends⟩
      have whole : cs.takeWhile (!isLineBreak ·) ++ cs.dropWhile (!isLineBreak ·) = cs :=
        List.takeWhile_append_dropWhile
      cases found : dashed leading (cs.takeWhile (!isLineBreak ·)) with
      | ok lexeme =>
        refine Or.inl ⟨lexeme, cs.dropWhile (!isLineBreak ·), ?_, dashed_fits isLine found⟩
        rw [dashed_raw found, List.cons_append, List.cons_append, whole]
      | error fault =>
        obtain ⟨said, first, directive, other, rfl⟩ := dashed_eq_error_iff.mp found
        rw [← whole]
        exact Or.inr ⟨_, .name isLine first directive other⟩
  · have plain := plainText_spec text
    refine Or.inl ⟨_, _, plainText_append text, .plain ?_ plain⟩
    intro none
    have whole := plainText_append text
    rw [none] at plain whole
    cases plain with
    | stop rest => exact stops (whole ▸ rest)

/-- Where nothing can be read, nothing is read. -/
theorem Blocked.read {leading : Bool} {c : Char} {cs : List Char} {fault : LexFault}
    (blocked : Blocked leading (c :: cs) fault) : Lexeme.read leading c cs = .error fault := by
  generalize whole : c :: cs = text at blocked
  cases blocked with
  | string stays =>
    cases whole
    have notBlank : isBlank '\'' = false := by decide
    simp [Lexeme.read, notBlank, stringBody_eq_none stays]
  | name isLine first directive other =>
    cases whole
    rw [Lexeme.read_dashes leading isLine,
      dashed_eq_error_iff.mpr ⟨_, first, directive, other, rfl⟩]
    rfl

/-- The lexer fails where nothing can be read, and there alone. -/
theorem Lexeme.read_eq_error_iff {leading : Bool} {c : Char} {cs : List Char} {fault : LexFault} :
    Lexeme.read leading c cs = .error fault ↔ Blocked leading (c :: cs) fault := by
  refine ⟨fun h => ?_, Blocked.read⟩
  rcases exists_fits_or_blocked leading (List.cons_ne_nil c cs) with
    ⟨lexeme, rest, whole, fits⟩ | ⟨other, blocked⟩
  · rw [fits.read whole] at h
    cases h
  · rw [blocked.read] at h
    cases h
    exact blocked

/-- No character is unexpected. -/
theorem Lexeme.read_ne_unexpected (leading : Bool) (c : Char) (cs : List Char) (d : Char) :
    Lexeme.read leading c cs ≠ .error (.unexpectedCharacter d) := by
  intro h
  cases Lexeme.read_eq_error_iff.mp h

/-- What a reason says: that a string is not closed, or which name is no identifier. -/
theorem Blocked.message {leading : Bool} {text : List Char} {fault : LexFault}
    (blocked : Blocked leading text fault) :
    fault.message = "unterminated string" ∨ ∃ said, isIdentifier (trim said) = false ∧
      fault.message = "invalid query name '" ++ String.ofList (trim said) ++ "'" := by
  cases blocked with
  | string => exact Or.inl rfl
  | @name _ said _ _ _ _ other => exact Or.inr ⟨said, other, rfl⟩

/-! ### Reading on -/

/-- The lexer reads on: from a cursor in front of a text, past some lexemes, to a cursor in
front of what is left of the text. -/
inductive Scan : Cursor → List Char → List Placed → Cursor → List Char → Prop where
  | stay (cursor : Cursor) (text : List Char) : Scan cursor text [] cursor text
  | read {cursor last : Cursor} {c : Char} {cs rest left : List Char} {lexeme : Lexeme}
      {placed : List Placed} (read : Lexeme.read cursor.leading c cs = .ok (lexeme, rest))
      (more : Scan (cursor.advance lexeme.raw rest) rest placed last left) :
      Scan cursor (c :: cs) (⟨cursor.position, lexeme⟩ :: placed) last left

namespace Scan
variable {cursor last : Cursor} {text left : List Char} {placed : List Placed}

/-- What was read and what is left make up the text. -/
theorem whole (scan : Scan cursor text placed last left) : source placed ++ left = text := by
  induction scan with
  | stay => rfl
  | read read _ ih => rw [source_cons, List.append_assoc, ih, Lexeme.read_append read]

/-- Each lexeme takes a character at least. -/
theorem length_le (scan : Scan cursor text placed last left) :
    placed.length + left.length ≤ text.length := by
  induction scan with
  | stay => simp
  | read read _ ih =>
    have shorter := Lexeme.read_shorter read
    rw [List.length_cons]
    omega

/-- Each lexeme that was read is one by the rules. -/
theorem fits {before after : List Placed} {piece : Placed}
    (scan : Scan cursor text (before ++ piece :: after) last left) :
    piece.lexeme.Fits (cursor.advance (source before) (source (piece :: after) ++ left)).leading
      (source after ++ left) := by
  induction before generalizing cursor text with
  | nil =>
    cases scan with
    | read read more =>
      rw [more.whole]
      exact Lexeme.read_fits read
  | cons first before ih =>
    cases scan with
    | read read more =>
      have moved := ih more
      rw [source_cons, Cursor.advance_append, ← List.append_assoc]
      rw [← more.whole] at moved
      simpa [source] using moved

end Scan

theorem lexemes_eq_ok_iff_scan {cursor : Cursor} {text : List Char} {placed : List Placed} :
    lexemes cursor text = .ok placed ↔ ∃ last, Scan cursor text placed last [] := by
  fun_induction lexemes cursor text generalizing placed with
  | case1 cursor =>
    constructor
    · rintro ⟨⟩
      exact ⟨cursor, .stay cursor []⟩
    · rintro ⟨last, scan⟩
      cases scan
      rfl
  | case2 cursor c cs fault found =>
    simp only [reduceCtorEq, false_iff]
    rintro ⟨last, scan⟩
    cases scan with
    | read read =>
      rw [found] at read
      cases read
  | case3 cursor c cs lexeme rest found _ ih =>
    rw [Except.map_eq_ok_iff]
    constructor
    · rintro ⟨more, read, rfl⟩
      obtain ⟨last, scan⟩ := ih.mp read
      exact ⟨last, .read found scan⟩
    · rintro ⟨last, scan⟩
      cases scan with
      | read read more =>
        rw [found] at read
        cases read
        exact ⟨_, ih.mpr ⟨last, more⟩, rfl⟩

/-- The lexer fails at the first place that it comes to where nothing can be read. -/
theorem lexemes_eq_error_iff {cursor : Cursor} {text : List Char} {error : LexError} :
    lexemes cursor text = .error error ↔ ∃ placed last left, Scan cursor text placed last left ∧
      Blocked last.leading left error.fault ∧ error.position = last.position := by
  fun_induction lexemes cursor text with
  | case1 cursor =>
    simp only [reduceCtorEq, false_iff]
    rintro ⟨placed, last, left, scan, blocked, _⟩
    cases scan
    cases blocked
  | case2 cursor c cs fault found =>
    constructor
    · rintro ⟨⟩
      exact ⟨[], cursor, c :: cs, .stay cursor _, Lexeme.read_eq_error_iff.mp found, rfl⟩
    · rintro ⟨placed, last, left, scan, blocked, position⟩
      cases scan with
      | stay =>
        rw [blocked.read] at found
        cases found
        rw [← position]
      | read read =>
        rw [found] at read
        cases read
  | case3 cursor c cs lexeme rest found _ ih =>
    rw [Except.map_eq_error_iff, ih]
    constructor
    · rintro ⟨placed, last, left, scan, stuck⟩
      exact ⟨_, last, left, .read found scan, stuck⟩
    · rintro ⟨placed, last, left, scan, blocked, position⟩
      cases scan with
      | stay =>
        rw [blocked.read] at found
        cases found
      | read read more =>
        rw [found] at read
        cases read
        exact ⟨_, last, left, more, blocked, position⟩

/-- Each step of the lexer takes a character at least, and none meets an unexpected one. So the
lexer comes to the end of a text, or else to a place where a string stays open or where a line
begins with a directive whose name is no identifier. Then the text has no tokens, and the
reason and the position are those of the first such place. -/
theorem tokenize_error_iff (text : String) :
    (∀ leading c cs lexeme rest, Lexeme.read leading c cs = .ok (lexeme, rest) →
      ∃ taken, taken ≠ [] ∧ taken ++ rest = c :: cs) ∧
    (∀ leading c cs d, Lexeme.read leading c cs ≠ .error (.unexpectedCharacter d)) ∧
    (∀ placed cursor left, Scan {} text.toList placed cursor left →
      source placed ++ left = text.toList ∧ placed.length + left.length ≤ text.toList.length ∧
      ∀ before piece after, placed = before ++ piece :: after →
        piece.lexeme.Fits
          (Cursor.advance {} (source before) (source (piece :: after) ++ left)).leading
          (source after ++ left)) ∧
    (∀ tokens, tokenize text = .ok tokens ↔ ∃ placed cursor,
      Scan {} text.toList placed cursor [] ∧ placed.filterMap Placed.token? = tokens) ∧
    (∀ error, tokenize text = .error error ↔ ∃ placed cursor left,
      Scan {} text.toList placed cursor left ∧ Blocked cursor.leading left error.fault ∧
        error.position = cursor.position) ∧
    ∀ error, tokenize text = .error error → error.fault.message = "unterminated string" ∨
      ∃ said, isIdentifier (trim said) = false ∧
        error.fault.message = "invalid query name '" ++ String.ofList (trim said) ++ "'" := by
  have fails (error : LexError) : tokenize text = .error error ↔ ∃ placed cursor left,
      Scan {} text.toList placed cursor left ∧ Blocked cursor.leading left error.fault ∧
        error.position = cursor.position := by
    rw [tokenize, Except.map_eq_error_iff, lexemes_eq_error_iff]
  refine ⟨?_, Lexeme.read_ne_unexpected, ?_, ?_, fails, ?_⟩
  · intro leading c cs lexeme rest read
    exact ⟨lexeme.raw, Lexeme.read_raw_ne_nil read, Lexeme.read_append read⟩
  · intro placed cursor left scan
    refine ⟨scan.whole, scan.length_le, ?_⟩
    rintro before piece after rfl
    exact scan.fits
  · intro tokens
    simp only [tokenize, Except.map_eq_ok_iff, lexemes_eq_ok_iff_scan, exists_and_right]
  · intro error failed
    obtain ⟨_, _, _, _, blocked, _⟩ := (fails error).mp failed
    exact blocked.message

/-- A name that is no identifier, below a string and a comment with quotes. -/
def misnamed : String := "SELECT 'it''s' -- it's\n\t-- name: Old-People \n'"

def misnamedError : LexError := ⟨⟨2, 2⟩, .invalidQueryName "Old-People"⟩

/-- The lexer comes to the name before it comes to the quote that is left open. -/
theorem misnamed_blocked :
    tokenize misnamed = .error misnamedError ∧ ∃ placed cursor left,
      Scan {} misnamed.toList placed cursor left ∧
        Blocked cursor.leading left misnamedError.fault ∧
        misnamedError.position = cursor.position := by
  have failed : tokenize misnamed = .error misnamedError := by decide +kernel
  exact ⟨failed, ((tokenize_error_iff misnamed).2.2.2.2.1 misnamedError).mp failed⟩

end SqlTemplate
