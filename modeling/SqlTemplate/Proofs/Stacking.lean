import SqlTemplate.Proofs.Lines
import SqlTemplate.Proofs.Positions

/-!
# Texts one below the other

A text of whole lines leaves the lexer where it began, but for the number of the line: no
lexeme reaches beyond a line feed into a text that begins with no white space
(`Lexes.lexemes_append`). So what stands below such a text is read as if it stood alone, only
further down (`tokenize_append_lines`). How far down is counted in the thirty-two bits of a line,
which wrap around in texts of 2^32 characters and more.
-/

namespace SqlTemplate
open SqlTemplate.Text SqlTemplate.Source SqlTemplate.Identifier SqlTemplate.Sql

/-! ### Further down -/

/-- The same column, so many lines further down. -/
def Source.Position.down (count : Nat) (position : Position) : Position :=
  ⟨position.line + UInt32.ofNat count, position.column⟩

/-- The same place in a line, so many lines further down. -/
def Source.Cursor.down (count : Nat) (cursor : Cursor) : Cursor :=
  { cursor with position := cursor.position.down count }

/-- The same lexeme, so many lines further down. -/
def Placed.down (count : Nat) (piece : Placed) : Placed :=
  { piece with position := piece.position.down count }

/-- The same token, so many lines further down. -/
def Token.down (count : Nat) (token : Token) : Token :=
  { token with position := token.position.down count }

/-- The same fault, so many lines further down. -/
def LexError.down (count : Nat) (error : LexError) : LexError :=
  { error with position := error.position.down count }

theorem Source.Position.line_down {count : Nat} {position : Position}
    (fits : position.line.toNat + count < UInt32.size) :
    (position.down count).line.toNat = position.line.toNat + count := by
  have isCount : (UInt32.ofNat count).toNat = count := UInt32.toNat_ofNat_of_lt' (by omega)
  rw [Position.down, UInt32.toNat_add, isCount]
  exact Nat.mod_eq_of_lt fits

theorem Placed.token?_down (count : Nat) (piece : Placed) :
    (piece.down count).token? = piece.token?.map (.down count) := by
  obtain ⟨position, lexeme⟩ := piece
  cases lexeme <;> rfl

namespace Source.Cursor

theorem step_down (count : Nat) (cursor : Cursor) (c : Char) (next : Option Char) :
    (cursor.down count).step c next = (cursor.step c next).down count := by
  unfold step
  split
  · simp [down, Position.down, UInt32.add_assoc, UInt32.add_comm 1]
  · rfl

theorem advance_down (count : Nat) (cursor : Cursor) (text after : List Char) :
    (cursor.down count).advance text after = (cursor.advance text after).down count := by
  induction text generalizing cursor with
  | nil => rfl
  | cons c cs ih => rw [advance, advance, step_down, ih]

/-- Of what stands behind a text, a cursor sees one character. -/
theorem advance_of_head? (cursor : Cursor) (text : List Char) {after other : List Char}
    (same : after.head? = other.head?) : cursor.advance text after = cursor.advance text other := by
  induction text generalizing cursor with
  | nil => rfl
  | cons c cs ih => rw [advance, advance, same, ih]

/-- Past whole lines, a cursor stands at the start of the line below them. -/
theorem advance_lines (cursor : Cursor) {text : List Char} (ended : text.getLast? = some '\n')
    (after : List Char) :
    cursor.advance text after =
      { position := ⟨cursor.position.line + UInt32.ofNat (ruledLines text).length, 1⟩
        leading := true } := by
  induction text generalizing cursor with
  | nil => cases ended
  | cons c cs ih =>
    cases cs with
    | nil =>
      obtain rfl : c = '\n' := by simpa using ended
      simp [advance, step, endsLine, ruledLines, isLineBreak]
    | cons d ds =>
      have rest : (d :: ds).getLast? = some '\n' := by simpa using ended
      have next : (d :: ds).head?.or after.head? = (d :: ds).head? := rfl
      rw [advance, ih _ rest, ruledLines_cons c, next, position_step]
      split
      · simp [UInt32.add_assoc, UInt32.add_comm 1]
      · -- a line that goes on is counted once
        obtain ⟨line, lines, whole⟩ := exists_ruledLines_cons d ds
        rw [whole]
        rfl

/-- In a text that is shorter than 2^32 characters, the line of a character is no higher than the
text is long. -/
theorem line_le {before : List Char} {c : Char} {after : List Char}
    (short : (before ++ c :: after).length < UInt32.size) :
    (Cursor.advance {} before (c :: after)).position.line.toNat ≤
      (before ++ c :: after).length := by
  obtain ⟨i, j, row, isRow, isColumn, found⟩ := Cursor.position_advance {} before c after
  obtain ⟨lines, -⟩ := lt_length_of_ruledLines isRow isColumn
  have isNumber : (1 + UInt32.ofNat i).toNat = 1 + i := by
    rw [← UInt32.ofNat_one, ← UInt32.ofNat_add]
    exact UInt32.toNat_ofNat_of_lt' (by omega)
  rw [found]
  change (1 + UInt32.ofNat i).toNat ≤ _
  omega

end Source.Cursor

theorem lexemes_of_error {cursor : Cursor} {c : Char} {cs : List Char} {fault : LexFault}
    (found : Lexeme.read cursor.leading c cs = .error fault) :
    lexemes cursor (c :: cs) = .error ⟨cursor.position, fault⟩ := by
  generalize whole : c :: cs = text
  fun_cases lexemes cursor text with
  | case1 => cases whole
  | case2 c cs other found' =>
    cases whole
    rw [found] at found'
    cases found'
    rfl
  | case3 c cs lexeme rest found' =>
    cases whole
    rw [found] at found'
    cases found'

theorem lexemes_of_ok {cursor : Cursor} {c : Char} {cs rest : List Char} {lexeme : Lexeme}
    (found : Lexeme.read cursor.leading c cs = .ok (lexeme, rest)) :
    lexemes cursor (c :: cs) =
      (lexemes (cursor.advance lexeme.raw rest) rest).map (⟨cursor.position, lexeme⟩ :: ·) := by
  generalize whole : c :: cs = text
  fun_cases lexemes cursor text with
  | case1 => cases whole
  | case2 c cs fault found' =>
    cases whole
    rw [found] at found'
    cases found'
  | case3 c cs other more found' =>
    cases whole
    rw [found] at found'
    cases found'
    rfl

/-- What is read further down is the same, further down. -/
theorem lexemes_down (count : Nat) (cursor : Cursor) (cs : List Char) :
    lexemes (cursor.down count) cs =
      ((lexemes cursor cs).map (List.map (.down count))).mapError (.down count) := by
  fun_induction lexemes cursor cs with
  | case1 => exact lexemes_eq_ok_iff.mpr ⟨rfl, .nil _⟩
  | case2 cursor c cs fault found =>
    have same : Lexeme.read (cursor.down count).leading c cs = .error fault := found
    rw [lexemes_of_error same]
    rfl
  | case3 cursor c cs lexeme rest found _ ih =>
    have same : Lexeme.read (cursor.down count).leading c cs = .ok (lexeme, rest) := found
    rw [lexemes_of_ok same, Cursor.advance_down, ih]
    cases lexemes (cursor.advance lexeme.raw rest) rest <;> rfl

/-! ### Lexemes in front of more text -/

theorem Stops.append {rest : List Char} (stops : Stops rest) (nonempty : rest ≠ [])
    (more : List Char) : Stops (rest ++ more) := by
  cases stops with
  | nil => exact absurd rfl nonempty
  | blank blank => exact .blank blank
  | quote => exact .quote
  | parameter head => exact .parameter head
  | dashes => exact .dashes

/-- A lexeme that does not end the text sees nothing of what comes to stand behind it. -/
theorem Lexeme.Fits.append {leading : Bool} {lexeme : Lexeme} {rest : List Char}
    (fits : lexeme.Fits leading rest) (nonempty : rest ≠ []) (more : List Char) :
    lexeme.Fits leading (rest ++ more) := by
  have first : (rest ++ more).head? = rest.head? := List.head?_append_of_ne_nil rest nonempty
  by_cases blank : lexeme.form = .blank
  · obtain ⟨same, blanks, ends⟩ := fits.blankRun blank
    rw [same]
    exact .blank fits.raw_ne_nil blanks (first ▸ ends)
  · exact fits.follow blank (Or.inl first) fun plain =>
      (fits.plainText plain).1.stops.append nonempty more

/-- Only white space ends with a line feed, and it goes up to what is no white space. -/
theorem Lexeme.Fits.below {leading : Bool} {lexeme : Lexeme} (fits : lexeme.Fits leading [])
    (ended : lexeme.raw.getLast? = some '\n') {more : List Char}
    (shown : ∀ c ∈ more.head?, isBlank c = false) : lexeme.Fits leading more := by
  by_cases blank : lexeme.form = .blank
  · obtain ⟨same, blanks, _⟩ := fits.blankRun blank
    rw [same]
    exact .blank fits.raw_ne_nil blanks shown
  · have inside : isLineBreak '\n' = false := fits.inside_last blank _ ended
    cases inside

theorem lexemes_of_fits {cursor : Cursor} {lexeme : Lexeme} {rest : List Char}
    (fits : lexeme.Fits cursor.leading rest) :
    lexemes cursor (lexeme.raw ++ rest) =
      (lexemes (cursor.advance lexeme.raw rest) rest).map (⟨cursor.position, lexeme⟩ :: ·) := by
  have nonempty := List.append_ne_nil_of_left_ne_nil fits.raw_ne_nil rest
  obtain ⟨c, cs, whole⟩ := List.exists_cons_of_ne_nil nonempty
  rw [whole, lexemes_of_ok (fits.read whole)]

theorem source_ne_nil {cursor : Cursor} {placed : List Placed} (lexes : Lexes cursor placed)
    (nonempty : placed ≠ []) : source placed ≠ [] := by
  cases lexes with
  | nil => exact absurd rfl nonempty
  | cons fits => exact List.append_ne_nil_of_left_ne_nil fits.raw_ne_nil _

/-- Behind whole lines, the lexer reads on as at the start of a text. -/
theorem Lexes.lexemes_append {cursor : Cursor} {placed : List Placed} (lexes : Lexes cursor placed)
    (ended : (source placed).getLast? = some '\n') {more : List Char}
    (shown : ∀ c ∈ more.head?, isBlank c = false) :
    lexemes cursor (source placed ++ more) =
      (lexemes (cursor.advance (source placed) more) more).map (placed ++ ·) := by
  induction lexes with
  | nil => cases ended
  | @cons cursor lexeme behind fits rest ih =>
    rw [source_cons] at ended ⊢
    by_cases last : behind = []
    · subst last
      rw [source_nil, List.append_nil] at ended ⊢
      rw [lexemes_of_fits (fits.below ended shown)]
      rfl
    · have nonempty := source_ne_nil rest last
      rw [List.getLast?_append_of_ne_nil _ nonempty] at ended
      have first : (source behind ++ more).head? = (source behind).head? :=
        List.head?_append_of_ne_nil _ nonempty
      rw [List.append_assoc, lexemes_of_fits (fits.append nonempty more),
        Cursor.advance_of_head? cursor lexeme.raw first, ih ended, Cursor.advance_append,
        Cursor.advance_of_head? cursor lexeme.raw first]
      cases lexemes _ more <;> rfl

theorem token_line_le {text : String} {tokens : List Token} (read : tokenize text = .ok tokens)
    (short : text.toList.length < UInt32.size) :
    ∀ token ∈ tokens, token.position.line.toNat ≤ text.toList.length := by
  obtain ⟨placed, whole, lexes, rfl⟩ := tokenize_eq_ok_iff.mp read
  intro token member
  obtain ⟨⟨place, lexeme⟩, isPlaced, isToken⟩ := List.mem_filterMap.mp member
  obtain ⟨before, after, rfl⟩ := List.append_of_mem isPlaced
  obtain ⟨stands, fits⟩ := lexes.fits
  have position : token.position = place := by
    cases lexeme with
    | comment raw => cases isToken
    | token kind value raw =>
      cases isToken
      rfl
  obtain ⟨c, cs, begins⟩ := List.exists_cons_of_ne_nil fits.raw_ne_nil
  rw [source_append, source_cons, begins] at whole
  rw [source_cons, begins] at stands
  change _ = place at stands
  rw [position, ← stands, ← whole]
  exact Cursor.line_le (whole ▸ short)

theorem error_line_le {text : String} {error : LexError} (failed : tokenize text = .error error)
    (short : text.toList.length < UInt32.size) :
    error.position.line.toNat ≤ text.toList.length := by
  obtain ⟨before, c, after, whole, -, stands⟩ := lexemes_error (Except.map_eq_error_iff.mp failed)
  rw [← stands, whole]
  exact Cursor.line_le (whole ▸ short)

/-- A text below whole lines has tokens if it has tokens by itself: behind those of the lines
above come its own, so many lines further down. If it has none, the reason is the same, and
lies so many lines further down. As long as both texts together are shorter than 2^32 characters,
further down is the sum of the two numbers. -/
theorem tokenize_append_lines {above : String} {tokens : List Token}
    (read : tokenize above = .ok tokens) (ended : above.toList.getLast? = some '\n')
    {below : String} (shown : ∀ c ∈ below.toList.head?, isBlank c = false) {count : Nat}
    (isCount : (ruledLines above.toList).length = count) :
    ((∃ all, tokenize (above ++ below) = .ok all) ↔ ∃ more, tokenize below = .ok more) ∧
      (∀ more, tokenize below = .ok more →
        tokenize (above ++ below) = .ok (tokens ++ more.map (.down count))) ∧
      (∀ error, tokenize below = .error error →
        tokenize (above ++ below) = .error (error.down count)) ∧
      ((above ++ below).toList.length < UInt32.size →
        (∀ more, tokenize below = .ok more → ∀ token ∈ more,
          (token.down count).position.line.toNat = token.position.line.toNat + count) ∧
        ∀ error, tokenize below = .error error →
          (error.down count).position.line.toNat = error.position.line.toNat + count) := by
  obtain ⟨placed, whole, lexes, rfl⟩ := tokenize_eq_ok_iff.mp read
  have start : Cursor.advance {} above.toList below.toList = Cursor.down count {} := by
    rw [Cursor.advance_lines _ ended, isCount]
    rfl
  have both : lexemes {} (above ++ below).toList =
      (((lexemes {} below.toList).map (List.map (.down count))).mapError (.down count)).map
        (placed ++ ·) := by
    rw [String.toList_append, ← lexemes_down, ← start, ← whole]
    exact lexes.lexemes_append (whole ▸ ended) shown
  have moved (pieces : List Placed) : (pieces.map (.down count)).filterMap Placed.token? =
      (pieces.filterMap Placed.token?).map (.down count) := by
    rw [List.filterMap_map, List.map_filterMap]
    exact congrArg (List.filterMap · pieces) (funext (Placed.token?_down count))
  have sums (short : (above ++ below).toList.length < UInt32.size) {position : Position}
      (inside : below.toList.length < UInt32.size → position.line.toNat ≤ below.toList.length) :
      (position.down count).line.toNat = position.line.toNat + count := by
    have lines := length_ruledLines_le above.toList
    rw [String.toList_append, List.length_append] at short
    have inside := inside (by omega)
    exact Position.line_down (by omega)
  refine ⟨?_, ?_, ?_, fun short => ⟨?_, ?_⟩⟩
  · unfold tokenize
    rw [both]
    cases lexemes {} below.toList <;> simp [Except.map, Except.mapError]
  · intro more readBelow
    obtain ⟨pieces, found, rfl⟩ := Except.map_eq_ok_iff.mp readBelow
    unfold tokenize
    rw [both, found]
    simp [Except.map, Except.mapError, moved]
  · intro error failed
    unfold tokenize
    rw [both, Except.map_eq_error_iff.mp failed]
    rfl
  · exact fun more readBelow token member =>
      sums short fun fits => token_line_le readBelow fits token member
  · exact fun error failed => sums short fun fits => error_line_le failed fits

/-- A query that ends with its line, and one below it with a string that is left open. -/
theorem oops_below :
    tokenize "-- name: a\r\n:x -- it's\n" = .ok
        [ ⟨.name, "a", "-- name: a", ⟨1, 1⟩⟩, ⟨.fragment, " ", "\r\n", ⟨1, 11⟩⟩
        , ⟨.parameter, "x", ":x", ⟨2, 1⟩⟩, ⟨.fragment, " ", " ", ⟨2, 3⟩⟩
        , ⟨.fragment, " ", "\n", ⟨2, 11⟩⟩ ] ∧
      tokenize "-- name: b\n 'oops" = .error ⟨⟨2, 2⟩, .unterminatedString⟩ ∧
      tokenize ("-- name: a\r\n:x -- it's\n" ++ "-- name: b\n 'oops") =
        .error ⟨⟨4, 2⟩, .unterminatedString⟩ := by
  have above : tokenize "-- name: a\r\n:x -- it's\n" = .ok
      [ ⟨.name, "a", "-- name: a", ⟨1, 1⟩⟩, ⟨.fragment, " ", "\r\n", ⟨1, 11⟩⟩
      , ⟨.parameter, "x", ":x", ⟨2, 1⟩⟩, ⟨.fragment, " ", " ", ⟨2, 3⟩⟩
      , ⟨.fragment, " ", "\n", ⟨2, 11⟩⟩ ] := by decide +kernel
  have below : tokenize "-- name: b\n 'oops" = .error ⟨⟨2, 2⟩, .unterminatedString⟩ := by
    decide +kernel
  have ended : "-- name: a\r\n:x -- it's\n".toList.getLast? = some '\n' := by decide
  have shown : ∀ c ∈ "-- name: b\n 'oops".toList.head?, isBlank c = false := by
    rintro _ ⟨⟩
    decide
  have isCount : (ruledLines "-- name: a\r\n:x -- it's\n".toList).length = 2 := by decide
  have whole := tokenize_append_lines above ended shown isCount
  exact ⟨above, below, whole.2.2.1 _ below⟩

end SqlTemplate
