import SqlTemplate.CommandLine.Run
import SqlTemplate.Proofs.Lines
import SqlTemplate.Proofs.Positions

/-!
# Errors shown in their source

Every error of a source text has the position of one of its characters, and what is shown of
it is the line of that character with a caret underneath (`error_excerpt`). This fails where
a line ends with a carriage return alone: errors count it as the end of a line, and what
looks for the line does not. Nor can a position of thirty-two bits lead to a line or a column
beyond the 2^32-th, which only a longer text has.
-/

namespace SqlTemplate
open SqlTemplate.Text SqlTemplate.Source SqlTemplate.Terminal SqlTemplate.CommandLine

/-! ### Positions as lines and columns -/

/-- What follows the end of a line in it is part of that end. -/
theorem isLineBreak_of_mem_ruledLines {cs line : List Char} (isLine : line ∈ ruledLines cs) :
    ∀ c ∈ line.dropWhile (!isLineBreak ·), isLineBreak c := by
  fun_induction ruledLines cs generalizing line with
  | case1 => cases isLine
  | case2 cs ih =>
    rcases List.mem_cons.mp isLine with rfl | isLine
    · simp [isLineBreak]
    · exact ih isLine
  | case3 c cs _ ends ih =>
    rcases List.mem_cons.mp isLine with rfl | isLine
    · simp [ends]
    · exact ih isLine
  | case4 c cs _ inside ih =>
    have inside : isLineBreak c = false := by simpa using inside
    cases found : ruledLines cs with
    | nil =>
      obtain rfl : line = [c] := by simpa [found, putFirst] using isLine
      simp [inside]
    | cons first others =>
      rw [found] at ih isLine
      rcases List.mem_cons.mp isLine with rfl | isLine
      · simpa [inside] using ih List.mem_cons_self
      · exact ih (List.mem_cons_of_mem _ isLine)

/-- The position is that of a character in this line, which stands no further to the right
than right behind the text of the line. -/
structure Source.Position.Within (source : List Char) (position : Position) (i j : Nat)
    (line : List Char) : Prop where
  same : position = ⟨UInt32.ofNat (i + 1), UInt32.ofNat (j + 1)⟩
  isLine : (ruledLines source)[i]? = some line
  isColumn : j < line.length
  reaches : j ≤ (lineText line).length

/-- In a text that is shorter than 2^32 characters, every line and column has its own number. -/
theorem Source.Position.Within.toNat {source : List Char} {position : Position} {i j : Nat}
    {line : List Char} (within : position.Within source i j line)
    (short : source.length < UInt32.size) :
    position.line.toNat = i + 1 ∧ position.column.toNat = j + 1 := by
  obtain ⟨lines, columns⟩ := lt_length_of_ruledLines within.isLine
    (List.getElem?_eq_getElem within.isColumn)
  rw [within.same]
  exact ⟨UInt32.toNat_ofNat_of_lt' (by omega), UInt32.toNat_ofNat_of_lt' (by omega)⟩

theorem Source.Position.within_first {source : List Char} (nonempty : source ≠ []) :
    ∃ line, Position.first.Within source 0 0 line := by
  obtain ⟨c, cs, rfl⟩ := List.exists_cons_of_ne_nil nonempty
  obtain ⟨line, lines, whole⟩ := exists_ruledLines_cons c cs
  exact ⟨c :: line, rfl, by simp [whole], by simp, Nat.zero_le _⟩

/-- A character that is not white space is part of the text of its line. -/
theorem Source.Cursor.Meets.within {source : List Char} {position : Position}
    (meets : Cursor.Meets {} source position) : ∃ i j line, position.Within source i j line := by
  obtain ⟨before, c, after, rfl, shown, stands⟩ := meets
  obtain ⟨i, j, line, isLine, isColumn, found⟩ := Cursor.position_advance {} before c after
  refine ⟨i, j, line, ?_, isLine, (List.getElem?_eq_some_iff.mp isColumn).1, ?_⟩
  · rw [← stands, found]
    simp [Position.first, UInt32.add_comm 1]
  · by_contra beyond
    have member : c ∈ line.dropWhile (!isLineBreak ·) := by
      have whole := List.takeWhile_append_dropWhile (p := (!isLineBreak ·)) (l := line)
      rw [← whole, List.getElem?_append_right (by unfold lineText at beyond; omega)] at isColumn
      exact List.mem_of_getElem? isColumn
    have ends := isLineBreak_of_mem_ruledLines (List.mem_of_getElem? isLine) c member
    rw [isBlank_of_isLineBreak ends] at shown
    cases shown

/-! ### What is shown -/

/-- A message with its position, a line, and a caret behind a pad. -/
def excerpt (message : String) (position : Position) (line pad : List Char) : String :=
  let label := toString position.line.toNat
  let gutter := String.ofList (List.replicate label.length ' ')
  let bar := gutter ++ " " ++ "|"
  "error:" ++ " " ++ message ++ "\n" ++
    gutter ++ "-->" ++ " " ++ position.text ++ "\n" ++
    bar ++ "\n" ++
    label ++ " " ++ "|" ++ " " ++ String.ofList line ++ "\n" ++
    bar ++ " " ++ String.ofList pad ++ "^" ++ "\n"

/-- A pad is so many characters wide, with a tab where the text has one and a space elsewhere. -/
structure Pads (text : List Char) (width : Nat) (pad : List Char) : Prop where
  size : pad.length = width
  tabs : ∀ k < width, pad[k]? = some (if text[k]? = some '\t' then '\t' else ' ')

theorem caretPad_pads {text : List Char} {width : Nat} (reaches : width ≤ text.length) :
    Pads text width (caretPad text (width + 1)) := by
  constructor
  · simp [caretPad, reaches]
  · intro k inside
    have isChar : text[k]? = some text[k] := List.getElem?_eq_getElem (by omega)
    simp [caretPad, inside, isChar]

theorem snippet_eq_excerpt {source : String} {position : Position} {line : List Char}
    (positive : 1 ≤ position.line.toNat)
    (shown : (lines source.toList)[position.line.toNat - 1]? = some line) (message : String) :
    snippet message source position false =
      excerpt message position line (caretPad line position.column.toNat) := by
  have number : max position.line.toNat 1 = position.line.toNat := by omega
  have plain (style : Style) (text : String) : paint false style text = text := rfl
  unfold snippet
  dsimp only
  rw [number, shown]
  dsimp only
  simp only [plain]
  unfold excerpt
  dsimp only
  simp only [String.append_assoc]

/-- Every error of a source text has the position of a character of the text, by the lines that
end with a line feed, with a carriage return or with both. If the text is shorter than 2^32
characters and no line up to there ends with a carriage return alone, the text of the line is
shown and the caret stands in its column, under what has the tabs of the line. -/
theorem error_excerpt {text : String} (nonempty : text.toList ≠ []) {error : CompileError}
    (failed : QuerySet.parse text = .error error ∨ Template.parse text = .error error) :
    ∃ i j line, error.position = ⟨UInt32.ofNat (i + 1), UInt32.ofNat (j + 1)⟩ ∧
      (ruledLines text.toList)[i]? = some line ∧ j < line.length ∧
      (text.toList.length < UInt32.size →
        error.position.line.toNat = i + 1 ∧ error.position.column.toNat = j + 1 ∧
        ((∀ other ∈ (ruledLines text.toList).take (i + 1), other.getLast? ≠ some '\r') →
          ∃ pad, Pads (lineText line) j pad ∧ errorSnippet false text error =
            excerpt error.message error.position (lineText line) pad)) := by
  have lies : error.position = Position.first ∨ Cursor.Meets {} text.toList error.position :=
    failed.elim QuerySet.parse_error Template.parse_error
  obtain ⟨i, j, line, within⟩ : ∃ i j line, error.position.Within text.toList i j line := by
    rcases lies with isFirst | meets
    · obtain ⟨line, within⟩ := Position.within_first nonempty
      exact ⟨0, 0, line, isFirst ▸ within⟩
    · exact meets.within
  refine ⟨i, j, line, within.same, within.isLine, within.isColumn, fun short => ?_⟩
  obtain ⟨isNumber, isColumn⟩ := within.toNat short
  refine ⟨isNumber, isColumn, fun fed => ?_⟩
  have positive : 1 ≤ error.position.line.toNat := by omega
  have shown : (lines text.toList)[error.position.line.toNat - 1]? = some (lineText line) := by
    rw [isNumber]
    exact getElem?_lines within.isLine fed
  refine ⟨caretPad (lineText line) error.position.column.toNat, ?_, ?_⟩
  · rw [isColumn]
    exact caretPad_pads within.reaches
  · exact snippet_eq_excerpt positive shown error.message

/-- A string that is not closed, in a line that begins with a tab. -/
def unclosed : String := "-- name: a\n\tSELECT 'oops"

def unclosedError : CompileError := .lex ⟨⟨2, 9⟩, .unterminatedString⟩

theorem unclosed_excerpt :
    ∃ i j line, unclosedError.position.line.toNat = i + 1 ∧
      unclosedError.position.column.toNat = j + 1 ∧
      (ruledLines unclosed.toList)[i]? = some line ∧ j < line.length ∧
      ∃ pad, Pads (lineText line) j pad ∧ errorSnippet false unclosed unclosedError =
        excerpt unclosedError.message unclosedError.position (lineText line) pad := by
  have failed : QuerySet.parse unclosed = .error unclosedError := by decide +kernel
  have nonempty : unclosed.toList ≠ [] := by decide
  have short : unclosed.toList.length < UInt32.size := by decide
  have fed : ∀ other ∈ (ruledLines unclosed.toList).take 2, other.getLast? ≠ some '\r' := by
    decide +kernel
  obtain ⟨i, j, line, -, isLine, isColumn, shows⟩ := error_excerpt nonempty (Or.inl failed)
  obtain ⟨isNumber, column, shows⟩ := shows short
  obtain rfl : 1 = i := Nat.succ.inj isNumber
  exact ⟨1, j, line, isNumber, column, isLine, isColumn, shows fed⟩

/-- Behind a carriage return that ends its line alone, the line of the error is not found. -/
example : errorSnippet false "-- name: a\rSELECT 'oops" (.lex ⟨⟨2, 8⟩, .unterminatedString⟩) =
    "error: Lex error at line 2: unterminated string\n --> 2:8\n" := by
  decide +kernel

end SqlTemplate
