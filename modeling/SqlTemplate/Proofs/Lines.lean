import SqlTemplate.Proofs.Basic
import SqlTemplate.Source

/-!
# Lines of a source text

A line of a text ends with a line feed, with a carriage return and a line feed, or with a
carriage return alone (`ruledLines`). Cursors count these lines and the characters in them
(`Cursor.position_advance`). A source that is shown is cut at line feeds only (`lines`),
which gives the same lines as long as none ends with a carriage return alone
(`getElem?_lines`).
-/

namespace SqlTemplate.Source

/-- A character in front of the first of some lines. -/
def putFirst (c : Char) : List (List Char) → List (List Char)
  | [] => [[c]]
  | line :: lines => (c :: line) :: lines

/-- The lines of a text, each with what ends it. -/
def ruledLines : List Char → List (List Char)
  | [] => []
  | '\r' :: '\n' :: cs => ['\r', '\n'] :: ruledLines cs
  | c :: cs => if isLineBreak c then [c] :: ruledLines cs else putFirst c (ruledLines cs)

/-- What a line says, without what ends it. -/
def lineText (line : List Char) : List Char := line.takeWhile (!isLineBreak ·)

/-- The first character of a text either ends the first line or belongs to the line that goes
on behind it. -/
theorem ruledLines_cons (c : Char) (cs : List Char) :
    ruledLines (c :: cs) =
      if endsLine c cs.head? then [c] :: ruledLines cs else putFirst c (ruledLines cs) := by
  by_cases both : c = '\r' ∧ cs.head? = some '\n'
  · obtain ⟨rfl, isFirst⟩ := both
    obtain ⟨cs, rfl⟩ := List.head?_eq_some_iff.mp isFirst
    simp [ruledLines, endsLine, isLineBreak, putFirst]
  · have same : endsLine c cs.head? = isLineBreak c := by
      by_cases isReturn : c = '\r'
      · have other : cs.head? ≠ some '\n' := fun isFirst => both ⟨isReturn, isFirst⟩
        simp [endsLine, isLineBreak, isReturn, other]
      · simp [endsLine, isLineBreak, beq_false_of_ne isReturn]
    rw [same, ruledLines]
    rintro ds rfl rfl
    exact both ⟨rfl, rfl⟩

theorem exists_ruledLines_cons (c : Char) (cs : List Char) :
    ∃ line lines, ruledLines (c :: cs) = (c :: line) :: lines := by
  rw [ruledLines_cons]
  split
  · exact ⟨_, _, rfl⟩
  · cases ruledLines cs with
    | nil => exact ⟨_, _, rfl⟩
    | cons line lines => exact ⟨_, _, rfl⟩

theorem flatten_putFirst (c : Char) (lines : List (List Char)) :
    (putFirst c lines).flatten = c :: lines.flatten := by
  cases lines <;> rfl

/-- The lines of a text make up the text. -/
theorem flatten_ruledLines (cs : List Char) : (ruledLines cs).flatten = cs := by
  fun_induction ruledLines cs with
  | case1 => rfl
  | case2 cs ih => simp [ih]
  | case3 c cs _ _ ih => simp [ih]
  | case4 c cs _ _ ih => rw [flatten_putFirst, ih]

theorem length_ruledLines_le (cs : List Char) : (ruledLines cs).length ≤ cs.length := by
  have begun (c : Char) (lines : List (List Char)) : (putFirst c lines).length ≤ lines.length + 1 := by
    cases lines <;> simp [putFirst]
  fun_induction ruledLines cs with
  | case1 => exact Nat.le_refl 0
  | case2 cs ih =>
    simp only [List.length_cons]
    omega
  | case3 c cs _ _ ih => simpa using ih
  | case4 c cs _ _ ih => exact Nat.le_trans (begun c _) (Nat.succ_le_succ ih)

/-- A text has room for as many lines, and each of them for as many columns, as it has
characters. -/
theorem lt_length_of_ruledLines {cs row : List Char} {i j : Nat} {c : Char}
    (isRow : (ruledLines cs)[i]? = some row) (isColumn : row[j]? = some c) :
    i < cs.length ∧ j < cs.length := by
  have lines := (List.getElem?_eq_some_iff.mp isRow).1
  have columns := (List.getElem?_eq_some_iff.mp isColumn).1
  have inside : row.length ≤ (ruledLines cs).flatten.length :=
    (List.sublist_flatten_of_mem (List.mem_of_getElem? isRow)).length_le
  rw [flatten_ruledLines] at inside
  exact ⟨Nat.lt_of_lt_of_le lines (length_ruledLines_le cs), Nat.lt_of_lt_of_le columns inside⟩

theorem Cursor.position_step (cursor : Cursor) (c : Char) (next : Option Char) :
    (cursor.step c next).position =
      if endsLine c next then ⟨cursor.position.line + 1, 1⟩
      else ⟨cursor.position.line, cursor.position.column + 1⟩ := by
  unfold step
  split <;> rfl

/-- Where a cursor comes to stand in front of a character: so many lines further down, in the
column that the character has in its line. -/
theorem Cursor.position_advance (cursor : Cursor) (before : List Char) (c : Char)
    (after : List Char) :
    ∃ i j row, (ruledLines (before ++ c :: after))[i]? = some row ∧ row[j]? = some c ∧
      (cursor.advance before (c :: after)).position =
        ⟨cursor.position.line + UInt32.ofNat i,
          (if i = 0 then cursor.position.column else 1) + UInt32.ofNat j⟩ := by
  induction before generalizing cursor with
  | nil =>
    obtain ⟨row, rows, whole⟩ := exists_ruledLines_cons c after
    exact ⟨0, 0, c :: row, by simp [whole], rfl, by simp [advance]⟩
  | cons d before ih =>
    have same : (before ++ c :: after).head? = before.head?.or (c :: after).head? := by simp
    rw [List.cons_append, ruledLines_cons, same, advance]
    generalize before.head?.or (c :: after).head? = next
    obtain ⟨i, j, row, isRow, isColumn, position⟩ := ih (cursor.step d next)
    rw [position, position_step]
    by_cases ends : endsLine d next
    · rw [if_pos ends, if_pos ends]
      refine ⟨i + 1, j, row, isRow, isColumn, ?_⟩
      simp [UInt32.add_assoc, UInt32.add_comm 1]
    · rw [if_neg ends, if_neg ends]
      -- the first of the lines behind begins one character earlier
      obtain ⟨first, rows, found⟩ : ∃ first rows, ruledLines (before ++ c :: after) = first :: rows :=
        List.exists_cons_of_ne_nil fun none => by simp [none] at isRow
      rw [found] at isRow ⊢
      cases i with
      | zero =>
        obtain rfl : first = row := by simpa using isRow
        refine ⟨0, j + 1, d :: first, rfl, isColumn, ?_⟩
        simp [UInt32.add_assoc, UInt32.add_comm 1]
      | succ i => exact ⟨i + 1, j, row, isRow, isColumn, by simp⟩

/-! ### Lines that are shown -/

/-- A line up to a line feed. -/
theorem lines_append_feed {line : List Char} (inside : '\n' ∉ line) (cs : List Char) :
    lines (line ++ '\n' :: cs) = dropReturn line :: lines cs := by
  have run : ∀ c ∈ line, (c != '\n') = true := by
    intro c member
    simpa using ne_of_mem_of_not_mem member inside
  have stops : ∀ c ∈ ('\n' :: cs).head?, (c != '\n') = false := by simp
  obtain ⟨taken, dropped⟩ := span_append run stops
  obtain ⟨d, ds, whole⟩ : ∃ d ds, line ++ '\n' :: cs = d :: ds :=
    List.exists_cons_of_ne_nil (by simp)
  rw [whole] at taken dropped ⊢
  rw [lines]
  split
  · next none =>
    rw [dropped] at none
    cases none
  · next rest found =>
    rw [dropped] at found
    cases found
    rw [taken]

/-- A last line without a line feed. -/
theorem lines_of_no_feed {line : List Char} (inside : '\n' ∉ line) (nonempty : line ≠ []) :
    lines line = [line] := by
  have none : line.dropWhile (· != '\n') = [] := by
    rw [List.dropWhile_eq_nil_iff]
    intro c member
    simpa using ne_of_mem_of_not_mem member inside
  obtain ⟨d, ds, rfl⟩ := List.exists_cons_of_ne_nil nonempty
  rw [lines]
  split
  · rfl
  · next rest found =>
    rw [none] at found
    cases found

theorem lines_feed (cs : List Char) : lines ('\n' :: cs) = [] :: lines cs :=
  @lines_append_feed [] (by simp) cs

theorem lines_return_feed (cs : List Char) : lines ('\r' :: '\n' :: cs) = [] :: lines cs :=
  @lines_append_feed ['\r'] (by decide) cs

theorem lines_inside {c : Char} (inside : isLineBreak c = false) (cs : List Char) :
    lines (c :: cs) = putFirst c (lines cs) := by
  obtain ⟨notFeed, notReturn⟩ : c ≠ '\n' ∧ c ≠ '\r' := by simpa [isLineBreak] using inside
  by_cases feed : '\n' ∈ cs
  · obtain ⟨line, rest, rfl, noFeed⟩ := List.eq_append_cons_of_mem feed
    have drops : dropReturn (c :: line) = c :: dropReturn line := by
      cases line with
      | nil => simp [dropReturn, notReturn]
      | cons d line =>
        simp only [dropReturn, List.getLast?_cons_cons, List.dropLast_cons_cons]
        split <;> rfl
    rw [← List.cons_append, lines_append_feed (by simp [notFeed.symm, noFeed]),
      lines_append_feed noFeed, drops]
    rfl
  · rw [lines_of_no_feed (by simp [notFeed.symm, feed]) (List.cons_ne_nil _ _)]
    cases cs with
    | nil => simp [lines, putFirst]
    | cons d cs =>
      rw [lines_of_no_feed feed (List.cons_ne_nil _ _)]
      rfl

/-- A source that is shown has a line as it is, if neither that line nor one further up ends
with a carriage return alone. -/
theorem getElem?_lines {cs : List Char} {i : Nat} {line : List Char}
    (isLine : (ruledLines cs)[i]? = some line)
    (fed : ∀ other ∈ (ruledLines cs).take (i + 1), other.getLast? ≠ some '\r') :
    (lines cs)[i]? = some (lineText line) := by
  fun_induction ruledLines cs generalizing i line with
  | case1 => cases isLine
  | case2 cs ih =>
    rw [lines_return_feed]
    cases i with
    | zero =>
      obtain rfl : ['\r', '\n'] = line := by simpa using isLine
      rfl
    | succ i => exact ih isLine fun other member => fed other (List.mem_cons_of_mem _ member)
  | case3 c cs lone ends ih =>
    have notReturn : c ≠ '\r' := by simpa using fed [c] List.mem_cons_self
    obtain rfl : c = '\n' := by simpa [isLineBreak, notReturn] using ends
    rw [lines_feed]
    cases i with
    | zero =>
      obtain rfl : ['\n'] = line := by simpa using isLine
      rfl
    | succ i => exact ih isLine fun other member => fed other (List.mem_cons_of_mem _ member)
  | case4 c cs _ inside ih =>
    have inside : isLineBreak c = false := by simpa using inside
    have text (line : List Char) : lineText (c :: line) = c :: lineText line := by
      simp [lineText, inside]
    rw [lines_inside inside]
    cases cs with
    | nil =>
      cases i with
      | zero =>
        obtain rfl : [c] = line := by simpa [ruledLines, putFirst] using isLine
        rw [text, lines]
        rfl
      | succ i => cases isLine
    | cons d cs =>
      obtain ⟨first, others, found⟩ := exists_ruledLines_cons d cs
      rw [found] at ih isLine fed
      have fed : ∀ other ∈ ((d :: first) :: others).take (i + 1), other.getLast? ≠ some '\r' := by
        simpa [putFirst] using fed
      cases i with
      | zero =>
        obtain rfl : c :: d :: first = line := by simpa [putFirst] using isLine
        obtain ⟨shown, whole⟩ := List.head?_eq_some_iff.mp (List.head?_eq_getElem? ▸ ih rfl fed)
        rw [whole, text]
        rfl
      | succ i =>
        have shown := ih isLine fed
        cases whole : lines (d :: cs) with
        | nil =>
          rw [whole] at shown
          cases shown
        | cons other more =>
          rw [whole] at shown
          exact shown

end SqlTemplate.Source
