import SqlTemplate.Proofs.Partition
import SqlTemplate.Proofs.QuestionMarks

/-!
# Strings through normal forms and rewritings

Where all strings of a text are closed, the text can be read as plain characters and
complete strings (`Reading`). The lexer reads it so, and its normal form and its rewriting
with question marks have the same readings: every string is kept, character for character.
Outside strings the rewriting does one thing, and does it to every placeholder
(`Rewritten`), so that nothing is left for a second rewriting (`readings_agree`).
-/

namespace SqlTemplate.Sql
open SqlTemplate.Text

/-! ### Readings -/

/-- A reading of a text as plain characters and complete strings, with the strings in
order. Strings with nothing between them may also be read as one. -/
inductive Reading : List Char → List (List Char) → Prop where
  | nil : Reading [] []
  | plain {c : Char} {cs : List Char} {found : List (List Char)} (notQuote : c ≠ '\'')
      (rest : Reading cs found) : Reading (c :: cs) found
  | string {body cs : List Char} {found : List (List Char)} (isBody : StringBody body)
      (rest : Reading cs found) : Reading ('\'' :: (body ++ cs)) (('\'' :: body) :: found)

theorem balanced_cons {c : Char} (notQuote : c ≠ '\'') {cs : List Char} :
    Balanced (c :: cs) ↔ Balanced cs := by
  unfold Balanced
  rw [Place.after_cons, Place.next_of_ne notQuote]

theorem balanced_string {body : List Char} (isBody : StringBody body) {rest : List Char} :
    Balanced ('\'' :: (body ++ rest)) ↔ Balanced rest := by
  have closed : Place.outside.after ('\'' :: body) = .outside := isBody.balanced
  unfold Balanced
  rw [← List.cons_append, Place.after_append, closed]

theorem Reading.balanced {cs : List Char} {found : List (List Char)} (reading : Reading cs found) :
    Balanced cs := by
  induction reading with
  | nil => rfl
  | plain notQuote _ ih => exact (balanced_cons notQuote).mpr ih
  | string isBody _ ih => exact (balanced_string isBody).mpr ih

/-- Once a string is left open, the text ends inside it. -/
theorem Unclosed.after_ne {cs : List Char} (h : Unclosed cs) : Place.quoted.after cs ≠ .outside := by
  induction h with
  | nil => simp [Place.after]
  | slash => simp [Place.after, Place.next]
  | quotes _ ih => simpa [Place.next] using ih
  | escaped c _ ih => simpa [Place.next] using ih
  | plain notQuote notSlash _ ih => simpa [Place.next, notQuote, notSlash] using ih

/-- The lexer reads every text in which all strings are closed. -/
theorem reading_strings {cs : List Char} (balanced : Balanced cs) : Reading cs (strings cs) := by
  fun_induction strings cs with
  | case1 => exact .nil
  | case2 cs body rest found _ ih =>
    obtain ⟨isBody, _⟩ := StringBody.of_stringBody found
    rw [← stringBody_append found] at balanced ⊢
    exact .string isBody (ih ((balanced_string isBody).mp balanced))
  | case3 cs unclosed => exact absurd balanced (Unclosed.of_stringBody unclosed).after_ne
  | case4 c cs other ih => exact .plain other (ih ((balanced_cons other).mp balanced))

/-! ### Readings of normal forms -/

theorem shown_quote : isBlank '\'' = false := by decide

/-- Inside a string nothing is squeezed. -/
theorem StringBody.squeeze {body : List Char} (h : StringBody body) (rest : List Char) :
    Sql.squeeze .quoted true false (body ++ rest) =
      body ++ Sql.squeeze .outside true false rest := by
  induction h with
  | close => simp [Sql.squeeze, Place.next]
  | quotes _ ih => simp [Sql.squeeze, Place.next, shown_quote, ih]
  | escaped c _ ih => simp [Sql.squeeze, Place.next, ih]
  | plain notQuote notSlash _ ih => simp [Sql.squeeze, Place.next, notQuote, notSlash, ih]

/-- The space that is due in front of a character. -/
def dueSpace (kept gap : Bool) : List Char := if kept && gap then [' '] else []

theorem squeeze_shown {c : Char} (shown : isBlank c = false) (kept gap : Bool) (cs : List Char) :
    squeeze .outside kept gap (c :: cs) =
      dueSpace kept gap ++ c :: squeeze (Place.outside.next c) true false cs := by
  rw [squeeze, if_neg (by simp [shown]), dueSpace]
  split <;> rfl

theorem squeeze_string {body : List Char} (isBody : StringBody body) (kept gap : Bool)
    (rest : List Char) : squeeze .outside kept gap ('\'' :: (body ++ rest)) =
      dueSpace kept gap ++ '\'' :: (body ++ squeeze .outside true false rest) := by
  rw [squeeze_shown shown_quote, ← isBody.squeeze]
  rfl

theorem Reading.dueSpace {cs : List Char} {found : List (List Char)} (reading : Reading cs found)
    (kept gap : Bool) : Reading (Sql.dueSpace kept gap ++ cs) found := by
  unfold Sql.dueSpace
  split
  · exact .plain (by decide) reading
  · exact reading

theorem Reading.squeeze {cs : List Char} {found : List (List Char)} (reading : Reading cs found)
    (kept gap : Bool) : Reading (Sql.squeeze .outside kept gap cs) found := by
  induction reading generalizing kept gap with
  | nil => exact .nil
  | @plain c cs found notQuote _ ih =>
    by_cases blank : isBlank c
    · rw [Sql.squeeze, if_pos (by simp [blank])]
      exact ih kept true
    · rw [squeeze_shown (by simpa using blank), Place.next_of_ne notQuote]
      exact (plain notQuote (ih true false)).dueSpace kept gap
  | string isBody _ ih =>
    rw [squeeze_string isBody]
    exact (string isBody (ih true false)).dueSpace kept gap

theorem Reading.of_no_quote {cs : List Char} {found : List (List Char)} (plain : '\'' ∉ cs)
    (reading : Reading cs found) : found = [] := by
  induction reading with
  | nil => rfl
  | plain _ _ ih => exact ih (List.not_mem_of_not_mem_cons plain)
  | string => exact absurd List.mem_cons_self plain

/-- What is cut off at the end is in no string if it has no quote. -/
theorem Reading.of_append {cs ending : List Char} {found : List (List Char)}
    (plain : '\'' ∉ ending) (reading : Reading (cs ++ ending) found) : Reading cs found := by
  generalize whole : cs ++ ending = text at reading
  induction reading generalizing cs with
  | nil =>
    rw [(List.append_eq_nil_iff.mp whole).1]
    exact .nil
  | @plain c text found notQuote rest ih =>
    cases cs with
    | nil =>
      obtain rfl : ending = c :: text := whole
      rw [rest.of_no_quote (List.not_mem_of_not_mem_cons plain)]
      exact .nil
    | cons d cs =>
      obtain ⟨rfl, same⟩ := List.cons.inj whole
      exact .plain notQuote (ih same)
  | @string body text found isBody rest ih =>
    rw [← List.cons_append] at whole
    rcases List.append_eq_append_iff.mp whole with ⟨more, string, rfl⟩ | ⟨more, rfl, rfl⟩
    · -- a string ends with a quote, so nothing of it was cut off
      obtain rfl : more = [] := by
        by_contra nonempty
        have last : ('\'' :: body).getLast? = some '\'' := by
          simp [List.getLast?_cons, isBody.getLast?_eq]
        rw [string, List.getLast?_append_of_ne_nil _ nonempty] at last
        exact plain (List.mem_append_left _ (List.mem_of_getLast? last))
      have alone : Reading ('\'' :: (body ++ [])) ['\'' :: body] := .string isBody .nil
      rw [List.append_nil] at alone string
      rwa [rest.of_no_quote plain, ← string]
    · exact .string isBody (ih rfl)

theorem Reading.normalize {cs : List Char} {found : List (List Char)} (reading : Reading cs found) :
    Reading (Sql.normalize cs) found := by
  obtain ⟨ending, whole, isEnding⟩ := dropSemicolon_append (Sql.squeeze .outside false false cs)
  have plain : '\'' ∉ ending := isEnding.not_mem (by decide) (by decide)
  refine Reading.of_append plain ?_
  change Reading (dropSemicolon (Sql.squeeze .outside false false cs) ++ ending) found
  rw [whole]
  exact reading.squeeze false false

/-! ### What the lexer reads in normal forms -/

theorem strings_append_dueSpace (kept gap : Bool) (cs : List Char) :
    strings (dueSpace kept gap ++ cs) = strings cs := by
  unfold dueSpace
  split
  · exact strings_cons (by decide) cs
  · rfl

theorem head?_squeeze {cs : List Char} (other : cs.head? ≠ some '\'') :
    (squeeze .outside true false cs).head? ≠ some '\'' := by
  have gap (cs : List Char) : (squeeze .outside true true cs).head? ≠ some '\'' := by
    induction cs with
    | nil => simp [squeeze]
    | cons c cs ih => by_cases blank : isBlank c <;> simp [squeeze, blank, ih]
  cases cs with
  | nil => simp [squeeze]
  | cons c cs =>
    by_cases blank : isBlank c
    · simpa [squeeze, blank] using gap cs
    · simpa [squeeze, blank] using other

theorem strings_squeeze {cs : List Char} (balanced : Balanced cs) (kept gap : Bool) :
    strings (squeeze .outside kept gap cs) = strings cs := by
  fun_induction strings cs generalizing kept gap with
  | case1 => simp [squeeze, strings]
  | case2 cs body rest found _ ih =>
    obtain ⟨isBody, follows⟩ := StringBody.of_stringBody found
    rw [← stringBody_append found] at balanced ⊢
    rw [squeeze_string isBody, strings_append_dueSpace,
      strings_quote (isBody.read (head?_squeeze follows)),
      ih ((balanced_string isBody).mp balanced)]
  | case3 cs unclosed => exact absurd balanced (Unclosed.of_stringBody unclosed).after_ne
  | case4 c cs other ih =>
    have rest := (balanced_cons other).mp balanced
    by_cases blank : isBlank c
    · rw [squeeze, if_pos (by simp [blank])]
      exact ih rest kept true
    · rw [squeeze_shown (by simpa using blank), strings_append_dueSpace, strings_cons other,
        Place.next_of_ne other, ih rest]

theorem strings_append_ending {cs ending : List Char} (plain : '\'' ∉ ending)
    (balanced : Balanced cs) : strings (cs ++ ending) = strings cs := by
  have none : ending.head? ≠ some '\'' := fun isFirst => plain (List.mem_of_head? isFirst)
  fun_induction strings cs with
  | case1 =>
    have closed : Balanced ending := (visible_of_no_quote plain).2
    exact (reading_strings closed).of_no_quote plain
  | case2 cs body rest found _ ih =>
    obtain ⟨isBody, follows⟩ := StringBody.of_stringBody found
    have ends : (rest ++ ending).head? ≠ some '\'' := by
      cases rest with
      | nil => exact none
      | cons => exact follows
    rw [← stringBody_append found] at balanced
    rw [← stringBody_append found, List.cons_append, List.append_assoc,
      strings_quote (isBody.read ends), ih ((balanced_string isBody).mp balanced)]
  | case3 cs unclosed => exact absurd balanced (Unclosed.of_stringBody unclosed).after_ne
  | case4 c cs other ih =>
    rw [List.cons_append, strings_cons other, ih ((balanced_cons other).mp balanced)]

theorem strings_normalize {cs : List Char} (balanced : Balanced cs) :
    strings (normalize cs) = strings cs := by
  obtain ⟨ending, whole, isEnding⟩ := dropSemicolon_append (squeeze .outside false false cs)
  have plain : '\'' ∉ ending := isEnding.not_mem (by decide) (by decide)
  calc strings (normalize cs)
    _ = strings (normalize cs ++ ending) := (strings_append_ending plain balanced.normalize).symm
    _ = strings (squeeze .outside false false cs) := congrArg strings whole
    _ = strings cs := strings_squeeze balanced false false

/-! ### What a rewriting does -/

/-- A text with one question mark in place of each placeholder outside its strings: of a
dollar sign and all the digits behind it. -/
inductive Rewritten : List Char → List Char → Prop where
  | nil : Rewritten [] []
  | string {body cs ds : List Char} (isBody : StringBody body) (rest : Rewritten cs ds) :
      Rewritten ('\'' :: (body ++ cs)) ('\'' :: (body ++ ds))
  | placeholder {number cs ds : List Char} (nonempty : number ≠ [])
      (digits : ∀ c ∈ number, c.isDigit) (ends : ∀ c ∈ cs.head?, c.isDigit = false)
      (rest : Rewritten cs ds) : Rewritten ('$' :: (number ++ cs)) ('?' :: ds)
  | plain {c : Char} {cs ds : List Char} (notQuote : c ≠ '\'')
      (bare : c = '$' → ∀ d ∈ cs.head?, d.isDigit = false) (rest : Rewritten cs ds) :
      Rewritten (c :: cs) (c :: ds)

theorem questionMarks_of_no_digit {cs : List Char} (ends : ∀ c ∈ cs.head?, c.isDigit = false) :
    questionMarks .outside true cs = questionMarks .outside false cs := by
  cases cs with
  | nil => rfl
  | cons c cs => simp [questionMarks, ends c rfl]

theorem questionMarks_digits {number : List Char} (digits : ∀ c ∈ number, c.isDigit)
    (cs : List Char) :
    questionMarks .outside true (number ++ cs) = questionMarks .outside true cs := by
  induction number with
  | nil => rfl
  | cons c number ih =>
    obtain ⟨first, rest⟩ := List.forall_mem_cons.mp digits
    rw [List.cons_append, questionMarks, if_pos (by simp [first]), ih rest]

namespace Rewritten
variable {cs ds : List Char}

/-- The rewriting is the only text that the rules allow. -/
theorem eq (rewritten : Rewritten cs ds) : questionMarks .outside false cs = ds := by
  induction rewritten with
  | nil => rfl
  | @string body cs ds isBody _ ih =>
    have through : questionMarks .outside false ('\'' :: (body ++ cs)) =
        '\'' :: questionMarks .quoted false (body ++ cs) := by
      simp [questionMarks, Place.next]
    rw [through, isBody.questionMarks, ih]
  | @placeholder number cs ds nonempty digits ends _ ih =>
    have begins : (number ++ cs).head?.any Char.isDigit := by
      obtain ⟨c, number, rfl⟩ := List.exists_cons_of_ne_nil nonempty
      simpa using digits c List.mem_cons_self
    have through : questionMarks .outside false ('$' :: (number ++ cs)) =
        '?' :: questionMarks .outside true (number ++ cs) := by
      simp only [questionMarks, begins, Bool.false_and, Bool.false_eq_true, if_false, beq_self_eq_true,
        Bool.and_self, if_true]
    rw [through, questionMarks_digits digits, questionMarks_of_no_digit ends, ih]
  | @plain c cs ds notQuote bare _ ih =>
    have other : ¬ (c = '$' ∧ cs.head?.any Char.isDigit) := by
      rintro ⟨dollar, digit⟩
      obtain ⟨d, isFirst, isDigit⟩ := (Option.any_eq_true ..).mp digit
      rw [bare dollar d isFirst] at isDigit
      cases isDigit
    rw [questionMarks, if_neg (by simp), if_neg (by simpa using other), Place.next_of_ne notQuote, ih]

/-- Every text with a reading can be rewritten, and the rewriting has that reading. -/
theorem of_reading {found : List (List Char)} (reading : Reading cs found) :
    ∃ ds, Rewritten cs ds ∧ Reading ds found := by
  -- behind a dollar sign, what is rewritten next is the text behind the digits
  suffices both : (∃ ds, Rewritten cs ds ∧ Reading ds found) ∧
      ∃ ds, Rewritten (cs.dropWhile Char.isDigit) ds ∧ Reading ds found from both.1
  induction reading with
  | nil => exact ⟨⟨[], .nil, .nil⟩, [], .nil, .nil⟩
  | @plain c cs found notQuote rest ih =>
    obtain ⟨⟨ds, rewritten, readingRest⟩, es, behind, readingBehind⟩ := ih
    have first : ∃ ds, Rewritten (c :: cs) ds ∧ Reading ds found := by
      by_cases begins : c = '$' ∧ cs.head?.any Char.isDigit
      · obtain ⟨rfl, digit⟩ := begins
        obtain ⟨digits, ends⟩ := span_spec (p := Char.isDigit) cs
        refine ⟨'?' :: es, ?_, .plain (by decide) readingBehind⟩
        rw [← List.takeWhile_append_dropWhile (p := Char.isDigit) (l := cs)]
        exact .placeholder (digits_ne_nil_iff.mpr digit) digits ends behind
      · refine ⟨c :: ds, .plain notQuote ?_ rewritten, .plain notQuote readingRest⟩
        intro dollar d isFirst
        have other : cs.head?.any Char.isDigit = false := by simpa [dollar] using begins
        rw [Option.mem_def.mp isFirst] at other
        exact other
    refine ⟨first, ?_⟩
    by_cases digit : c.isDigit
    · rw [List.dropWhile_cons_of_pos digit]
      exact ⟨es, behind, readingBehind⟩
    · rw [List.dropWhile_cons_of_neg digit]
      exact first
  | @string body cs found isBody rest ih =>
    obtain ⟨⟨ds, rewritten, readingRest⟩, _⟩ := ih
    have first : ∃ ds, Rewritten ('\'' :: (body ++ cs)) ds ∧ Reading ds (('\'' :: body) :: found) :=
      ⟨_, .string isBody rewritten, .string isBody readingRest⟩
    exact ⟨first, first⟩

theorem head?_eq (rewritten : Rewritten cs ds) : ds.head? = cs.head? ∨ ds.head? = some '?' := by
  cases rewritten with
  | nil | string | plain => exact Or.inl rfl
  | placeholder => exact Or.inr rfl

/-- A rewriting has no placeholders left. -/
theorem again (rewritten : Rewritten cs ds) : Rewritten ds ds := by
  induction rewritten with
  | nil => exact .nil
  | string isBody _ ih => exact .string isBody ih
  | placeholder _ _ _ _ ih => exact .plain (by decide) (by simp) ih
  | plain notQuote bare rest ih =>
    refine .plain notQuote (fun dollar => ?_) ih
    rcases rest.head?_eq with same | mark
    · rw [same]
      exact bare dollar
    · rw [mark]
      rintro d ⟨⟩
      rfl

end Rewritten

end SqlTemplate.Sql

namespace SqlTemplate
open SqlTemplate.Sql

/-- Whichever way the strings of a statement are read, its normal form and its rewriting
have the same strings in the same order, and so does the lexer. Outside strings, rewriting
does nothing but put a question mark in place of each placeholder, once and for all. -/
theorem readings_agree {statement : String} {quoted : List (List Char)}
    (reading : Reading statement.toList quoted) {normal rewritten : String}
    (isNormal : normalizeText statement = normal)
    (isRewritten : PlaceholderStyle.question.rewrite statement = rewritten) :
    (Reading normal.toList quoted ∧ Reading rewritten.toList quoted) ∧
      (Reading statement.toList (strings statement.toList) ∧
        strings normal.toList = strings statement.toList ∧
        strings rewritten.toList = strings statement.toList) ∧
      (∀ text : String, Rewritten statement.toList text.toList ↔ text = rewritten) ∧
      PlaceholderStyle.question.rewrite rewritten = rewritten := by
  obtain ⟨ds, marked, readingMarked⟩ := Rewritten.of_reading reading
  have same : rewritten.toList = ds := by
    rw [← marked.eq, ← isRewritten]
    exact String.toList_ofList ..
  have again : PlaceholderStyle.question.rewrite rewritten = rewritten := by
    rw [PlaceholderStyle.rewrite, same, marked.again.eq, ← same, String.ofList_toList]
  have normalized : normal.toList = normalize statement.toList := by
    rw [← isNormal]
    exact String.toList_ofList ..
  refine ⟨⟨?_, same ▸ readingMarked⟩, ⟨reading_strings reading.balanced, ?_, ?_⟩, ?_, again⟩
  · rw [normalized]
    exact reading.normalize
  · rw [normalized, strings_normalize reading.balanced]
  · rw [same, ← marked.eq, strings_questionMarks]
  · intro text
    constructor
    · intro allowed
      rw [← String.toList_inj, same, ← marked.eq, allowed.eq]
    · rintro rfl
      rw [same]
      exact marked

/-- A string with quotes and a placeholder in it, next to a placeholder outside. -/
def noted : String := "note  = 'it''s $1; \\' '  OR id = $12 ;"

theorem noted_agrees :
    ∃ normal rewritten, normalizeText noted = normal ∧
      PlaceholderStyle.question.rewrite noted = rewritten ∧
      (Reading normal.toList ["'it''s $1; \\' '".toList] ∧
        Reading rewritten.toList ["'it''s $1; \\' '".toList]) ∧
      (Reading noted.toList (strings noted.toList) ∧
        strings normal.toList = strings noted.toList ∧
        strings rewritten.toList = strings noted.toList) ∧
      (∀ text : String, Rewritten noted.toList text.toList ↔ text = rewritten) ∧
      PlaceholderStyle.question.rewrite rewritten = rewritten := by
  have read : strings noted.toList = ["'it''s $1; \\' '".toList] := by decide +kernel
  have balanced : Balanced noted.toList := by rfl
  have reading := reading_strings balanced
  rw [read] at reading
  have normal : normalizeText noted = "note = 'it''s $1; \\' ' OR id = $12" := by decide +kernel
  have rewritten : PlaceholderStyle.question.rewrite noted =
      "note  = 'it''s $1; \\' '  OR id = ? ;" := by decide +kernel
  exact ⟨_, _, normal, rewritten, readings_agree reading normal rewritten⟩

end SqlTemplate
