import SqlTemplate.Proofs.Partition
import SqlTemplate.Proofs.Spacing

/-!
# Comments

A comment changes nothing but the layout. It lies between white space and the end of its
line, so that a text without its comments has the same lexemes as the text, except that
white space before a comment and white space behind it become one (`Lexes.erase`). Both
texts define sets that expand to the same (`parse_erased`).
-/

namespace SqlTemplate
open SqlTemplate.Text SqlTemplate.Source SqlTemplate.Identifier SqlTemplate.Sql

/-! ### Texts that end a lexeme in the same way -/

/-- A text that begins with the end of a line, if there is anything in it. -/
def Breaks (text : List Char) : Prop := ∀ c ∈ text.head?, isLineBreak c

/-- The text begins like another one, or with the end of a line. -/
def BeginsLike (other text : List Char) : Prop := text.head? = other.head? ∨ Breaks text

theorem isBlank_of_isLineBreak {c : Char} (ends : isLineBreak c) : isBlank c := by
  rcases Bool.or_eq_true_iff.mp ends with feed | feed
  · obtain rfl : c = '\n' := by simpa using feed
    decide
  · obtain rfl : c = '\r' := by simpa using feed
    decide

theorem not_isTail_of_isLineBreak {c : Char} (ends : isLineBreak c) : isTail c = false := by
  rw [Bool.eq_false_iff]
  intro tail
  have blank := isBlank_of_isLineBreak ends
  rw [shown_of_isTail tail] at blank
  cases blank

theorem not_isHead_of_isLineBreak {c : Char} (ends : isLineBreak c) : isHead c = false := by
  rw [Bool.eq_false_iff]
  intro head
  have tail := isTail_of_isHead head
  rw [not_isTail_of_isLineBreak ends] at tail
  cases tail

namespace BeginsLike
variable {text other : List Char}

theorem append (like : BeginsLike other text) (front : List Char) :
    BeginsLike (front ++ other) (front ++ text) := by
  cases front with
  | nil => exact like
  | cons => exact Or.inl rfl

theorem head (like : BeginsLike other text) {p : Char → Prop} (lines : ∀ c, isLineBreak c → p c)
    (first : ∀ c ∈ other.head?, p c) : ∀ c ∈ text.head?, p c := by
  rcases like with same | breaks
  · rwa [same]
  · exact fun c isFirst => lines c (breaks c isFirst)

theorem any_head (like : BeginsLike other text) {p : Char → Bool}
    (lines : ∀ c, isLineBreak c → p c = false) (first : other.head?.any p = false) :
    text.head?.any p = false := by
  rcases like with same | breaks
  · rwa [same]
  · cases isFirst : text.head? with
    | none => rfl
    | some c => exact lines c (breaks c isFirst)

/-- A character that ends no line comes first only where it comes first in the other text. -/
theorem head_ne (like : BeginsLike other text) {c : Char} (inside : isLineBreak c = false)
    (first : other.head? ≠ some c) : text.head? ≠ some c := by
  rcases like with same | breaks
  · rwa [same]
  · intro isFirst
    rw [breaks c isFirst] at inside
    cases inside

end BeginsLike

theorem PlainText.follow {text rest rest' : List Char} (h : PlainText text rest)
    (like : BeginsLike rest rest') (stops : Stops rest') : PlainText text rest' := by
  induction h with
  | stop => exact .stop stops
  | colons _ ih => exact .colons (ih like)
  | @colon text rest single noHead _ ih =>
    have like' := like.append text
    exact .colon (like'.head_ne (by decide) single)
      (like'.any_head (fun _ => not_isHead_of_isLineBreak) noHead) (ih like)
  | @dash text rest single _ ih =>
    exact .dash ((like.append text).head_ne (by decide) single) (ih like)
  | char shown notQuote notColon notDash _ ih =>
    exact .char shown notQuote notColon notDash (ih like)

theorem Line.follow {line rest rest' : List Char} (h : Line line rest)
    (like : BeginsLike rest rest') : Line line rest' :=
  ⟨h.inside, like.head (fun _ ends => ends) h.ends⟩

namespace Lexeme
variable {leading : Bool} {rest rest' : List Char} {lexeme : Lexeme}

/-- Only plain text goes on after plain text. -/
theorem Fits.stops (fits : lexeme.Fits leading rest) (other : lexeme.form ≠ .plain)
    (rest' : List Char) : Stops (lexeme.raw ++ rest') := by
  cases fits with
  | @blank run _ nonempty blank =>
    obtain ⟨c, run, rfl⟩ := List.exists_cons_of_ne_nil nonempty
    exact .blank (blank c List.mem_cons_self)
  | name | docs | comment => exact .dashes
  | string => exact .quote
  | @parameter name _ identifier =>
    obtain ⟨c, name, rfl⟩ : ∃ c cs, name = c :: cs := by
      cases name with
      | nil => cases identifier
      | cons c cs => exact ⟨c, cs, rfl⟩
    exact .parameter (Bool.and_eq_true_iff.mp identifier).1
  | plain nonempty isPlain => exact absurd (isPlain.form nonempty _) other

/-- A lexeme that is neither white space nor a comment fits in front of any text that ends
it in the same way. -/
theorem Fits.follow (fits : lexeme.Fits leading rest) (notBlank : lexeme.form ≠ .blank)
    (like : BeginsLike rest rest') (stops : lexeme.form = .plain → Stops rest') :
    lexeme.Fits leading rest' := by
  cases fits with
  | blank nonempty blank => exact absurd (form_of_blank nonempty blank _) notBlank
  | name isLine first directive identifier =>
    exact .name (isLine.follow like) first directive identifier
  | docs isLine first directive => exact .docs (isLine.follow like) first directive
  | comment isLine other => exact .comment (isLine.follow like) other
  | string isBody ends => exact .string isBody (like.head_ne (by decide) ends)
  | parameter identifier ends =>
    exact .parameter identifier (like.head (fun _ => not_isTail_of_isLineBreak) ends)
  | plain nonempty isPlain =>
    exact .plain nonempty (isPlain.follow like (stops (isPlain.form nonempty _)))

end Lexeme

/-! ### Where lines begin -/

theorem endsLine_of_ne {c : Char} {next : Option Char} (noFeed : next ≠ some '\n') :
    endsLine c next = isLineBreak c := by
  have other : (next != some '\n') = true := by simpa using noFeed
  simp [endsLine, isLineBreak, other]

namespace Source.Cursor
variable {cursor other : Cursor}

theorem leading_step (cursor : Cursor) (c : Char) (next : Option Char) :
    (cursor.step c next).leading = (endsLine c next || (cursor.leading && isBlank c)) := by
  unfold step
  split
  · next ends => simp [ends]
  · next inside => simp [inside]

/-- What stands behind a text that ends no line does not matter. -/
theorem leading_advance (same : other.leading = cursor.leading) {text after after' : List Char}
    (last : ∀ c ∈ text.getLast?, isLineBreak c = false) :
    (other.advance text after').leading = (cursor.advance text after).leading := by
  induction text generalizing cursor other with
  | nil => exact same
  | cons c cs ih =>
    cases cs with
    | nil =>
      have inside : isLineBreak c = false := last c rfl
      simp only [isLineBreak, Bool.or_eq_false_iff] at inside
      simp [advance, leading_step, endsLine, inside, same]
    | cons d ds => exact ih (by simp [leading_step, same]) last

/-- White space leads to the start of a line if there is the end of a line in it. -/
theorem leading_advance_blank {run after : List Char} (blank : ∀ c ∈ run, isBlank c)
    (noFeed : after.head? ≠ some '\n') :
    (cursor.advance run after).leading = (cursor.leading || run.any isLineBreak) := by
  induction run generalizing cursor with
  | nil => simp [advance]
  | cons c cs ih =>
    obtain ⟨first, rest⟩ := List.forall_mem_cons.mp blank
    rw [advance, ih rest, leading_step, first, List.any_cons]
    by_cases later : cs.any isLineBreak
    · simp [later]
    · -- the last character is not one half of a line end
      have next : cs.head?.or after.head? ≠ some '\n' := by
        cases cs with
        | nil => exact noFeed
        | cons d ds =>
          rintro ⟨⟩
          simp [isLineBreak] at later
      rw [endsLine_of_ne next, Bool.and_true, Bool.or_comm (isLineBreak c), Bool.or_assoc]

/-- Behind a run of white space, cursors agree that did so before it, unless a line ends
right there in the text that is like the other one. -/
theorem leading_advance_run {run after after' : List Char} (nonempty : run ≠ [])
    (blank : ∀ c ∈ run, isBlank c) (ends : ∀ c ∈ after.head?, isBlank c = false)
    (like : BeginsLike after after')
    (agrees : other.leading = cursor.leading ∨ Breaks (run ++ after')) :
    (other.advance run after').leading = (cursor.advance run after).leading ∨ Breaks after' := by
  rcases like with like | breaks
  · have noFeed : after.head? ≠ some '\n' := by
      intro isFirst
      exact absurd (ends _ isFirst) (by decide)
    rw [leading_advance_blank blank noFeed, leading_advance_blank blank (like ▸ noFeed)]
    refine Or.inl ?_
    rcases agrees with same | breaks
    · rw [same]
    · obtain ⟨c, cs, rfl⟩ := List.exists_cons_of_ne_nil nonempty
      simp [breaks c rfl]
  · exact Or.inr breaks

end Source.Cursor

/-! ### Lexemes without comments -/

/-- The tokens among lexemes. -/
def tokens (placed : List Placed) : List Token := placed.filterMap Placed.token?

/-- The text of lexemes without their comments. -/
def erased (placed : List Placed) : List Char := (tokens placed).flatMap (·.raw.toList)

theorem erased_comment (position : Position) (raw : List Char) (more : List Placed) :
    erased (⟨position, .comment raw⟩ :: more) = erased more := rfl

theorem erased_token (position : Position) (kind : TokenKind) (value raw : List Char)
    (more : List Placed) :
    erased (⟨position, .token kind value raw⟩ :: more) = raw ++ erased more := by
  simp [erased, tokens, Placed.token?]

namespace Lexeme
variable {leading : Bool} {raw rest : List Char} {lexeme : Lexeme}

theorem Fits.breaks (fits : (Lexeme.comment raw).Fits leading rest) : Breaks rest := by
  cases fits with
  | comment isLine => exact isLine.ends

/-- No lexeme but white space begins with white space. -/
theorem Fits.shown_first (fits : lexeme.Fits leading rest) (notBlank : lexeme.form ≠ .blank) :
    ∃ c cs, lexeme.raw = c :: cs ∧ isBlank c = false := by
  cases fits with
  | blank nonempty blank => exact absurd (form_of_blank nonempty blank _) notBlank
  | name | docs | comment => exact ⟨'-', _, rfl, by decide⟩
  | string => exact ⟨'\'', _, rfl, by decide⟩
  | parameter => exact ⟨':', _, rfl, by decide⟩
  | plain nonempty isPlain =>
    obtain ⟨c, text, rfl⟩ := List.exists_cons_of_ne_nil nonempty
    exact ⟨c, text, rfl, (isPlain.not_mem c List.mem_cons_self).1⟩

theorem Fits.not_breaks (fits : lexeme.Fits leading rest) (notBlank : lexeme.form ≠ .blank)
    (rest' : List Char) : ¬ Breaks (lexeme.raw ++ rest') := by
  obtain ⟨c, cs, begins, shown⟩ := fits.shown_first notBlank
  intro breaks
  have ends := isBlank_of_isLineBreak (breaks c (by rw [begins]; rfl))
  rw [shown] at ends
  cases ends

theorem form_fragment_ne_line (value raw : List Char) :
    (Lexeme.token .fragment value raw).form ≠ .line := by
  rw [form]
  split
  · decide
  · split <;> decide

/-- No lexeme but white space ends with the end of a line. -/
theorem Fits.inside_last (fits : lexeme.Fits leading rest) (notBlank : lexeme.form ≠ .blank) :
    ∀ c ∈ lexeme.raw.getLast?, isLineBreak c = false := by
  by_cases line : lexeme.form = .line
  · have inside {line rest : List Char} (isLine : Line line rest) :
        ∀ c ∈ ('-' :: '-' :: line).getLast?, isLineBreak c = false := by
      intro c isLast
      have member : c ∈ '-' :: '-' :: line := List.mem_of_getLast? isLast
      simp only [List.mem_cons] at member
      rcases member with rfl | rfl | member
      · decide
      · decide
      · exact isLine.inside c member
    cases fits with
    | name isLine | docs isLine | comment isLine => exact inside isLine
    | parameter => cases line
    | blank nonempty blank => exact absurd (form_of_blank nonempty blank _) notBlank
    | string => exact absurd line (form_fragment_ne_line _ _)
    | plain => exact absurd line (form_fragment_ne_line _ _)
  · intro c isLast
    rw [Bool.eq_false_iff]
    intro ends
    have shown := fits.shown_last notBlank line c isLast
    rw [isBlank_of_isLineBreak ends] at shown
    cases shown

end Lexeme

namespace Lexes
variable {cursor : Cursor} {placed : List Placed}

/-- Without comments, lexemes begin as with them, or with the end of a line. -/
theorem erased_like (lexes : Lexes cursor placed) : BeginsLike (source placed) (erased placed) := by
  induction lexes with
  | nil => exact Or.inl rfl
  | @cons cursor lexeme more fits _ ih =>
    cases lexeme with
    | comment raw => exact Or.inr (ih.head (fun _ ends => ends) fits.breaks)
    | token kind value raw =>
      rw [erased_token, source_cons]
      obtain ⟨c, raw, rfl⟩ := List.exists_cons_of_ne_nil fits.raw_ne_nil
      exact Or.inl rfl

theorem erased_breaks (lexes : Lexes cursor placed) (breaks : Breaks (source placed)) :
    Breaks (erased placed) :=
  lexes.erased_like.head (fun _ ends => ends) breaks

/-- What ends plain text still does without comments. -/
theorem erased_stops (lexes : Lexes cursor placed) (stops : Stops (source placed)) :
    Stops (erased placed) := by
  cases lexes with
  | nil => exact .nil
  | @cons _ lexeme more fits rest =>
    cases lexeme with
    | comment raw =>
      have breaks := rest.erased_breaks fits.breaks
      rw [erased_comment]
      cases same : erased more with
      | nil => exact .nil
      | cons c cs => exact .blank (isBlank_of_isLineBreak (breaks c (by rw [same]; rfl)))
    | token kind value raw =>
      rw [erased_token]
      refine fits.stops ?_ _
      intro plain
      exact (fits.plainText plain).1.not_stops fits.raw_ne_nil stops

/-- What fits in front of lexemes still does without their comments. -/
theorem erased_fits (lexes : Lexes cursor placed) {leading : Bool} {lexeme : Lexeme}
    (fits : lexeme.Fits leading (source placed)) (notBlank : lexeme.form ≠ .blank) :
    lexeme.Fits leading (erased placed) :=
  fits.follow notBlank lexes.erased_like fun plain =>
    lexes.erased_stops (fits.plainText plain).1.stops

/-- White space goes together with white space that comes to stand behind it. -/
theorem erase_blank {other : Cursor} {position : Position} {raw rest : List Char}
    {more placed' : List Placed} (nonempty : raw ≠ []) (blanks : ∀ c ∈ raw, isBlank c)
    (whole : source placed' = rest) (lexes : Lexes (other.advance raw rest) placed')
    (spaced : SpacedTokens (tokens more) (tokens placed')) :
    ∃ joined, source joined = raw ++ rest ∧ Lexes other joined ∧
      SpacedTokens (tokens (⟨position, .token .fragment [' '] raw⟩ :: more)) (tokens joined) := by
  subst whole
  by_cases starts : (source placed').head?.any isBlank
  · -- the white space behind it is a run of its own, which this one joins
    cases placed' with
    | nil => cases starts
    | cons first more' =>
      obtain ⟨position', lexeme⟩ := first
      obtain ⟨_, fits, rest⟩ := lexes.of_cons
      have blank : lexeme.form = .blank := by
        by_contra notBlank
        obtain ⟨c, cs, begins, shown⟩ := fits.shown_first notBlank
        change lexeme.raw = c :: cs at begins
        simp [begins, shown] at starts
      obtain ⟨same, blanks', ends⟩ := fits.blankRun blank
      obtain ⟨run, rfl⟩ : ∃ run, lexeme = .token .fragment [' '] run := ⟨_, same⟩
      refine ⟨⟨other.position, .token .fragment [' '] (raw ++ run)⟩ :: more', ?_, .cons ?_ ?_, ?_⟩
      · rw [source_cons, source_cons]
        exact List.append_assoc ..
      · refine .blank (by simp [nonempty]) ?_ ends
        intro c member
        exact (List.mem_append.mp member).elim (blanks c) (blanks' c)
      · change Lexes (other.advance (raw ++ run) (source more')) more'
        rw [Cursor.advance_append]
        exact rest
      · exact .drop ⟨rfl, rfl⟩ ⟨rfl, rfl⟩ ⟨rfl, rfl⟩ spaced
  · have ends : ∀ c ∈ (source placed').head?, isBlank c = false := by
      intro c isFirst
      rw [Option.mem_def.mp isFirst] at starts
      simpa using starts
    exact ⟨⟨other.position, .token .fragment [' '] raw⟩ :: placed', rfl,
      .cons (.blank nonempty blanks ends) lexes, .keep ⟨rfl, rfl⟩ spaced⟩

/-- The lexemes of a text without its comments. Read from a cursor that agrees on whether
only white space stands before it on its line, unless a line ends there anyway. -/
theorem erase (lexes : Lexes cursor placed) (other : Cursor)
    (agrees : other.leading = cursor.leading ∨ Breaks (erased placed)) :
    ∃ placed', source placed' = erased placed ∧ Lexes other placed' ∧
      SpacedTokens (tokens placed) (tokens placed') := by
  induction lexes generalizing other with
  | nil => exact ⟨[], rfl, .nil other, .nil⟩
  | @cons cursor lexeme more fits rest ih =>
    cases lexeme with
    | comment raw =>
      -- the comment ends with its line, so that it does not matter where the cursor stood
      exact ih other (Or.inr (rest.erased_breaks fits.breaks))
    | token kind value raw =>
      rw [erased_token] at agrees ⊢
      by_cases blank : (Lexeme.token kind value raw).form = .blank
      · obtain ⟨same, blanks, ends⟩ := fits.blankRun blank
        cases same
        have agrees' :=
          Cursor.leading_advance_run fits.raw_ne_nil blanks ends rest.erased_like agrees
        obtain ⟨placed', whole, lexes', spaced⟩ := ih _ agrees'
        exact erase_blank fits.raw_ne_nil blanks whole lexes' spaced
      · have same := agrees.resolve_right (fits.not_breaks blank _)
        have fits' := rest.erased_fits (same ▸ fits) blank
        have agrees' : (other.advance raw (erased more)).leading =
            (cursor.advance raw (source more)).leading :=
          Cursor.leading_advance same (fits.inside_last blank)
        obtain ⟨placed', whole, lexes', spaced⟩ := ih _ (Or.inl agrees')
        refine ⟨⟨other.position, .token kind value raw⟩ :: placed', ?_, .cons ?_ ?_, ?_⟩
        · rw [source_cons, whole]
          rfl
        · rwa [whole]
        · rw [whole]
          exact lexes'
        · exact .keep ⟨rfl, rfl⟩ spaced

end Lexes

/-! ### Sets of queries -/

/-- A text without its comments has the same tokens up to spaces. -/
theorem tokenize_erased {text : String} {tokens : List Token} (h : tokenize text = .ok tokens) :
    ∃ tokens', tokenize (String.join (tokens.map (·.raw))) = .ok tokens' ∧
      SpacedTokens tokens tokens' := by
  obtain ⟨placed, _, lexes, rfl⟩ := tokenize_eq_ok_iff.mp h
  obtain ⟨placed', whole, lexes', spaced⟩ := lexes.erase {} (Or.inl rfl)
  refine ⟨_, tokenize_eq_ok_iff.mpr ⟨placed', ?_, lexes', rfl⟩, spaced⟩
  rw [whole, String.toList_join, List.flatMap_map]
  rfl

/-- A text without its comments defines a set with the same queries, each with the same docs
and references, and all of them expand to the same. -/
theorem parse_erased {text : String} {set : QuerySet} (h : QuerySet.parse text = .ok set) :
    ∃ tokens set', tokenize text = .ok tokens ∧
      QuerySet.parse (String.join (tokens.map (·.raw))) = .ok set' ∧
      set'.queries.map (fun query => (query.name, query.docs, query.references)) =
        set.queries.map (fun query => (query.name, query.docs, query.references)) ∧
      ∀ name params options, params.Plain →
        set'.expand name params options = set.expand name params options := by
  obtain ⟨definitions, parsed, defined⟩ := QuerySet.parse_eq_ok_iff.mp h
  obtain ⟨tokens, read, made⟩ := Document.parse_eq_ok_iff.mp parsed
  obtain ⟨tokens', read', spaced⟩ := tokenize_erased read
  obtain ⟨definitions', made', same⟩ := Document.ofTokens_spaced spaced made
  have sound := Document.ofTokens_sound made (tokenize_sound read)
  obtain ⟨set', defined', sets⟩ := QuerySet.ofDefinitions_spaced same sound defined
  have parsed' := Document.parse_eq_ok_iff.mpr ⟨tokens', read', made'⟩
  have accepted := QuerySet.parse_eq_ok_iff.mpr ⟨definitions', parsed', defined'⟩
  refine ⟨tokens, set', read, accepted, ?_, ?_⟩
  · symm
    exact map_eq_of_forall₂ sets fun _ _ same => by rw [same.name, same.docs, same.references_eq]
  · exact fun name params options plain => (sets.expand name plain options).symm

/-- A query among comments. -/
def commented : String := "-- people\n-- name: old\nage > -- years\n :limit"

def commentedSet : QuerySet where
  queries := [⟨"old", none, [.literal "age >  ", .parameter "limit"], ⟨2, 1⟩⟩]

theorem parse_commented : QuerySet.parse commented = .ok commentedSet := by
  have parsed : Document.parse commented = .ok (.named [⟨some "old", none,
      [.literal "age", .literal " ", .literal ">", .literal " ", .literal " ", .parameter "limit"],
      ⟨2, 1⟩⟩]) := by decide +kernel
  exact QuerySet.parse_eq_ok_iff.mpr ⟨_, parsed, by cbv⟩

/-- Without its comments, the query has fewer spaces, which do not show. -/
theorem commented_erased :
    ∃ tokens set', tokenize commented = .ok tokens ∧
      QuerySet.parse (String.join (tokens.map (·.raw))) = .ok set' ∧
      set'.queries.map (fun query => (query.name, query.docs, query.references)) =
        commentedSet.queries.map (fun query => (query.name, query.docs, query.references)) ∧
      ∀ name params options, params.Plain →
        set'.expand name params options = commentedSet.expand name params options :=
  parse_erased parse_commented

end SqlTemplate
