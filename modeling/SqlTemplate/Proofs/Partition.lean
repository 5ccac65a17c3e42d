import Mathlib.Data.List.Chain
import SqlTemplate.Proofs.Lexemes

/-!
# Source texts as lexemes

Put together again, the lexemes of a text are the text: its tokens and its comments, in
order and with nothing between them (`tokenize_partition`). Each looks as its rule demands
and goes as far as it can, so that no plain text stands next to plain text, and no white
space next to white space.
-/

namespace SqlTemplate
open SqlTemplate.Text SqlTemplate.Identifier SqlTemplate.Sql SqlTemplate.Source

/-! ### Neighbours -/

/-- What a part of a source text is. -/
inductive Form where
  | blank
  /-- The rest of a line from two dashes on. -/
  | line
  | string
  | parameter
  | plain
deriving DecidableEq

/-- SQL text is told apart by its first character. -/
def Lexeme.form : Lexeme → Form
  | comment _ | token .name _ _ | token .docs _ _ => .line
  | token .parameter _ _ => .parameter
  | token .fragment _ raw =>
    if raw.head?.any isBlank then .blank else if raw.head? = some '\'' then .string else .plain

theorem form_of_blank {run : List Char} (nonempty : run ≠ []) (blank : ∀ c ∈ run, isBlank c)
    (value : List Char) : (Lexeme.token .fragment value run).form = .blank := by
  obtain ⟨c, run, rfl⟩ := List.exists_cons_of_ne_nil nonempty
  simp [Lexeme.form, blank c List.mem_cons_self]

theorem PlainText.form {text rest : List Char} (isPlain : PlainText text rest)
    (nonempty : text ≠ []) (value : List Char) :
    (Lexeme.token .fragment value text).form = .plain := by
  obtain ⟨c, text, rfl⟩ := List.exists_cons_of_ne_nil nonempty
  obtain ⟨shown, notQuote⟩ := isPlain.not_mem c List.mem_cons_self
  simp [Lexeme.form, shown, notQuote]

/-- Two lexemes that may be neighbours: plain text does not follow plain text, and a run of
white space does not follow white space, except for that at the end of a comment or of a
directive, which goes as far as its line. -/
structure Lexeme.Apart (first second : Lexeme) : Prop where
  plain : first.form = .plain → second.form ≠ .plain
  blank : second.form = .blank → first.form ≠ .line → ∀ c ∈ first.raw.getLast?, isBlank c = false

theorem PlainText.stops {text rest : List Char} (h : PlainText text rest) : Stops rest := by
  induction h with
  | stop stops => exact stops
  | colons _ ih | colon _ _ _ ih | dash _ _ ih | char _ _ _ _ _ ih => exact ih

theorem Sql.StringBody.getLast?_eq {body : List Char} (h : StringBody body) :
    body.getLast? = some '\'' := by
  induction h with
  | close => rfl
  | quotes _ ih | escaped _ _ ih | plain _ _ _ ih => simp [List.getLast?_cons, ih]

namespace Lexeme
variable {leading : Bool} {rest : List Char} {lexeme first second : Lexeme}

/-- What is plain by its first character is plain text. -/
theorem Fits.plainText (fits : lexeme.Fits leading rest) (plain : lexeme.form = .plain) :
    PlainText lexeme.raw rest ∧ lexeme = .token .fragment lexeme.raw lexeme.raw := by
  cases fits with
  | blank nonempty blank =>
    rw [form_of_blank nonempty blank] at plain
    cases plain
  | string =>
    have notBlank : isBlank '\'' = false := by decide
    simp [form, notBlank] at plain
  | plain _ isPlain => exact ⟨isPlain, rfl⟩
  | name | docs | comment | parameter => cases plain

theorem head_of_form_blank (blank : lexeme.form = .blank) : lexeme.raw.head?.any isBlank := by
  cases lexeme with
  | comment => cases blank
  | token kind value raw =>
    cases kind with
    | name | docs | parameter => cases blank
    | fragment =>
      by_contra shown
      change ¬ raw.head?.any isBlank at shown
      rw [form, if_neg shown] at blank
      split at blank <;> cases blank

/-- What is white space by its first character is a run of white space. -/
theorem Fits.blankRun (fits : lexeme.Fits leading rest) (blank : lexeme.form = .blank) :
    lexeme = .token .fragment [' '] lexeme.raw ∧ (∀ c ∈ lexeme.raw, isBlank c) ∧
      ∀ c ∈ rest.head?, isBlank c = false := by
  have head := head_of_form_blank blank
  cases fits with
  | blank _ blanks ends => exact ⟨rfl, blanks, ends⟩
  | string =>
    have notBlank : isBlank '\'' = false := by decide
    simp [Lexeme.raw, notBlank] at head
  | plain nonempty isPlain =>
    rw [isPlain.form nonempty] at blank
    cases blank
  | name | docs | comment | parameter => cases blank

/-- White space ends nothing but lines and white space. -/
theorem Fits.shown_last (fits : lexeme.Fits leading rest) (notBlank : lexeme.form ≠ .blank)
    (notLine : lexeme.form ≠ .line) : ∀ c ∈ lexeme.raw.getLast?, isBlank c = false := by
  cases fits with
  | blank nonempty blank => exact absurd (form_of_blank nonempty blank _) notBlank
  | name | docs | comment => exact absurd rfl notLine
  | @string body _ isBody =>
    have last : ('\'' :: body).getLast? = some '\'' := by
      simp [List.getLast?_cons, isBody.getLast?_eq]
    intro c isLast
    rw [← Option.some.inj (last.symm.trans isLast)]
    decide
  | @parameter name _ identifier =>
    intro c isLast
    rcases List.mem_cons.mp (List.mem_of_getLast? isLast) with rfl | member
    · decide
    · exact shown_of_isTail (isTail_of_mem identifier member)
  | plain _ isPlain => exact fun c isLast => (isPlain.not_mem c (List.mem_of_getLast? isLast)).1

/-- Lexemes that fit one in front of the other are apart. -/
theorem Fits.apart {next : Bool} (fits : first.Fits leading (second.raw ++ rest))
    (follows : second.Fits next rest) : first.Apart second := by
  constructor
  · intro plain again
    exact (follows.plainText again).1.not_stops follows.raw_ne_nil (fits.plainText plain).1.stops
  · intro blank notLine
    refine fits.shown_last ?_ notLine
    intro again
    obtain ⟨c, isFirst, isBlank_c⟩ := (Option.any_eq_true ..).mp (head_of_form_blank blank)
    have head : (second.raw ++ rest).head? = some c := by simp [List.head?_append, isFirst]
    rw [(fits.blankRun again).2.2 c head] at isBlank_c
    cases isBlank_c

end Lexeme

namespace Lexes
variable {cursor : Cursor} {placed before after : List Placed} {piece : Placed}

theorem of_cons (lexes : Lexes cursor (piece :: after)) :
    cursor.position = piece.position ∧ piece.lexeme.Fits cursor.leading (source after) ∧
      Lexes (cursor.advance piece.lexeme.raw (source after)) after := by
  cases lexes with
  | cons fits rest => exact ⟨rfl, fits, rest⟩

theorem isChain (lexes : Lexes cursor placed) :
    placed.IsChain fun first second => first.lexeme.Apart second.lexeme := by
  induction lexes with
  | nil => exact .nil
  | @cons cursor lexeme more fits rest ih =>
    cases more with
    | nil => exact .singleton _
    | cons second more => exact .cons_cons (fits.apart rest.of_cons.2.1) ih

/-- Each lexeme stands where the text before it leads, and fits in front of the text behind it. -/
theorem fits (lexes : Lexes cursor (before ++ piece :: after)) :
    (cursor.advance (source before) (source (piece :: after))).position = piece.position ∧
    piece.lexeme.Fits (cursor.advance (source before) (source (piece :: after))).leading
        (source after) := by
  induction before generalizing cursor with
  | nil => exact ⟨lexes.of_cons.1, lexes.of_cons.2.1⟩
  | cons first before ih =>
    have moved := ih lexes.of_cons.2.2
    simpa [source, Cursor.advance_append] using moved

end Lexes

/-- A text cut into lexemes, of which those that are no comments are its tokens. -/
structure Partition (text : String) (tokens : List Token) (placed : List Placed) : Prop where
  whole : source placed = text.toList
  tokens : placed.filterMap Placed.token? = tokens
  fits : ∀ before piece after, placed = before ++ piece :: after →
    piece.lexeme.Fits (Cursor.advance {} (source before) (source (piece :: after))).leading
      (source after)
  plain : ∀ piece ∈ placed, piece.lexeme.form = .plain →
    piece.lexeme = .token .fragment piece.lexeme.raw piece.lexeme.raw ∧ piece.lexeme.raw ≠ [] ∧
      (∀ c ∈ piece.lexeme.raw, isBlank c = false ∧ c ≠ '\'') ∧ ¬ ['-', '-'] <:+: piece.lexeme.raw
  apart : placed.IsChain fun first second => first.lexeme.Apart second.lexeme

/-- Tokens and comments make up the text that they are read from. -/
theorem tokenize_partition {text : String} {tokens : List Token} (h : tokenize text = .ok tokens) :
    ∃ placed, Partition text tokens placed := by
  obtain ⟨placed, whole, lexes, isTokens⟩ := tokenize_eq_ok_iff.mp h
  refine ⟨placed, whole, isTokens, ?_, ?_, lexes.isChain⟩
  · rintro before piece after rfl
    exact lexes.fits.2
  · intro piece member plain
    obtain ⟨before, after, rfl⟩ := List.append_of_mem member
    have fits := lexes.fits.2
    obtain ⟨isPlain, same⟩ := fits.plainText plain
    exact ⟨same, fits.raw_ne_nil, isPlain.not_mem, isPlain.no_dashes⟩

/-- A condition with a comment, a string and a parameter. -/
def tall : String := "h>-1 -- it's\n +:low::m||'it''s'"

def tallTokens : List Token :=
  [ ⟨.fragment, "h>-1", "h>-1", ⟨1, 1⟩⟩
  , ⟨.fragment, " ", " ", ⟨1, 5⟩⟩
  , ⟨.fragment, " ", "\n ", ⟨1, 13⟩⟩
  , ⟨.fragment, "+", "+", ⟨2, 2⟩⟩
  , ⟨.parameter, "low", ":low", ⟨2, 3⟩⟩
  , ⟨.fragment, "::m||", "::m||", ⟨2, 7⟩⟩
  , ⟨.fragment, "'it''s'", "'it''s'", ⟨2, 12⟩⟩ ]

/-- The comment is no token, but its text is part of the partition. -/
theorem tall_partition : ∃ placed, Partition tall tallTokens placed :=
  tokenize_partition (by decide +kernel)

end SqlTemplate
