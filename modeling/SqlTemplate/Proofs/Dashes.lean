import SqlTemplate.Proofs.Grammar
import SqlTemplate.Proofs.Partition
import SqlTemplate.Proofs.Normal

/-!
# Two dashes in a row

Outside strings, two dashes in a row open a comment. Normal forms neither gain nor lose one
(`opensComment_normalize`), and two texts one after the other have one more than both of
them only if a dash ends the first and a dash begins the second. The lexer takes all
comments away, and what it leaves of a source text does not come together to another one,
so the literals of a set have none (`parse_undashed`).
-/

namespace SqlTemplate.Sql
open SqlTemplate.Text

/-- Somewhere two dashes stand in a row. -/
def OpensComment (cs : List Char) : Prop := ['-', '-'] <:+: cs

/-! ### Texts -/

theorem not_opensComment_nil : ¬ OpensComment [] := by simp [OpensComment]

theorem opensComment_cons {c : Char} {cs : List Char} :
    OpensComment (c :: cs) ↔ (c = '-' ∧ cs.head? = some '-') ∨ OpensComment cs := by
  unfold OpensComment
  rw [List.infix_cons_iff, List.cons_prefix_cons]
  cases cs <;> simp [List.cons_prefix_cons, @eq_comm _ '-']

theorem opensComment_cons_of_ne {c : Char} (other : c ≠ '-') {cs : List Char} :
    OpensComment (c :: cs) ↔ OpensComment cs := by
  simp [opensComment_cons, other]

theorem opensComment_of_no_dash {cs : List Char} (plain : '-' ∉ cs) : ¬ OpensComment cs := by
  intro opens
  exact plain (opens.subset List.mem_cons_self)

theorem opensComment_append {a b : List Char} :
    OpensComment (a ++ b) ↔
      OpensComment a ∨ OpensComment b ∨ (a.getLast? = some '-' ∧ b.head? = some '-') := by
  induction a with
  | nil => simp [not_opensComment_nil]
  | cons c a ih =>
    rw [List.cons_append, opensComment_cons, opensComment_cons, ih]
    cases a with
    | nil => simp [not_opensComment_nil, or_comm]
    | cons d a => simp [or_assoc]

/-! ### White space and strings -/

/-- Collapsing white space leaves alone which character comes first. -/
theorem head?_collapse {c : Char} (shown : isBlank c = false) (cs : List Char) :
    (collapse true false cs).head? = some c ↔ cs.head? = some c := by
  have space : ' ' ≠ c := ne_of_isBlank (by decide) shown
  have gap (cs : List Char) : (collapse true true cs).head? ≠ some c := by
    induction cs with
    | nil => simp [collapse]
    | cons d cs ih => by_cases blank : isBlank d <;> simp [collapse, blank, ih, space]
  cases cs with
  | nil => simp [collapse]
  | cons d cs =>
    by_cases blank : isBlank d
    · simp [collapse, blank, gap, ne_of_isBlank blank shown]
    · simp [collapse, blank]

theorem opensComment_collapse (kept gap : Bool) (cs : List Char) :
    OpensComment (collapse kept gap cs) ↔ OpensComment cs := by
  induction cs generalizing kept gap with
  | nil => rfl
  | cons c cs ih =>
    have shown : OpensComment (c :: collapse true false cs) ↔ OpensComment (c :: cs) := by
      rw [opensComment_cons, opensComment_cons, head?_collapse (by decide), ih]
    by_cases blank : isBlank c
    · have other : c ≠ '-' := ne_of_isBlank blank (by decide)
      simpa [collapse, blank, opensComment_cons_of_ne other] using ih kept true
    · by_cases both : kept && gap
      · simpa [collapse, blank, both, opensComment_cons_of_ne] using shown
      · simpa [collapse, blank, both] using shown

/-- Normal forms open the comments that the text opens outside strings. -/
theorem opensComment_normalize (cs : List Char) :
    OpensComment (visible .outside (normalize cs)) ↔ OpensComment (visible .outside cs) := by
  obtain ⟨ending, isEnding, whole⟩ := visible_normalize cs
  have plain : '-' ∉ ending := isEnding.not_mem (by decide) (by decide)
  have begins : ending.head? ≠ some '-' := fun isFirst => plain (List.mem_of_head? isFirst)
  rw [← opensComment_collapse false false (visible .outside cs), ← whole, opensComment_append]
  simp [opensComment_of_no_dash plain, begins]

theorem SameButQuotes.head? {a b : List Char} (same : SameButQuotes a b) : a.head? = b.head? := by
  cases same <;> rfl

theorem SameButQuotes.opensComment {a b : List Char} (same : SameButQuotes a b) :
    OpensComment a ↔ OpensComment b := by
  induction same with
  | nil => rfl
  | char c rest ih => rw [opensComment_cons, opensComment_cons, rest.head?, ih]
  | @quotes more a b quotes _ ih =>
    have plain : '-' ∉ more := fun member => absurd (quotes _ member) (by decide)
    have ends : more.getLast? ≠ some '-' := fun isLast => plain (List.mem_of_getLast? isLast)
    rw [opensComment_cons_of_ne (by decide), opensComment_cons_of_ne (by decide),
      opensComment_append, ih]
    simp [opensComment_of_no_dash plain, ends]

theorem Place.eq_quote {place : Place} (inside : place ≠ .outside) {c : Char}
    (closes : place.next c = .outside) : c = '\'' := by
  cases place with
  | outside => exact absurd rfl inside
  | quoted =>
    by_contra other
    simp only [next, beq_iff_eq, other, if_false] at closes
    split at closes <;> cases closes
  | escaped => cases closes

/-- The last character that is seen of a text with an open string is a quote. -/
theorem getLast?_visible_of_open {cs : List Char} (opened : Place.outside.after cs ≠ .outside) :
    (visible .outside cs).getLast? = some '\'' := by
  induction cs using List.reverseRecOn with
  | nil => exact absurd rfl opened
  | append_singleton cs c ih =>
    rw [visible_append]
    by_cases inside : Place.outside.after cs = .outside
    · have quote : c = '\'' := by
        by_contra other
        rw [Place.after_append, inside] at opened
        exact opened (Place.next_of_ne other)
      simp [inside, visible, quote]
    · simpa [visible, inside] using ih inside

/-- A dash at the end of a text in which every string is closed stands outside strings. -/
theorem Balanced.getLast?_visible {cs : List Char} (balanced : Balanced cs) :
    (visible .outside cs).getLast? = some '-' ↔ cs.getLast? = some '-' := by
  rcases List.eq_nil_or_concat cs with rfl | ⟨cs, c, rfl⟩
  · rfl
  · rw [List.concat_eq_append] at balanced ⊢
    rw [Sql.visible_append]
    by_cases inside : Place.outside.after cs = .outside
    · simp [inside, visible]
    · rw [Balanced, Place.after_append] at balanced
      have quote := Place.eq_quote inside balanced
      simp [visible, inside, getLast?_visible_of_open inside, quote]

/-- Where the strings of the first text are closed, a comment opens outside strings in one
of two texts, or where they meet. -/
theorem Balanced.opensComment_append {a : List Char} (balanced : Balanced a) (b : List Char) :
    OpensComment (visible .outside (a ++ b)) ↔
      OpensComment (visible .outside a) ∨ OpensComment (visible .outside b) ∨
        (a.getLast? = some '-' ∧ b.head? = some '-') := by
  rw [balanced.visible_append, Sql.opensComment_append, balanced.getLast?_visible, head?_visible]

/-- A text without dashes and quotes closes all strings and opens no comment. -/
theorem opensComment_of_plain {cs : List Char} (noQuote : '\'' ∉ cs) (noDash : '-' ∉ cs) :
    Balanced cs ∧ ¬ OpensComment (visible .outside cs) := by
  obtain ⟨same, balanced⟩ := visible_of_no_quote noQuote
  rw [same]
  exact ⟨balanced, opensComment_of_no_dash noDash⟩

end SqlTemplate.Sql

namespace SqlTemplate
open SqlTemplate.Text SqlTemplate.Identifier SqlTemplate.Sql SqlTemplate.Source

/-! ### Tokens -/

/-- SQL text that is not empty and opens no comment outside its strings. -/
structure Undashed (text : String) : Prop where
  nonempty : text.toList ≠ []
  closed : ¬ OpensComment (visible .outside text.toList)

/-- SQL text that may stand in front of other SQL text: where they meet no comment opens. -/
def MeetsClosed (text next : String) : Prop :=
  text.toList.getLast? = some '-' → next.toList.head? ≠ some '-'

theorem PlainText.ends_dash {text rest : List Char} (h : PlainText text rest)
    (ends : text.getLast? = some '-') : rest.head? ≠ some '-' := by
  induction h with
  | stop => cases ends
  | @colons text rest more ih =>
    cases text with
    | nil => simp at ends
    | cons c text => exact ih (by simpa using ends)
  | @colon text rest _ _ more ih =>
    cases text with
    | nil => simp at ends
    | cons c text => exact ih (by simpa using ends)
  | @dash text rest single more ih =>
    cases text with
    | nil => exact single
    | cons c text => exact ih (by simpa using ends)
  | @char c text rest _ _ _ notDash more ih =>
    cases text with
    | nil => exact absurd (by simpa using ends) notDash
    | cons d text => exact ih (by simpa using ends)

namespace Lexeme
variable {leading : Bool} {value raw rest : List Char}

theorem Fits.undashed (fits : (token .fragment value raw).Fits leading rest) :
    Undashed (String.ofList value) := by
  have string {body : List Char} (isBody : StringBody body) :
      ¬ OpensComment (visible .outside ('\'' :: body)) := by
    have seen : visible .outside ('\'' :: body) = '\'' :: visible .quoted body := rfl
    have noDash : '-' ∉ visible .quoted body :=
      fun member => absurd (isBody.visible.2 _ member) (by decide)
    rw [seen, opensComment_cons_of_ne (by decide)]
    exact opensComment_of_no_dash noDash
  cases fits with
  | blank => exact ⟨by decide, opensComment_of_no_dash (by decide)⟩
  | string isBody => exact ⟨by simp, by simpa using string isBody⟩
  | plain nonempty isPlain =>
    have noQuote : '\'' ∉ value := fun member => (isPlain.not_mem _ member).2 rfl
    refine ⟨by simpa using nonempty, ?_⟩
    rw [String.toList_ofList, (visible_of_no_quote noQuote).1]
    exact isPlain.no_dashes

/-- SQL text that ends with a dash is not in front of another dash. -/
theorem Fits.ends_dash (fits : (token .fragment value raw).Fits leading rest)
    (ends : value.getLast? = some '-') : rest.head? ≠ some '-' := by
  cases fits with
  | blank => cases ends
  | string isBody => simp [List.getLast?_cons, isBody.getLast?_eq] at ends
  | plain _ isPlain => exact isPlain.ends_dash ends

/-- SQL text that begins with a dash is the text it was read from. -/
theorem Fits.begins_dash (fits : (token .fragment value raw).Fits leading rest)
    (begins : value.head? = some '-') : raw.head? = some '-' := by
  cases fits with
  | blank => cases begins
  | string => cases begins
  | plain => exact begins

end Lexeme

/-- Tokens of SQL text are well separated. -/
def Token.MeetsClosed (token next : Token) : Prop :=
  token.kind = .fragment → next.kind = .fragment → SqlTemplate.MeetsClosed token.value next.value

/-- A comment does not hide a dash from the one in front of it, for it begins with a dash. -/
theorem Lexes.meetsClosed {cursor : Cursor} {placed : List Placed} (lexes : Lexes cursor placed) :
    (placed.filterMap Placed.token?).IsChain Token.MeetsClosed := by
  induction lexes with
  | nil => exact .nil
  | @cons cursor lexeme more fits rest ih =>
    cases lexeme with
    | comment raw => exact ih
    | token kind value raw =>
      refine List.isChain_cons.mpr ⟨?_, ih⟩
      rintro next isNext isFragment nextFragment ends begins
      obtain rfl : kind = .fragment := isFragment
      have apart := fits.ends_dash (by simpa using ends)
      cases more with
      | nil => cases isNext
      | cons second more =>
        have follows := rest.of_cons.2.1
        obtain ⟨position, second⟩ := second
        cases second with
        | comment raw =>
          cases follows with
          | comment => exact apart rfl
        | token kind value raw =>
          cases isNext
          obtain rfl : kind = .fragment := nextFragment
          have begins := follows.begins_dash (by simpa using begins)
          exact apart (by simp [Lexeme.raw, List.head?_append, begins])

/-- No comment opens in the SQL text of tokens, nor where two of them meet. -/
structure Token.Separate (tokens : List Token) : Prop where
  each : ∀ token ∈ tokens, token.kind = .fragment → Undashed token.value
  chain : tokens.IsChain Token.MeetsClosed

theorem tokenize_separate {text : String} {tokens : List Token} (h : tokenize text = .ok tokens) :
    Token.Separate tokens := by
  obtain ⟨placed, _, lexes, rfl⟩ := tokenize_eq_ok_iff.mp h
  refine ⟨?_, lexes.meetsClosed⟩
  intro token member isFragment
  obtain ⟨⟨position, lexeme⟩, isPlaced, isToken⟩ := List.mem_filterMap.mp member
  obtain ⟨before, after, rfl⟩ := List.append_of_mem isPlaced
  have fits := lexes.fits.2
  cases lexeme with
  | comment raw => cases isToken
  | token kind value raw =>
    cases isToken
    obtain rfl : kind = .fragment := isFragment
    exact fits.undashed

theorem Token.Separate.within {tokens items : List Token} (separate : Separate tokens)
    (inside : items <:+: tokens) : Separate items := by
  refine ⟨fun token member => separate.each token (inside.subset member), ?_⟩
  obtain ⟨before, after, rfl⟩ := inside
  exact separate.chain.left_of_append.right_of_append

/-- The body of a group is one stretch of its tokens. -/
theorem TokenGroup.body_suffix (group : TokenGroup) : group.body <:+ group.tokens := by
  have items : group.items <:+ group.tokens :=
    ⟨group.name :: (group.blanks ++ group.docs.toList), by simp [tokens]⟩
  unfold body
  split
  · exact items
  · exact (List.dropWhile_suffix _).trans items

/-! ### Literals -/

/-- Pieces that may be neighbours: where two literals meet, no comment opens. -/
def Piece.MeetsClosed : Piece → Piece → Prop
  | literal text, literal next => SqlTemplate.MeetsClosed text next
  | _, _ => True

/-- No comment opens in the literals of a body, nor where two of them meet. -/
structure Piece.Separate (pieces : List Piece) : Prop where
  each : ∀ text, literal text ∈ pieces → Undashed text
  chain : pieces.IsChain Piece.MeetsClosed

theorem Token.Separate.pieces {tokens : List Token} (separate : Separate tokens)
    (items : ∀ token ∈ tokens, token.IsItem) : Piece.Separate (tokens.map Token.piece) := by
  have literal {token : Token} (member : token ∈ tokens) {text : String}
      (isLiteral : token.piece = .literal text) : token.kind = .fragment ∧ token.value = text := by
    rcases items token member with fragment | parameter
    · simp only [piece, fragment, beq_iff_eq, reduceCtorEq, if_false, Piece.literal.injEq] at isLiteral
      exact ⟨fragment, isLiteral⟩
    · simp [piece, parameter] at isLiteral
  constructor
  · intro text member
    obtain ⟨token, isToken, isLiteral⟩ := List.mem_map.mp member
    obtain ⟨isFragment, rfl⟩ := literal isToken isLiteral
    exact separate.each token isToken isFragment
  · rw [List.isChain_map]
    refine separate.chain.imp_of_mem_imp ?_
    intro token next isToken isNext apart
    cases first : token.piece with
    | parameter name => trivial
    | literal text =>
      cases second : next.piece with
      | parameter name => trivial
      | literal nextText =>
        obtain ⟨isFragment, rfl⟩ := literal isToken first
        obtain ⟨nextFragment, rfl⟩ := literal isNext second
        exact apart isFragment nextFragment

namespace Piece

/-- A merged literal begins with the first literal of the body. -/
theorem merge_begins {pieces rest : List Piece} {more : String}
    (merged : merge pieces = .literal more :: rest) :
    ∃ text others, pieces = .literal text :: others ∧ text.toList <+: more.toList := by
  cases pieces with
  | nil => cases merged
  | cons piece others =>
    cases piece with
    | parameter name => cases merged
    | literal text =>
      refine ⟨text, others, rfl, ?_⟩
      unfold merge at merged
      split at merged
      · obtain ⟨rfl, _⟩ : text ++ _ = more ∧ _ := by simpa using merged
        simp
      · obtain ⟨rfl, _⟩ : text = more ∧ _ := by simpa using merged
        exact List.prefix_rfl

/-- Merging literals opens no comment. -/
theorem merge_undashed {pieces : List Piece} (sound : ∀ piece ∈ pieces, piece.Sound)
    (separate : Separate pieces) : ∀ text, .literal text ∈ merge pieces → Undashed text := by
  have rest {piece : Piece} {pieces : List Piece} (separate : Separate (piece :: pieces)) :
      Separate pieces :=
    ⟨fun text member => separate.each text (List.mem_cons_of_mem _ member), separate.chain.tail⟩
  fun_induction merge pieces with
  | case1 => simp
  | case2 name pieces ih =>
    have others := ih (List.forall_mem_cons.mp sound).2 (rest separate)
    simpa using others
  | case3 text pieces more others same ih =>
    obtain ⟨isSound, othersSound⟩ := List.forall_mem_cons.mp sound
    have merged := ih othersSound (rest separate)
    rw [same] at merged
    have first := separate.each text List.mem_cons_self
    have second := merged more List.mem_cons_self
    have meets : ¬ (text.toList.getLast? = some '-' ∧ more.toList.head? = some '-') := by
      rintro ⟨ends, begins⟩
      obtain ⟨next, after, rfl, whole⟩ := merge_begins same
      have nonempty := (separate.each next (by simp)).nonempty
      have apart : SqlTemplate.MeetsClosed text next := (List.isChain_cons_cons.mp separate.chain).1
      obtain ⟨tail, whole⟩ := whole
      rw [← whole, List.head?_append_of_ne_nil _ nonempty] at begins
      exact apart ends begins
    have closed : ¬ OpensComment (visible .outside (text ++ more).toList) := by
      rw [String.toList_append, Balanced.opensComment_append isSound]
      exact not_or.mpr ⟨first.closed, not_or.mpr ⟨second.closed, meets⟩⟩
    intro other member
    rcases List.mem_cons.mp member with isMerged | member
    · cases isMerged
      exact ⟨by simp [first.nonempty], closed⟩
    · exact merged other (List.mem_cons_of_mem _ member)
  | case4 text pieces _ ih =>
    have others := ih (List.forall_mem_cons.mp sound).2 (rest separate)
    have first := separate.each text List.mem_cons_self
    intro other member
    rcases List.mem_cons.mp member with isFirst | member
    · cases isFirst
      exact first
    · exact others other member

end Piece

/-! ### Sets -/

theorem Document.separate {tokens : List Token} {definitions : List Definition}
    (made : Document.ofTokens tokens = .ok (.named definitions)) (separate : Token.Separate tokens) :
    ∀ definition ∈ definitions, Piece.Separate definition.body := by
  cases Document.spelled_of_ofTokens made with
  | @named blanks groups _ _ wellFormed _ =>
    intro definition member
    obtain ⟨group, isGroup, rfl⟩ := List.mem_map.mp member
    have listed : group.tokens <:+: groups.flatMap TokenGroup.tokens :=
      List.infix_of_mem_flatten (List.mem_map_of_mem isGroup)
    have inside := (group.body_suffix.isInfix.trans listed).trans (List.suffix_append blanks _).isInfix
    exact (separate.within inside).pieces (wellFormed group isGroup).body_isItem

/-- In a set that was read from a source text, no comment opens in a literal. -/
theorem QuerySet.parse_undashed {text : String} {set : QuerySet} (h : QuerySet.parse text = .ok set) :
    ∀ query ∈ set.queries, ∀ text, .literal text ∈ query.pieces → Undashed text := by
  obtain ⟨definitions, parsed, h⟩ := parse_eq_ok_iff.mp h
  obtain ⟨tokens, read, made⟩ := Document.parse_eq_ok_iff.mp parsed
  have sound := Document.ofTokens_sound made (tokenize_sound read)
  have separate := Document.separate made (tokenize_separate read)
  obtain ⟨compiled, _, _⟩ := ofDefinitions_eq_ok_iff.mp h
  intro query member
  have isQuery : some query ∈ definitions.map Definition.compiled? :=
    compiled ▸ List.mem_map_of_mem member
  obtain ⟨definition, isDefined, same⟩ := List.mem_map.mp isQuery
  obtain ⟨_, same⟩ := Definition.compiled?_eq_some_iff.mp same
  rw [← same]
  exact Piece.merge_undashed (sound definition isDefined).body (separate definition isDefined)

end SqlTemplate
