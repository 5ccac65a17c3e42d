import SqlTemplate.Proofs.Comments

/-!
# Where errors lie

An error has the position of a character of the source text that is not white space: of the
one that cannot be read on (`lexemes_error`), or of the first one of the token that is at
fault (`ofTokens_error`, `ofDefinitions_error`). Where nothing but white space is left there
is no such token, and the error has the first position of all (`QuerySet.parse_error`,
`Template.parse_error`).
-/

namespace SqlTemplate
open SqlTemplate.Text SqlTemplate.Identifier SqlTemplate.Sql SqlTemplate.Source

/-- The position at which a character that is not white space stands in a text, for a cursor
that reads the text. -/
def Source.Cursor.Meets (cursor : Cursor) (text : List Char) (position : Position) : Prop :=
  ∃ before c after, text = before ++ c :: after ∧ isBlank c = false ∧
    (cursor.advance before (c :: after)).position = position

/-! ### Tokens -/

/-- A lexeme that cannot be read does not begin with white space. -/
theorem lexemes_error {cursor : Cursor} {cs : List Char} {error : LexError}
    (h : lexemes cursor cs = .error error) : cursor.Meets cs error.position := by
  fun_induction lexemes cursor cs generalizing error with
  | case1 => cases h
  | case2 cursor c cs fault found =>
    cases h
    refine ⟨[], c, cs, rfl, ?_, rfl⟩
    by_contra blank
    rw [Lexeme.read, if_pos (by simpa using blank)] at found
    cases found
  | case3 cursor c cs lexeme rest found _ ih =>
    obtain ⟨before, d, after, rfl, shown, position⟩ := ih (Except.map_eq_error_iff.mp h)
    refine ⟨lexeme.raw ++ before, d, after, ?_, shown, ?_⟩
    · rw [List.append_assoc, Lexeme.read_append found]
    · rw [Cursor.advance_append]
      exact position

/-- The position of a token that is not blank. -/
def Token.Marks (tokens : List Token) (position : Position) : Prop :=
  ∃ token ∈ tokens, token.isBlank = false ∧ token.position = position

theorem Token.Marks.mono {tokens more : List Token} {position : Position}
    (marks : Marks tokens position) (subset : tokens ⊆ more) : Marks more position := by
  obtain ⟨token, member, shown, same⟩ := marks
  exact ⟨token, subset member, shown, same⟩

theorem Token.Marks.of_kind {tokens : List Token} {token : Token} (member : token ∈ tokens)
    (other : token.kind ≠ .fragment) : Marks tokens token.position :=
  ⟨token, member, isBlank_of_kind other, rfl⟩

/-- A token that is not blank begins with a character that is not white space. -/
theorem Token.Marks.meets {text : String} {tokens : List Token} (read : tokenize text = .ok tokens)
    {position : Position} (marks : Marks tokens position) :
    Cursor.Meets {} text.toList position := by
  obtain ⟨placed, whole, lexes, rfl⟩ := tokenize_eq_ok_iff.mp read
  obtain ⟨token, member, shown, rfl⟩ := marks
  obtain ⟨⟨place, lexeme⟩, isPlaced, isToken⟩ := List.mem_filterMap.mp member
  obtain ⟨before, after, rfl⟩ := List.append_of_mem isPlaced
  obtain ⟨stands, fits⟩ := lexes.fits
  cases lexeme with
  | comment raw => cases isToken
  | token kind value raw =>
    cases isToken
    have notBlank : (Lexeme.token kind value raw).form ≠ .blank := by
      intro blank
      cases (fits.blankRun blank).1
      have space : allBlank (String.ofList [' ']) := by decide
      simp [isBlank, space] at shown
    obtain ⟨c, cs, begins, shownFirst⟩ := fits.shown_first notBlank
    obtain rfl : raw = c :: cs := begins
    refine ⟨source before, c, cs ++ source after, ?_, shownFirst, stands⟩
    rw [← whole]
    simp [source, Lexeme.raw]

/-! ### Definitions -/

namespace Definition

theorem ofGroup_error {name : Token} (isName : name.kind = .name) {tokens : List Token}
    {error : ParseError} (h : ofGroup name tokens = .error error) :
    Token.Marks (name :: tokens) error.position := by
  have within : (splitDocs (tokens.dropWhile Token.isBlank)).2 ⊆ tokens :=
    List.Subset.trans (splitDocs_subset _) (List.dropWhile_subset _)
  rcases Except.bind_eq_error_iff.mp h with misplaced | ⟨pieces, _, h⟩
  · unfold body? at misplaced
    split at misplaced
    · next docs found =>
      cases misplaced
      have isDocs : docs.kind = .docs := by simpa using List.find?_some found
      have member := within (List.mem_of_find?_eq_some found)
      exact .of_kind (List.mem_cons_of_mem _ member) (by simp [isDocs])
    · cases misplaced
  · by_cases blank : pieces.all Piece.isBlank
    · rw [if_pos blank] at h
      cases h
      exact .of_kind List.mem_cons_self (by simp [isName])
    · rw [if_neg blank] at h
      cases h

theorem ofNamed_error {tokens : List Token} (named : ∀ token ∈ tokens.head?, token.kind = .name)
    {error : ParseError} (h : ofNamed tokens = .error error) : Token.Marks tokens error.position := by
  fun_induction ofNamed tokens with
  | case1 => cases h
  | case2 token tokens isName ih =>
    rcases Except.bind_eq_error_iff.mp h with first | ⟨_, _, h⟩
    · exact (ofGroup_error isName first).mono
        (List.cons_subset_cons _ (List.takeWhile_subset _))
    · rcases Except.bind_eq_error_iff.mp h with others | ⟨_, _, h⟩
      · have stops : ∀ token ∈ (tokens.dropWhile (·.kind != .name)).head?, token.kind = .name := by
          intro token isFirst
          simpa using (span_spec tokens).2 token isFirst
        exact (ih stops others).mono
          (List.subset_cons_of_subset _ (List.dropWhile_subset _))
      · cases h
  | case3 token tokens isDocs =>
    rw [named token rfl] at isDocs
    cases isDocs
  | case4 token tokens notName _ => exact absurd (named token rfl) notName

/-- A named definition has the position of its name. -/
theorem ofNamed_marks {tokens : List Token} {definitions : List Definition}
    (h : ofNamed tokens = .ok definitions) :
    ∀ definition ∈ definitions, Token.Marks tokens definition.position := by
  obtain ⟨groups, wellFormed, rfl, rfl⟩ := exists_groups h
  intro definition member
  obtain ⟨group, isGroup, rfl⟩ := List.mem_map.mp member
  refine .of_kind (List.mem_flatMap.mpr ⟨group, isGroup, List.mem_cons_self⟩) ?_
  simp [(wellFormed group isGroup).name]

theorem checkNames_error {seen : List (String × Position)} {queries : List Definition}
    {error : ParseError} (h : checkNames seen queries = .error error) :
    ∃ query ∈ queries, query.position = error.position := by
  fun_induction checkNames seen queries with
  | case1 => cases h
  | case2 seen query queries _ ih =>
    obtain ⟨other, member, same⟩ := ih h
    exact ⟨other, List.mem_cons_of_mem _ member, same⟩
  | case3 seen query queries name _ first _ =>
    cases h
    exact ⟨query, List.mem_cons_self, rfl⟩
  | case4 seen query queries name _ _ ih =>
    obtain ⟨other, member, same⟩ := ih h
    exact ⟨other, List.mem_cons_of_mem _ member, same⟩

theorem ofTemplate_error {first : Token} {tokens : List Token} {error : ParseError}
    (h : ofTemplate first tokens = .error error) : Token.Marks tokens error.position := by
  unfold ofTemplate at h
  split at h
  · next token found =>
    cases h
    refine .of_kind (List.mem_of_find?_eq_some found) ?_
    intro isFragment
    simpa [isFragment] using List.find?_some found
  · cases h

end Definition

namespace Document

/-- The definitions of a document. -/
def definitions : Document → List Definition
  | named definitions => definitions
  | anonymous definition => [definition]

theorem ofTokens_error {tokens : List Token} {error : ParseError}
    (h : ofTokens tokens = .error error) :
    error.position = Position.first ∨ Token.Marks tokens error.position := by
  unfold ofTokens at h
  split at h
  · cases h
    exact Or.inl rfl
  · next first rest found =>
    have within : first :: rest ⊆ tokens := found ▸ List.dropWhile_subset _
    refine Or.inr (Token.Marks.mono ?_ within)
    split at h
    · next isName =>
      have named : ∀ token ∈ (first :: rest).head?, token.kind = .name := by simpa using isName
      rcases Except.bind_eq_error_iff.mp h with group | ⟨queries, isNamed, h⟩
      · exact Definition.ofNamed_error named group
      · rcases Except.bind_eq_error_iff.mp h with again | ⟨_, _, h⟩
        · obtain ⟨query, member, same⟩ := Definition.checkNames_error again
          exact same ▸ Definition.ofNamed_marks isNamed query member
        · cases h
    · exact Definition.ofTemplate_error (Except.map_eq_error_iff.mp h)

theorem ofTokens_marks {tokens : List Token} {document : Document}
    (h : ofTokens tokens = .ok document) :
    document.definitions ≠ [] ∧
      ∀ definition ∈ document.definitions, Token.Marks tokens definition.position := by
  cases spelled_of_ofTokens h with
  | @named blanks groups blank nonempty wellFormed distinct =>
    refine ⟨by simpa [definitions] using nonempty, ?_⟩
    intro definition member
    obtain ⟨group, isGroup, rfl⟩ := List.mem_map.mp member
    have listed : group.name ∈ groups.flatMap TokenGroup.tokens :=
      List.mem_flatMap.mpr ⟨group, isGroup, List.mem_cons_self⟩
    exact .of_kind (List.mem_append_right _ listed) (by simp [(wellFormed group isGroup).name])
  | anonymous blank shown =>
    refine ⟨List.cons_ne_nil _ _, ?_⟩
    intro definition member
    obtain rfl := List.mem_singleton.mp member
    exact ⟨_, by simp, shown, rfl⟩

/-- Where an error lies for which no definition is at fault. -/
theorem parse_error {text : String} {error : CompileError} (h : Document.parse text = .error error) :
    error.position = Position.first ∨ Cursor.Meets {} text.toList error.position := by
  rcases Except.bind_eq_error_iff.mp h with unread | ⟨tokens, read, unmade⟩
  · cases found : tokenize text with
    | ok tokens =>
      rw [found] at unread
      cases unread
    | error fault =>
      rw [found] at unread
      cases unread
      exact Or.inr (lexemes_error (Except.map_eq_error_iff.mp found))
  · have read := Except.mapError_eq_ok_iff.mp read
    cases made : Document.ofTokens tokens with
    | ok document =>
      rw [made] at unmade
      cases unmade
    | error fault =>
      rw [made] at unmade
      cases unmade
      exact (ofTokens_error made).imp id (Token.Marks.meets read)

/-- The definitions of a text lie in it. -/
theorem parse_meets {text : String} {document : Document} (h : Document.parse text = .ok document) :
    document.definitions ≠ [] ∧
      ∀ definition ∈ document.definitions, Cursor.Meets {} text.toList definition.position := by
  obtain ⟨tokens, read, made⟩ := parse_eq_ok_iff.mp h
  obtain ⟨nonempty, marks⟩ := ofTokens_marks made
  exact ⟨nonempty, fun definition member => (marks definition member).meets read⟩

end Document

/-! ### Sets and templates -/

namespace QuerySet

theorem compileAll_error {taken : List String} {definitions : List Definition} {error : ParseError}
    (h : compileAll taken definitions = .error error) :
    ∃ definition ∈ definitions, definition.position = error.position := by
  fun_induction compileAll taken definitions with
  | case1 => cases h
  | case2 taken definition more _ =>
    cases h
    exact ⟨definition, List.mem_cons_self, rfl⟩
  | case3 taken definition more name _ _ =>
    cases h
    exact ⟨definition, List.mem_cons_self, rfl⟩
  | case4 taken definition more name _ _ ih =>
    obtain ⟨other, member, same⟩ := ih (Except.map_eq_error_iff.mp h)
    exact ⟨other, List.mem_cons_of_mem _ member, same⟩

/-- The definition that is at fault, or the one of the query that closes a cycle. -/
theorem ofDefinitions_error {definitions : List Definition} {error : ParseError}
    (h : ofDefinitions definitions = .error error) :
    ∃ definition ∈ definitions, definition.position = error.position := by
  rcases Except.bind_eq_error_iff.mp h with uncompiled | ⟨queries, compiled, h⟩
  · exact compileAll_error uncompiled
  · dsimp only at h
    split at h
    · next cycle found =>
      cases h
      have isQuery := List.mem_of_find?_eq_some (real_of_cycle? found).query
      have same := (compileAll_eq_ok_iff.mp compiled).1
      have isCompiled : some cycle.query ∈ definitions.map Definition.compiled? :=
        same ▸ List.mem_map_of_mem isQuery
      obtain ⟨definition, member, same⟩ := List.mem_map.mp isCompiled
      obtain ⟨_, same⟩ := Definition.compiled?_eq_some_iff.mp same
      exact ⟨definition, member, by rw [← same]; rfl⟩
    · cases h

theorem parse_error {text : String} {error : CompileError} (h : QuerySet.parse text = .error error) :
    error.position = Position.first ∨ Cursor.Meets {} text.toList error.position := by
  rcases Except.bind_eq_error_iff.mp h with unparsed | ⟨document, parsed, h⟩
  · exact Document.parse_error unparsed
  · obtain ⟨_, meets⟩ := Document.parse_meets parsed
    right
    cases document with
    | anonymous definition =>
      cases h
      exact meets definition List.mem_cons_self
    | named definitions =>
      cases found : ofDefinitions definitions with
      | ok set =>
        simp [found, Except.mapError] at h
      | error fault =>
        simp only [found, Except.mapError, Except.error.injEq] at h
        obtain ⟨definition, member, same⟩ := ofDefinitions_error found
        rw [← h]
        change Cursor.Meets {} text.toList fault.position
        exact same ▸ meets definition member

end QuerySet

theorem Template.parse_error {text : String} {error : CompileError}
    (h : Template.parse text = .error error) :
    error.position = Position.first ∨ Cursor.Meets {} text.toList error.position := by
  rcases Except.bind_eq_error_iff.mp h with unparsed | ⟨document, parsed, h⟩
  · exact Document.parse_error unparsed
  · obtain ⟨nonempty, meets⟩ := Document.parse_meets parsed
    right
    cases document with
    | anonymous definition => cases h
    | named definitions =>
      cases h
      obtain ⟨first, more, rfl⟩ := List.exists_cons_of_ne_nil nonempty
      exact meets first List.mem_cons_self

end SqlTemplate
