import SqlTemplate.Proofs.Source

/-!
# The grammar of documents

A document is what its tokens spell: blanks and then groups of tokens, each the name, the
docs and the body of one query, or blanks and then the tokens of one template
(`Document.Spelled`). The parser accepts exactly that, and what it makes of the tokens holds
all that they say except for the blanks between them (`ofTokens_iff_spelled`).
-/

namespace SqlTemplate

/-- SQL text or a parameter. -/
def Token.IsItem (token : Token) : Prop := token.kind = .fragment ∨ token.kind = .parameter

/-- The tokens of a named query, from its name up to the next name. -/
structure TokenGroup where
  name : Token
  blanks : List Token
  docs : Option Token
  items : List Token

namespace TokenGroup

def tokens (group : TokenGroup) : List Token :=
  group.name :: (group.blanks ++ (group.docs.toList ++ group.items))

/-- The kinds of the tokens are right, and the query says something. -/
structure WellFormed (group : TokenGroup) : Prop where
  name : group.name.kind = .name
  blanks : ∀ token ∈ group.blanks, token.isBlank
  docs : ∀ token ∈ group.docs, token.kind = .docs
  items : ∀ token ∈ group.items, token.IsItem
  shown : ∃ token ∈ group.items, token.isBlank = false

/-- The tokens of the body. Blanks right behind the name do not belong to it. -/
def body (group : TokenGroup) : List Token :=
  if group.docs.isSome then group.items else group.items.dropWhile Token.isBlank

/-- The query that a group defines. -/
def definition (group : TokenGroup) : Definition where
  name := some group.name.value
  docs := group.docs.map (·.value)
  body := group.body.map Token.piece
  position := group.name.position

end TokenGroup

/-- The document that a list of tokens spells. -/
inductive Document.Spelled : List Token → Document → Prop where
  | named {blanks : List Token} {groups : List TokenGroup} (blank : ∀ token ∈ blanks, token.isBlank)
      (some : groups ≠ []) (wellFormed : ∀ group ∈ groups, group.WellFormed)
      (distinct : (groups.map (·.name.value)).Nodup) :
      Spelled (blanks ++ groups.flatMap TokenGroup.tokens)
        (.named (groups.map TokenGroup.definition))
  | anonymous {blanks items : List Token} {first : Token}
      (blank : ∀ token ∈ blanks, token.isBlank) (shown : first.isBlank = false)
      (allItems : ∀ token ∈ first :: items, token.IsItem) :
      Spelled (blanks ++ first :: items)
        (.anonymous ⟨none, none, (first :: items).map Token.piece, first.position⟩)

/-! ### Tokens and groups -/

namespace Token

theorem isItem_iff {token : Token} :
    token.IsItem ↔ token.kind ≠ .name ∧ token.kind ≠ .docs := by
  unfold IsItem
  cases token.kind <;> simp

theorem isBlank_of_kind {token : Token} (other : token.kind ≠ .fragment) :
    token.isBlank = false := by
  simp [isBlank, other]

theorem isItem_of_isBlank {token : Token} (blank : token.isBlank) : token.IsItem :=
  Or.inl (by simpa using (Bool.and_eq_true_iff.mp blank).1)

theorem isBlank_piece {token : Token} (item : token.IsItem) :
    token.piece.isBlank = token.isBlank := by
  rcases item with fragment | parameter
  · simp [piece, isBlank, Piece.isBlank, fragment]
  · simp [piece, isBlank, Piece.isBlank, parameter]

end Token

theorem all_isBlank_piece {tokens : List Token} (items : ∀ token ∈ tokens, token.IsItem) :
    (tokens.map Token.piece).all Piece.isBlank = tokens.all Token.isBlank := by
  induction tokens with
  | nil => rfl
  | cons token tokens ih =>
    obtain ⟨first, rest⟩ := List.forall_mem_cons.mp items
    simp [Token.isBlank_piece first, ih rest]

/-- Blanks in front do not change whether there is a token that is not blank. -/
theorem all_isBlank_dropWhile (tokens : List Token) :
    (tokens.dropWhile Token.isBlank).all Token.isBlank = tokens.all Token.isBlank := by
  induction tokens with
  | nil => rfl
  | cons token tokens ih => by_cases blank : token.isBlank <;> simp [blank, ih]

namespace Definition

theorem body?_eq_ok_iff {tokens : List Token} {pieces : List Piece} :
    body? tokens = .ok pieces ↔
      (∀ token ∈ tokens, token.kind ≠ .docs) ∧ tokens.map Token.piece = pieces := by
  unfold body?
  split
  · next docs found =>
    have member := List.mem_of_find?_eq_some found
    have isDocs : docs.kind = .docs := by simpa using List.find?_some found
    simp only [reduceCtorEq, false_iff, not_and]
    exact fun noDocs => absurd isDocs (noDocs docs member)
  · next none =>
    have noDocs : ∀ token ∈ tokens, token.kind ≠ .docs := by simpa using none
    simp only [Except.ok.injEq]
    exact ⟨fun same => ⟨noDocs, same⟩, And.right⟩

/-- What a name and the tokens behind it define, once docs are split off. -/
theorem ofGroup_eq_ok_iff {name : Token} {tokens items : List Token} {docs : Option String}
    {definition : Definition} (split : splitDocs (tokens.dropWhile Token.isBlank) = (docs, items)) :
    ofGroup name tokens = .ok definition ↔
      (∀ token ∈ items, token.kind ≠ .docs) ∧ (items.map Token.piece).all Piece.isBlank = false ∧
        ⟨some name.value, docs, items.map Token.piece, name.position⟩ = definition := by
  unfold ofGroup
  rw [split]
  constructor
  · intro h
    obtain ⟨pieces, isBody, h⟩ := Except.bind_eq_ok_iff.mp h
    obtain ⟨noDocs, rfl⟩ := body?_eq_ok_iff.mp isBody
    by_cases blank : (items.map Token.piece).all Piece.isBlank
    · rw [if_pos blank] at h
      cases h
    · rw [if_neg blank] at h
      cases h
      exact ⟨noDocs, by simpa using blank, rfl⟩
  · rintro ⟨noDocs, shown, rfl⟩
    refine Except.bind_eq_ok_iff.mpr ⟨_, body?_eq_ok_iff.mpr ⟨noDocs, rfl⟩, ?_⟩
    rw [shown]
    rfl

/-- A name and the tokens up to the next name are a group if they define a query. -/
theorem exists_group {name : Token} {tokens : List Token} (isName : name.kind = .name)
    (unnamed : ∀ token ∈ tokens, token.kind ≠ .name) {definition : Definition}
    (h : ofGroup name tokens = .ok definition) :
    ∃ group : TokenGroup, group.WellFormed ∧ group.tokens = name :: tokens ∧
      group.definition = definition := by
  obtain ⟨blank, shownFirst⟩ := span_spec (p := Token.isBlank) tokens
  have whole := List.takeWhile_append_dropWhile (p := Token.isBlank) (l := tokens)
  have isItem {token : Token} (member : token ∈ tokens.dropWhile Token.isBlank)
      (notDocs : token.kind ≠ .docs) : token.IsItem :=
    Token.isItem_iff.mpr ⟨unnamed token (List.dropWhile_subset _ member), notDocs⟩
  cases rest : tokens.dropWhile Token.isBlank with
  | nil =>
    have split : splitDocs (tokens.dropWhile Token.isBlank) = (none, []) := by rw [rest]; rfl
    obtain ⟨_, shown, _⟩ := (ofGroup_eq_ok_iff split).mp h
    cases shown
  | cons first items =>
    rw [rest] at whole shownFirst isItem
    by_cases isDocs : first.kind = .docs
    · have split : splitDocs (tokens.dropWhile Token.isBlank) = (some first.value, items) := by
        simp [rest, splitDocs, isDocs]
      obtain ⟨noDocs, shown, rfl⟩ := (ofGroup_eq_ok_iff split).mp h
      have items : ∀ token ∈ items, token.IsItem := fun token member =>
        isItem (List.mem_cons_of_mem _ member) (noDocs token member)
      rw [all_isBlank_piece items] at shown
      exact ⟨⟨name, tokens.takeWhile Token.isBlank, some first, _⟩,
        ⟨isName, blank, by simpa using isDocs, items, by simpa using shown⟩,
        by simp [TokenGroup.tokens, whole], by simp [TokenGroup.definition, TokenGroup.body]⟩
    · have split : splitDocs (tokens.dropWhile Token.isBlank) = (none, first :: items) := by
        simp [rest, splitDocs, isDocs]
      obtain ⟨noDocs, _, rfl⟩ := (ofGroup_eq_ok_iff split).mp h
      have items : ∀ token ∈ first :: items, token.IsItem := fun token member =>
        isItem member (noDocs token member)
      have notBlank : first.isBlank = false := by simpa using shownFirst
      exact ⟨⟨name, tokens.takeWhile Token.isBlank, none, _⟩,
        ⟨isName, blank, by simp, items, first, List.mem_cons_self, notBlank⟩,
        by simp [TokenGroup.tokens, whole],
        by simp [TokenGroup.definition, TokenGroup.body, notBlank]⟩

theorem splitDocs_of_items {tokens : List Token} (items : ∀ token ∈ tokens, token.IsItem) :
    splitDocs tokens = (none, tokens) := by
  unfold splitDocs
  split
  · rfl
  · next first rest =>
    have notDocs := (Token.isItem_iff.mp (items first List.mem_cons_self)).2
    simp [notDocs]

theorem ofNamed_name {token : Token} (isName : token.kind = .name) (tokens : List Token) :
    ofNamed (token :: tokens) = (do
      let query ← ofGroup token (tokens.takeWhile (·.kind != .name))
      let more ← ofNamed (tokens.dropWhile (·.kind != .name))
      return query :: more) := by
  rw [ofNamed, isName]

theorem exists_groups {tokens : List Token} {definitions : List Definition}
    (h : ofNamed tokens = .ok definitions) :
    ∃ groups : List TokenGroup, (∀ group ∈ groups, group.WellFormed) ∧
      groups.flatMap TokenGroup.tokens = tokens ∧
        groups.map TokenGroup.definition = definitions := by
  fun_induction ofNamed tokens generalizing definitions with
  | case1 =>
    cases h
    exact ⟨[], by simp⟩
  | case2 token tokens isName ih =>
    obtain ⟨query, isGroup, h⟩ := Except.bind_eq_ok_iff.mp h
    obtain ⟨more, others, h⟩ := Except.bind_eq_ok_iff.mp h
    cases h
    have unnamed : ∀ token ∈ tokens.takeWhile (·.kind != .name), token.kind ≠ .name := by
      intro token member
      simpa using List.mem_takeWhile_imp member
    obtain ⟨group, wellFormed, spelled, rfl⟩ := exists_group isName unnamed isGroup
    obtain ⟨groups, allWellFormed, allSpelled, rfl⟩ := ih others
    refine ⟨group :: groups, List.forall_mem_cons.mpr ⟨wellFormed, allWellFormed⟩, ?_, rfl⟩
    rw [List.flatMap_cons, spelled, allSpelled, List.cons_append, List.takeWhile_append_dropWhile]
  | case3 => cases h
  | case4 => cases h

end Definition

namespace TokenGroup.WellFormed
variable {group : TokenGroup}

theorem unnamed (wellFormed : group.WellFormed) :
    ∀ token ∈ group.blanks ++ (group.docs.toList ++ group.items), token.kind ≠ .name := by
  intro token member isName
  rcases List.mem_append.mp member with blank | member
  · exact (Token.isItem_iff.mp (Token.isItem_of_isBlank (wellFormed.blanks token blank))).1 isName
  rcases List.mem_append.mp member with docs | item
  · rw [wellFormed.docs token (by simpa using docs)] at isName
    cases isName
  · exact (Token.isItem_iff.mp (wellFormed.items token item)).1 isName

theorem body_isItem (wellFormed : group.WellFormed) : ∀ token ∈ group.body, token.IsItem := by
  intro token member
  unfold body at member
  split at member
  · exact wellFormed.items token member
  · exact wellFormed.items token (List.dropWhile_subset _ member)

theorem body_shown (wellFormed : group.WellFormed) : group.body.all Token.isBlank = false := by
  have shown : group.items.all Token.isBlank = false := by simpa using wellFormed.shown
  unfold body
  split
  · exact shown
  · rw [all_isBlank_dropWhile, shown]

/-- Behind the name and its blanks, a group has its docs and then its body. -/
theorem splitDocs (wellFormed : group.WellFormed) :
    Definition.splitDocs
        ((group.blanks ++ (group.docs.toList ++ group.items)).dropWhile Token.isBlank) =
      (group.docs.map (·.value), group.body) := by
  rw [List.dropWhile_append_of_pos wellFormed.blanks]
  cases found : group.docs with
  | none =>
    have items := wellFormed.body_isItem
    simp only [body, found] at items ⊢
    exact Definition.splitDocs_of_items items
  | some docs =>
    have isDocs := wellFormed.docs docs (by simp [found])
    have shown : docs.isBlank = false := Token.isBlank_of_kind (by simp [isDocs])
    simp [body, found, shown, Definition.splitDocs, isDocs]

theorem ofGroup (wellFormed : group.WellFormed) :
    Definition.ofGroup group.name (group.blanks ++ (group.docs.toList ++ group.items)) =
      .ok group.definition := by
  refine (Definition.ofGroup_eq_ok_iff wellFormed.splitDocs).mpr ⟨?_, ?_, rfl⟩
  · exact fun token member => (Token.isItem_iff.mp (wellFormed.body_isItem token member)).2
  · rw [all_isBlank_piece wellFormed.body_isItem]
    exact wellFormed.body_shown

end TokenGroup.WellFormed

/-- Groups one after the other define their queries. -/
theorem TokenGroup.ofNamed {groups : List TokenGroup}
    (wellFormed : ∀ group ∈ groups, group.WellFormed) :
    Definition.ofNamed (groups.flatMap TokenGroup.tokens) =
      .ok (groups.map TokenGroup.definition) := by
  induction groups with
  | nil => simp [Definition.ofNamed]
  | cons group groups ih =>
    obtain ⟨first, rest⟩ := List.forall_mem_cons.mp wellFormed
    -- the next group begins with a name
    have stops : ∀ token ∈ (groups.flatMap TokenGroup.tokens).head?,
        (token.kind != .name) = false := by
      cases groups with
      | nil => simp
      | cons next more =>
        have isName := (rest next List.mem_cons_self).name
        simp [TokenGroup.tokens, isName]
    have unnamed : ∀ token ∈ group.blanks ++ (group.docs.toList ++ group.items),
        (token.kind != .name) = true := by
      intro token member
      simpa using first.unnamed token member
    obtain ⟨taken, dropped⟩ := span_append unnamed stops
    rw [List.flatMap_cons, TokenGroup.tokens, List.cons_append, Definition.ofNamed_name first.name,
      taken, dropped, first.ofGroup, ih rest]
    rfl

namespace Definition

/-! ### Names and templates -/

/-- The names of definitions are checked to differ from each other and from those before. -/
theorem checkNames_eq_ok_iff {seen : List (String × Source.Position)} {queries : List Definition} :
    checkNames seen queries = .ok () ↔
      (queries.filterMap (·.name)).Nodup ∧
        ∀ name ∈ queries.filterMap (·.name), name ∉ seen.map Prod.fst := by
  induction queries generalizing seen with
  | nil => simp [checkNames]
  | cons query queries ih =>
    cases named : query.name with
    | none => simpa [checkNames, named] using ih
    | some name =>
      rw [checkNames, named]
      dsimp only
      split
      · next first found =>
        have old : name ∈ seen.map Prod.fst := by
          obtain ⟨before, after, split, _⟩ := List.lookup_eq_some_iff.mp found
          simp [split]
        simp only [reduceCtorEq, false_iff, not_and]
        rw [List.filterMap_cons, named]
        exact fun _ fresh => fresh name List.mem_cons_self old
      · next found =>
        have new : name ∉ seen.map Prod.fst := by
          intro old
          obtain ⟨entry, member, rfl⟩ := List.mem_map.mp old
          simpa using List.lookup_eq_none_iff.mp found entry member
        rw [ih, List.filterMap_cons, named, List.nodup_cons, List.forall_mem_cons, List.map_cons]
        constructor
        · rintro ⟨distinct, fresh⟩
          refine ⟨⟨?_, distinct⟩, new, fun other member => ?_⟩
          · exact fun again => fresh name again List.mem_cons_self
          · exact fun old => fresh other member (List.mem_cons_of_mem _ old)
        · rintro ⟨⟨unique, distinct⟩, _, fresh⟩
          refine ⟨distinct, fun other member old => ?_⟩
          rcases List.mem_cons.mp old with rfl | old
          · exact unique member
          · exact fresh other member old

theorem ofTemplate_eq_ok_iff {first : Token} {tokens : List Token} {definition : Definition} :
    ofTemplate first tokens = .ok definition ↔
      (∀ token ∈ tokens, token.IsItem) ∧
        ⟨none, none, tokens.map Token.piece, first.position⟩ = definition := by
  unfold ofTemplate
  split
  · next directive found =>
    have member := List.mem_of_find?_eq_some found
    have notItem : ¬ directive.IsItem := by
      have := List.find?_some found
      simp only [Bool.or_eq_true, beq_iff_eq] at this
      rw [Token.isItem_iff]
      tauto
    simp only [reduceCtorEq, false_iff, not_and]
    exact fun items => absurd (items directive member) notItem
  · next none =>
    have items : ∀ token ∈ tokens, token.IsItem := by
      intro token member
      have := List.find?_eq_none.mp none token member
      simp only [Bool.or_eq_true, beq_iff_eq] at this
      rw [Token.isItem_iff]
      tauto
    simp only [Except.ok.injEq]
    exact ⟨fun same => ⟨items, same⟩, And.right⟩

/-! ### Errors -/

theorem ofGroup_fault {name : Token} {tokens : List Token} {error : ParseError}
    (h : ofGroup name tokens = .error error) (kind : TokenKind) :
    error.fault ≠ .beforeName kind := by
  rcases Except.bind_eq_error_iff.mp h with h | ⟨pieces, _, h⟩
  · unfold body? at h
    split at h
    · cases h
      simp
    · cases h
  · by_cases blank : pieces.all Piece.isBlank
    · rw [if_pos blank] at h
      cases h
      simp
    · rw [if_neg blank] at h
      cases h

/-- Where a name comes first, each query ends where the next name begins. -/
theorem ofNamed_fault {tokens : List Token} (starts : ∀ token ∈ tokens.head?, token.kind = .name)
    {error : ParseError} (h : ofNamed tokens = .error error) (kind : TokenKind) :
    error.fault ≠ .beforeName kind := by
  fun_induction ofNamed tokens generalizing error with
  | case1 => cases h
  | case2 token tokens isName ih =>
    rcases Except.bind_eq_error_iff.mp h with h | ⟨query, _, h⟩
    · exact ofGroup_fault h kind
    rcases Except.bind_eq_error_iff.mp h with h | ⟨more, _, h⟩
    · refine ih ?_ h
      have stops := (span_spec (p := fun token : Token => token.kind != .name) tokens).2
      simpa using stops
    · cases h
  | case3 token tokens isDocs =>
    rw [starts token rfl] at isDocs
    cases isDocs
  | case4 token tokens notName notDocs => exact absurd (starts token rfl) notName

theorem checkNames_fault {seen : List (String × Source.Position)} {queries : List Definition}
    {error : ParseError} (h : checkNames seen queries = .error error) (kind : TokenKind) :
    error.fault ≠ .beforeName kind := by
  fun_induction checkNames seen queries with
  | case1 => cases h
  | case2 seen query queries _ ih => exact ih h
  | case3 seen query queries name _ first _ =>
    cases h
    simp
  | case4 seen query queries name _ _ ih => exact ih h

theorem ofTemplate_fault {first : Token} {tokens : List Token} {error : ParseError}
    (h : ofTemplate first tokens = .error error) (kind : TokenKind) :
    error.fault ≠ .beforeName kind := by
  unfold ofTemplate at h
  split at h
  · cases h
    dsimp only
    split <;> simp
  · cases h

end Definition

/-! ### Documents -/

namespace Document

theorem ofTokens_fault (tokens : List Token) (position : Source.Position) (kind : TokenKind) :
    ofTokens tokens ≠ .error ⟨position, .beforeName kind⟩ := by
  intro h
  unfold ofTokens at h
  split at h
  · cases h
  · next first rest _ =>
    split at h
    · next isName =>
      have starts : ∀ token ∈ (first :: rest).head?, token.kind = .name := by simpa using isName
      rcases Except.bind_eq_error_iff.mp h with h | ⟨queries, _, h⟩
      · exact Definition.ofNamed_fault starts h kind rfl
      rcases Except.bind_eq_error_iff.mp h with h | ⟨_, _, h⟩
      · exact Definition.checkNames_fault h kind rfl
      · cases h
    · cases found : Definition.ofTemplate first (first :: rest) with
      | error error =>
        rw [found] at h
        cases h
        exact Definition.ofTemplate_fault found kind rfl
      | ok definition =>
        rw [found] at h
        cases h

/-- What the parser makes of tokens is what they spell. -/
theorem spelled_of_ofTokens {tokens : List Token} {document : Document}
    (h : ofTokens tokens = .ok document) : Spelled tokens document := by
  obtain ⟨blank, shownFirst⟩ := span_spec (p := Token.isBlank) tokens
  have whole := List.takeWhile_append_dropWhile (p := Token.isBlank) (l := tokens)
  unfold ofTokens at h
  split at h
  · cases h
  · next first rest found =>
    rw [found] at whole shownFirst
    rw [← whole]
    split at h
    · obtain ⟨queries, isNamed, h⟩ := Except.bind_eq_ok_iff.mp h
      obtain ⟨_, checked, h⟩ := Except.bind_eq_ok_iff.mp h
      cases h
      obtain ⟨groups, wellFormed, spelled, rfl⟩ := Definition.exists_groups isNamed
      obtain ⟨distinct, _⟩ := Definition.checkNames_eq_ok_iff.mp checked
      rw [← spelled]
      refine .named blank ?_ wellFormed ?_
      · rintro rfl
        cases spelled
      · simpa [List.filterMap_map, Function.comp_def, TokenGroup.definition] using distinct
    · obtain ⟨definition, isTemplate, rfl⟩ := Except.map_eq_ok_iff.mp h
      obtain ⟨items, rfl⟩ := Definition.ofTemplate_eq_ok_iff.mp isTemplate
      exact .anonymous blank (by simpa using shownFirst) items

theorem ofTokens_eq {tokens rest : List Token} {first : Token}
    (found : tokens.dropWhile Token.isBlank = first :: rest) :
    ofTokens tokens = if first.kind == .name then (do
        let queries ← Definition.ofNamed (first :: rest)
        Definition.checkNames [] queries
        return .named queries)
      else (Definition.ofTemplate first (first :: rest)).map .anonymous := by
  unfold ofTokens
  rw [found]

/-- The parser accepts what is spelled. -/
theorem Spelled.ofTokens {tokens : List Token} {document : Document}
    (spelled : Spelled tokens document) : ofTokens tokens = .ok document := by
  cases spelled with
  | @named blanks groups blank some wellFormed distinct =>
    obtain ⟨group, groups, rfl⟩ := List.exists_cons_of_ne_nil some
    have isName := (wellFormed group List.mem_cons_self).name
    have shown : group.name.isBlank = false := Token.isBlank_of_kind (by simp [isName])
    have stops : ∀ token ∈ ((group :: groups).flatMap TokenGroup.tokens).head?,
        token.isBlank = false := by
      simpa [TokenGroup.tokens] using shown
    have checked :
        Definition.checkNames [] ((group :: groups).map TokenGroup.definition) = .ok () := by
      refine Definition.checkNames_eq_ok_iff.mpr ⟨?_, by simp⟩
      simpa [List.filterMap_map, Function.comp_def, TokenGroup.definition] using distinct
    rw [ofTokens_eq (span_append blank stops).2, if_pos (by simp [isName])]
    refine Except.bind_eq_ok_iff.mpr ⟨_, TokenGroup.ofNamed wellFormed, ?_⟩
    exact Except.bind_eq_ok_iff.mpr ⟨_, checked, rfl⟩
  | @anonymous blanks items first blank shown allItems =>
    have stops : ∀ token ∈ (first :: items).head?, token.isBlank = false := by simpa using shown
    have notName := (Token.isItem_iff.mp (allItems first List.mem_cons_self)).1
    rw [ofTokens_eq (span_append blank stops).2, if_neg (by simp [notName])]
    exact Except.map_eq_ok_iff.mpr
      ⟨_, Definition.ofTemplate_eq_ok_iff.mpr ⟨allItems, rfl⟩, rfl⟩

end Document

/-- Tokens make a document exactly if they spell it, and are at fault otherwise. A name is
never found missing in front of the first query. -/
theorem ofTokens_iff_spelled (tokens : List Token) :
    (∀ document, Document.ofTokens tokens = .ok document ↔ Document.Spelled tokens document) ∧
      ((∃ error, Document.ofTokens tokens = .error error) ↔
        ∀ document, ¬ Document.Spelled tokens document) ∧
      ∀ position kind, Document.ofTokens tokens ≠ .error ⟨position, .beforeName kind⟩ := by
  refine ⟨fun document => ⟨Document.spelled_of_ofTokens, Document.Spelled.ofTokens⟩, ?_,
    Document.ofTokens_fault tokens⟩
  cases made : Document.ofTokens tokens with
  | ok document =>
    simp only [reduceCtorEq, exists_false, false_iff, not_forall, not_not]
    exact ⟨document, Document.spelled_of_ofTokens made⟩
  | error error =>
    simp only [Except.error.injEq, exists_eq', true_iff]
    intro document spelled
    rw [spelled.ofTokens] at made
    cases made

end SqlTemplate
