import SqlTemplate.Proofs.Grammar
import SqlTemplate.Proofs.Layout

/-!
# Spaces among tokens

A space token in front of another one changes nothing but the layout. Two lists of tokens
that are the same but for such spaces (`Spaced`) are both accepted or both not, and the
sets that they define differ only in the spaces of their bodies (`ofTokens_spaced`,
`ofDefinitions_spaced`).
-/

namespace SqlTemplate
open SqlTemplate.Text SqlTemplate.Sql SqlTemplate.Identifier

/-- Two lists that are the same, except that the first has more spaces in front of spaces. -/
inductive Spaced {α : Type} (same : α → α → Prop) (space : α → Prop) : List α → List α → Prop where
  | nil : Spaced same space [] []
  | keep {a b : α} {as bs : List α} (first : same a b) (rest : Spaced same space as bs) :
      Spaced same space (a :: as) (b :: bs)
  /-- The space that is kept may differ in place from the space that it stands for. -/
  | drop {a b c : α} {as bs : List α} (dropped : space a) (old : space b) (kept : space c)
      (rest : Spaced same space as (b :: bs)) : Spaced same space (a :: as) (c :: bs)

namespace Spaced
variable {α β : Type} {same : α → α → Prop} {space : α → Prop} {as bs : List α} {p : α → Bool}

theorem takeWhile (spaced : Spaced same space as bs) (agrees : ∀ a b, same a b → p a = p b)
    (spaces : ∀ a, space a → p a) : Spaced same space (as.takeWhile p) (bs.takeWhile p) := by
  induction spaced with
  | nil => exact .nil
  | @keep a b as bs first _ ih =>
    rw [List.takeWhile_cons, List.takeWhile_cons, agrees a b first]
    split
    · exact .keep first ih
    · exact .nil
  | @drop a b c as bs dropped old kept _ ih =>
    rw [List.takeWhile_cons_of_pos (spaces b old)] at ih
    rw [List.takeWhile_cons_of_pos (spaces a dropped), List.takeWhile_cons_of_pos (spaces c kept)]
    exact .drop dropped old kept ih

theorem dropWhile (spaced : Spaced same space as bs) (agrees : ∀ a b, same a b → p a = p b)
    (spaces : ∀ a, space a → p a) : Spaced same space (as.dropWhile p) (bs.dropWhile p) := by
  induction spaced with
  | nil => exact .nil
  | @keep a b as bs first rest ih =>
    rw [List.dropWhile_cons, List.dropWhile_cons, agrees a b first]
    split
    · exact ih
    · exact .keep first rest
  | @drop a b c as bs dropped old kept _ ih =>
    rw [List.dropWhile_cons_of_pos (spaces b old)] at ih
    rw [List.dropWhile_cons_of_pos (spaces a dropped), List.dropWhile_cons_of_pos (spaces c kept)]
    exact ih

theorem all_eq (spaced : Spaced same space as bs) (agrees : ∀ a b, same a b → p a = p b)
    (spaces : ∀ a, space a → p a) : as.all p = bs.all p := by
  induction spaced with
  | nil => rfl
  | @keep a b _ _ first _ ih => rw [List.all_cons, List.all_cons, agrees a b first, ih]
  | @drop a b c _ _ dropped old kept _ ih =>
    rw [List.all_cons, spaces b old] at ih
    rw [List.all_cons, List.all_cons, spaces a dropped, spaces c kept, ih]
    rfl

theorem map (spaced : Spaced same space as bs) {same' : β → β → Prop} {space' : β → Prop}
    {f : α → β} (agrees : ∀ a b, same a b → same' (f a) (f b))
    (spaces : ∀ a, space a → space' (f a)) : Spaced same' space' (as.map f) (bs.map f) := by
  induction spaced with
  | nil => exact .nil
  | keep first _ ih => exact .keep (agrees _ _ first) ih
  | drop dropped old kept _ ih =>
    exact .drop (spaces _ dropped) (spaces _ old) (spaces _ kept) ih

end Spaced

/-! ### Bodies -/

/-- A literal of one space. -/
def Piece.IsSpace (piece : Piece) : Prop := piece = .literal " "

/-- The same pieces but for spaces in front of spaces. -/
abbrev SpacedPieces : List Piece → List Piece → Prop := Spaced (· = ·) Piece.IsSpace

namespace Piece
variable {pieces pieces' : List Piece}

/-- Text in front of merged pieces. -/
def glue (text : String) : List Piece → List Piece
  | literal more :: rest => literal (text ++ more) :: rest
  | rest => literal text :: rest

theorem merge_literal (text : String) (pieces : List Piece) :
    merge (literal text :: pieces) = glue text (merge pieces) := rfl

theorem glue_respaced {a b : String} (texts : Sql.Respaced a.toList b.toList)
    (same : List.Forall₂ Piece.Respaced pieces pieces') :
    List.Forall₂ Piece.Respaced (glue a pieces) (glue b pieces') := by
  cases same with
  | nil => exact .cons (.literal texts) .nil
  | cons first rest =>
    cases first with
    | literal more =>
      refine .cons (.literal ?_) rest
      simpa only [String.toList_append] using texts.append more
    | parameter identifier => exact .cons (.literal texts) (.cons (.parameter identifier) rest)

/-- Pieces that begin with a space stay the same with one more space in front of them. -/
theorem glue_space (same : List.Forall₂ Piece.Respaced pieces (glue " " pieces')) :
    List.Forall₂ Piece.Respaced (glue " " pieces) (glue " " pieces') := by
  obtain ⟨more, rest, whole⟩ : ∃ more rest, glue " " pieces' = literal (" " ++ more) :: rest := by
    unfold glue
    split
    · exact ⟨_, _, rfl⟩
    · exact ⟨"", _, rfl⟩
  rw [whole] at same ⊢
  cases same with
  | cons first rest =>
    cases first with
    | literal texts =>
      refine .cons (.literal ?_) rest
      simp only [String.toList_append] at texts ⊢
      exact texts.space

/-- Merging puts spaces among pieces into literals. -/
theorem merge_respaced (spaced : SpacedPieces pieces pieces')
    (sound : ∀ piece ∈ pieces, piece.Sound) :
    List.Forall₂ Piece.Respaced (merge pieces) (merge pieces') := by
  induction spaced with
  | nil => exact .nil
  | @keep piece _ pieces pieces' same _ ih =>
    subst same
    obtain ⟨first, rest⟩ := List.forall_mem_cons.mp sound
    cases piece with
    | literal text =>
      rw [merge_literal, merge_literal]
      exact glue_respaced (.refl first) (ih rest)
    | parameter name => exact .cons (.parameter first) (ih rest)
  | @drop _ _ _ pieces pieces' dropped old kept _ ih =>
    cases dropped
    cases old
    cases kept
    rw [merge_literal, merge_literal]
    exact glue_space (ih (List.forall_mem_cons.mp sound).2)

end Piece

/-! ### Tokens -/

/-- Tokens that say the same, wherever they stand. -/
structure Token.SaysSame (token other : Token) : Prop where
  kind : token.kind = other.kind
  value : token.value = other.value

/-- A run of white space. -/
structure Token.IsSpace (token : Token) : Prop where
  kind : token.kind = .fragment
  value : token.value = " "

/-- Definitions that differ in the spaces of their bodies, and in their positions. -/
structure Definition.Spaced (definition other : Definition) : Prop where
  name : definition.name = other.name
  docs : definition.docs = other.docs
  body : SpacedPieces definition.body other.body

namespace Token
variable {token other : Token}

theorem SaysSame.isBlank (same : token.SaysSame other) : token.isBlank = other.isBlank := by
  simp only [Token.isBlank, same.kind, same.value]

theorem SaysSame.piece (same : token.SaysSame other) : token.piece = other.piece := by
  simp only [Token.piece, same.kind, same.value]

theorem IsSpace.isBlank (space : token.IsSpace) : token.isBlank := by
  simp only [Token.isBlank, space.kind, space.value]
  decide

theorem IsSpace.piece (space : token.IsSpace) : token.piece.IsSpace := by
  simp [Piece.IsSpace, Token.piece, space.kind, space.value]

end Token

/-- Lists of tokens that say the same but for spaces in front of spaces. -/
abbrev SpacedTokens : List Token → List Token → Prop := Spaced Token.SaysSame Token.IsSpace

namespace Definition
variable {tokens tokens' : List Token}

theorem splitDocs_spaced (spaced : SpacedTokens tokens tokens') :
    (splitDocs tokens).1 = (splitDocs tokens').1 ∧
      SpacedTokens (splitDocs tokens).2 (splitDocs tokens').2 := by
  cases spaced with
  | nil => exact ⟨rfl, .nil⟩
  | keep first rest =>
    simp only [splitDocs, first.kind, first.value]
    split
    · exact ⟨rfl, rest⟩
    · exact ⟨rfl, .keep first rest⟩
  | drop dropped old kept rest =>
    simp only [splitDocs, dropped.kind, kept.kind]
    exact ⟨rfl, .drop dropped old kept rest⟩

theorem ofGroup_spaced {name name' : Token} (names : name.SaysSame name')
    (spaced : SpacedTokens tokens tokens') {definition : Definition}
    (h : ofGroup name tokens = .ok definition) :
    ∃ definition', ofGroup name' tokens' = .ok definition' ∧ definition.Spaced definition' := by
  have dropped : SpacedTokens (tokens.dropWhile Token.isBlank) (tokens'.dropWhile Token.isBlank) :=
    spaced.dropWhile (fun _ _ => Token.SaysSame.isBlank) (fun _ => Token.IsSpace.isBlank)
  have same := splitDocs_spaced dropped
  rcases split : splitDocs (tokens.dropWhile Token.isBlank) with ⟨docs, items⟩
  rcases split' : splitDocs (tokens'.dropWhile Token.isBlank) with ⟨docs', items'⟩
  rw [split, split'] at same
  obtain ⟨rfl, spacedItems⟩ : docs = docs' ∧ SpacedTokens items items' := same
  obtain ⟨noDocs, shown, rfl⟩ := (ofGroup_eq_ok_iff split).mp h
  have bodies : SpacedPieces (items.map Token.piece) (items'.map Token.piece) :=
    spacedItems.map (fun _ _ => Token.SaysSame.piece) (fun _ => Token.IsSpace.piece)
  have kinds : items.all (·.kind != .docs) = items'.all (·.kind != .docs) :=
    spacedItems.all_eq (fun _ _ same => by rw [same.kind]) (fun _ space => by simp [space.kind])
  have blanks : (items.map Token.piece).all Piece.isBlank =
      (items'.map Token.piece).all Piece.isBlank := by
    refine bodies.all_eq (fun _ _ same => by rw [same]) ?_
    rintro _ rfl
    decide
  have noDocs' : ∀ token ∈ items', token.kind ≠ .docs := by
    have all : items.all (·.kind != .docs) = true := by simpa using noDocs
    rw [kinds] at all
    simpa using all
  exact ⟨_, (ofGroup_eq_ok_iff split').mpr ⟨noDocs', blanks ▸ shown, rfl⟩,
    congrArg some names.value, rfl, bodies⟩

theorem ofNamed_spaced (spaced : SpacedTokens tokens tokens') {definitions : List Definition}
    (h : ofNamed tokens = .ok definitions) :
    ∃ definitions', ofNamed tokens' = .ok definitions' ∧
      List.Forall₂ Definition.Spaced definitions definitions' := by
  fun_induction ofNamed tokens generalizing definitions tokens' with
  | case1 =>
    cases h
    cases spaced
    exact ⟨[], by simp [ofNamed], .nil⟩
  | case2 token tokens isName ih =>
    cases spaced with
    | drop dropped =>
      rw [dropped.kind] at isName
      cases isName
    | @keep _ token' _ tokens' first rest =>
      obtain ⟨query, group, h⟩ := Except.bind_eq_ok_iff.mp h
      obtain ⟨more, others, h⟩ := Except.bind_eq_ok_iff.mp h
      cases h
      have agrees (a b : Token) (same : a.SaysSame b) : (a.kind != .name) = (b.kind != .name) := by
        rw [same.kind]
      have spaces (a : Token) (space : a.IsSpace) : (a.kind != .name) = true := by
        simp [space.kind]
      obtain ⟨query', group', queries⟩ := ofGroup_spaced first (rest.takeWhile agrees spaces) group
      obtain ⟨more', others', mores⟩ := ih (rest.dropWhile agrees spaces) others
      refine ⟨query' :: more', ?_, .cons queries mores⟩
      rw [ofNamed_name (first.kind ▸ isName), group', others']
      rfl
  | case3 => cases h
  | case4 => cases h

end Definition

/-! ### Definitions and sets -/

theorem map_eq_of_forall₂ {α β : Type} {R : α → α → Prop} {f : α → β} {as bs : List α}
    (related : List.Forall₂ R as bs) (agrees : ∀ a b, R a b → f a = f b) : as.map f = bs.map f := by
  induction related with
  | nil => rfl
  | cons first _ ih => rw [List.map_cons, List.map_cons, agrees _ _ first, ih]

/-- A document of queries is read from the same tokens with other spaces. -/
theorem Document.ofTokens_spaced {tokens tokens' : List Token}
    (spaced : SpacedTokens tokens tokens') {definitions : List Definition}
    (h : ofTokens tokens = .ok (.named definitions)) :
    ∃ definitions', ofTokens tokens' = .ok (.named definitions') ∧
      List.Forall₂ Definition.Spaced definitions definitions' := by
  have dropped : SpacedTokens (tokens.dropWhile Token.isBlank) (tokens'.dropWhile Token.isBlank) :=
    spaced.dropWhile (fun _ _ => Token.SaysSame.isBlank) (fun _ => Token.IsSpace.isBlank)
  unfold ofTokens at h
  split at h
  · cases h
  · next first rest found =>
    rw [found] at dropped
    -- a document that begins with a name begins with the same name
    have isName : first.kind = .name := by
      by_contra other
      rw [if_neg (by simpa using other)] at h
      obtain ⟨_, _, same⟩ := Except.map_eq_ok_iff.mp h
      cases same
    rw [if_pos (by simpa using isName)] at h
    obtain ⟨_, isNamed, h⟩ := Except.bind_eq_ok_iff.mp h
    obtain ⟨_, checked, h⟩ := Except.bind_eq_ok_iff.mp h
    cases h
    obtain ⟨definitions', isNamed', same⟩ := Definition.ofNamed_spaced dropped isNamed
    have names : definitions.filterMap (·.name) = definitions'.filterMap (·.name) := by
      have all := map_eq_of_forall₂ same fun _ _ same => same.name
      simpa [List.filterMap_map] using congrArg (List.filterMap id) all
    have checked' : Definition.checkNames [] definitions' = .ok () := by
      rw [Definition.checkNames_eq_ok_iff] at checked ⊢
      rwa [← names]
    refine ⟨definitions', ?_, same⟩
    cases found' : tokens'.dropWhile Token.isBlank with
    | nil =>
      rw [found'] at dropped
      cases dropped
    | cons first' rest' =>
      rw [found'] at dropped isNamed'
      have isName' : first'.kind = .name := by
        cases dropped with
        | keep same => rw [← same.kind, isName]
        | drop space =>
          rw [space.kind] at isName
          cases isName
      rw [ofTokens_eq found', if_pos (by simp [isName'])]
      refine Except.bind_eq_ok_iff.mpr ⟨_, isNamed', ?_⟩
      exact Except.bind_eq_ok_iff.mpr ⟨_, checked', rfl⟩

/-! ### Sets -/

theorem Piece.references_respaced {pieces pieces' : List Piece}
    (spaced : List.Forall₂ Piece.Respaced pieces pieces') :
    references pieces = references pieces' := by
  induction spaced with
  | nil => rfl
  | cons first _ ih =>
    cases first with
    | literal => exact ih
    | @parameter name => exact congrArg (name :: ·) ih

theorem NamedQuery.Respaced.references_eq {query other : NamedQuery}
    (spaced : query.Respaced other) : query.references = other.references := by
  unfold references Piece.uses
  rw [Piece.references_respaced spaced.pieces]

namespace QuerySet
variable {set other : QuerySet}

theorem Respaced.names_eq (spaced : set.Respaced other) : set.names = other.names :=
  map_eq_of_forall₂ spaced fun _ _ same => same.name

theorem Respaced.composes_eq (spaced : set.Respaced other) : set.Composes = other.Composes := by
  funext name next
  unfold Composes
  rw [spaced.names_eq]
  rcases spaced.get? name with ⟨unknown, unknown'⟩ | ⟨query, query', found, found', same⟩
  · simp [unknown, unknown']
  · simp [found, found', same.references_eq]

theorem respaced_of_compiled {definitions definitions' : List Definition}
    (spaced : List.Forall₂ Definition.Spaced definitions definitions')
    (sound : ∀ definition ∈ definitions, definition.Sound)
    (compiled : Definition.Compiled definitions set)
    (compiled' : Definition.Compiled definitions' other) : set.Respaced other := by
  obtain ⟨queries⟩ := set
  obtain ⟨queries'⟩ := other
  unfold Respaced
  unfold Definition.Compiled at compiled compiled'
  dsimp only at compiled compiled' ⊢
  induction spaced generalizing queries queries' with
  | nil =>
    rw [List.map_eq_nil_iff.mp compiled, List.map_eq_nil_iff.mp compiled']
    exact .nil
  | @cons definition definition' _ _ first _ ih =>
    obtain ⟨isSound, sound⟩ := List.forall_mem_cons.mp sound
    obtain ⟨query, more, rfl, isFirst, rest⟩ := List.map_eq_cons_iff.mp compiled
    obtain ⟨query', more', rfl, isFirst', rest'⟩ := List.map_eq_cons_iff.mp compiled'
    obtain ⟨named, made⟩ := Definition.compiled?_eq_some_iff.mp isFirst.symm
    obtain ⟨named', made'⟩ := Definition.compiled?_eq_some_iff.mp isFirst'.symm
    refine .cons ⟨?_, ?_, ?_⟩ (ih sound _ rest _ rest')
    · exact Option.some.inj (named.symm.trans (first.name.trans named'))
    · rw [← made, ← made']
      exact first.docs
    · rw [← made, ← made']
      exact Piece.merge_respaced first.body isSound.body

/-- Definitions with other spaces make a set with other spaces. -/
theorem ofDefinitions_spaced {definitions definitions' : List Definition}
    (spaced : List.Forall₂ Definition.Spaced definitions definitions')
    (sound : ∀ definition ∈ definitions, definition.Sound)
    (h : ofDefinitions definitions = .ok set) :
    ∃ set', ofDefinitions definitions' = .ok set' ∧ set.Respaced set' := by
  obtain ⟨compiled, distinct, acyclic⟩ := ofDefinitions_eq_ok_iff.mp h
  have named : ∀ definition ∈ definitions', definition.name ≠ none := by
    intro definition defined
    have isName : definition.name ∈ set.names.map some := by
      rw [compiled.names, map_eq_of_forall₂ spaced fun _ _ same => same.name]
      exact List.mem_map_of_mem defined
    obtain ⟨name, _, same⟩ := List.mem_map.mp isName
    simp [← same]
  obtain ⟨set', compiled'⟩ := Definition.exists_compiled named
  have sets := respaced_of_compiled spaced sound compiled compiled'
  refine ⟨set', ofDefinitions_eq_ok_iff.mpr ⟨compiled', sets.names_eq ▸ distinct, ?_⟩, sets⟩
  unfold Acyclic at acyclic ⊢
  rwa [← sets.composes_eq]

end QuerySet
end SqlTemplate
