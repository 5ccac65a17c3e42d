import SqlTemplate.Proofs.Acceptance
import SqlTemplate.Proofs.Lexemes

/-!
# What source texts guarantee

In a set that was read from a source text, queries and parameters are named by
identifiers, and every literal closes the strings that it opens (`parse_sound`). The lexer
sees to both, token by token, and nothing on the way to the set breaks a token up.
-/

namespace SqlTemplate
open SqlTemplate.Text SqlTemplate.Identifier SqlTemplate.Sql

/-! ### Tokens -/

/-- What the value of a token may be. -/
def TokenKind.Allows : TokenKind → List Char → Prop
  | name, value => isIdentifier value
  | docs, _ => True
  | fragment, value => Balanced value
  | parameter, value => isIdentifier value

def Lexeme.Sound : Lexeme → Prop
  | token kind value _ => kind.Allows value
  | comment _ => True

def Token.Sound (token : Token) : Prop := token.kind.Allows token.value.toList

namespace Lexeme

/-- What follows the rules is sound. -/
theorem Fits.sound {leading : Bool} {rest : List Char} {lexeme : Lexeme}
    (fits : lexeme.Fits leading rest) : lexeme.Sound := by
  cases fits with
  | blank => rfl
  | name _ _ _ identifier => exact identifier
  | docs => trivial
  | comment => trivial
  | string isBody => exact isBody.balanced
  | parameter identifier => exact identifier
  | plain _ isPlain =>
    refine (visible_of_no_quote ?_).2
    exact fun member => (isPlain.not_mem _ member).2 rfl

end Lexeme

theorem Lexes.sound {cursor : Source.Cursor} {placed : List Placed} (lexes : Lexes cursor placed) :
    ∀ piece ∈ placed, piece.lexeme.Sound := by
  induction lexes with
  | nil => simp
  | cons fits _ ih => exact List.forall_mem_cons.mpr ⟨fits.sound, ih⟩

theorem tokenize_sound {text : String} {tokens : List Token} (h : tokenize text = .ok tokens) :
    ∀ token ∈ tokens, token.Sound := by
  obtain ⟨placed, _, lexes, rfl⟩ := tokenize_eq_ok_iff.mp h
  intro token member
  obtain ⟨⟨position, lexeme⟩, isPlaced, isToken⟩ := List.mem_filterMap.mp member
  have sound := lexes.sound _ isPlaced
  cases lexeme with
  | token kind value raw =>
    cases isToken
    simpa [Token.Sound, Lexeme.Sound] using sound
  | comment raw => cases isToken

/-! ### Definitions -/

/-- A literal closes its strings, and a parameter is an identifier. -/
def Piece.Sound : Piece → Prop
  | literal text => Balanced text.toList
  | parameter name => isIdentifier name.toList

theorem Token.piece_sound {token : Token} (sound : token.Sound) (notName : token.kind ≠ .name)
    (notDocs : token.kind ≠ .docs) : token.piece.Sound := by
  obtain ⟨kind, value, raw, position⟩ := token
  cases kind with
  | name => exact absurd rfl notName
  | docs => exact absurd rfl notDocs
  | fragment => exact sound
  | parameter => exact sound

theorem Piece.merge_sound {pieces : List Piece} (sound : ∀ piece ∈ pieces, piece.Sound) :
    ∀ piece ∈ merge pieces, piece.Sound := by
  fun_induction merge pieces with
  | case1 => exact sound
  | case2 name pieces ih =>
    obtain ⟨first, rest⟩ := List.forall_mem_cons.mp sound
    exact List.forall_mem_cons.mpr ⟨first, ih rest⟩
  | case3 text pieces more rest same ih =>
    obtain ⟨first, others⟩ := List.forall_mem_cons.mp sound
    have merged := ih others
    rw [same] at merged
    obtain ⟨second, others⟩ := List.forall_mem_cons.mp merged
    refine List.forall_mem_cons.mpr ⟨?_, others⟩
    simpa [Piece.Sound] using Balanced.append first second
  | case4 text pieces _ ih =>
    obtain ⟨first, rest⟩ := List.forall_mem_cons.mp sound
    exact List.forall_mem_cons.mpr ⟨first, ih rest⟩

namespace Definition

/-- The name of a definition is an identifier, and its pieces are sound. -/
structure Sound (definition : Definition) : Prop where
  name : ∀ name, definition.name = some name → isIdentifier name.toList
  body : ∀ piece ∈ definition.body, piece.Sound

theorem splitDocs_subset (tokens : List Token) : (splitDocs tokens).2 ⊆ tokens := by
  unfold splitDocs
  split
  · exact List.Subset.refl _
  · split
    · exact List.subset_cons_self ..
    · exact List.Subset.refl _

theorem body?_sound {tokens : List Token} {pieces : List Piece} (h : body? tokens = .ok pieces)
    (sound : ∀ token ∈ tokens, token.Sound) (unnamed : ∀ token ∈ tokens, token.kind ≠ .name) :
    ∀ piece ∈ pieces, piece.Sound := by
  unfold body? at h
  split at h
  · cases h
  · next noDocs =>
    cases h
    intro piece member
    obtain ⟨token, isToken, rfl⟩ := List.mem_map.mp member
    have notDocs := List.find?_eq_none.mp noDocs token isToken
    exact Token.piece_sound (sound token isToken) (unnamed token isToken) (by simpa using notDocs)

theorem ofGroup_sound {name : Token} {tokens : List Token} {definition : Definition}
    (h : ofGroup name tokens = .ok definition) (named : isIdentifier name.value.toList)
    (sound : ∀ token ∈ tokens, token.Sound) (unnamed : ∀ token ∈ tokens, token.kind ≠ .name) :
    definition.Sound := by
  have within : (splitDocs (tokens.dropWhile Token.isBlank)).2 ⊆ tokens :=
    List.Subset.trans (splitDocs_subset _) (List.dropWhile_subset _)
  obtain ⟨pieces, isBody, h⟩ := Except.bind_eq_ok_iff.mp h
  by_cases blank : pieces.all Piece.isBlank
  · rw [if_pos blank] at h
    cases h
  · rw [if_neg blank] at h
    cases h
    constructor
    · rintro _ ⟨⟩
      exact named
    · exact body?_sound isBody (fun token member => sound token (within member))
        (fun token member => unnamed token (within member))

theorem ofNamed_sound {tokens : List Token} {definitions : List Definition}
    (h : ofNamed tokens = .ok definitions) (sound : ∀ token ∈ tokens, token.Sound) :
    ∀ definition ∈ definitions, definition.Sound := by
  fun_induction ofNamed tokens generalizing definitions with
  | case1 =>
    cases h
    simp
  | case2 token tokens isName ih =>
    obtain ⟨first, rest⟩ := List.forall_mem_cons.mp sound
    obtain ⟨query, group, h⟩ := Except.bind_eq_ok_iff.mp h
    obtain ⟨more, others, h⟩ := Except.bind_eq_ok_iff.mp h
    cases h
    refine List.forall_mem_cons.mpr ⟨?_, ih others ?_⟩
    · refine ofGroup_sound group ?_ ?_ ?_
      · have : token.Sound := first
        simpa [Token.Sound, isName, TokenKind.Allows] using this
      · exact fun other member => rest other (List.takeWhile_subset _ member)
      · intro other member
        simpa using List.mem_takeWhile_imp member
    · exact fun other member => rest other (List.dropWhile_subset _ member)
  | case3 => cases h
  | case4 => cases h

end Definition

theorem Document.ofTokens_sound {tokens : List Token} {definitions : List Definition}
    (h : Document.ofTokens tokens = .ok (.named definitions))
    (sound : ∀ token ∈ tokens, token.Sound) : ∀ definition ∈ definitions, definition.Sound := by
  unfold Document.ofTokens at h
  split at h
  · cases h
  · next first rest found =>
    have within : first :: rest ⊆ tokens := found ▸ List.dropWhile_subset _
    split at h
    · obtain ⟨queries, isNamed, h⟩ := Except.bind_eq_ok_iff.mp h
      obtain ⟨_, _, h⟩ := Except.bind_eq_ok_iff.mp h
      cases h
      exact Definition.ofNamed_sound isNamed fun token member => sound token (within member)
    · obtain ⟨_, _, same⟩ := Except.map_eq_ok_iff.mp h
      cases same

theorem Document.parse_eq_ok_iff {text : String} {document : Document} :
    Document.parse text = .ok document ↔
      ∃ tokens, tokenize text = .ok tokens ∧ Document.ofTokens tokens = .ok document := by
  simp only [Document.parse, Except.bind_eq_ok_iff, Except.mapError_eq_ok_iff]

/-! ### Sets -/

namespace QuerySet

/-- Queries and parameters have identifiers for names, and literals close their strings. -/
def Sound (set : QuerySet) : Prop :=
  ∀ query ∈ set.queries, isIdentifier query.name.toList ∧ ∀ piece ∈ query.pieces, piece.Sound

theorem parse_eq_ok_iff {text : String} {set : QuerySet} :
    parse text = .ok set ↔ ∃ definitions, Document.parse text = .ok (.named definitions) ∧
      ofDefinitions definitions = .ok set := by
  unfold parse
  rw [Except.bind_eq_ok_iff]
  constructor
  · rintro ⟨document, parsed, h⟩
    cases document with
    | anonymous definition => cases h
    | named definitions => exact ⟨definitions, parsed, Except.mapError_eq_ok_iff.mp h⟩
  · rintro ⟨definitions, parsed, h⟩
    exact ⟨_, parsed, Except.mapError_eq_ok_iff.mpr h⟩

theorem parse_sound {text : String} {set : QuerySet} (h : QuerySet.parse text = .ok set) :
    set.Sound := by
  obtain ⟨definitions, parsed, h⟩ := parse_eq_ok_iff.mp h
  obtain ⟨tokens, read, made⟩ := Document.parse_eq_ok_iff.mp parsed
  have defined := Document.ofTokens_sound made (tokenize_sound read)
  obtain ⟨compiled, _, _⟩ := ofDefinitions_eq_ok_iff.mp h
  intro query member
  have isQuery : some query ∈ definitions.map Definition.compiled? :=
    compiled ▸ List.mem_map_of_mem member
  obtain ⟨definition, isDefined, same⟩ := List.mem_map.mp isQuery
  obtain ⟨named, same⟩ := Definition.compiled?_eq_some_iff.mp same
  have found := defined definition isDefined
  refine ⟨found.name _ named, ?_⟩
  rw [← same]
  exact Piece.merge_sound found.body

/-- A set that was read from a source text. -/
def Parsed (set : QuerySet) : Prop := ∃ text, QuerySet.parse text = .ok set

theorem Parsed.query {set : QuerySet} (parsed : set.Parsed) {name : String} {query : NamedQuery}
    (found : set.get? name = some query) :
    isIdentifier name.toList ∧ ∀ piece ∈ query.pieces, piece.Sound := by
  obtain ⟨text, parsed⟩ := parsed
  have isName : query.name = name := by simpa using List.find?_some found
  exact isName ▸ parse_sound parsed query (List.mem_of_find?_eq_some found)

end QuerySet
end SqlTemplate
