import SqlTemplate.Proofs.Dashes
import SqlTemplate.Proofs.Placeholders
import SqlTemplate.Proofs.Reports
import SqlTemplate.Proofs.Written

/-!
# Where comments open

Pieces are put one behind the other as they are, with nothing between them. So a comment
opens in a statement where what is written so far ends with a dash and the next piece adds
text that begins with one, in the query itself or in one that it composes
(`QuerySet.DashesMeet`). It opens nowhere else (`comment_iff_dashes_meet`): not inside
literals, not by composing a query as such, and not where white space is taken away.
-/

namespace SqlTemplate
open SqlTemplate.Sql SqlTemplate.Identifier

/-- What is written so far ends with a dash, and the piece adds text that begins with one. -/
structure Draft.Meets (draft : Draft) (scope : Scope) (piece : Piece) : Prop where
  ends : draft.statement.toList.getLast? = some '-'
  begins : ∃ added, (draft.add scope piece).statement = draft.statement ++ added ∧
    added.toList.head? = some '-'

/-- Two dashes meet where the pieces are expanded with room for so many nested compositions:
in front of one of the pieces, or inside a query that one of them composes. -/
inductive QuerySet.DashesMeet (set : QuerySet) (params : Params) : Nat → Options → List Piece → Prop where
  | here {room : Nat} {options : Options} {front back : List Piece} {piece : Piece}
      (meets : (Draft.ofPieces (.withRoom set params options room) front).Meets
        (.withRoom set params options room) piece) :
      DashesMeet set params room options (front ++ piece :: back)
  | composed {room : Nat} {options : Options} {front back : List Piece} {name : String}
      {query : NamedQuery} (found : set.get? name = some query)
      (inside : DashesMeet set params room
        (options.nested (Draft.ofPieces (.withRoom set params options (room + 1)) front).index)
        query.pieces) :
      DashesMeet set params (room + 1) options (front ++ .parameter name :: back)

/-- The piece composes a query in which two dashes meet, from this number on. -/
def Piece.MeetsInside (set : QuerySet) (params : Params) (room : Nat) (options : Options)
    (index : UInt32) (piece : Piece) : Prop :=
  ∃ lower name query, room = lower + 1 ∧ piece = .parameter name ∧ set.get? name = some query ∧
    set.DashesMeet params lower (options.nested index) query.pieces

namespace QuerySet.DashesMeet
variable {set : QuerySet} {params : Params} {room : Nat} {options : Options} {pieces : List Piece}

theorem not_nil : ¬ set.DashesMeet params room options [] := by
  generalize none : ([] : List Piece) = pieces
  intro meet
  cases meet with
  | here | composed => simp at none

theorem append (meet : set.DashesMeet params room options pieces) (more : List Piece) :
    set.DashesMeet params room options (pieces ++ more) := by
  cases meet with
  | here meets =>
    rw [List.append_assoc]
    exact .here meets
  | composed found inside =>
    rw [List.append_assoc]
    exact .composed found inside

/-- With one more piece, dashes meet as before, in front of the piece or inside it. -/
theorem concat_iff {piece : Piece} : set.DashesMeet params room options (pieces ++ [piece]) ↔
    set.DashesMeet params room options pieces ∨
      piece.MeetsInside set params room options
        (Draft.ofPieces (.withRoom set params options room) pieces).index ∨
      (Draft.ofPieces (.withRoom set params options room) pieces).Meets
        (.withRoom set params options room) piece := by
  -- a piece of the whole list is one of the first pieces or the last one
  have split {front back : List Piece} {other : Piece} (whole : pieces ++ [piece] = front ++ other :: back) :
      (∃ middle, pieces = front ++ other :: middle) ∨ (pieces = front ∧ piece = other) := by
    rcases List.eq_nil_or_concat back with rfl | ⟨middle, last, rfl⟩
    · exact Or.inr (by simpa using List.append_inj' whole rfl)
    · rw [List.concat_eq_append, ← List.cons_append, ← List.append_assoc] at whole
      exact Or.inl ⟨middle, (List.append_inj' whole rfl).1⟩
  constructor
  · intro meet
    generalize whole : pieces ++ [piece] = all at meet
    cases meet with
    | here meets =>
      rcases split whole with ⟨middle, rfl⟩ | ⟨rfl, rfl⟩
      · exact Or.inl (.here meets)
      · exact Or.inr (Or.inr meets)
    | composed found inside =>
      rcases split whole with ⟨middle, rfl⟩ | ⟨rfl, rfl⟩
      · exact Or.inl (.composed found inside)
      · exact Or.inr (Or.inl ⟨_, _, _, rfl, rfl, found, inside⟩)
  · rintro (meet | ⟨lower, name, query, rfl, rfl, found, inside⟩ | meets)
    · exact meet.append _
    · exact .composed found inside
    · exact .here meets

end QuerySet.DashesMeet

/-! ### What is added to drafts -/

/-- The placeholders of a list are made of dollar signs, digits and commas. -/
theorem Part.not_mem_list {c : Char} (noDigit : c.isDigit = false) (noDollar : c ≠ '$')
    (noComma : c ≠ ',') (index : UInt32) (values : List Scalar) :
    c ∉ (list index values).statement.toList := by
  have single (index : UInt32) (value : Scalar) : c ∉ (list index [value]).statement.toList := by
    change c ∉ (placeholder index).toList
    rw [toList_placeholder, List.mem_cons, not_or]
    refine ⟨noDollar, fun member => ?_⟩
    rw [isDigit_of_mem_toString member] at noDigit
    cases noDigit
  induction values generalizing index with
  | nil => simp [list, placeholders]
  | cons value values ih =>
    cases values with
    | nil => exact single index value
    | cons next values =>
      rw [list_cons_cons]
      simp [single, noComma, ih]

/-- Texts of a source, which open no comments of their own. -/
def Wording.undashed : Wording where
  literal := Undashed
  separator _ := False

/-- A draft grew by a part that closes its strings and opens a comment just if the condition
holds. -/
def Draft.OpensIff (draft after : Draft) (condition : Prop) : Prop :=
  ∃ part, after = draft.extend part ∧ Balanced part.statement.toList ∧
    (OpensComment (visible .outside part.statement.toList) ↔ condition)

namespace Draft
variable {draft : Draft} {condition : Prop}

theorem OpensIff.refl (never : ¬ condition) : draft.OpensIff draft condition :=
  ⟨{}, draft.extend_empty.symm, rfl, iff_of_false not_opensComment_nil never⟩

theorem OpensIff.of_plain {part : Part} (noQuote : '\'' ∉ part.statement.toList)
    (noDash : '-' ∉ part.statement.toList) (never : ¬ condition) :
    draft.OpensIff (draft.extend part) condition := by
  obtain ⟨balanced, closed⟩ := opensComment_of_plain noQuote noDash
  exact ⟨part, rfl, balanced, iff_of_false closed never⟩

theorem list_opens (values : List Scalar) (never : ¬ condition) :
    draft.OpensIff (draft.list values) condition := by
  rw [list_eq_extend]
  exact .of_plain (Part.not_mem_list (by decide) (by decide) (by decide) _ _)
    (Part.not_mem_list (by decide) (by decide) (by decide) _ _) never

theorem fail_opens {error : BindingError} (identifier : isIdentifier error.name.toList)
    (never : ¬ condition) : draft.OpensIff (draft.fail error) condition := by
  rw [fail_eq_extend]
  exact .of_plain (not_mem_marker identifier (by decide) (by decide))
    (not_mem_marker identifier (by decide) (by decide)) never

theorem meets_iff {scope : Scope} {piece : Piece} {part : Part}
    (added : draft.add scope piece = draft.extend part) :
    draft.Meets scope piece ↔
      draft.statement.toList.getLast? = some '-' ∧ part.statement.toList.head? = some '-' := by
  constructor
  · rintro ⟨ends, text, same, begins⟩
    rw [added] at same
    obtain rfl : part.statement = text := String.append_right_inj _ |>.mp same
    exact ⟨ends, begins⟩
  · rintro ⟨ends, begins⟩
    exact ⟨ends, part.statement, by rw [added]; rfl, begins⟩

variable {set : QuerySet} {params : Params} {options : Options} {room : Nat}

/-- In a query of the set, expanded with so much room, a comment opens just if dashes meet. -/
def QueriesOpen (set : QuerySet) (params : Params) (room : Nat) : Prop :=
  ∀ name query, set.get? name = some query → ∀ options : Options,
    (start options.index).OpensIff (ofPieces (.withRoom set params options room) query.pieces)
      (set.DashesMeet params room options query.pieces)

/-- What a piece adds opens a comment just if dashes meet inside it, provided that is so for
the queries of the set one level down. -/
theorem add_opens (options : Options) (plain : params.Plain)
    (below : ∀ lower, room = lower + 1 → QueriesOpen set params lower)
    (draft : Draft) {piece : Piece} (allowed : piece.Allowed .undashed) :
    draft.OpensIff (draft.add (.withRoom set params options room) piece)
      (piece.MeetsInside set params room options draft.index) := by
  cases piece with
  | literal text =>
    obtain ⟨balanced, undashed⟩ := allowed
    refine ⟨{ statement := text }, literal_eq_extend .., balanced, ?_⟩
    refine iff_of_false undashed.closed ?_
    rintro ⟨_, _, _, _, isParameter, _⟩
    cases isParameter
  | parameter name =>
    have identifier : isIdentifier name.toList := allowed
    cases found : set.get? name with
    | some query =>
      cases room with
      | zero =>
        have limit : draft.add (.withRoom set params options 0) (.parameter name) =
            draft.fail ⟨name, .recursionLimit⟩ := by
          simp [add, Scope.withRoom, found, compose, Callee.caller?]
        rw [limit]
        refine fail_opens identifier ?_
        rintro ⟨_, _, _, noRoom, _⟩
        cases noRoom
      | succ lower =>
        obtain ⟨part, grown, balanced, opens⟩ :=
          below lower rfl name query found (options.nested draft.index)
        refine ⟨part.normal, add_composed found grown, ?_, ?_⟩
        · rw [part.toList_normal]
          exact balanced.normalize
        · rw [part.toList_normal, opensComment_normalize, opens]
          constructor
          · exact fun inside => ⟨lower, name, query, rfl, rfl, found, inside⟩
          · rintro ⟨_, _, _, ⟨⟩, ⟨⟩, found', inside⟩
            obtain rfl := Option.some.inj (found.symm.trans found')
            exact inside
    | none =>
      have never : ¬ (Piece.parameter name).MeetsInside set params room options draft.index := by
        rintro ⟨_, _, _, _, ⟨⟩, found', _⟩
        rw [found] at found'
        cases found'
      simp only [add, Scope.withRoom, found]
      cases bound : params.get? name with
      | some value =>
        have isPlain := plain name value bound
        cases value with
        | scalar value => exact list_opens [value] never
        | list values => exact list_opens values never
        | query reference => exact isPlain.elim
        | inner calls separator => exact isPlain.elim
      | none =>
        dsimp only
        split
        · exact .refl never
        · exact fail_opens identifier never

/-- What pieces add opens a comment just if dashes meet there. -/
theorem ofPieces_opens (plain : params.Plain)
    (below : ∀ lower, room = lower + 1 → QueriesOpen set params lower)
    {pieces : List Piece} (allowed : ∀ piece ∈ pieces, piece.Allowed .undashed) :
    (start options.index).OpensIff (ofPieces (.withRoom set params options room) pieces)
      (set.DashesMeet params room options pieces) := by
  induction pieces using List.reverseRecOn with
  | nil => exact .refl QuerySet.DashesMeet.not_nil
  | append_singleton pieces piece ih =>
    obtain ⟨front, last⟩ := List.forall_mem_append.mp allowed
    obtain ⟨a, grown, balanced, opens⟩ := ih front
    obtain ⟨b, added, balanced', opens'⟩ := add_opens options plain below
      (ofPieces (.withRoom set params options room) pieces) (last piece List.mem_cons_self)
    have statement : (ofPieces (.withRoom set params options room) pieces).statement = a.statement := by
      rw [grown]
      simp [extend, start]
    refine ⟨a ++ b, ?_, Part.balanced_append balanced balanced', ?_⟩
    · rw [← extend_extend, ← grown, ← added]
      simp [ofPieces]
    · rw [QuerySet.DashesMeet.concat_iff, meets_iff added, statement, ← opens, ← opens',
        Part.statement_append, String.toList_append, balanced.opensComment_append]

theorem queriesOpen (plain : params.Plain) (sourced : set.Sourced .undashed) (room : Nat) :
    QueriesOpen set params room := by
  induction room with
  | zero => exact fun name query found options =>
      ofPieces_opens plain (by rintro _ ⟨⟩) (sourced.query found).2
  | succ room ih => exact fun name query found options =>
      ofPieces_opens plain (by rintro _ ⟨⟩; exact ih) (sourced.query found).2

end Draft

/-- In the statement that a query expands to, a comment opens outside strings exactly if two
dashes meet where its pieces are put together. -/
theorem comment_iff_dashes_meet {text : String} {set : QuerySet}
    (parsed : QuerySet.parse text = .ok set) {name : String} {query : NamedQuery}
    (found : set.get? name = some query) {params : Params} (plain : params.Plain)
    {options : Options} {part : Part} (expanded : (set.expand name params options).part = part) :
    OpensComment (outside part.statement.toList) ↔
      set.DashesMeet params options.room options query.pieces := by
  have sourced : set.Sourced .undashed := ⟨⟨text, parsed⟩, QuerySet.parse_undashed parsed⟩
  obtain ⟨grown, whole, _, opens⟩ :=
    Draft.queriesOpen plain sourced options.room name query found options
  rw [← expanded, QuerySet.expand_eq_answer found, Callee.answer_pieces, whole, Draft.finish_part,
    (outside_visible _).opensComment, Part.toList_normal, opensComment_normalize, opens]

theorem Expansion.eq_ok {expansion : Expansion} (isOk : expansion.isOk) :
    expansion = .ok ⟨expansion.part.statement, expansion.part.arguments⟩ := by
  cases expansion with
  | ok query => rfl
  | error unbound => cases isOk

/-- A query that ends with a minus sign in front of one that begins with another. -/
def refunds : String := "-- name: refund\n-5\n-- name: total\nSELECT 9 -:refund"

def refundSet : QuerySet where
  queries :=
    [ ⟨"refund", none, [.literal "-5 "], ⟨1, 1⟩⟩
    , ⟨"total", none, [.literal "SELECT 9 -", .parameter "refund"], ⟨3, 1⟩⟩ ]

theorem parse_refunds : QuerySet.parse refunds = .ok refundSet := by
  have parsed : Document.parse refunds = .ok (.named
      [ ⟨some "refund", none, [.literal "-5", .literal " "], ⟨1, 1⟩⟩
      , ⟨some "total", none, [.literal "SELECT", .literal " ", .literal "9", .literal " ",
          .literal "-", .parameter "refund"], ⟨3, 1⟩⟩ ]) := by decide +kernel
  exact QuerySet.parse_eq_ok_iff.mpr ⟨_, parsed, by cbv⟩

theorem expand_refunds : refundSet.expand "total" .empty {} =
    .ok { statement := "SELECT 9 --5", arguments := [] } := by
  have part : (refundSet.expand "total" .empty {}).part = { statement := "SELECT 9 --5" } := by cbv
  have isOk : (refundSet.expand "total" .empty {}).isOk := by decide +kernel
  rw [Expansion.eq_ok isOk, part]

theorem opensComment_refunds : OpensComment (outside "SELECT 9 --5".toList) := by
  rw [(outside_visible _).opensComment]
  exact ⟨"SELECT 9 ".toList, ['5'], by decide⟩

/-- The minus signs come to stand side by side, and the rest of the statement is a comment. -/
theorem refund_opens_comment :
    QuerySet.parse refunds = .ok refundSet ∧ "total" ∈ refundSet.names ∧ Params.empty.Plain ∧
      refundSet.expand "total" .empty {} = .ok { statement := "SELECT 9 --5", arguments := [] } ∧
      OpensComment (outside "SELECT 9 --5".toList) :=
  ⟨parse_refunds, by decide, Params.plain_empty, expand_refunds, opensComment_refunds⟩

theorem refund_dashes_meet :
    refundSet.DashesMeet .empty 32 {} [.literal "SELECT 9 -", .parameter "refund"] := by
  have found : refundSet.get? "total" =
      some ⟨"total", none, [.literal "SELECT 9 -", .parameter "refund"], ⟨3, 1⟩⟩ := rfl
  have expanded : (refundSet.expand "total" .empty {}).part = { statement := "SELECT 9 --5" } := by
    rw [expand_refunds]
    rfl
  have whole := comment_iff_dashes_meet parse_refunds found Params.plain_empty expanded
  exact whole.mp opensComment_refunds

end SqlTemplate
