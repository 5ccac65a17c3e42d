import SqlTemplate.Log
import SqlTemplate.Proofs.Part

/-!
# What is added to drafts

A piece adds things to a draft one after the other: texts, placeholders, gaps and the answers
to calls. Which things these are depends on the set and on the parameters, and neither on the
draft nor on what calls answer (`Draft.add_eq_putAll`). So there are four things to look at,
whatever a parameter is bound to.
-/

namespace SqlTemplate
open SqlTemplate.Identifier

theorem mem_intersperse {α : Type} {separator a : α} {list : List α}
    (member : a ∈ list.intersperse separator) : a = separator ∨ a ∈ list := by
  cases list with
  | nil => cases member
  | cons first rest =>
    induction rest generalizing first with
    | nil => exact Or.inr member
    | cons second rest ih =>
      rw [List.intersperse_cons_cons, List.mem_cons, List.mem_cons] at member
      rcases member with isFirst | isSeparator | behind
      · exact Or.inr (isFirst ▸ List.mem_cons_self)
      · exact Or.inl isSeparator
      · exact (ih second behind).imp_right (List.mem_cons_of_mem first)

/-- The part that an addition is, where the next placeholder has this number. -/
def Addition.part (scope : Scope) (index : UInt32) : Addition → Part
  | text content => { statement := content }
  | list values => .list index values
  | missing name => { statement := Draft.marker ⟨name, .notFound⟩, errors := [⟨name, .notFound⟩] }
  | answer name callee params =>
    match scope.caller? with
    | some call => (call callee params (scope.options.nested index)).part
    | none =>
      { statement := Draft.marker ⟨name, .recursionLimit⟩, errors := [⟨name, .recursionLimit⟩] }

theorem Addition.part_answer {scope : Scope} {call : Caller} (found : scope.caller? = some call)
    (index : UInt32) (name : String) (callee : Callee) (params : Params) :
    (answer name callee params).part scope index =
      (call callee params (scope.options.nested index)).part := by
  simp only [part, found]

/-- Why a piece adds something. -/
inductive Piece.Adds (set : QuerySet) (params : Params) : Piece → Addition → Prop where
  | literal (text : String) : Piece.Adds set params (.literal text) (.text text)
  | composed {name : String} {query : NamedQuery} (found : set.get? name = some query) :
      Piece.Adds set params (.parameter name) (.answer name (.pieces query.pieces set) params)
  | bound {name : String} {value : Value} {addition : Addition} (found : params.get? name = some value)
      (member : addition ∈ value.additions set params) :
      Piece.Adds set params (.parameter name) addition
  | missing (name : String) : Piece.Adds set params (.parameter name) (.missing name)

theorem Piece.Adds.of_mem {set : QuerySet} {params : Params} {piece : Piece} {addition : Addition}
    (member : addition ∈ piece.additions set params) : piece.Adds set params addition := by
  cases piece with
  | literal text =>
    obtain rfl := List.mem_singleton.mp member
    exact .literal text
  | parameter name =>
    unfold Piece.additions at member
    dsimp only at member
    split at member
    · next query found =>
      obtain rfl := List.mem_singleton.mp member
      exact .composed found
    · split at member
      · next value found => exact .bound found member
      · split at member
        · cases member
        · obtain rfl := List.mem_singleton.mp member
          exact .missing name

namespace Draft

theorem call_eq_put (scope : Scope) (draft : Draft) (call : Call) :
    draft.call scope call = draft.put scope (call.addition scope.set scope.params) := by
  obtain ⟨target, own⟩ := call
  cases target with
  | reference reference => rfl
  | name name => cases found : scope.set.get? name <;> simp [Draft.call, Call.addition, put, found]

theorem inner_eq_putAll (scope : Scope) (draft : Draft) (separator : String) (calls : List Call) :
    draft.inner scope separator calls = draft.putAll scope
      ((calls.map (·.addition scope.set scope.params)).intersperse (.text separator)) := by
  cases calls with
  | nil => rfl
  | cons first more =>
    induction more generalizing first draft with
    | nil => exact call_eq_put scope draft first
    | cons second more ih =>
      calc draft.inner scope separator (first :: second :: more)
        _ = ((draft.call scope first).literal separator).inner scope separator (second :: more) := rfl
        _ = _ := ih ((draft.call scope first).literal separator) second
        _ = _ := by rw [call_eq_put]; rfl

/-- What a piece adds is added one thing after the other. -/
theorem add_eq_putAll (scope : Scope) (draft : Draft) (piece : Piece) :
    draft.add scope piece = draft.putAll scope (piece.additions scope.set scope.params) := by
  cases piece with
  | literal text => rfl
  | parameter name =>
    unfold add Piece.additions
    dsimp only
    cases scope.set.get? name with
    | some query => rfl
    | none =>
      cases scope.params.get? name with
      | none =>
        dsimp only
        split <;> rfl
      | some value =>
        cases value with
        | scalar value => rfl
        | list values => rfl
        | query reference => rfl
        | inner calls separator => exact inner_eq_putAll scope draft separator calls

theorem ofPieces_eq_putAll (scope : Scope) (pieces : List Piece) :
    ofPieces scope pieces =
      (start scope.options.index).putAll scope
        (pieces.flatMap (·.additions scope.set scope.params)) := by
  unfold ofPieces putAll
  rw [List.foldl_flatMap]
  congr
  funext draft piece
  exact add_eq_putAll scope draft piece

end Draft

/-- A query answers with what its pieces add, one thing after the other. -/
theorem Callee.answer_eq_putAll (room : Nat) (pieces : List Piece) (set : QuerySet) (params : Params)
    (options : Options) : (Callee.pieces pieces set).answer room params options =
      ((Draft.start options.index).putAll (.withRoom set params options room)
        (pieces.flatMap (·.additions set params))).finish := by
  rw [answer_pieces, Draft.ofPieces_eq_putAll]
  rfl

/-! ### Growth -/

namespace Draft
variable {draft after last : Draft} {scope : Scope}

/-- A part was added to a draft. -/
def Grows (draft after : Draft) : Prop := ∃ part, after = draft.extend part

namespace Grows

theorem refl (draft : Draft) : draft.Grows draft := ⟨{}, draft.extend_empty.symm⟩

theorem trans (first : draft.Grows after) (second : after.Grows last) : draft.Grows last := by
  obtain ⟨a, rfl⟩ := first
  obtain ⟨b, rfl⟩ := second
  exact ⟨a ++ b, extend_extend ..⟩

end Grows

theorem put_eq_extend (scope : Scope) (draft : Draft) (addition : Addition) :
    draft.put scope addition = draft.extend (addition.part scope draft.index) := by
  cases addition with
  | text content => exact literal_eq_extend ..
  | list values => exact list_eq_extend ..
  | missing name => exact fail_eq_extend ..
  | answer name callee params =>
    cases found : scope.caller? with
    | some call => simp only [put, compose, Addition.part, found, splice_eq_extend]
    | none => simp only [put, compose, Addition.part, found, fail_eq_extend]

theorem putAll_grows (scope : Scope) (draft : Draft) (additions : List Addition) :
    draft.Grows (draft.putAll scope additions) := by
  induction additions generalizing draft with
  | nil => exact .refl draft
  | cons addition additions ih => exact .trans ⟨_, put_eq_extend scope draft addition⟩ (ih _)

end Draft
end SqlTemplate
