import SqlTemplate.Proofs.Dependence
import SqlTemplate.Proofs.Limits
import SqlTemplate.Proofs.Words

/-!
# Ways to compose a query

A query of a set is composed by its name, by a reference to it, or as the only call of an inner
value. All three come to one call with the same pieces (`evaluate_answer`), and what the call
answers is what expanding the query gives: the parameter that holds the reference is none of its
own, and one level of nesting more makes up for a limit higher by one. The statement goes
through its normal form once more, which changes it only if it ends with a semicolon.
-/

namespace SqlTemplate
open SqlTemplate.Sql

/-- The same expansion with its statement in normal form. -/
def Expansion.normal : Expansion → Expansion
  | .ok query => .ok { query with statement := normalizeText query.statement }
  | .error query => .error { query with statement := normalizeText query.statement }

namespace Draft

/-- What is finished and spliced into an empty draft is finished again. -/
theorem finish_splice_finish (index : UInt32) (draft : Draft) :
    ((start index).splice draft.finish).finish = draft.finish.normal := by
  unfold finish
  cases draft.errors <;> simp [splice, start, Expansion.normal]

theorem normal_finish {draft : Draft}
    (ends : draft.finish.part.statement.toList.getLast? ≠ some ';') :
    draft.finish.normal = draft.finish := by
  rw [part_finish] at ends
  have same : normalizeText (normalizeText draft.statement) = normalizeText draft.statement :=
    normalizeText_normalizeText ends
  unfold finish
  cases draft.errors <;> simp [Expansion.normal, same]

end Draft

/-- Pieces that add nothing but one answer give this answer in normal form. -/
theorem evaluate_answer {pieces : List Piece} {set : QuerySet} {params own : Params}
    {options : Options} {name : String} {callee : Callee} {room : Nat}
    (adds : pieces.flatMap (·.additions set params) = [.answer name callee own])
    (deeper : options.room = room + 1) : evaluate pieces set params options =
      ((Draft.start options.index).splice
        (callee.answer room own (options.nested (max options.index 1)))).finish := by
  rw [evaluate, Callee.answer_eq_putAll, adds, deeper]
  rfl

namespace QuerySet
variable {set : QuerySet} {params : Params} {name word : String} {options : Options}

/-- To add the answer of a query, one level below, is to expand the query. The parameters of the
call may differ from those of the expansion where the query does not depend on them. -/
theorem evaluate_composed {other : QuerySet} {pieces : List Piece} {own values : Params}
    {query : NamedQuery} (found : set.get? name = some query) (plain : params.Plain)
    (agree : set.Agree set name params own)
    (adds : pieces.flatMap (·.additions other values) =
      [.answer name (.pieces query.pieces set) own])
    (shallow : options.depth ≤ options.maxDepth) :
    evaluate pieces other values (options.withMaxDepth (options.maxDepth + 1)) =
      (set.expand name params options).normal := by
  have room : (options.withMaxDepth (options.maxDepth + 1)).room = options.room + 1 :=
    Nat.succ_sub shallow
  have first : max (max options.index 1) 1 = max options.index 1 := max_one_eq (max_one_pos _)
  have answered (nested : Options) (index : nested.index = max options.index 1) :
      (Callee.pieces query.pieces set).answer options.room own nested =
        (Callee.pieces query.pieces set).answer options.room params options :=
    calc (Callee.pieces query.pieces set).answer options.room own nested
      _ = (Callee.pieces query.pieces set).answer options.room params nested :=
          (agree.answer options.room found found nested).symm
      _ = (Callee.pieces query.pieces set).answer options.room params options :=
          Callee.answer_eq_of_index options.room (Callee.discreet_pieces query.pieces set)
            plain.discreet (by rw [index, first])
  rw [evaluate_answer adds room, answered _ rfl, expand_eq_answer found, Callee.answer_pieces,
    Draft.finish_splice_finish]

theorem not_dependsOn (unused : ∀ query ∈ set.queries, word ∉ query.references) :
    ¬ set.DependsOn name word := by
  rintro ⟨last, _, parameters, listed, member⟩
  obtain ⟨query, found, rfl⟩ := Option.map_eq_some_iff.mp listed
  exact unused query (List.mem_of_find?_eq_some found) (List.mem_filter.mp member).1

end QuerySet

/-- However a query is composed, by its name, by a reference in any set, or as the only call of
an inner value, the result is that of expanding it with room for one composition less: bound or
unbound, with the same arguments and the same errors. The statement is the normal form of the
statement, and so the same unless that ends with a semicolon. -/
theorem compositions_agree {set : QuerySet} {name : String} (known : name ∈ set.names)
    {params : Params} (plain : params.Plain) {word : String} (unnamed : word ∉ set.names)
    (unused : ∀ query ∈ set.queries, word ∉ query.references) {options : Options}
    (shallow : options.depth ≤ options.maxDepth) {result : Expansion}
    (expanded : set.expand name params options = result) {deeper : Options}
    (isDeeper : deeper = options.withMaxDepth (options.maxDepth + 1)) :
    evaluate [.parameter name] set params deeper = result.normal ∧
      (∃ reference, set.reference? name = some reference ∧
        ∀ other : QuerySet, word ∉ other.names →
          evaluate [.parameter word] other (params.insert word (.query reference)) deeper =
            result.normal) ∧
      (∀ separator, evaluate [.parameter word] set
          (params.insert word (.inner [⟨.name name, none⟩] separator)) deeper = result.normal) ∧
      (result.part.statement.toList.getLast? ≠ some ';' → result.normal = result) := by
  subst isDeeper expanded
  obtain ⟨query, found⟩ := QuerySet.exists_get? known
  have agree := QuerySet.Agree.refl set name plain
  have inserted (value : Value) : set.Agree set name params (params.insert word value) :=
    agree.insert (QuerySet.not_dependsOn unused) value
  have bound (value : Value) : (params.insert word value).get? word = some value := by
    rw [Params.get?_insert, if_pos rfl]
  refine ⟨?_, ⟨⟨name, .pieces query.pieces set⟩, ?_, ?_⟩, ?_, ?_⟩
  · refine QuerySet.evaluate_composed found plain agree ?_ shallow
    simp [Piece.additions, found]
  · rw [QuerySet.reference?, found]
    rfl
  · intro other unknown
    have same := inserted (.query ⟨name, .pieces query.pieces set⟩)
    refine QuerySet.evaluate_composed found plain same ?_ shallow
    simp [Piece.additions, QuerySet.get?_eq_none_iff.mpr unknown, bound, Value.additions]
  · intro separator
    have same := inserted (.inner [⟨.name name, none⟩] separator)
    refine QuerySet.evaluate_composed found plain same ?_ shallow
    simp [Piece.additions, QuerySet.get?_eq_none_iff.mpr unnamed, bound, Value.additions,
      Call.addition, found]
  · intro ends
    rw [QuerySet.expand_eq_answer found, Callee.answer_pieces] at ends ⊢
    exact Draft.normal_finish ends

/-- A list for the one parameter of the diamond. -/
def ageParams : Params where
  entries := [("limit", .list [.int 18, .int 21])]

/-- Whichever way the query is composed, the same composition below it is too deep. -/
theorem diamond_composed :
    ∃ unbound, diamondSet.expand "person" ageParams { index := 3, maxDepth := 1 } = .error unbound ∧
      unbound.statement = "<recursive adult> OR age >= $3,$4" ∧
      evaluate [.parameter "person"] diamondSet ageParams { index := 3, maxDepth := 2 } =
        .error unbound ∧
      (∃ reference, diamondSet.reference? "person" = some reference ∧
        evaluate [.parameter "choice"] peopleSet (ageParams.insert "choice" (.query reference))
          { index := 3, maxDepth := 2 } = .error unbound) ∧
      evaluate [.parameter "choice"] diamondSet
        (ageParams.insert "choice" (.inner [⟨.name "person", none⟩] ", "))
        { index := 3, maxDepth := 2 } = .error unbound := by
  have plain : ageParams.Plain := by
    intro name value bound
    have member := Params.mem_entries_of_get? bound
    obtain ⟨_, rfl⟩ : name = "limit" ∧ value = .list [.int 18, .int 21] := by
      simpa [ageParams] using member
    trivial
  have expanded : diamondSet.expand "person" ageParams { index := 3, maxDepth := 1 } =
      .error ⟨"<recursive adult> OR age >= $3,$4", [.int 18, .int 21],
        [⟨"adult", .recursionLimit⟩]⟩ := by rfl
  have known : "person" ∈ diamondSet.names := by decide
  have unnamed : "choice" ∉ diamondSet.names := by decide
  have unused : ∀ query ∈ diamondSet.queries, "choice" ∉ query.references := by decide
  have shallow : ({ index := 3, maxDepth := 1 } : Options).depth ≤ 1 := by decide
  obtain ⟨named, ⟨reference, isReference, referred⟩, inner, same⟩ :=
    compositions_agree known plain unnamed unused shallow expanded rfl
  rw [same (by decide)] at named referred inner
  exact ⟨_, expanded, rfl, named, ⟨reference, isReference, referred peopleSet (by decide)⟩,
    inner ", "⟩

end SqlTemplate
