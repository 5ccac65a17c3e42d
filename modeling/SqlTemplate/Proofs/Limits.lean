import SqlTemplate.Proofs.Additions
import SqlTemplate.Proofs.Nesting
import SqlTemplate.Proofs.Written

/-!
# When the limit of depth does not matter

An answer depends on the options of a call by its first number and by how many compositions
may still be nested, and by nothing else (`answer_eq_of_index`); only a probe shows more of
them. Errors of nested answers are never lost. So where none is reported because of the limit,
no composition was cut off anywhere below, and with a higher limit every call is answered as
before (`answer_of_deeper`).
-/

namespace SqlTemplate
open SqlTemplate.Identifier

/-- Nothing is reported as composed too deeply. -/
def Expansion.WithinLimit (expansion : Expansion) : Prop :=
  ∀ name, ¬ expansion.Reports ⟨name, .recursionLimit⟩

/-! ### Callees that do not show how they are called -/

/-- Pieces that expand with the parameters and the options of the call, or a constant. -/
def Callee.Discreet : Callee → Prop
  | pieces _ _ => True
  | constant _ => True
  | probe => False

theorem Callee.discreet_pieces (body : List Piece) (set : QuerySet) :
    (pieces body set).Discreet :=
  trivial

mutual

/-- A value in which every reference is of that kind. -/
inductive Value.Discreet : Value → Prop where
  | scalar (value : Scalar) : Value.Discreet (.scalar value)
  | list (values : List Scalar) : Value.Discreet (.list values)
  | query {reference : Reference} (known : reference.callee.Discreet) :
      Value.Discreet (.query reference)
  | inner {calls : List Call} (each : ∀ call ∈ calls, Call.Discreet call) (separator : String) :
      Value.Discreet (.inner calls separator)

/-- A call of that kind, whose own parameters are of that kind. -/
inductive Call.Discreet : Call → Prop where
  | mk {target : Target} {own : Option Params}
      (known : ∀ reference, target = .reference reference → reference.callee.Discreet)
      (values : ∀ params, own = some params → ∀ name value, params.get? name = some value →
        Value.Discreet value) :
      Call.Discreet ⟨target, own⟩

end

/-- All values are of that kind. -/
def Params.Discreet (params : Params) : Prop :=
  ∀ name value, params.get? name = some value → value.Discreet

/-- What answers an addition is of that kind. -/
def Addition.Discreet : Addition → Prop
  | .answer _ callee params => callee.Discreet ∧ params.Discreet
  | .text _ | .list _ | .missing _ => True

theorem Params.Plain.discreet {params : Params} (plain : params.Plain) : params.Discreet := by
  intro name value bound
  have isPlain := plain name value bound
  cases value with
  | scalar value => exact .scalar value
  | list values => exact .list values
  | query reference => exact isPlain.elim
  | inner calls separator => exact isPlain.elim

section Additions
variable {set : QuerySet} {params : Params}

theorem Call.Discreet.addition {call : Call} (discreet : call.Discreet) (values : params.Discreet) :
    (call.addition set params).Discreet := by
  cases discreet with
  | @mk target own known each =>
    have bound : (own.getD params).Discreet := by
      cases own with
      | none => exact values
      | some own => exact each own rfl
    cases target with
    | reference reference => exact ⟨known reference rfl, bound⟩
    | name name =>
      simp only [Call.addition]
      split
      · exact ⟨Callee.discreet_pieces .., bound⟩
      · trivial

theorem Value.Discreet.additions {value : Value} (discreet : value.Discreet)
    (values : params.Discreet) : ∀ addition ∈ value.additions set params, addition.Discreet := by
  cases discreet with
  | scalar value => exact List.forall_mem_singleton.mpr trivial
  | list values => exact List.forall_mem_singleton.mpr trivial
  | query known => exact List.forall_mem_singleton.mpr ⟨known, values⟩
  | inner each separator =>
    intro addition member
    rcases mem_intersperse member with rfl | member
    · trivial
    · obtain ⟨call, isCall, rfl⟩ := List.mem_map.mp member
      exact (each call isCall).addition values

/-- Pieces ask nothing but queries of the set and what the parameters hold. -/
theorem Params.Discreet.additions (values : params.Discreet) (pieces : List Piece) :
    ∀ addition ∈ pieces.flatMap (·.additions set params), addition.Discreet := by
  intro addition member
  obtain ⟨piece, _, member⟩ := List.mem_flatMap.mp member
  cases Piece.Adds.of_mem member with
  | literal text => trivial
  | composed found => exact ⟨Callee.discreet_pieces .., values⟩
  | bound found member => exact (values _ _ found).additions values addition member
  | missing name => trivial

end Additions

/-! ### Two runs alike -/

/-- What is added in two scopes is the same if every single part is. The errors of each part
are among those of the whole. -/
theorem Draft.putAll_eq_of_part {scope other : Scope} {additions : List Addition} {draft : Draft}
    (same : ∀ addition ∈ additions, ∀ index,
      (addition.part scope index).errors ⊆ (draft.putAll scope additions).errors →
        addition.part other index = addition.part scope index) :
    draft.putAll other additions = draft.putAll scope additions := by
  induction additions generalizing draft with
  | nil => rfl
  | cons addition more ih =>
    have whole : draft.putAll scope (addition :: more) =
        (draft.put scope addition).putAll scope more := rfl
    have first : draft.put other addition = draft.put scope addition := by
      rw [put_eq_extend, put_eq_extend, same addition List.mem_cons_self]
      obtain ⟨rest, grown⟩ := putAll_grows scope (draft.put scope addition) more
      intro error member
      rw [whole, grown, put_eq_extend]
      exact List.mem_append_left _ (List.mem_append_right _ member)
    calc draft.putAll other (addition :: more)
      _ = (draft.put scope addition).putAll other more := by
          rw [← first]
          rfl
      _ = (draft.put scope addition).putAll scope more :=
          ih fun addition member => same addition (List.mem_cons_of_mem _ member)

namespace Callee

/-- The first number is all that an answer shows of the options, apart from the room that is
left for nested compositions. -/
theorem answer_eq_of_index (room : Nat) {callee : Callee} (discreet : callee.Discreet)
    {params : Params} (values : params.Discreet) {options other : Options}
    (same : max other.index 1 = max options.index 1) :
    callee.answer room params other = callee.answer room params options := by
  cases callee with
  | constant answer => simp only [answer_eq, answerWith]
  | probe => exact discreet.elim
  | pieces body set =>
    have begins : Draft.start other.index = Draft.start options.index := by
      rw [Draft.start, same, Draft.start]
    rw [answer_eq_putAll, answer_eq_putAll, begins]
    refine congrArg Draft.finish (Draft.putAll_eq_of_part ?_)
    intro addition member index _
    have known := values.additions body addition member
    cases addition with
    | text content => rfl
    | list values => rfl
    | missing name => rfl
    | answer name callee own =>
      cases room with
      | zero => rfl
      | succ room =>
        rw [Addition.part_answer rfl, Addition.part_answer rfl]
        exact congrArg Expansion.part (answer_eq_of_index room known.1 known.2 rfl)
termination_by room

/-- Where nothing is cut off, more room changes nothing. -/
theorem answer_of_deeper {room more : Nat} (deeper : room ≤ more) (callee : Callee) (params : Params)
    (options : Options) (within : (callee.answer room params options).WithinLimit) :
    callee.answer more params options = callee.answer room params options := by
  cases callee with
  | constant answer => simp only [answer_eq, answerWith]
  | probe => simp only [answer_eq, answerWith]
  | pieces body set =>
    rw [answer_eq_putAll] at within
    rw [answer_eq_putAll, answer_eq_putAll]
    refine congrArg Draft.finish (Draft.putAll_eq_of_part ?_)
    intro addition member index errors
    cases addition with
    | text content => rfl
    | list values => rfl
    | missing name => rfl
    | answer name callee own =>
      have inside (last : String) : ⟨last, .recursionLimit⟩ ∉
          ((Addition.answer name callee own).part (.withRoom set params options room) index).errors := by
        intro reported
        refine within last (Expansion.reports_iff.mpr ?_)
        rw [Draft.finish_errors]
        exact errors reported
      cases room with
      | zero => exact absurd List.mem_cons_self (inside name)
      | succ room =>
        obtain ⟨more, rfl⟩ := Nat.exists_eq_add_of_le' (Nat.zero_lt_of_lt deeper)
        rw [Addition.part_answer rfl] at inside
        rw [Addition.part_answer rfl, Addition.part_answer rfl]
        have within : (callee.answer room own (options.nested index)).WithinLimit :=
          fun last reported => inside last (Expansion.reports_iff.mp reported)
        exact congrArg Expansion.part
          (answer_of_deeper (Nat.le_of_succ_le_succ deeper) callee own _ within)
termination_by room

end Callee

/-- If nothing is reported as composed too deeply, a higher limit gives the same statement, the
same arguments and the same errors. -/
theorem evaluate_of_deeper {pieces : List Piece} {set : QuerySet} {params : Params}
    (discreet : params.Discreet) {options : Options} {limit : Nat}
    (deeper : options.maxDepth ≤ limit) {result : Expansion}
    (evaluated : evaluate pieces set params options = result) (within : result.WithinLimit) :
    evaluate pieces set params (options.withMaxDepth limit) = result := by
  have room : options.room ≤ (options.withMaxDepth limit).room := Nat.sub_le_sub_right deeper _
  rw [← evaluated] at within ⊢
  calc evaluate pieces set params (options.withMaxDepth limit)
    _ = (Callee.pieces pieces set).answer (options.withMaxDepth limit).room params options :=
        Callee.answer_eq_of_index _ (Callee.discreet_pieces pieces set) discreet rfl
    _ = evaluate pieces set params options := Callee.answer_of_deeper room _ _ _ within

/-- The parameters of a search, and a reference that always answers the same. -/
def fixedParams : Params :=
  peopleParams.insert "fixed" (.query ⟨"fixed", .constant (.ok ⟨"valid = $9", [.bool true]⟩)⟩)

theorem fixedParams_discreet : fixedParams.Discreet := by
  intro name value bound
  rw [fixedParams, Params.get?_insert] at bound
  split at bound
  · cases bound
    exact .query trivial
  · have member := Params.mem_entries_of_get? bound
    simp only [peopleParams, List.mem_cons, Prod.mk.injEq, List.not_mem_nil, or_false] at member
    rcases member with ⟨_, rfl⟩ | ⟨_, rfl⟩
    · exact .scalar _
    · refine .inner (List.forall_mem_cons.mpr ⟨.mk (by simp) (by simp),
        List.forall_mem_singleton.mpr (.mk ?_ ?_)⟩) _
      · rintro _ ⟨⟩
        trivial
      · rintro _ ⟨⟩ name value bound
        have member := Params.mem_entries_of_get? bound
        obtain ⟨_, rfl⟩ : name = "limit" ∧ value = .list [.int 60, .int 70] := by simpa using member
        exact .list _

/-- Two levels are enough for this search, and so are forty. -/
theorem people_deeper :
    ∃ query, evaluate [.parameter "search", .literal " AND ", .parameter "fixed"] peopleSet fixedParams
        { index := 4, maxDepth := 2 } = .ok query ∧
      query.statement = "age > $4 OR age > $5,$6 AND note <> '$1?' AND valid = $9" ∧
      evaluate [.parameter "search", .literal " AND ", .parameter "fixed"] peopleSet fixedParams
        { index := 4, maxDepth := 40 } = .ok query := by
  have evaluated : evaluate [.parameter "search", .literal " AND ", .parameter "fixed"] peopleSet
      fixedParams { index := 4, maxDepth := 2 } =
        .ok ⟨"age > $4 OR age > $5,$6 AND note <> '$1?' AND valid = $9",
          [.int 18, .int 60, .int 70, .bool true]⟩ := by rfl
  have within : Expansion.WithinLimit (.ok ⟨"age > $4 OR age > $5,$6 AND note <> '$1?' AND valid = $9",
      [.int 18, .int 60, .int 70, .bool true]⟩) := by
    rintro name ⟨unbound, isError, _⟩
    cases isError
  have deeper : ({ index := 4, maxDepth := 2 } : Options).maxDepth ≤ 40 := by decide
  exact ⟨_, evaluated, rfl, evaluate_of_deeper fixedParams_discreet deeper evaluated within⟩

end SqlTemplate
