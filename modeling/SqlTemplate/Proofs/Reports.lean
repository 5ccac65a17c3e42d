import SqlTemplate.Proofs.Inlining

/-!
# What expansions report

An expansion does not stop at what it cannot bind. With parameters that hold no queries,
its errors are exactly those that come about somewhere below the query, along compositions
that are nested no deeper than the options allow (`mem_errors_answer`). In a set no way
leads back to a query, so with room for all its queries every report is a missing
parameter, and the introspection of the set foretells which (`expand_ok_iff_bound`).
-/

namespace SqlTemplate
open SqlTemplate.Identifier

namespace QuerySet

/-- A parameter of a query that may not be left out and has no value. -/
structure Lacks (set : QuerySet) (params : Params) (name identifier : String) : Prop where
  parameter : ∃ parameters, set.parameters? name = some parameters ∧ identifier ∈ parameters
  mandatory : isOptional identifier = false
  unbound : params.get? identifier = none

/-- An error that expanding a query reports where so many queries may be nested, itself
included. -/
inductive Reports (set : QuerySet) (params : Params) : Nat → String → BindingError → Prop where
  | limit (name : String) : Reports set params 0 name ⟨name, .recursionLimit⟩
  | missing {levels : Nat} {name identifier : String} (lacks : set.Lacks params name identifier) :
      Reports set params (levels + 1) name ⟨identifier, .notFound⟩
  | composed {levels : Nat} {name next : String} {error : BindingError}
      (composes : set.Composes name next) (below : Reports set params levels next error) :
      Reports set params (levels + 1) name error

theorem mem_parameters_iff {set : QuerySet} {name identifier : String} {query : NamedQuery}
    (found : set.get? name = some query) :
    (∃ parameters, set.parameters? name = some parameters ∧ identifier ∈ parameters) ↔
      identifier ∈ Piece.references query.pieces ∧ identifier ∉ set.names := by
  simp [parameters?, found, NamedQuery.references, Piece.uses, contains, ← get?_eq_none_iff]

theorem mem_compositions_iff {set : QuerySet} {name next : String} :
    (∃ compositions, set.compositions? name = some compositions ∧ next ∈ compositions) ↔
      set.Composes name next := by
  constructor
  · rintro ⟨compositions, listed, member⟩
    obtain ⟨query, found, rfl⟩ := Option.map_eq_some_iff.mp listed
    obtain ⟨refers, known⟩ := List.mem_filter.mp member
    obtain ⟨other, isOther⟩ := Option.isSome_iff_exists.mp known
    exact ⟨query, found, refers, mem_names_of_get? isOther⟩
  · rintro ⟨query, found, refers, known⟩
    obtain ⟨other, isOther⟩ := exists_get? known
    have contained : set.contains next := by simp [contains, isOther]
    exact ⟨_, by rw [compositions?, found]; rfl, List.mem_filter.mpr ⟨refers, contained⟩⟩

end QuerySet

/-! ### Reports of a query and of its pieces -/

/-- An error that a piece of a query reports, where so many queries may be nested below. -/
def Piece.Reports (set : QuerySet) (params : Params) (levels : Nat) (error : BindingError) :
    Piece → Prop
  | literal _ => False
  | parameter name =>
    (name ∈ set.names ∧ set.Reports params levels name error) ∨
      (name ∉ set.names ∧ isOptional name = false ∧ params.get? name = none ∧
        error = ⟨name, .notFound⟩)

theorem Piece.mem_references_iff {pieces : List Piece} {name : String} :
    name ∈ references pieces ↔ .parameter name ∈ pieces := by
  unfold references
  rw [List.mem_filterMap]
  constructor
  · rintro ⟨piece, member, refers⟩
    cases piece with
    | literal text => cases refers
    | parameter other =>
      cases refers
      exact member
  · exact fun member => ⟨_, member, rfl⟩

theorem NamedQuery.mem_references_iff {query : NamedQuery} {name : String} :
    name ∈ query.references ↔ .parameter name ∈ query.pieces := by
  rw [← Piece.mem_references_iff]
  simp [references, Piece.uses]

/-- A query reports what its pieces report. -/
theorem QuerySet.reports_iff {set : QuerySet} {params : Params} {levels : Nat} {name : String}
    {query : NamedQuery} (found : set.get? name = some query) {error : BindingError} :
    set.Reports params (levels + 1) name error ↔
      ∃ piece ∈ query.pieces, piece.Reports set params levels error := by
  constructor
  · intro reports
    cases reports with
    | missing lacks =>
      obtain ⟨used, unknown⟩ := (mem_parameters_iff found).mp lacks.parameter
      exact ⟨_, Piece.mem_references_iff.mp used,
        Or.inr ⟨unknown, lacks.mandatory, lacks.unbound, rfl⟩⟩
    | composed composes below =>
      obtain ⟨used, known⟩ := (composes_iff found).mp composes
      exact ⟨_, NamedQuery.mem_references_iff.mp used, Or.inl ⟨known, below⟩⟩
  · rintro ⟨piece, member, reports⟩
    cases piece with
    | literal text => exact reports.elim
    | parameter next =>
      rcases reports with ⟨known, below⟩ | ⟨unknown, mandatory, unbound, rfl⟩
      · have refers := NamedQuery.mem_references_iff.mpr member
        exact .composed ((composes_iff found).mpr ⟨refers, known⟩) below
      · have isParameter := (mem_parameters_iff found).mpr
          ⟨Piece.mem_references_iff.mpr member, unknown⟩
        exact .missing ⟨isParameter, mandatory, unbound⟩

/-! ### Errors of drafts -/

namespace Draft
variable {set : QuerySet} {params : Params} {options : Options} {room : Nat} {error : BindingError}

theorem finish_errors (draft : Draft) : draft.finish.part.errors = draft.errors := by
  rw [part_finish]
  rfl

theorem finish_ok_iff (draft : Draft) :
    (∃ query, draft.finish = .ok query) ↔ draft.errors = [] := by
  unfold finish
  split
  · next none => simpa using none
  · next some => simpa using some

/-- What the errors of a composed query are, seen from the draft that composes it. -/
theorem mem_errors_compose {name : String} {callee : Callee}
    (below : ∀ lower, room = lower + 1 → ∀ options error,
      error ∈ (callee.answer lower params options).part.errors ↔ set.Reports params room name error)
    (draft : Draft) :
    error ∈ (draft.compose (.withRoom set params options room) name callee params).errors ↔
      error ∈ draft.errors ∨ set.Reports params room name error := by
  cases room with
  | zero =>
    have limit : set.Reports params 0 name error ↔ error = ⟨name, .recursionLimit⟩ := by
      constructor
      · rintro ⟨⟩
        rfl
      · rintro rfl
        exact .limit name
    rw [limit]
    simp [compose, Scope.withRoom, Callee.caller?, fail]
  | succ lower =>
    rw [← below lower rfl (options.nested draft.index)]
    simp [compose, Scope.withRoom, Callee.caller?, splice_eq_extend, extend]

theorem mem_errors_add (plain : params.Plain)
    (below : ∀ lower, room = lower + 1 → ∀ name query, set.get? name = some query →
      ∀ options error,
        error ∈ ((Callee.pieces query.pieces set).answer lower params options).part.errors ↔
        set.Reports params room name error)
    (draft : Draft) (piece : Piece) :
    error ∈ (draft.add (.withRoom set params options room) piece).errors ↔
      error ∈ draft.errors ∨ piece.Reports set params room error := by
  cases piece with
  | literal text => simp [add, literal, Piece.Reports]
  | parameter name =>
    cases found : set.get? name with
    | some query =>
      have known := QuerySet.mem_names_of_get? found
      have composed : error ∈ (draft.compose (.withRoom set params options room) name
            (.pieces query.pieces set) params).errors ↔
          error ∈ draft.errors ∨ set.Reports params room name error :=
        mem_errors_compose (fun lower deeper => below lower deeper name query found) draft
      simpa [add, Scope.withRoom, found, Piece.Reports, known] using composed
    | none =>
      have unknown := QuerySet.get?_eq_none_iff.mp found
      cases bound : params.get? name with
      | some value =>
        have isPlain := plain name value bound
        cases value with
        | scalar value =>
          simp [add, Scope.withRoom, found, bound, Piece.Reports, unknown, Draft.value, scalar, list]
        | list values =>
          simp [add, Scope.withRoom, found, bound, Piece.Reports, unknown, Draft.value, list]
        | query reference => exact isPlain.elim
        | inner calls separator => exact isPlain.elim
      | none =>
        by_cases optional : isOptional name
        · simp [add, Scope.withRoom, found, bound, Piece.Reports, unknown, optional]
        · simp [add, Scope.withRoom, found, bound, Piece.Reports, unknown, optional, fail]

theorem mem_errors_foldl {scope : Scope} {levels : Nat}
    (step : ∀ (draft : Draft) (piece : Piece), error ∈ (draft.add scope piece).errors ↔
      error ∈ draft.errors ∨ piece.Reports set params levels error)
    (pieces : List Piece) (draft : Draft) :
    error ∈ (pieces.foldl (add scope) draft).errors ↔
      error ∈ draft.errors ∨ ∃ piece ∈ pieces, piece.Reports set params levels error := by
  induction pieces generalizing draft with
  | nil => simp
  | cons piece pieces ih =>
    rw [List.foldl_cons, ih, step, or_assoc]
    simp

end Draft

/-- An answer reports exactly the errors that come about below the query. -/
theorem Callee.mem_errors_answer {set : QuerySet} {params : Params} (plain : params.Plain)
    (room : Nat) {name : String} {query : NamedQuery} (found : set.get? name = some query)
    (options : Options) (error : BindingError) :
    error ∈ ((Callee.pieces query.pieces set).answer room params options).part.errors ↔
      set.Reports params (room + 1) name error := by
  rw [answer_pieces, Draft.finish_errors, QuerySet.reports_iff found, Draft.ofPieces,
    Draft.mem_errors_foldl (Draft.mem_errors_add plain ?below)]
  case below =>
    rintro lower rfl name query found options error
    exact mem_errors_answer plain lower found options error
  simp [Draft.start]
termination_by room

/-! ### Sets -/

namespace QuerySet

/-- With room for all queries of an order, nothing but missing parameters is reported: those
of every query on the way. -/
theorem Ordered.reports_iff {set : QuerySet} {order : List String} (ordered : set.Ordered order)
    {name : String} (listed : name ∈ order) {levels : Nat} (fits : order.length ≤ levels)
    {params : Params} {error : BindingError} :
    set.Reports params levels name error ↔ error.fault = .notFound ∧
      ∃ last, Relation.ReflTransGen set.Composes name last ∧ set.Lacks params last error.name := by
  -- every composition goes on with a shorter order, so the levels never run out
  have deeper {order : List String} {levels : Nat} {name next : String}
      (ordered : set.Ordered order) (listed : name ∈ order) (fits : order.length ≤ levels + 1)
      (composes : set.Composes name next) :
      ∃ older, set.Ordered older ∧ next ∈ older ∧ older.length ≤ levels := by
    obtain ⟨front, older, rfl⟩ := List.append_of_mem listed
    obtain ⟨orderedOlder, inOlder⟩ := ordered.older
    refine ⟨older, orderedOlder, inOlder next composes, ?_⟩
    rw [List.length_append, List.length_cons] at fits
    omega
  constructor
  · intro reports
    induction reports generalizing order with
    | limit name =>
      rw [List.length_eq_zero_iff.mp (Nat.le_zero.mp fits)] at listed
      cases listed
    | missing lacks => exact ⟨rfl, _, .refl, lacks⟩
    | composed composes _ ih =>
      obtain ⟨older, orderedOlder, inOlder, shorter⟩ := deeper ordered listed fits composes
      obtain ⟨isMissing, last, reaches, lacks⟩ := ih orderedOlder inOlder shorter
      exact ⟨isMissing, last, .head composes reaches, lacks⟩
  · rintro ⟨isMissing, last, reaches, lacks⟩
    obtain ⟨identifier, fault⟩ := error
    obtain rfl : fault = .notFound := isMissing
    induction reaches using Relation.ReflTransGen.head_induction_on generalizing order levels with
    | refl =>
      have some := List.length_pos_of_mem listed
      obtain ⟨levels, rfl⟩ := Nat.exists_eq_succ_of_ne_zero (n := levels) (by omega)
      exact .missing lacks
    | head composes _ ih =>
      have some := List.length_pos_of_mem listed
      obtain ⟨levels, rfl⟩ := Nat.exists_eq_succ_of_ne_zero (n := levels) (by omega)
      obtain ⟨older, orderedOlder, inOlder, shorter⟩ := deeper ordered listed fits composes
      exact .composed composes (ih orderedOlder inOlder shorter)

/-- The queries that a query composes, by way of others or directly, and the query itself. -/
def Reaches (set : QuerySet) : String → String → Prop :=
  Relation.ReflTransGen fun name next =>
    ∃ compositions, set.compositions? name = some compositions ∧ next ∈ compositions

/-- The parameters that a query needs: those that may not be left out, of all that it reaches. -/
def Needs (set : QuerySet) (name identifier : String) : Prop :=
  isOptional identifier = false ∧ ∃ last, set.Reaches name last ∧
    ∃ parameters, set.parameters? last = some parameters ∧ identifier ∈ parameters

theorem reaches_eq (set : QuerySet) : set.Reaches = Relation.ReflTransGen set.Composes := by
  unfold Reaches
  congr
  funext name next
  exact propext mem_compositions_iff

theorem expand_eq_answer {set : QuerySet} {name : String} {query : NamedQuery}
    (found : set.get? name = some query) (params : Params) (options : Options) :
    set.expand name params options =
      (Callee.pieces query.pieces set).answer options.room params options := by
  rw [expand, found]
  rfl

/-- With room for all queries of a set, a query reports exactly the parameters that it needs
and does not get. -/
theorem mem_errors_expand {definitions : List Definition} {set : QuerySet}
    (accepted : QuerySet.ofDefinitions definitions = .ok set) {name : String}
    (known : name ∈ set.names) {params : Params} (plain : params.Plain) {options : Options}
    (room : set.queries.length ≤ options.maxDepth - options.depth) (error : BindingError) :
    error ∈ (set.expand name params options).part.errors ↔
      error.fault = .notFound ∧ set.Needs name error.name ∧ params.get? error.name = none := by
  obtain ⟨_, _, acyclic⟩ := ofDefinitions_eq_ok_iff.mp accepted
  obtain ⟨order, ordered, once, all⟩ := exists_order (cycle?_eq_none_iff.mpr acyclic)
  have fits : order.length ≤ options.room + 1 := by
    have := set.length_le_of_nodup once fun name listed => (all name).mp listed
    unfold Options.room
    omega
  obtain ⟨query, found⟩ := exists_get? known
  rw [expand_eq_answer found, Callee.mem_errors_answer plain options.room found,
    ordered.reports_iff ((all name).mpr known) fits, Needs, reaches_eq]
  constructor
  · rintro ⟨isMissing, last, reaches, lacks⟩
    exact ⟨isMissing, ⟨lacks.mandatory, last, reaches, lacks.parameter⟩, lacks.unbound⟩
  · rintro ⟨isMissing, ⟨mandatory, last, reaches, parameter⟩, unbound⟩
    exact ⟨isMissing, last, reaches, parameter, mandatory, unbound⟩

end QuerySet

/-- A query of a set expands exactly if all parameters are bound that introspection lists
for what it reaches and that may not be left out. Otherwise exactly those that are not
bound are reported, and all of them as missing. -/
theorem expand_ok_iff_bound {definitions : List Definition} {set : QuerySet}
    (accepted : QuerySet.ofDefinitions definitions = .ok set) {name : String}
    (known : name ∈ set.names) {params : Params} (plain : params.Plain) {options : Options}
    (room : set.queries.length ≤ options.maxDepth - options.depth) :
    ((∃ query, set.expand name params options = .ok query) ↔
      ∀ identifier, set.Needs name identifier → params.get? identifier ≠ none) ∧
    ∀ unbound, set.expand name params options = .error unbound →
      (∀ error ∈ unbound.errors, error.fault = .notFound) ∧
      ∀ identifier, identifier ∈ unbound.errors.map (·.name) ↔
        set.Needs name identifier ∧ params.get? identifier = none := by
  have reported := QuerySet.mem_errors_expand accepted known plain room
  constructor
  · obtain ⟨query, found⟩ := QuerySet.exists_get? known
    rw [QuerySet.expand_eq_answer found, Callee.answer_pieces] at reported ⊢
    rw [Draft.finish_ok_iff, ← Draft.finish_errors, List.eq_nil_iff_forall_not_mem]
    constructor
    · intro none identifier needs unbound
      exact none ⟨identifier, .notFound⟩ ((reported _).mpr ⟨rfl, needs, unbound⟩)
    · intro bound error member
      obtain ⟨_, needs, unbound⟩ := (reported error).mp member
      exact bound error.name needs unbound
  · intro unbound failed
    rw [failed] at reported
    refine ⟨fun error member => ((reported error).mp member).1, ?_⟩
    intro identifier
    rw [List.mem_map]
    constructor
    · rintro ⟨error, member, rfl⟩
      exact ((reported error).mp member).2
    · intro missing
      exact ⟨⟨identifier, .notFound⟩, (reported _).mpr ⟨rfl, missing⟩, rfl⟩

/-- Without a limit, the query that composes the other two is not bound. -/
theorem diamond_needs_limit :
    ∃ unbound, diamondSet.expand "person" .empty {} = .error unbound ∧
      (∀ error ∈ unbound.errors, error.fault = .notFound) ∧
      ∀ identifier, identifier ∈ unbound.errors.map (·.name) ↔
        diamondSet.Needs "person" identifier ∧ Params.empty.get? identifier = none := by
  have known : "person" ∈ diamondSet.names := by decide
  have room : diamondSet.queries.length ≤ ({} : Options).maxDepth - ({} : Options).depth := by decide
  have whole := expand_ok_iff_bound ofDefinitions_diamond known Params.plain_empty room
  have failed : ∃ unbound, diamondSet.expand "person" .empty {} = .error unbound := by
    have limit : (diamondSet.expand "person" .empty {}).part.errors =
        [⟨"limit", .notFound⟩, ⟨"limit", .notFound⟩] := by rfl
    cases expanded : diamondSet.expand "person" .empty {} with
    | error unbound => exact ⟨unbound, rfl⟩
    | ok query =>
      rw [expanded] at limit
      cases limit
  obtain ⟨unbound, failed⟩ := failed
  exact ⟨unbound, failed, whole.2 unbound failed⟩

end SqlTemplate
