import SqlTemplate.Proofs.Reports

/-!
# What an expansion depends on

An expansion reads the queries that it reaches and the values of their parameters, and
nothing else of its set and its parameters. So two sets with two bindings of parameters
expand a query to the same if they agree on that (`Agree`), whatever the options: names are
looked up one by one as they come up, and each look-up has the same answer in both.
-/

namespace SqlTemplate

namespace QuerySet
variable {set other : QuerySet} {name next : String} {params values : Params}

/-- A parameter of the query, or of a query that it reaches. -/
def DependsOn (set : QuerySet) (name identifier : String) : Prop :=
  ∃ last, set.Reaches name last ∧
    ∃ parameters, set.parameters? last = some parameters ∧ identifier ∈ parameters

/-- Seen from a query, two sets and two bindings of parameters are alike: the query reaches
the same queries, which have the same pieces, and their parameters are no queries in the other
set and have the same values, which hold no queries. -/
structure Agree (set other : QuerySet) (name : String) (params values : Params) : Prop where
  pieces : ∀ last, set.Reaches name last →
    (other.get? last).map (·.pieces) = (set.get? last).map (·.pieces)
  unnamed : ∀ identifier, set.DependsOn name identifier → identifier ∉ other.names
  bound : ∀ identifier, set.DependsOn name identifier →
    values.get? identifier = params.get? identifier
  plain : ∀ identifier, set.DependsOn name identifier →
    ∀ value, params.get? identifier = some value → value.Plain

theorem DependsOn.below {identifier : String} (reaches : set.Reaches name next)
    (depends : set.DependsOn next identifier) : set.DependsOn name identifier := by
  obtain ⟨last, further, isParameter⟩ := depends
  exact ⟨last, reaches.trans further, isParameter⟩

/-- No query of a set is one of its parameters. -/
theorem DependsOn.unknown {identifier : String} (depends : set.DependsOn name identifier) :
    identifier ∉ set.names := by
  obtain ⟨last, _, parameters, listed, member⟩ := depends
  obtain ⟨query, found, _⟩ := Option.map_eq_some_iff.mp listed
  exact ((mem_parameters_iff found).mp ⟨parameters, listed, member⟩).2

theorem Composes.reaches (composes : set.Composes name next) : set.Reaches name next := by
  rw [reaches_eq]
  exact .single composes

/-- What a query of a set reaches is a query of the set. -/
theorem Reaches.known (reaches : set.Reaches name next) (known : name ∈ set.names) :
    next ∈ set.names := by
  rw [reaches_eq] at reaches
  cases reaches with
  | refl => exact known
  | tail _ last =>
    obtain ⟨_, _, _, known⟩ := last
    exact known

theorem Agree.refl (set : QuerySet) (name : String) (plain : params.Plain) :
    set.Agree set name params params where
  pieces _ _ := rfl
  unnamed _ depends := depends.unknown
  bound _ _ := rfl
  plain _ _ := plain _

/-- What is alike seen from a query is alike seen from what it reaches. -/
theorem Agree.below (agree : set.Agree other name params values) (reaches : set.Reaches name next) :
    set.Agree other next params values where
  pieces last further := agree.pieces last (reaches.trans further)
  unnamed identifier depends := agree.unnamed identifier (depends.below reaches)
  bound identifier depends := agree.bound identifier (depends.below reaches)
  plain identifier depends := agree.plain identifier (depends.below reaches)

theorem Agree.get? (agree : set.Agree other name params values) {query : NamedQuery}
    (found : set.get? name = some query) :
    ∃ query', other.get? name = some query' ∧ query'.pieces = query.pieces := by
  have same := agree.pieces name .refl
  rw [found] at same
  exact Option.map_eq_some_iff.mp same

/-- To compose one of two queries that answer alike is to compose the other. -/
theorem compose_congr {room : Nat} {callee callee' : Callee}
    (below : ∀ lower, room = lower + 1 → ∀ options,
      callee.answer lower params options = callee'.answer lower values options)
    (options : Options) (draft : Draft) :
    draft.compose (.withRoom set params options room) name callee params =
      draft.compose (.withRoom other values options room) name callee' values := by
  cases room with
  | zero => rfl
  | succ lower => exact congrArg draft.splice (below lower rfl (options.nested draft.index))

/-- Each piece of a query adds the same in both sets. -/
theorem Agree.add {room : Nat} (agree : set.Agree other name params values) {query : NamedQuery}
    (found : set.get? name = some query)
    (below : ∀ lower, room = lower + 1 → ∀ next query query', set.Agree other next params values →
      set.get? next = some query → other.get? next = some query' → ∀ options,
        (Callee.pieces query.pieces set).answer lower params options =
          (Callee.pieces query'.pieces other).answer lower values options)
    (options : Options) (draft : Draft) {piece : Piece} (member : piece ∈ query.pieces) :
    draft.add (.withRoom set params options room) piece =
      draft.add (.withRoom other values options room) piece := by
  cases piece with
  | literal text => rfl
  | parameter identifier =>
    -- what an identifier means is looked up in each set by itself
    cases known : set.get? identifier with
    | some next =>
      have composes : set.Composes name identifier :=
        (composes_iff found).mpr ⟨NamedQuery.mem_references_iff.mpr member, mem_names_of_get? known⟩
      have lower := agree.below composes.reaches
      obtain ⟨next', known', _⟩ := lower.get? known
      simp only [Draft.add, Scope.withRoom, known, known']
      refine compose_congr ?_ options draft
      exact fun room deeper => below room deeper _ _ _ lower known known'
    | none =>
      have unknown := get?_eq_none_iff.mp known
      have refers := Piece.mem_references_iff.mpr member
      have isParameter := (mem_parameters_iff found).mpr ⟨refers, unknown⟩
      have depends : set.DependsOn name identifier := ⟨name, .refl, isParameter⟩
      have unknown' := get?_eq_none_iff.mpr (agree.unnamed identifier depends)
      simp only [Draft.add, Scope.withRoom, known, unknown', agree.bound identifier depends]
      cases bound : params.get? identifier with
      | none => rfl
      | some value =>
        have isPlain := agree.plain identifier depends value bound
        cases value with
        | scalar value => rfl
        | list values => rfl
        | query reference => exact isPlain.elim
        | inner calls separator => exact isPlain.elim

/-- A query answers alike in both sets, however deeply compositions may be nested. -/
theorem Agree.answer {name : String} (agree : set.Agree other name params values) (room : Nat)
    {query query' : NamedQuery} (found : set.get? name = some query)
    (found' : other.get? name = some query') (options : Options) :
    (Callee.pieces query.pieces set).answer room params options =
      (Callee.pieces query'.pieces other).answer room values options := by
  have same : query'.pieces = query.pieces := by
    obtain ⟨other', isOther, same⟩ := agree.get? found
    rw [found'] at isOther
    cases isOther
    exact same
  have step (draft : Draft) (piece : Piece) (member : piece ∈ query.pieces) :
      draft.add (.withRoom set params options room) piece =
        draft.add (.withRoom other values options room) piece := by
    refine agree.add found ?_ options draft member
    rintro lower rfl next query query' agree found found' options
    exact answer agree lower found found' options
  rw [Callee.answer_pieces, Callee.answer_pieces, same]
  exact congrArg Draft.finish (List.foldl_ext _ _ _ step)
termination_by room

theorem Agree.expand (agree : set.Agree other name params values) (options : Options) :
    set.expand name params options = other.expand name values options := by
  cases found : set.get? name with
  | some query =>
    obtain ⟨query', found', _⟩ := agree.get? found
    rw [expand_eq_answer found, expand_eq_answer found']
    exact agree.answer options.room found found' options
  | none =>
    have unknown : other.get? name = none := by
      have same := agree.pieces name .refl
      rw [found] at same
      exact Option.map_eq_none_iff.mp same
    simp only [QuerySet.expand, found, unknown]

/-! ### What never matters -/

/-- A binding of what a query does not depend on. -/
theorem Agree.insert (agree : set.Agree other name params values) {word : String}
    (unrelated : ¬ set.DependsOn name word) (value : Value) :
    set.Agree set name params (params.insert word value) where
  pieces _ _ := rfl
  unnamed _ depends := depends.unknown
  bound identifier depends := by
    rw [Params.get?_insert, if_neg]
    rintro rfl
    exact unrelated depends
  plain := agree.plain

/-- Further queries with names that a query does not depend on. -/
theorem Agree.append (agree : set.Agree other name params values) (known : name ∈ set.names)
    {queries : List NamedQuery} (unrelated : ∀ query ∈ queries, ¬ set.DependsOn name query.name) :
    set.Agree ⟨set.queries ++ queries⟩ name params params where
  pieces last reaches := by
    obtain ⟨query, found⟩ := exists_get? (reaches.known known)
    have found' : (QuerySet.mk (set.queries ++ queries)).get? last = some query := by
      rw [QuerySet.get?, List.find?_append]
      exact Option.or_eq_some_iff.mpr (Or.inl found)
    rw [found, found']
  unnamed identifier depends := by
    intro member
    rw [names, List.map_append, List.mem_append] at member
    rcases member with member | member
    · exact depends.unknown member
    · obtain ⟨query, isNew, rfl⟩ := List.mem_map.mp member
      exact unrelated query isNew depends
  bound _ _ := rfl
  plain := agree.plain

end QuerySet

/-- A query expands to the same in two sets that agree on what it reaches, with parameters
that agree on what it depends on. So a binding does not matter if it has the name of a query,
or if the query does not depend on it, and neither do further queries. -/
theorem expand_eq_of_agree {set other : QuerySet} {name : String} {params values : Params}
    (agree : set.Agree other name params values) (options : Options) :
    set.expand name params options = other.expand name values options ∧
      (∀ word value, word ∈ set.names ∨ ¬ set.DependsOn name word →
        set.expand name (params.insert word value) options = set.expand name params options) ∧
      (name ∈ set.names → ∀ queries : List NamedQuery,
        (∀ query ∈ queries, ¬ set.DependsOn name query.name) →
        (QuerySet.mk (set.queries ++ queries)).expand name params options =
          set.expand name params options) := by
  refine ⟨agree.expand options, ?_, ?_⟩
  · intro word value isUnrelated
    have unrelated : ¬ set.DependsOn name word :=
      isUnrelated.elim (fun known depends => depends.unknown known) id
    exact ((agree.insert unrelated value).expand options).symm
  · intro known queries unrelated
    exact ((agree.append known unrelated).expand options).symm

theorem diamond_dependsOn {identifier : String} (depends : diamondSet.DependsOn "person" identifier) :
    identifier = "limit" := by
  obtain ⟨last, reaches, parameters, listed, member⟩ := depends
  have known := reaches.known (by decide)
  have each : ∀ last ∈ diamondSet.names, ∀ identifier ∈ (diamondSet.parameters? last).getD [],
      identifier = "limit" := by
    decide +kernel
  exact each last known identifier (by rwa [listed])

/-- There is one query more, and one of the others is bound. -/
theorem diamond_with_minor :
    diamondSet.expand "person" ⟨[("limit", .scalar (.int 18))]⟩ {} =
      (QuerySet.mk (diamondSet.queries ++
        [⟨"minor", none, [.literal "NOT ", .parameter "adult"], ⟨9, 1⟩⟩])).expand "person"
          ⟨[("adult", .list []), ("limit", .scalar (.int 18))]⟩ {} := by
  have agree : diamondSet.Agree (.mk (diamondSet.queries ++
      [⟨"minor", none, [.literal "NOT ", .parameter "adult"], ⟨9, 1⟩⟩])) "person"
      ⟨[("limit", .scalar (.int 18))]⟩ ⟨[("adult", .list []), ("limit", .scalar (.int 18))]⟩ := by
    refine ⟨?_, ?_, ?_, ?_⟩
    · intro last reaches
      have each : ∀ last ∈ diamondSet.names,
          ((QuerySet.mk (diamondSet.queries ++
            [⟨"minor", none, [.literal "NOT ", .parameter "adult"], ⟨9, 1⟩⟩])).get? last).map
              (·.pieces) = (diamondSet.get? last).map (·.pieces) := by
        decide +kernel
      exact each last (reaches.known (by decide))
    · intro identifier depends
      obtain rfl := diamond_dependsOn depends
      decide
    · intro identifier depends
      obtain rfl := diamond_dependsOn depends
      rfl
    · intro identifier depends value bound
      obtain rfl := diamond_dependsOn depends
      cases bound
      trivial
  exact (expand_eq_of_agree agree {}).1

end SqlTemplate
