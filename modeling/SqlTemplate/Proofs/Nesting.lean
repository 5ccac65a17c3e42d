import SqlTemplate.Proofs.Reports

/-!
# How deep compositions are nested

Compositions lead from query to query, and in a set they never lead back, so that a way
down has fewer steps than the set has queries (`Descends.length_lt`). An expansion reports
that queries are composed too deeply exactly if a way down goes on where no more nesting is
allowed, and it names exactly the queries that such ways lead to (`limit_reported_iff`).
-/

namespace SqlTemplate

/-- An expansion fails, and this error is among its errors. -/
def Expansion.Reports (expansion : Expansion) (error : BindingError) : Prop :=
  ∃ unbound, expansion = .error unbound ∧ error ∈ unbound.errors

theorem Expansion.reports_iff {expansion : Expansion} {error : BindingError} :
    expansion.Reports error ↔ error ∈ expansion.part.errors := by
  cases expansion <;> simp [Reports, part]

namespace QuerySet
variable {set : QuerySet} {params : Params} {name last : String} {path : List String}

/-- A way down from a query: it composes the first query of the path, which composes the
second, and so on. -/
def Descends (set : QuerySet) (name : String) (path : List String) : Prop :=
  (name :: path).IsChain set.Composes

theorem Descends.take (descends : set.Descends name path) (count : Nat) :
    set.Descends name (path.take count) :=
  List.IsChain.take descends (count + 1)

/-- A way down leaves a query of an order behind with every step. -/
theorem Descends.length_lt (descends : set.Descends name path) {order : List String}
    (ordered : set.Ordered order) (listed : name ∈ order) : path.length < order.length := by
  induction path generalizing name order with
  | nil => exact List.length_pos_of_mem listed
  | cons next path ih =>
    obtain ⟨composes, rest⟩ := List.isChain_cons_cons.mp descends
    obtain ⟨front, older, rfl⟩ := List.append_of_mem listed
    obtain ⟨orderedOlder, inOlder⟩ := ordered.older
    have shorter := ih rest orderedOlder (inOlder next composes)
    rw [List.length_append, List.length_cons, List.length_cons]
    omega

/-- Where so many queries may be nested, a query is reported as one too many if a way down
leads to it in as many steps. -/
theorem reports_limit_iff {levels : Nat} :
    set.Reports params levels name ⟨last, .recursionLimit⟩ ↔
      ∃ path, set.Descends name path ∧ path.length = levels ∧ (name :: path).getLast? = some last := by
  constructor
  · intro reports
    generalize isError : (⟨last, .recursionLimit⟩ : BindingError) = error at reports
    induction reports with
    | limit name =>
      cases isError
      exact ⟨[], List.isChain_singleton _, rfl, rfl⟩
    | missing => cases isError
    | composed composes _ ih =>
      obtain ⟨path, descends, size, ends⟩ := ih isError
      refine ⟨_ :: path, List.isChain_cons_cons.mpr ⟨composes, descends⟩, congrArg (· + 1) size, ?_⟩
      rwa [List.getLast?_cons_cons]
  · rintro ⟨path, descends, rfl, ends⟩
    induction path generalizing name with
    | nil =>
      cases ends
      exact .limit name
    | cons next path ih =>
      obtain ⟨composes, rest⟩ := List.isChain_cons_cons.mp descends
      rw [List.getLast?_cons_cons] at ends
      exact .composed composes (ih rest ends)

end QuerySet

/-- A query is reported as composed too deeply exactly if a way down from the query that is
expanded has more steps than compositions may be nested. The reported queries are those
that the ways with just one step too many lead to. There is no such way if compositions may
be nested as deeply as there are other queries. -/
theorem limit_reported_iff {definitions : List Definition} {set : QuerySet}
    (accepted : QuerySet.ofDefinitions definitions = .ok set) {name : String}
    (known : name ∈ set.names) {params : Params} (plain : params.Plain) {options : Options}
    (outermost : options.depth = 0) {expansion : Expansion}
    (expanded : set.expand name params options = expansion) :
    ((∃ last, expansion.Reports ⟨last, .recursionLimit⟩) ↔
        ∃ path, set.Descends name path ∧ options.maxDepth < path.length) ∧
      (set.queries.length - 1 ≤ options.maxDepth →
        ∀ last, ¬ expansion.Reports ⟨last, .recursionLimit⟩) ∧
      ∀ last, expansion.Reports ⟨last, .recursionLimit⟩ ↔
        ∃ path, set.Descends name path ∧ path.length = options.maxDepth + 1 ∧
          path.getLast? = some last := by
  obtain ⟨query, found⟩ := QuerySet.exists_get? known
  have room : options.room = options.maxDepth := by rw [Options.room, outermost, Nat.sub_zero]
  have names (last : String) : expansion.Reports ⟨last, .recursionLimit⟩ ↔
      ∃ path, set.Descends name path ∧ path.length = options.maxDepth + 1 ∧
        path.getLast? = some last := by
    rw [← expanded, Expansion.reports_iff, QuerySet.expand_eq_answer found,
      Callee.mem_errors_answer plain options.room found, room, QuerySet.reports_limit_iff]
    refine exists_congr fun path => and_congr_right fun _ => and_congr_right fun size => ?_
    obtain ⟨next, path, rfl⟩ := List.exists_cons_of_length_eq_add_one size
    rw [List.getLast?_cons_cons]
  refine ⟨⟨?_, ?_⟩, ?_, names⟩
  · rintro ⟨last, reported⟩
    obtain ⟨path, descends, size, _⟩ := (names last).mp reported
    exact ⟨path, descends, by omega⟩
  · rintro ⟨path, descends, long⟩
    have size : (path.take (options.maxDepth + 1)).length = options.maxDepth + 1 := by
      rw [List.length_take]
      omega
    have nonempty : path.take (options.maxDepth + 1) ≠ [] := by
      rw [← List.length_pos_iff, size]
      exact Nat.succ_pos _
    exact ⟨_, (names _).mpr ⟨_, descends.take _, size, List.getLast?_eq_some_getLast nonempty⟩⟩
  · intro deep last reported
    obtain ⟨path, descends, size, _⟩ := (names last).mp reported
    obtain ⟨_, _, acyclic⟩ := QuerySet.ofDefinitions_eq_ok_iff.mp accepted
    obtain ⟨order, ordered, once, all⟩ := QuerySet.exists_order (QuerySet.cycle?_eq_none_iff.mpr acyclic)
    have shorter := descends.length_lt ordered ((all name).mpr known)
    have fits := set.length_le_of_nodup once fun name listed => (all name).mp listed
    omega

/-- If only one composition may be nested, the query that the voter composes is too deep. -/
theorem diamond_too_deep :
    diamondSet.Descends "person" ["voter", "adult"] ∧
      (diamondSet.expand "person" .empty { maxDepth := 1 }).Reports ⟨"adult", .recursionLimit⟩ := by
  have descends : diamondSet.Descends "person" ["voter", "adult"] := by
    have first : diamondSet.Composes "person" "voter" := ⟨_, rfl, by decide, by decide⟩
    have second : diamondSet.Composes "voter" "adult" := ⟨_, rfl, by decide, by decide⟩
    exact .cons_cons first (.cons_cons second (.singleton _))
  have known : "person" ∈ diamondSet.names := by decide
  have outermost : ({ maxDepth := 1 } : Options).depth = 0 := rfl
  have whole := limit_reported_iff ofDefinitions_diamond known Params.plain_empty outermost rfl
  exact ⟨descends, (whole.2.2 "adult").mpr ⟨_, descends, rfl, rfl⟩⟩

end SqlTemplate
