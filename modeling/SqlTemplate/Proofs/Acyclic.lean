import Mathlib.Data.List.Chain
import Mathlib.Data.List.TakeWhile
import Mathlib.Logic.Relation
import SqlTemplate.QuerySet
import SqlTemplate.Value

/-!
# Which definitions make a set

The search for cycles is exact. Where it ends without one, the finished queries stand in
an order in which every query composes only queries that were finished before it
(`follow_ok`); where it reports a cycle, the reported path is one (`follow_error`). So
definitions make a set exactly if each has a name of its own and none composes itself.
-/

namespace SqlTemplate

namespace QuerySet

/-! ### Names -/

theorem get?_eq_none_iff {set : QuerySet} {name : String} :
    set.get? name = none ↔ name ∉ set.names := by
  simp [get?, names, List.find?_eq_none]

theorem exists_get? {set : QuerySet} {name : String} (known : name ∈ set.names) :
    ∃ query, set.get? name = some query := by
  cases found : set.get? name with
  | some query => exact ⟨query, rfl⟩
  | none => exact absurd known (get?_eq_none_iff.mp found)

/-- One query of the set refers to another. -/
def Composes (set : QuerySet) (name next : String) : Prop :=
  ∃ query, set.get? name = some query ∧ next ∈ query.references ∧ next ∈ set.names

theorem composes_iff {set : QuerySet} {name next : String} {query : NamedQuery}
    (found : set.get? name = some query) :
    set.Composes name next ↔ next ∈ query.references ∧ next ∈ set.names := by
  simp [Composes, found]

/-- No query composes itself, by way of others or directly. -/
def Acyclic (set : QuerySet) : Prop := ∀ name, ¬ Relation.TransGen set.Composes name name

/-! ### Orders of composition -/

/-- Every query comes before the queries that it composes. -/
def Ordered (set : QuerySet) : List String → Prop
  | [] => True
  | name :: older => (∀ next, set.Composes name next → next ∈ older) ∧ set.Ordered older

/-- What an order holds, it holds with everything that is composed. -/
theorem Ordered.closed {set : QuerySet} {order : List String} (ordered : set.Ordered order)
    {name next : String} (listed : name ∈ order) (composes : set.Composes name next) :
    next ∈ order := by
  induction order with
  | nil => cases listed
  | cons first older ih =>
    obtain ⟨inOlder, rest⟩ := ordered
    rcases List.mem_cons.mp listed with rfl | listed
    · exact List.mem_cons_of_mem _ (inOlder next composes)
    · exact List.mem_cons_of_mem _ (ih rest listed)

theorem Ordered.reaches {set : QuerySet} {order : List String} (ordered : set.Ordered order)
    {name next : String} (listed : name ∈ order)
    (reaches : Relation.ReflTransGen set.Composes name next) : next ∈ order := by
  induction reaches with
  | refl => exact listed
  | tail _ composes ih => exact ordered.closed ih composes

/-- The first query of an order is not composed by the queries after it, so no way leads
from it back to itself. -/
theorem Ordered.irrefl {set : QuerySet} {order : List String} (ordered : set.Ordered order)
    {name : String} (listed : name ∈ order) : ¬ Relation.TransGen set.Composes name name := by
  induction order with
  | nil => cases listed
  | cons first older ih =>
    obtain ⟨inOlder, rest⟩ := ordered
    by_cases again : name ∈ older
    · exact ih rest again
    · intro cycle
      have same : name = first := (List.mem_cons.mp listed).resolve_right again
      subst same
      obtain ⟨next, composes, back⟩ := Relation.TransGen.head'_iff.mp cycle
      exact again (rest.reaches (inOlder next composes) back)

/-! ### The search -/

/-- What the search has finished, while it stands at the end of a path. -/
structure Searched (set : QuerySet) (path finished : List String) : Prop where
  ordered : set.Ordered finished
  known : ∀ name ∈ finished, name ∈ set.names
  once : finished.Nodup
  apart : ∀ name ∈ finished, name ∉ path

theorem Searched.start (set : QuerySet) (path : List String) : set.Searched path [] :=
  ⟨trivial, by simp, List.nodup_nil, by simp⟩

theorem Searched.deeper {set : QuerySet} {path finished : List String} {name : String}
    (searched : set.Searched path finished) (unfinished : name ∉ finished) :
    set.Searched (path ++ [name]) finished := by
  refine ⟨searched.ordered, searched.known, searched.once, ?_⟩
  intro other done
  have : other ≠ name := fun same => unfinished (same ▸ done)
  simpa [this] using searched.apart other done

/-- A query is finished once all that it composes is. -/
theorem Searched.finish {set : QuerySet} {path finished : List String} {name : String}
    {query : NamedQuery} (found : set.get? name = some query) (fresh : name ∉ path)
    (searched : set.Searched (path ++ [name]) finished)
    (all : ∀ next ∈ query.references, next ∈ set.names → next ∈ finished) :
    set.Searched path (name :: finished) := by
  have unfinished : name ∉ finished := fun done => searched.apart name done (by simp)
  refine ⟨⟨?_, searched.ordered⟩, ?_, List.nodup_cons.mpr ⟨unfinished, searched.once⟩, ?_⟩
  · intro next composes
    obtain ⟨refers, known⟩ := (composes_iff found).mp composes
    exact all next refers known
  · intro other listed
    rcases List.mem_cons.mp listed with rfl | done
    · exact mem_names_of_get? found
    · exact searched.known other done
  · intro other listed
    rcases List.mem_cons.mp listed with rfl | done
    · exact fresh
    · intro onPath
      exact searched.apart other done (List.mem_append_left _ onPath)

/-- A search without a cycle finishes everything that it follows. -/
theorem follow_ok {set : QuerySet} {path finished references result : List String}
    (h : set.follow path finished references = .ok result)
    (searched : set.Searched path finished) :
    set.Searched path result ∧ finished ⊆ result ∧
      ∀ name ∈ references, name ∈ set.names → name ∈ result := by
  fun_induction set.follow path finished references generalizing result with
  | case1 path finished =>
    cases h
    exact ⟨searched, List.Subset.refl _, by simp⟩
  | case2 path finished name more unknown ih =>
    obtain ⟨after, grows, all⟩ := ih h searched
    refine ⟨after, grows, ?_⟩
    intro other listed known
    rcases List.mem_cons.mp listed with rfl | listed
    · exact absurd known (get?_eq_none_iff.mp unknown)
    · exact all other listed known
  | case3 path finished name more query found done ih =>
    obtain ⟨after, grows, all⟩ := ih h searched
    refine ⟨after, grows, ?_⟩
    intro other listed known
    rcases List.mem_cons.mp listed with rfl | listed
    · exact grows (by simpa using done)
    · exact all other listed known
  | case4 path finished name more query found undone fresh _ below _ ihBelow ihAfter =>
    obtain ⟨under, growsBelow, allBelow⟩ := ihBelow ‹_› (searched.deeper (by simpa using undone))
    obtain ⟨after, grows, all⟩ := ihAfter h (under.finish found fresh allBelow)
    refine ⟨after, fun other done => grows (List.mem_cons_of_mem _ (growsBelow done)), ?_⟩
    intro other listed known
    rcases List.mem_cons.mp listed with rfl | listed
    · exact grows List.mem_cons_self
    · exact all other listed known
  | case5 => cases h
  | case6 => cases h

/-- The path of a search leads from query to query, and its last query refers to what is
followed next. -/
structure Trail (set : QuerySet) (path references : List String) : Prop where
  chain : path.IsChain set.Composes
  once : path.Nodup
  leads : ∀ last ∈ path.getLast?, ∀ next ∈ references, next ∈ set.names → set.Composes last next

theorem Trail.rest {set : QuerySet} {path more : List String} {name : String}
    (trail : set.Trail path (name :: more)) : set.Trail path more :=
  ⟨trail.chain, trail.once, fun last isLast next listed =>
    trail.leads last isLast next (List.mem_cons_of_mem _ listed)⟩

theorem Trail.deeper {set : QuerySet} {path more : List String} {name : String}
    {query : NamedQuery} (trail : set.Trail path (name :: more))
    (found : set.get? name = some query) (fresh : name ∉ path) :
    set.Trail (path ++ [name]) query.references := by
  have known := mem_names_of_get? found
  refine ⟨?_, ?_, ?_⟩
  · refine trail.chain.append (List.isChain_singleton _) ?_
    intro last isLast next isNext
    obtain rfl : name = next := by simpa using isNext
    exact trail.leads last isLast name List.mem_cons_self known
  · exact List.nodup_append.mpr ⟨trail.once, by simp, by
      intro other onPath last isLast same
      obtain rfl : last = name := by simpa using isLast
      exact fresh (same ▸ onPath)⟩
  · intro last isLast next refers inSet
    obtain rfl : name = last := by simpa using isLast
    exact (composes_iff found).mpr ⟨refers, inSet⟩

/-- The path of a report leads from a query of the set back to it, and passes no query
twice on the way. -/
structure Cycle.Real (set : QuerySet) (cycle : Cycle) : Prop where
  query : set.get? cycle.query.name = some cycle.query
  ends : ∃ between, cycle.path = cycle.query.name :: between ++ [cycle.query.name] ∧
    (cycle.query.name :: between).Nodup
  chain : cycle.path.IsChain set.Composes

/-- A query that is met on the path closes a cycle. -/
theorem Trail.back {set : QuerySet} {path more : List String} {name : String}
    {query : NamedQuery} (trail : set.Trail path (name :: more))
    (found : set.get? name = some query) (onPath : name ∈ path) :
    Cycle.Real set ⟨query, path.dropWhile (· != name) ++ [name]⟩ := by
  have named : query.name = name := by simpa using List.find?_some found
  have suffix : path.dropWhile (· != name) <:+ path := List.dropWhile_suffix _
  obtain ⟨between, split⟩ : ∃ between, path.dropWhile (· != name) = name :: between := by
    cases rest : path.dropWhile (· != name) with
    | nil => exact absurd (List.dropWhile_eq_nil_iff.mp rest name onPath) (by simp)
    | cons first between =>
      have stops := List.head?_dropWhile_not (· != name) path
      exact ⟨between, by simp_all⟩
  refine ⟨by rw [named, found], ⟨between, by simp [named, split], ?_⟩, ?_⟩
  · rw [named, ← split]
    exact trail.once.sublist suffix.sublist
  · refine (trail.chain.suffix suffix).append (List.isChain_singleton _) ?_
    intro last isLast next isNext
    obtain rfl : name = next := by simpa using isNext
    refine trail.leads last ?_ name List.mem_cons_self (mem_names_of_get? found)
    obtain ⟨front, whole⟩ := suffix
    rw [← whole, List.getLast?_append, Option.mem_def.mp isLast]
    rfl

/-- The search reports nothing but cycles. -/
theorem follow_error {set : QuerySet} {path finished references : List String} {cycle : Cycle}
    (h : set.follow path finished references = .error cycle)
    (trail : set.Trail path references) : cycle.Real set := by
  fun_induction set.follow path finished references with
  | case1 => cases h
  | case2 path finished name more unknown ih => exact ih h trail.rest
  | case3 path finished name more query found done ih => exact ih h trail.rest
  | case4 path finished name more query found undone fresh _ below _ _ ih => exact ih h trail.rest
  | case5 path finished name more query found undone fresh _ deeper reported ih =>
    cases h
    exact ih reported (trail.deeper found fresh)
  | case6 path finished name more query found undone onPath =>
    cases h
    exact trail.back found (not_not.mp onPath)

/-- The way of a report from a query back to it. -/
theorem Cycle.Real.transGen {set : QuerySet} {cycle : Cycle} (real : cycle.Real set) :
    Relation.TransGen set.Composes cycle.query.name cycle.query.name := by
  obtain ⟨between, path, _⟩ := real.ends
  have chain := real.chain
  rw [path, List.cons_append] at chain
  have ends : (between ++ [cycle.query.name]).getLast? = some cycle.query.name := by simp
  cases rest : between ++ [cycle.query.name] with
  | nil => simp [rest] at ends
  | cons next rest' =>
    rw [rest] at chain ends
    obtain ⟨first, chain⟩ := List.isChain_cons_cons.mp chain
    have back := List.relationReflTransGen_of_exists_isChain_cons rest' chain
      (by simpa [List.getLast?_eq_some_getLast] using ends)
    exact Relation.TransGen.head' first back

/-- A set in which the search reports no cycle has an order of all its queries. -/
theorem exists_order {set : QuerySet} (h : set.cycle? = none) :
    ∃ order, set.Ordered order ∧ order.Nodup ∧ ∀ name, name ∈ order ↔ name ∈ set.names := by
  unfold cycle? at h
  split at h
  · next order found =>
    obtain ⟨after, _, all⟩ := follow_ok found (Searched.start set [])
    exact ⟨order, after.ordered, after.once, fun name =>
      ⟨after.known name, fun known => all name known known⟩⟩
  · cases h

/-- What the search finds is a cycle. -/
theorem real_of_cycle? {set : QuerySet} {cycle : Cycle} (h : set.cycle? = some cycle) :
    cycle.Real set := by
  unfold cycle? at h
  split at h
  · cases h
  · next found =>
    cases h
    exact follow_error found ⟨List.isChain_nil, List.nodup_nil, by simp⟩

/-- The search finds a cycle exactly if a query composes itself. -/
theorem cycle?_eq_none_iff {set : QuerySet} : set.cycle? = none ↔ set.Acyclic := by
  constructor
  · intro h name cycle
    obtain ⟨order, ordered, _, all⟩ := exists_order h
    obtain ⟨next, composes, _⟩ := Relation.TransGen.head'_iff.mp cycle
    obtain ⟨query, found, _⟩ := composes
    exact ordered.irrefl ((all name).mpr (mem_names_of_get? found)) cycle
  · intro acyclic
    refine Option.eq_none_iff_forall_ne_some.mpr ?_
    intro cycle found
    exact acyclic _ (real_of_cycle? found).transGen

end QuerySet
end SqlTemplate
