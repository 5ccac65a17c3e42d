import Mathlib.Data.List.Nodup
import Mathlib.Data.Option.Basic
import SqlTemplate.Proofs.Acyclic

/-!
# Definitions that make a set

Definitions make a set exactly if each has a name, no two share one, and no query
composes itself. The set then holds their compiled forms, in their order and under
their names, and knows no other name.
-/

namespace SqlTemplate

theorem Piece.references_merge (pieces : List Piece) :
    references (merge pieces) = references pieces := by
  fun_induction merge pieces with
  | case1 => rfl
  | case2 name pieces ih => simpa [references, reference?] using ih
  | case3 text pieces more rest same ih =>
    rw [same] at ih
    exact ih
  | case4 text pieces _ ih => exact ih

theorem NamedQuery.mem_references_ofDefinition {name next : String} {definition : Definition} :
    next ∈ (NamedQuery.ofDefinition name definition).references ↔
      next ∈ Piece.references definition.body := by
  simp [references, Piece.uses, ofDefinition, Piece.references_merge]

namespace Definition

/-- The compiled form of a definition that has a name. -/
def compiled? (definition : Definition) : Option NamedQuery :=
  definition.name.map fun name => .ofDefinition name definition

/-- The queries of a set are compiled from these definitions, in this order. -/
def Compiled (definitions : List Definition) (set : QuerySet) : Prop :=
  set.queries.map some = definitions.map compiled?

theorem compiled?_eq_some_iff {definition : Definition} {query : NamedQuery} :
    definition.compiled? = some query ↔
      definition.name = some query.name ∧ NamedQuery.ofDefinition query.name definition = query := by
  simp only [compiled?, Option.map_eq_some_iff]
  constructor
  · rintro ⟨name, named, rfl⟩
    exact ⟨named, rfl⟩
  · rintro ⟨named, same⟩
    exact ⟨query.name, named, same⟩

/-- The body of the definition of one name refers to a name that is defined. -/
def Composes (definitions : List Definition) (name next : String) : Prop :=
  (∃ definition ∈ definitions, definition.name = some name ∧
    next ∈ Piece.references definition.body) ∧
  ∃ definition ∈ definitions, definition.name = some next

/-- All have names, no two have the same, and none refers back to itself. -/
structure WellFormed (definitions : List Definition) : Prop where
  named : ∀ definition ∈ definitions, definition.name ≠ none
  distinct : (definitions.map (·.name)).Nodup
  acyclic : ∀ name, ¬ Relation.TransGen (Composes definitions) name name

end Definition

namespace QuerySet

/-- A set holds what was defined and nothing else. -/
structure Holds (set : QuerySet) (definitions : List Definition) : Prop where
  inOrder : Definition.Compiled definitions set
  known : ∀ definition ∈ definitions, ∀ name, definition.name = some name →
    set.get? name = some (.ofDefinition name definition) ∧ set.contains name = true ∧
      set.reference? name = some { name, callee := .pieces (Piece.merge definition.body) set }
  unknown : ∀ name, (∀ definition ∈ definitions, definition.name ≠ some name) →
    set.get? name = none ∧ set.contains name = false ∧ set.reference? name = none

theorem get?_eq_some_iff {set : QuerySet} (distinct : set.names.Nodup) {name : String}
    {query : NamedQuery} : set.get? name = some query ↔ query ∈ set.queries ∧ query.name = name := by
  constructor
  · intro found
    exact ⟨List.mem_of_find?_eq_some found, by simpa using List.find?_some found⟩
  · rintro ⟨member, rfl⟩
    obtain ⟨other, found⟩ := exists_get? (List.mem_map_of_mem (f := (·.name)) member)
    have named : other.name = query.name := by simpa using List.find?_some found
    have same := List.inj_on_of_nodup_map distinct (List.mem_of_find?_eq_some found) member named
    rw [found, same]

theorem compileAll_cons_eq_ok_iff {taken : List String} {definition : Definition}
    {more : List Definition} {queries : List NamedQuery} :
    compileAll taken (definition :: more) = .ok queries ↔
      ∃ query rest, queries = query :: rest ∧ definition.compiled? = some query ∧
        query.name ∉ taken ∧ compileAll (query.name :: taken) more = .ok rest := by
  rw [compileAll]
  cases named : definition.name with
  | none => simp [Definition.compiled?, named]
  | some name =>
    have compiled : definition.compiled? = some (.ofDefinition name definition) := by
      simp [Definition.compiled?, named]
    have first : (NamedQuery.ofDefinition name definition).name = name := rfl
    by_cases old : name ∈ taken
    · simp [old, compiled, first]
    · cases rest : compileAll (name :: taken) more <;>
        simp [old, compiled, first, rest, Except.map, and_comm, eq_comm]

/-- Compiled queries are those of the definitions, and their names are new. -/
theorem compileAll_eq_ok_iff {taken : List String} {definitions : List Definition}
    {queries : List NamedQuery} :
    compileAll taken definitions = .ok queries ↔
      queries.map some = definitions.map Definition.compiled? ∧
        (queries.map (·.name)).Nodup ∧ ∀ query ∈ queries, query.name ∉ taken := by
  induction definitions generalizing taken queries with
  | nil => cases queries <;> simp [compileAll]
  | cons definition more ih =>
    rw [compileAll_cons_eq_ok_iff]
    constructor
    · rintro ⟨query, rest, rfl, compiled, unused, compiledRest⟩
      obtain ⟨same, distinct, fresh⟩ := ih.mp compiledRest
      refine ⟨by simp [compiled, same], List.nodup_cons.mpr ⟨?_, distinct⟩, ?_⟩
      · intro again
        obtain ⟨other, member, isName⟩ := List.mem_map.mp again
        exact fresh other member (by simp [isName])
      · intro other member
        rcases List.mem_cons.mp member with rfl | member
        · exact unused
        · exact fun old => fresh other member (List.mem_cons_of_mem _ old)
    · rintro ⟨same, distinct, fresh⟩
      cases queries with
      | nil => simp at same
      | cons query rest =>
        obtain ⟨compiled, same⟩ := List.cons.inj same
        obtain ⟨unique, distinct⟩ := List.nodup_cons.mp distinct
        refine ⟨query, rest, rfl, compiled.symm, fresh query List.mem_cons_self,
          ih.mpr ⟨same, distinct, ?_⟩⟩
        intro other member old
        rcases List.mem_cons.mp old with again | old
        · exact unique (List.mem_map.mpr ⟨other, member, again⟩)
        · exact fresh other (List.mem_cons_of_mem _ member) old

theorem ofDefinitions_eq_ok_iff {definitions : List Definition} {set : QuerySet} :
    ofDefinitions definitions = .ok set ↔
      Definition.Compiled definitions set ∧ set.names.Nodup ∧ set.Acyclic := by
  have accepted : ofDefinitions definitions = .ok set ↔
      compileAll [] definitions = .ok set.queries ∧ set.cycle? = none := by
    unfold ofDefinitions
    cases compiled : compileAll [] definitions with
    | error e => simp [bind, Except.bind]
    | ok queries =>
      cases found : ({ queries } : QuerySet).cycle? with
      | some cycle =>
        simp only [bind, Except.bind, found, throw, throwThe, MonadExceptOf.throw, reduceCtorEq,
          Except.ok.injEq, false_iff, not_and]
        rintro rfl
        simp [found]
      | none =>
        simp only [bind, Except.bind, found, pure, Except.pure, Except.ok.injEq]
        constructor
        · rintro rfl
          exact ⟨rfl, found⟩
        · rintro ⟨rfl, _⟩
          rfl
  rw [accepted, compileAll_eq_ok_iff, cycle?_eq_none_iff, and_assoc]
  simp [Definition.Compiled, names]

end QuerySet

/-! ### Definitions and the set that they make -/

namespace Definition

theorem name_compiled? (definition : Definition) :
    definition.compiled?.map (·.name) = definition.name := by
  cases named : definition.name <;> simp [compiled?, named, NamedQuery.ofDefinition]

namespace Compiled
variable {set : QuerySet} {definitions : List Definition}

theorem names (compiled : Compiled definitions set) :
    set.names.map some = definitions.map (·.name) := by
  calc set.names.map some = (set.queries.map some).map (Option.map (·.name)) := by
        simp [QuerySet.names]
    _ = (definitions.map compiled?).map (Option.map (·.name)) := by rw [compiled]
    _ = definitions.map (·.name) := by simp [name_compiled?]

theorem nodup_names (compiled : Compiled definitions set) :
    set.names.Nodup ↔ (definitions.map (·.name)).Nodup := by
  rw [← compiled.names]
  exact (List.nodup_map_iff (Option.some_injective _)).symm

theorem mem_names (compiled : Compiled definitions set) {name : String} :
    name ∈ set.names ↔ ∃ definition ∈ definitions, definition.name = some name := by
  have : name ∈ set.names ↔ some name ∈ set.names.map some := by simp
  rw [this, compiled.names, List.mem_map]

theorem exists_definition (compiled : Compiled definitions set) {name : String}
    {query : NamedQuery} (found : set.get? name = some query) :
    ∃ definition ∈ definitions, definition.name = some name ∧
      query = .ofDefinition name definition := by
  have member : some query ∈ definitions.map compiled? :=
    compiled ▸ List.mem_map_of_mem (List.mem_of_find?_eq_some found)
  obtain ⟨definition, defined, isQuery⟩ := List.mem_map.mp member
  obtain ⟨named, same⟩ := compiled?_eq_some_iff.mp isQuery
  have isName : query.name = name := by simpa using List.find?_some found
  rw [isName] at named same
  exact ⟨definition, defined, named, same.symm⟩

theorem get?_eq (compiled : Compiled definitions set) (distinct : set.names.Nodup)
    {definition : Definition} (defined : definition ∈ definitions) {name : String}
    (named : definition.name = some name) :
    set.get? name = some (.ofDefinition name definition) := by
  have isQuery : definition.compiled? = some (.ofDefinition name definition) := by
    simp [compiled?, named]
  have member : some (NamedQuery.ofDefinition name definition) ∈ set.queries.map some := by
    rw [compiled, ← isQuery]
    exact List.mem_map_of_mem defined
  obtain ⟨query, inSet, same⟩ := List.mem_map.mp member
  cases same
  exact (QuerySet.get?_eq_some_iff distinct).mpr ⟨inSet, rfl⟩

/-- Queries compose each other as the bodies of their definitions refer to each other. -/
theorem composes_iff (compiled : Compiled definitions set) (distinct : set.names.Nodup)
    {name next : String} : set.Composes name next ↔ Composes definitions name next := by
  constructor
  · rintro ⟨query, found, refers, known⟩
    obtain ⟨definition, defined, named, rfl⟩ := compiled.exists_definition found
    exact ⟨⟨definition, defined, named, NamedQuery.mem_references_ofDefinition.mp refers⟩,
      compiled.mem_names.mp known⟩
  · rintro ⟨⟨definition, defined, named, refers⟩, known⟩
    exact ⟨_, compiled.get?_eq distinct defined named,
      NamedQuery.mem_references_ofDefinition.mpr refers, compiled.mem_names.mpr known⟩

theorem acyclic_iff (compiled : Compiled definitions set) (distinct : set.names.Nodup) :
    set.Acyclic ↔ ∀ name, ¬ Relation.TransGen (Composes definitions) name name := by
  have same : set.Composes = Composes definitions := by
    funext name next
    exact propext (compiled.composes_iff distinct)
  unfold QuerySet.Acyclic
  rw [same]

theorem holds (compiled : Compiled definitions set) (distinct : set.names.Nodup) :
    set.Holds definitions := by
  refine ⟨compiled, ?_, ?_⟩
  · intro definition defined name named
    have found := compiled.get?_eq distinct defined named
    exact ⟨found, by simp [QuerySet.contains, found],
      by simp [QuerySet.reference?, found, NamedQuery.ofDefinition]⟩
  · intro name undefined
    have found : set.get? name = none := by
      refine QuerySet.get?_eq_none_iff.mpr ?_
      intro known
      obtain ⟨definition, defined, named⟩ := compiled.mem_names.mp known
      exact undefined definition defined named
    exact ⟨found, by simp [QuerySet.contains, found], by simp [QuerySet.reference?, found]⟩

end Compiled

theorem exists_compiled {definitions : List Definition}
    (named : ∀ definition ∈ definitions, definition.name ≠ none) :
    ∃ set, Compiled definitions set := by
  refine ⟨⟨definitions.filterMap compiled?⟩, ?_⟩
  unfold Compiled
  induction definitions with
  | nil => rfl
  | cons definition more ih =>
    obtain ⟨name, isName⟩ := Option.ne_none_iff_exists'.mp (named definition List.mem_cons_self)
    have compiled : definition.compiled? = some (.ofDefinition name definition) := by
      simp [compiled?, isName]
    simp only [List.filterMap_cons, compiled, List.map_cons]
    rw [ih fun other defined => named other (List.mem_cons_of_mem _ defined)]

end Definition

/-- Definitions make a set if and only if they are well formed, and the set holds them. -/
theorem ofDefinitions_iff_wellFormed (definitions : List Definition) :
    ((∃ set, QuerySet.ofDefinitions definitions = .ok set) ↔
      Definition.WellFormed definitions) ∧
    ∀ set, QuerySet.ofDefinitions definitions = .ok set → set.Holds definitions := by
  refine ⟨⟨?_, ?_⟩, ?_⟩
  · rintro ⟨set, accepted⟩
    obtain ⟨compiled, distinct, acyclic⟩ := QuerySet.ofDefinitions_eq_ok_iff.mp accepted
    refine ⟨?_, compiled.nodup_names.mp distinct, (compiled.acyclic_iff distinct).mp acyclic⟩
    intro definition defined
    have isName : definition.name ∈ set.names.map some :=
      compiled.names ▸ List.mem_map_of_mem (f := (·.name)) defined
    obtain ⟨name, _, same⟩ := List.mem_map.mp isName
    simp [← same]
  · intro wellFormed
    obtain ⟨set, compiled⟩ := Definition.exists_compiled wellFormed.named
    have distinct := compiled.nodup_names.mpr wellFormed.distinct
    exact ⟨set, QuerySet.ofDefinitions_eq_ok_iff.mpr
      ⟨compiled, distinct, (compiled.acyclic_iff distinct).mpr wellFormed.acyclic⟩⟩
  · intro set accepted
    obtain ⟨compiled, distinct, _⟩ := QuerySet.ofDefinitions_eq_ok_iff.mp accepted
    exact compiled.holds distinct

/-- Two queries that compose a third. -/
def diamond : List Definition :=
  [ ⟨some "adult", none, [.literal "age >= ", .parameter "limit"], ⟨1, 1⟩⟩
  , ⟨some "voter", none, [.parameter "adult"], ⟨4, 1⟩⟩
  , ⟨some "person", some "People.",
      [.parameter "voter", .literal " ", .literal "OR ", .parameter "adult"], ⟨7, 1⟩⟩ ]

def diamondSet : QuerySet where
  queries :=
    [ ⟨"adult", none, [.literal "age >= ", .parameter "limit"], ⟨1, 1⟩⟩
    , ⟨"voter", none, [.parameter "adult"], ⟨4, 1⟩⟩
    , ⟨"person", some "People.",
        [.parameter "voter", .literal " OR ", .parameter "adult"], ⟨7, 1⟩⟩ ]

theorem ofDefinitions_diamond : QuerySet.ofDefinitions diamond = .ok diamondSet := by cbv

/-- Sharing a query is no cycle. -/
theorem diamond_accepted : diamondSet.Holds diamond :=
  (ofDefinitions_iff_wellFormed diamond).2 diamondSet ofDefinitions_diamond

end SqlTemplate
