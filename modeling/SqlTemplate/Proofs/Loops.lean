import SqlTemplate.Proofs.Acceptance
import SqlTemplate.Proofs.Basic

/-!
# Reports of queries that compose themselves

Definitions with names of their own are compiled in any case, so that nothing but the search for
cycles can refuse them (`ofDefinitions_eq_error`). What it reports is a way from a definition
back to it, along the bodies of the definitions (`rejected_names_cycle`).
-/

namespace SqlTemplate

theorem QuerySet.ofDefinitions_eq_error {definitions : List Definition} {set : QuerySet}
    (compiled : Definition.Compiled definitions set) (distinct : set.names.Nodup)
    {error : ParseError} (failed : ofDefinitions definitions = .error error) :
    ∃ cycle, set.cycle? = some cycle ∧
      error = ⟨cycle.query.position, .cycle cycle.query.name cycle.path⟩ := by
  have queries : compileAll [] definitions = .ok set.queries :=
    compileAll_eq_ok_iff.mpr ⟨compiled, distinct, by simp⟩
  rcases Except.bind_eq_error_iff.mp failed with uncompiled | ⟨queries', compiled', failed⟩
  · rw [queries] at uncompiled
    cases uncompiled
  · obtain rfl : set.queries = queries' := Except.ok.inj (queries.symm.trans compiled')
    dsimp only at failed
    split at failed
    · next cycle found =>
      cases failed
      exact ⟨cycle, found, rfl⟩
    · cases failed

/-- If definitions that all have different names make no set, the report names one of them and a
way that leads from it back to it: from body to body, and through no other definition twice. The
report has the position of this definition. -/
theorem rejected_names_cycle {definitions : List Definition}
    (named : ∀ definition ∈ definitions, definition.name ≠ none)
    (distinct : (definitions.map (·.name)).Nodup) {error : ParseError}
    (failed : QuerySet.ofDefinitions definitions = .error error) :
    ∃ definition ∈ definitions, ∃ name between, definition.name = some name ∧
      error = ⟨definition.position, .cycle name (name :: between ++ [name])⟩ ∧
      error.fault.message = "query '" ++ name ++ "' composes itself (" ++
        " -> ".intercalate (name :: between ++ [name]) ++ ")" ∧
      (name :: between).Nodup ∧
      (name :: between ++ [name]).IsChain (Definition.Composes definitions) := by
  obtain ⟨set, compiled⟩ := Definition.exists_compiled named
  have once := compiled.nodup_names.mpr distinct
  obtain ⟨cycle, found, rfl⟩ := QuerySet.ofDefinitions_eq_error compiled once failed
  have real := QuerySet.real_of_cycle? found
  obtain ⟨definition, defined, isName, same⟩ := compiled.exists_definition real.query
  obtain ⟨between, path, apart⟩ := real.ends
  have position : cycle.query.position = definition.position := by
    rw [same]
    rfl
  have chain : cycle.path.IsChain (Definition.Composes definitions) :=
    real.chain.imp fun _ _ => (compiled.composes_iff once).mp
  rw [path] at chain
  have message (path : List String) : (ParseFault.cycle cycle.query.name path).message =
      "query '" ++ cycle.query.name ++ "' composes itself (" ++ " -> ".intercalate path ++ ")" :=
    rfl
  refine ⟨definition, defined, cycle.query.name, between, isName, ?_, ?_, apart, chain⟩
  · rw [position, path]
  · rw [path]
    exact message _

/-- Two queries that compose each other, and a third by which the search comes to them. -/
def knot : List Definition :=
  [ ⟨some "all", none, [.literal "SELECT * FROM t WHERE ", .parameter "left"], ⟨1, 1⟩⟩
  , ⟨some "left", none, [.parameter "key", .literal " OR ", .parameter "right"], ⟨4, 1⟩⟩
  , ⟨some "right", none, [.literal "NOT ", .parameter "left"], ⟨7, 1⟩⟩ ]

theorem knot_rejected :
    ∃ error, QuerySet.ofDefinitions knot = .error error ∧
      (∃ definition ∈ knot, ∃ name between, definition.name = some name ∧
        error = ⟨definition.position, .cycle name (name :: between ++ [name])⟩ ∧
        error.fault.message = "query '" ++ name ++ "' composes itself (" ++
          " -> ".intercalate (name :: between ++ [name]) ++ ")" ∧
        (name :: between).Nodup ∧
        (name :: between ++ [name]).IsChain (Definition.Composes knot)) ∧
      error.position = ⟨4, 1⟩ ∧
      error.fault.message = "query 'left' composes itself (left -> right -> left)" := by
  have failed : QuerySet.ofDefinitions knot =
      .error ⟨⟨4, 1⟩, .cycle "left" ["left", "right", "left"]⟩ := by cbv
  have named : ∀ definition ∈ knot, definition.name ≠ none := by simp [knot]
  have distinct : (knot.map (·.name)).Nodup := by simp [knot]
  have message : (ParseFault.cycle "left" ["left", "right", "left"]).message =
      "query 'left' composes itself (left -> right -> left)" := by
    decide +kernel
  exact ⟨_, failed, rejected_names_cycle named distinct failed, rfl, message⟩

end SqlTemplate
