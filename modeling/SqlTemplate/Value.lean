import SqlTemplate.Expansion
import SqlTemplate.QuerySet

/-!
# Values of parameters

A parameter is bound to a scalar, to a list of scalars, to a query, or to several queries with a
separator between them. A query is named, or given by a reference that carries with it what it
expands to.
-/

namespace SqlTemplate

inductive Callee where
  /-- Pieces that expand within a set, with the parameters of the call. -/
  | pieces (pieces : List Piece) (set : QuerySet)
  | constant (answer : Expansion)
  | probe

structure Reference where
  name : String
  callee : Callee

inductive Target where
  | name (name : String)
  | reference (reference : Reference)

mutual

inductive Value where
  | scalar (value : Scalar)
  | list (values : List Scalar)
  | query (reference : Reference)
  | inner (calls : List Call) (separator : String)

/-- A call, and the parameters that replace the enclosing ones if it has its own. -/
structure Call where
  target : Target
  params : Option Params

structure Params where
  entries : List (String × Value)

end

def Call.label (call : Call) : String :=
  match call.target with
  | .name name => name
  | .reference reference => reference.name

namespace Params

def empty : Params := ⟨[]⟩

def size (params : Params) : Nat := params.entries.length

def get? (params : Params) (name : String) : Option Value := params.entries.lookup name

def insert (params : Params) (name : String) (value : Value) : Params :=
  ⟨params.entries.filter (·.1 != name) ++ [(name, value)]⟩

theorem get?_insert (params : Params) (name other : String) (value : Value) :
    (params.insert name value).get? other =
      if other = name then some value else params.get? other := by
  unfold insert get?
  induction params.entries with
  | nil =>
    by_cases same : other = name
    · simp [same]
    · simp [List.lookup_cons, same, beq_false_of_ne same]
  | cons entry entries ih =>
    obtain ⟨first, old⟩ := entry
    by_cases same : other = first
    · by_cases replaced : first = name <;> simp_all
    · have differs := beq_false_of_ne same
      by_cases replaced : first = name
      · subst replaced
        simpa [List.lookup_cons, same, differs] using ih
      · simpa [List.lookup_cons, replaced, differs] using ih

theorem mem_entries_of_get? {params : Params} {name : String} {value : Value}
    (found : params.get? name = some value) : (name, value) ∈ params.entries := by
  obtain ⟨before, after, split, _⟩ := List.lookup_eq_some_iff.mp found
  simp [split]

end Params

def QuerySet.reference? (set : QuerySet) (name : String) : Option Reference :=
  (set.get? name).map fun query => { name, callee := .pieces query.pieces set }

end SqlTemplate
