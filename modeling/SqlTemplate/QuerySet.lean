import SqlTemplate.Definition

/-!
# Query sets

Definitions make a set if each has a name, no two share one, and none composes itself. A
depth-first search looks for such cycles: it keeps the path from where it started and the
queries that it has finished, and a composition that leads back onto the path closes a cycle.
The path never holds a query twice, so the search ends.
-/

namespace SqlTemplate
open SqlTemplate.Source

structure NamedQuery where
  name : String
  docs : Option String
  pieces : List Piece
  position : Position
deriving Repr, DecidableEq

/-- The identifiers that pieces refer to, each once, in order of first use. -/
def Piece.uses (pieces : List Piece) : List String := (Piece.references pieces).eraseDups

namespace NamedQuery

def ofDefinition (name : String) (definition : Definition) : NamedQuery where
  name
  docs := definition.docs
  pieces := Piece.merge definition.body
  position := definition.position

def references (query : NamedQuery) : List String := Piece.uses query.pieces

end NamedQuery

structure QuerySet where
  queries : List NamedQuery := []
deriving Repr, DecidableEq

namespace QuerySet

def empty : QuerySet := {}

def names (set : QuerySet) : List String := set.queries.map (·.name)

def get? (set : QuerySet) (name : String) : Option NamedQuery :=
  set.queries.find? (·.name == name)

def contains (set : QuerySet) (name : String) : Bool := (set.get? name).isSome

def parameters? (set : QuerySet) (name : String) : Option (List String) :=
  (set.get? name).map fun query => query.references.filter (!set.contains ·)

def compositions? (set : QuerySet) (name : String) : Option (List String) :=
  (set.get? name).map fun query => query.references.filter set.contains

structure Cycle where
  query : NamedQuery
  /-- The names on the cycle; the first is also the last. -/
  path : List String
deriving Repr, DecidableEq

/-- How many queries of the set are not on a path. -/
def offPath (set : QuerySet) (path : List String) : Nat :=
  set.names.countP (fun name => !path.contains name)

theorem offPath_append_lt {set : QuerySet} {path : List String} {name : String}
    (known : name ∈ set.names) (fresh : name ∉ path) :
    set.offPath (path ++ [name]) < set.offPath path := by
  unfold offPath
  generalize set.names = names at known
  induction names with
  | nil => cases known
  | cons first rest ih =>
    have le : rest.countP (fun n => !(path ++ [name]).contains n) ≤
        rest.countP (fun n => !path.contains n) :=
      List.countP_mono_left (by simp +contextual)
    by_cases same : first = name
    · subst same
      simp [fresh] at le ⊢
      omega
    · have : name ∈ rest := (List.mem_cons.mp known).resolve_left (Ne.symm same)
      have := ih this
      simp [List.countP_cons, same] at this ⊢
      omega

theorem mem_names_of_get? {set : QuerySet} {name : String} {query : NamedQuery}
    (h : set.get? name = some query) : name ∈ set.names := by
  have found := List.find?_some h
  exact List.mem_map.mpr ⟨query, List.mem_of_find?_eq_some h, by simpa using found⟩

/-- Follows the identifiers that the last query of the path refers to. The answer is the
queries finished by then, or the first cycle. -/
def follow (set : QuerySet) (path finished : List String) :
    List String → Except Cycle (List String)
  | [] => .ok finished
  | name :: more =>
    match h : set.get? name with
    | none => set.follow path finished more
    | some query =>
      if finished.contains name then set.follow path finished more
      else if fresh : name ∉ path then
        have := offPath_append_lt (mem_names_of_get? h) fresh
        match set.follow (path ++ [name]) finished query.references with
        | .ok finished => set.follow path (name :: finished) more
        | .error cycle => .error cycle
      else .error ⟨query, path.dropWhile (· != name) ++ [name]⟩
termination_by references => (set.offPath path, references.length)

def cycle? (set : QuerySet) : Option Cycle :=
  match set.follow [] [] set.names with
  | .ok _ => none
  | .error cycle => some cycle

end QuerySet

inductive CompileError where
  | lex (error : LexError)
  | parse (error : ParseError)
deriving Repr, DecidableEq

namespace CompileError

def position : CompileError → Position
  | lex e => e.position
  | parse e => e.position

def message : CompileError → String
  | lex e => e.message
  | parse e => e.message

end CompileError

def Document.parse (text : String) : Except CompileError Document := do
  let tokens ← (tokenize text).mapError .lex
  (Document.ofTokens tokens).mapError .parse

namespace QuerySet

/-- The compiled queries of definitions whose names differ from each other and from those
that are taken. -/
def compileAll : (taken : List String) → List Definition → Except ParseError (List NamedQuery)
  | _, [] => .ok []
  | taken, definition :: more =>
    match definition.name with
    | none => .error ⟨definition.position, .unnamed⟩
    | some name =>
      if taken.contains name then .error ⟨definition.position, .duplicate name⟩
      else (compileAll (name :: taken) more).map (.ofDefinition name definition :: ·)

def ofDefinitions (definitions : List Definition) : Except ParseError QuerySet := do
  let queries ← compileAll [] definitions
  let set : QuerySet := { queries }
  match set.cycle? with
  | some cycle => throw ⟨cycle.query.position, .cycle cycle.query.name cycle.path⟩
  | none => return set

def parse (text : String) : Except CompileError QuerySet := do
  match ← Document.parse text with
  | .named definitions => (ofDefinitions definitions).mapError .parse
  | .anonymous definition => throw (.parse ⟨definition.position, .expectedName⟩)

end QuerySet

structure Template where
  pieces : List Piece
deriving Repr, DecidableEq

namespace Template

def references (template : Template) : List String := Piece.uses template.pieces

def parse (text : String) : Except CompileError Template := do
  match ← Document.parse text with
  | .anonymous definition => return { pieces := Piece.merge definition.body }
  | .named definitions =>
    let position := (definitions.head?.map (·.position)).getD ⟨0, 0⟩
    throw (.parse ⟨position, .expectedTemplate⟩)

end Template
end SqlTemplate
