import SqlTemplate.Scalar

/-!
# Expansions

A query expands to a statement with numbered placeholders and the arguments to bind to them. If
something could not be bound, the expansion also says what, and the statement shows where. How
deep an expansion is nested shows only in the options of nested calls.
-/

namespace SqlTemplate

structure Options where
  index : UInt32 := 1
  maxDepth : Nat := 32
  /-- The query is to be run and not only shown. -/
  execute : Bool := true
  /-- How many compositions enclose the expansion. -/
  depth : Nat := 0
deriving Repr, DecidableEq

namespace Options

def withIndex (options : Options) (index : UInt32) : Options :=
  { options with index := max index 1 }

def withMaxDepth (options : Options) (maxDepth : Nat) : Options := { options with maxDepth }

def withExecute (options : Options) (execute : Bool) : Options := { options with execute }

def nested (options : Options) (index : UInt32) : Options :=
  { index, maxDepth := options.maxDepth, execute := false, depth := options.depth + 1 }

/-- How many more compositions may be nested. -/
def room (options : Options) : Nat := options.maxDepth - options.depth

end Options

inductive BindingFault where
  | notFound
  | recursionLimit
deriving Repr, DecidableEq

def BindingFault.name : BindingFault → String
  | notFound => "NotFound"
  | recursionLimit => "RecursionLimit"

structure BindingError where
  name : String
  fault : BindingFault
deriving Repr, DecidableEq

def BindingError.message (e : BindingError) : String :=
  match e.fault with
  | .notFound => e.name ++ ": not found"
  | .recursionLimit => e.name ++ ": recursion limit reached"

structure BoundQuery where
  statement : String
  arguments : List Scalar
deriving Inhabited

structure UnboundQuery where
  statement : String
  arguments : List Scalar
  errors : List BindingError
deriving Inhabited

def UnboundQuery.message (query : UnboundQuery) : String :=
  "Unbound query: " ++ ", ".intercalate (query.errors.map BindingError.message)

abbrev Expansion := Except UnboundQuery BoundQuery

def BoundQuery.toJson (query : BoundQuery) : Json :=
  .object
    [ ("statement", .string query.statement)
    , ("arguments", .array (query.arguments.map Scalar.toJson)) ]

def BindingError.toJson (e : BindingError) : Json :=
  .object [("error", .string e.fault.name), ("name", .string e.name)]

def UnboundQuery.toJson (query : UnboundQuery) : Json :=
  .object
    [ ("arguments", .array (query.arguments.map Scalar.toJson))
    , ("errors", .array (query.errors.map BindingError.toJson))
    , ("statement", .string query.statement) ]

structure Rows where
  columns : List String
  rows : List (List Json)

namespace Rows

/-- Each row as an object. What goes beyond the columns, or beyond the row, is left out. -/
def objects (rows : Rows) : List Json :=
  rows.rows.map fun row => Json.ofFields (rows.columns.zip row)

def toJson (rows : Rows) : Json :=
  .object
    [ ("columns", .array (rows.columns.map .string))
    , ("rows", .array (rows.rows.map .array)) ]

end Rows

inductive Outcome where
  | query (query : BoundQuery)
  | rows (rows : Rows)

def Outcome.toJson : Outcome → Json
  | .query answer => answer.toJson
  | .rows table => table.toJson

inductive RunError where
  | unbound (query : UnboundQuery)
  | connection (reason : String)
  | execution (reason : String)

def RunError.message : RunError → String
  | unbound query => query.message
  | connection reason => "Connection error: " ++ reason
  | execution reason => "Execution error: " ++ reason

end SqlTemplate
