import SqlTemplate.Sql
import SqlTemplate.Value

/-!
# Expanding queries

Pieces are added to a draft from left to right. What cannot be bound is recorded, and the
expansion goes on, so that one expansion reports everything that is missing. A composed query
is expanded on its own, from the number that the draft has come to, and spliced in. How deep
compositions may still be nested is the argument that the recursion of `Callee.answer` follows.
-/

namespace SqlTemplate
open SqlTemplate.Sql SqlTemplate.Identifier

def lastIndex : Nat := 4294967295

/-- The number `count` places further on, or the largest number. -/
def advance (index : UInt32) (count : Nat) : UInt32 :=
  UInt32.ofNat (min (index.toNat + count) lastIndex)

theorem toNat_advance (index : UInt32) (count : Nat) :
    (advance index count).toNat = min (index.toNat + count) lastIndex := by
  have : min (index.toNat + count) lastIndex < 2 ^ 32 := by unfold lastIndex; omega
  simpa [advance] using Nat.mod_eq_of_lt this

theorem advance_advance (index : UInt32) (m n : Nat) :
    advance (advance index m) n = advance index (m + n) := by
  apply UInt32.toNat_inj.mp
  simp only [toNat_advance]
  omega

def placeholders (index : UInt32) : Nat → List String
  | 0 => []
  | count + 1 => placeholder index :: placeholders (advance index 1) count

structure Draft where
  index : UInt32
  statement : String := ""
  arguments : List Scalar := []
  errors : List BindingError := []

namespace Draft

def start (index : UInt32) : Draft := { index := max index 1 }

def literal (draft : Draft) (text : String) : Draft :=
  { draft with statement := draft.statement ++ text }

def list (draft : Draft) (values : List Scalar) : Draft :=
  { draft with
    index := advance draft.index values.length
    statement := draft.statement ++ ",".intercalate (placeholders draft.index values.length)
    arguments := draft.arguments ++ values }

def scalar (draft : Draft) (value : Scalar) : Draft := draft.list [value]

def marker : BindingError → String
  | ⟨name, .notFound⟩ => "<missing " ++ name ++ ">"
  | ⟨name, .recursionLimit⟩ => "<recursive " ++ name ++ ">"

def fail (draft : Draft) (error : BindingError) : Draft :=
  { draft with
    statement := draft.statement ++ marker error
    errors := draft.errors ++ [error] }

def splice (draft : Draft) (expansion : Expansion) : Draft :=
  let (statement, arguments, errors) :=
    match expansion with
    | .ok query => (query.statement, query.arguments, [])
    | .error query => (query.statement, query.arguments, query.errors)
  { index := advance draft.index arguments.length
    statement := draft.statement ++ statement
    arguments := draft.arguments ++ arguments
    errors := draft.errors ++ errors }

def finish (draft : Draft) : Expansion :=
  let statement := normalizeText draft.statement
  if draft.errors.isEmpty then .ok { statement, arguments := draft.arguments }
  else .error { statement, arguments := draft.arguments, errors := draft.errors }

end Draft

abbrev Caller := Callee → Params → Options → Expansion

structure Scope where
  set : QuerySet
  params : Params
  options : Options
  /-- Answers nested calls; absent where compositions are nested too deeply. -/
  caller? : Option Caller

namespace Draft

def compose (draft : Draft) (scope : Scope) (name : String) (callee : Callee)
    (params : Params) : Draft :=
  match scope.caller? with
  | some call => draft.splice (call callee params (scope.options.nested draft.index))
  | none => draft.fail ⟨name, .recursionLimit⟩

def call (draft : Draft) (scope : Scope) (call : Call) : Draft :=
  let params := call.params.getD scope.params
  match call.target with
  | .reference reference => draft.compose scope reference.name reference.callee params
  | .name name =>
    match scope.set.get? name with
    | some query => draft.compose scope name (.pieces query.pieces scope.set) params
    | none => draft.fail ⟨name, .notFound⟩

def inner (draft : Draft) (scope : Scope) (separator : String) : List Call → Draft
  | [] => draft
  | first :: more =>
    more.foldl (fun draft call => (draft.literal separator).call scope call)
      (draft.call scope first)

def value (draft : Draft) (scope : Scope) : Value → Draft
  | .scalar value => draft.scalar value
  | .list values => draft.list values
  | .query reference => draft.compose scope reference.name reference.callee scope.params
  | .inner calls separator => draft.inner scope separator calls

def add (scope : Scope) (draft : Draft) : Piece → Draft
  | .literal text => draft.literal text
  | .parameter name =>
    match scope.set.get? name with
    | some query => draft.compose scope name (.pieces query.pieces scope.set) scope.params
    | none =>
      match scope.params.get? name with
      | some value => draft.value scope value
      | none => if isOptional name then draft else draft.fail ⟨name, .notFound⟩

def ofPieces (scope : Scope) (pieces : List Piece) : Draft :=
  pieces.foldl (add scope) (start scope.options.index)

end Draft

def describeCall (params : Params) (options : Options) : String :=
  s!"[index={options.index} max_depth={options.maxDepth} execute={options.execute} " ++
    s!"depth={options.depth} params={params.size}]"

namespace Callee

def answerWith (caller? : Option Caller) (callee : Callee) (params : Params)
    (options : Options) : Expansion :=
  match callee with
  | .pieces body set => (Draft.ofPieces { set, params, options, caller? } body).finish
  | .constant answer => answer
  | .probe => .ok { statement := describeCall params options, arguments := [] }

/-- The answer to a call with room for so many nested compositions. -/
def answer (room : Nat) (callee : Callee) (params : Params) (options : Options) : Expansion :=
  match room with
  | 0 => answerWith none callee params options
  | room + 1 => answerWith (some (answer room)) callee params options

end Callee

def Reference.call (reference : Reference) (params : Params) (options : Options) : Expansion :=
  reference.callee.answer options.room params options

def evaluate (pieces : List Piece) (set : QuerySet) (params : Params) (options : Options) :
    Expansion :=
  (Callee.pieces pieces set).answer options.room params options

namespace QuerySet

def expand (set : QuerySet) (name : String) (params : Params) (options : Options) : Expansion :=
  match set.get? name with
  | some query => evaluate query.pieces set params options
  | none =>
    let error : BindingError := ⟨name, .notFound⟩
    .error { statement := Draft.marker error, arguments := [], errors := [error] }

def expandTemplate (set : QuerySet) (template : Template) (params : Params)
    (options : Options) : Expansion :=
  evaluate template.pieces set params options

end QuerySet

def Template.expand (template : Template) (params : Params) (options : Options) : Expansion :=
  QuerySet.empty.expandTemplate template params options

end SqlTemplate
