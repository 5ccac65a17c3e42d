import SqlTemplate.Evaluation

/-!
# What is logged

Each expansion logs a line at its end, behind those of the queries that it composes, and a
warning for each composition that is nested too deeply. The time of a line is no part of it.
-/

namespace SqlTemplate
open SqlTemplate.Identifier

inductive LogLevel where
  | debug
  | warn
deriving Repr, DecidableEq

structure LogLine where
  level : LogLevel
  /-- The module that logs the line. -/
  target : String
  message : String
  fields : List (String × String) := []
deriving Repr, DecidableEq

namespace LogLine

/-- What follows the time of a line. -/
def text (line : LogLine) : String :=
  let level :=
    match line.level with
    | .debug => "DEBUG"
    | .warn => " WARN"
  let fields := line.fields.map fun (name, value) => " " ++ name ++ "=" ++ value
  level ++ " " ++ line.target ++ ": " ++ line.message ++ String.join fields

def tooDeep (name : String) (maxDepth : Nat) : LogLine where
  level := .warn
  target := "sqltpl::expand"
  message := "composition too deep"
  fields := [("query", Text.quoted name), ("max_depth", toString maxDepth)]

def expanded (depth : Nat) (draft : Draft) : LogLine where
  level := .debug
  target := "sqltpl::expand"
  message := "expanded steps"
  fields :=
    [ ("depth", toString depth), ("arguments", toString draft.arguments.length)
    , ("errors", toString draft.errors.length) ]

end LogLine

/-! ### What pieces add -/

/-- One thing to add to a draft. -/
inductive Addition where
  | text (text : String)
  | list (values : List Scalar)
  | missing (name : String)
  /-- What a query answers to a call with these parameters. -/
  | answer (name : String) (callee : Callee) (params : Params)

def Call.addition (set : QuerySet) (params : Params) (call : Call) : Addition :=
  match call.target with
  | .reference reference => .answer reference.name reference.callee (call.params.getD params)
  | .name name =>
    match set.get? name with
    | some query => .answer name (.pieces query.pieces set) (call.params.getD params)
    | none => .missing name

def Value.additions (set : QuerySet) (params : Params) : Value → List Addition
  | scalar value => [.list [value]]
  | list values => [.list values]
  | query reference => [.answer reference.name reference.callee params]
  | inner calls separator => (calls.map (·.addition set params)).intersperse (.text separator)

def Piece.additions (set : QuerySet) (params : Params) : Piece → List Addition
  | literal text => [.text text]
  | parameter name =>
    match set.get? name with
    | some query => [.answer name (.pieces query.pieces set) params]
    | none =>
      match params.get? name with
      | some value => value.additions set params
      | none => if isOptional name then [] else [.missing name]

namespace Draft

def put (scope : Scope) (draft : Draft) : Addition → Draft
  | .text text => draft.literal text
  | .list values => draft.list values
  | .missing name => draft.fail ⟨name, .notFound⟩
  | .answer name callee params => draft.compose scope name callee params

def putAll (scope : Scope) (draft : Draft) (additions : List Addition) : Draft :=
  additions.foldl (put scope) draft

end Draft

/-! ### What calls log -/

/-- What is logged while a call is answered. -/
abbrev Logger := Callee → Params → Options → List LogLine

def Addition.log (scope : Scope) (logger? : Option Logger) (draft : Draft) :
    Addition → List LogLine
  | answer name callee params =>
    match logger? with
    | some log => log callee params (scope.options.nested draft.index)
    | none => [.tooDeep name scope.options.maxDepth]
  | _ => []

def Draft.log (scope : Scope) (logger? : Option Logger) (draft : Draft) :
    List Addition → List LogLine
  | [] => []
  | addition :: more =>
    addition.log scope logger? draft ++ (draft.put scope addition).log scope logger? more

namespace Callee

def logWith (caller? : Option Caller) (logger? : Option Logger) (callee : Callee)
    (params : Params) (options : Options) : List LogLine :=
  match callee with
  | .pieces body set =>
    let scope : Scope := { set, params, options, caller? }
    let additions := body.flatMap (·.additions set params)
    let start := Draft.start options.index
    start.log scope logger? additions ++
      [.expanded options.depth (start.putAll scope additions)]
  | .constant _ => []
  | .probe => []

/-- What is logged while `answer` comes to the answer. -/
def log (room : Nat) (callee : Callee) (params : Params) (options : Options) : List LogLine :=
  match room with
  | 0 => logWith none none callee params options
  | room + 1 => logWith (some (answer room)) (some (log room)) callee params options

end Callee

/-- What is logged while `expand` comes to the expansion. -/
def QuerySet.log (set : QuerySet) (name : String) (params : Params) (options : Options) :
    List LogLine :=
  match set.get? name with
  | some query => (Callee.pieces query.pieces set).log options.room params options
  | none => []

end SqlTemplate
