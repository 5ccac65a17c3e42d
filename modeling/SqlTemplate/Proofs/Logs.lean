import SqlTemplate.CommandLine.Run
import SqlTemplate.Proofs.Additions
import SqlTemplate.Proofs.Inlining

/-!
# Logged lines

What is logged does not depend on whether a query is to be run (`QuerySet.log_withExecute`).
Warnings tell what the expansion tells anyway: where parameters hold no queries, there is one for
each recursion limit among the errors, in their order, and there are no others
(`QuerySet.warnings_log`).
-/

namespace SqlTemplate

/-! ### Queries that are to be run -/

namespace Draft

theorem put_withExecute (scope : Scope) (execute : Bool) :
    put { scope with options := scope.options.withExecute execute } = put scope := by
  funext draft addition
  cases addition <;> rfl

theorem log_withExecute (scope : Scope) (execute : Bool) (logger? : Option Logger) (draft : Draft)
    (additions : List Addition) :
    draft.log { scope with options := scope.options.withExecute execute } logger? additions =
      draft.log scope logger? additions := by
  induction additions generalizing draft with
  | nil => rfl
  | cons addition more ih =>
    rw [log, log, put_withExecute, ih]
    cases addition <;> rfl

end Draft

namespace Callee

/-- What logs nested calls if so many compositions may still be nested. -/
def logger? : Nat → Option Logger
  | 0 => none
  | room + 1 => some (log room)

theorem log_pieces (room : Nat) (pieces : List Piece) (set : QuerySet) (params : Params)
    (options : Options) :
    (Callee.pieces pieces set).log room params options =
      (Draft.start options.index).log (.withRoom set params options room) (logger? room)
          (pieces.flatMap (·.additions set params)) ++
        [.expanded options.depth ((Draft.start options.index).putAll
          (.withRoom set params options room) (pieces.flatMap (·.additions set params)))] := by
  cases room <;> rfl

end Callee

theorem QuerySet.log_withExecute (set : QuerySet) (name : String) (params : Params)
    (options : Options) (execute : Bool) :
    set.log name params (options.withExecute execute) = set.log name params options := by
  unfold log
  split
  · next query found =>
    let scope := Scope.withRoom set params options options.room
    have logged := Draft.log_withExecute scope execute (Callee.logger? options.room)
      (.start options.index) (query.pieces.flatMap (·.additions set params))
    have written := Draft.put_withExecute scope execute
    rw [Callee.log_pieces, Callee.log_pieces, ← logged, Draft.putAll, Draft.putAll, ← written]
    rfl
  · rfl

/-! ### Warnings -/

def warnings (lines : List LogLine) : List LogLine := lines.filter (·.level == .warn)

/-- The warnings that go with some errors. -/
def limitLines (maxDepth : Nat) (errors : List BindingError) : List LogLine :=
  (errors.filter (·.fault == .recursionLimit)).map fun error => .tooDeep error.name maxDepth

theorem limitLines_append (maxDepth : Nat) (errors more : List BindingError) :
    limitLines maxDepth (errors ++ more) = limitLines maxDepth errors ++ limitLines maxDepth more := by
  simp [limitLines]

/-- Additions warn of the limits that their parts report, and so do all of them together. -/
theorem Draft.limitLines_putAll {scope : Scope} {logger? : Option Logger}
    {additions : List Addition} {maxDepth : Nat}
    (each : ∀ addition ∈ additions, ∀ draft : Draft, warnings (addition.log scope logger? draft) =
      limitLines maxDepth (addition.part scope draft.index).errors) (draft : Draft) :
    limitLines maxDepth (draft.putAll scope additions).errors =
      limitLines maxDepth draft.errors ++ warnings (draft.log scope logger? additions) := by
  induction additions generalizing draft with
  | nil => exact (List.append_nil _).symm
  | cons addition more ih =>
    have first := each addition List.mem_cons_self draft
    have rest := ih (fun other member => each other (List.mem_cons_of_mem _ member))
      (draft.put scope addition)
    have grown : (draft.put scope addition).errors =
        draft.errors ++ (addition.part scope draft.index).errors := by
      rw [put_eq_extend]
      rfl
    calc limitLines maxDepth (draft.putAll scope (addition :: more)).errors
      _ = limitLines maxDepth (draft.put scope addition).errors ++
          warnings ((draft.put scope addition).log scope logger? more) := rest
      _ = limitLines maxDepth draft.errors ++ (warnings (addition.log scope logger? draft) ++
          warnings ((draft.put scope addition).log scope logger? more)) := by
        rw [grown, limitLines_append, List.append_assoc, first]
      _ = limitLines maxDepth draft.errors ++ warnings (draft.log scope logger? (addition :: more)) := by
        rw [log, warnings, warnings, warnings, List.filter_append]

variable {set : QuerySet} {params : Params}

/-- Where parameters hold no queries, calls go to queries of the set, with the same parameters. -/
theorem Piece.Adds.own (plain : params.Plain) {piece : Piece} {name : String} {callee : Callee}
    {own : Params} (adds : piece.Adds set params (.answer name callee own)) :
    own = params ∧ ∃ pieces, callee = .pieces pieces set := by
  cases adds with
  | composed found => exact ⟨rfl, _, rfl⟩
  | @bound _ value _ found member =>
    have isPlain := plain _ value found
    cases value with
    | scalar value => simp [Value.additions] at member
    | list values => simp [Value.additions] at member
    | query reference => exact isPlain.elim
    | inner calls separator => exact isPlain.elim

/-- What pieces warn of, if nested calls warn of the limits that they report. -/
theorem Callee.warnings_log_of_nested (plain : params.Plain) (room : Nat) (options : Options)
    (nested : ∀ name pieces index,
      warnings ((Addition.answer name (.pieces pieces set) params).log
        (.withRoom set params options room) (logger? room) index) =
      limitLines options.maxDepth ((Addition.answer name (.pieces pieces set) params).part
        (.withRoom set params options room) index.index).errors) (pieces : List Piece) :
    warnings ((Callee.pieces pieces set).log room params options) =
      limitLines options.maxDepth ((Callee.pieces pieces set).answer room params options).part.errors := by
  have each : ∀ addition ∈ pieces.flatMap (·.additions set params), ∀ draft : Draft,
      warnings (addition.log (.withRoom set params options room) (logger? room) draft) =
        limitLines options.maxDepth
          (addition.part (.withRoom set params options room) draft.index).errors := by
    intro addition member draft
    obtain ⟨piece, _, adds⟩ := List.mem_flatMap.mp member
    cases addition with
    | text text => rfl
    | list values => rfl
    | missing name => rfl
    | answer name callee own =>
      obtain ⟨rfl, body, rfl⟩ := (Piece.Adds.of_mem adds).own plain
      exact nested name body draft
  have whole := Draft.limitLines_putAll each (.start options.index)
  have debug (draft : Draft) : warnings [.expanded options.depth draft] = [] := rfl
  rw [log_pieces, answer_eq_putAll, Draft.part_finish, warnings, List.filter_append]
  change _ ++ warnings [_] = limitLines _ (Draft.putAll _ _ _).errors
  rw [debug, List.append_nil, whole]
  rfl

theorem Callee.warnings_log (plain : params.Plain) (room : Nat) (pieces : List Piece)
    (options : Options) :
    warnings ((Callee.pieces pieces set).log room params options) =
      limitLines options.maxDepth ((Callee.pieces pieces set).answer room params options).part.errors := by
  induction room generalizing pieces options with
  | zero => exact warnings_log_of_nested plain 0 options (fun _ _ _ => rfl) pieces
  | succ room ih =>
    refine warnings_log_of_nested plain (room + 1) options ?_ pieces
    exact fun name body draft => ih body (options.nested draft.index)

/-- Where parameters hold no queries, each recursion limit that an expansion reports was logged as
a warning, in the same order, and nothing else was. -/
theorem QuerySet.warnings_log (plain : params.Plain) (name : String) (options : Options) :
    warnings (set.log name params options) =
      limitLines options.maxDepth (set.expand name params options).part.errors := by
  unfold log expand
  cases set.get? name with
  | none => rfl
  | some query => exact Callee.warnings_log plain options.room query.pieces options

/-! ### Commands that are not to say more -/

theorem Params.Plain.insert (plain : params.Plain) (name : String) {value : Value}
    (isPlain : value.Plain) : (params.insert name value).Plain := by
  intro other bound found
  rw [Params.get?_insert] at found
  split at found
  · exact Option.some.inj found ▸ isPlain
  · exact plain other bound found

namespace CommandLine

theorem plain_bindings (scalars : List (String × Json)) (lists : List (String × List Json)) :
    (bindings scalars lists).Plain := by
  have each {α : Type} {value : α → Value} (isPlain : ∀ a, (value a).Plain)
      (given : List (String × α)) {params : Params} (plain : params.Plain) :
      (given.foldl (fun bound (name, a) => bound.insert name (value a)) params).Plain := by
    induction given generalizing params with
    | nil => exact plain
    | cons first more ih => exact ih (plain.insert first.1 (isPlain first.2))
  have plainList (values : List Json) : (Value.list (values.map Scalar.ofJson)).Plain := trivial
  have plainScalar (value : Json) : (Value.scalar (.ofJson value)).Plain := trivial
  exact each plainList lists (each plainScalar scalars Params.plain_empty)

theorem log_expansionReport (colours : Bool) (format : Format) (start : UInt32)
    (expansion : Expansion) : (expansionReport colours format start expansion).log = [] := by
  cases expansion <;> cases format <;> rfl

/-- Unless it is to say more, expanding a query logs a warning for each recursion limit that it
reports, and nothing else. -/
theorem log_expand {env : Environment} (quiet : env.verbose = false) {config : Config}
    (configured : env.config = .ok config) {args : ExpandArgs} {set : QuerySet}
    (loaded : load env args.file = .ok set) :
    ∃ report, (Command.expand args).perform env = .report report ∧
      report.log = limitLines (options config args).maxDepth
        (set.expand args.query (bindings args.params args.lists)
          ((options config args).withExecute false)).part.errors := by
  have shown : env.shows = fun line => line.level == .warn := by
    funext line
    rw [Environment.shows, quiet, Bool.false_or]
  have noConfig : warnings env.configLog = [] := by
    unfold Environment.configLog
    cases env.configPath? <;> rfl
  let asked := (options config args).withExecute false
  have warned : warnings (set.log args.query (bindings args.params args.lists) asked) =
      limitLines asked.maxDepth
        (set.expand args.query (bindings args.params args.lists) asked).part.errors :=
    QuerySet.warnings_log (plain_bindings args.params args.lists) args.query asked
  unfold Command.perform
  rw [configured]
  simp only [performExpand, loaded]
  refine ⟨_, rfl, ?_⟩
  change (env.configLog ++ ([compiledLine set] ++ (set.log _ _ _ ++ _))).filter env.shows = _
  rw [log_expansionReport, List.append_nil, shown, List.filter_append, List.filter_append]
  change warnings env.configLog ++ ([] ++ warnings _) = _
  rw [noConfig, warned]
  rfl

end CommandLine
end SqlTemplate
