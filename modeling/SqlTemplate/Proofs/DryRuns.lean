import SqlTemplate.Proofs.Flags
import SqlTemplate.Proofs.Logs
import SqlTemplate.Proofs.Written

/-!
# Dry runs

A dry run shows what expanding shows (`dryRun_shows_expansion`): the command that runs a query
reads its arguments as the command that expands it does, and whether a query is to be run
matters neither for its expansion nor for what is logged meanwhile. Without a database, nothing
else happens but that a warning follows.
-/

namespace SqlTemplate

/-! ### Expansions of queries that are to be run -/

theorem Draft.add_withExecute (scope : Scope) (execute : Bool) :
    add { scope with options := scope.options.withExecute execute } = add scope := by
  funext draft piece
  cases piece <;> rfl

/-- Whether a query is to be run does not matter for its expansion. -/
theorem QuerySet.expand_withExecute (set : QuerySet) (name : String) (params : Params)
    (options : Options) (execute : Bool) :
    set.expand name params (options.withExecute execute) = set.expand name params options := by
  unfold expand
  split
  · next query found =>
    have same := Draft.add_withExecute (.withRoom set params options options.room) execute
    rw [evaluate_eq, evaluate_eq]
    exact congrArg (fun add => (query.pieces.foldl add (.start options.index)).finish) same
  · rfl

namespace CommandLine
open SqlTemplate.Terminal

/-! ### Arguments of dry runs -/

/-- The same is given, and a dry run is asked for besides. -/
structure Given.Dry (given dry : Given) : Prop where
  words : dry.words = given.words
  dryRun : dry.has .dryRun
  has : ∀ flag ≠ .dryRun, dry.has flag = given.has flag
  value? : ∀ flag ≠ .dryRun, dry.value? flag = given.value? flag
  values : ∀ flag ≠ .dryRun, dry.values flag = given.values flag

theorem Given.Dry.insert (front back : List (Flag × Option String)) (words : List String) :
    Given.Dry ⟨front ++ back, words⟩ ⟨front ++ (.dryRun, none) :: back, words⟩ where
  words := rfl
  dryRun := by simp [Given.has]
  has flag other := by
    have : (Flag.dryRun == flag) = false := beq_false_of_ne other.symm
    simp [Given.has, this]
  value? flag other := by
    have : (flag == Flag.dryRun) = false := beq_false_of_ne other
    simp [Given.value?, List.lookup_append, List.lookup_cons, this]
  values flag other := by
    have : (Flag.dryRun == flag) = false := beq_false_of_ne other.symm
    simp [Given.values]

theorem Given.Dry.expandArgs {given dry : Given} (isDry : given.Dry dry) (file query : String) :
    dry.expandArgs file query = given.expandArgs file query := by
  unfold Given.expandArgs
  rw [isDry.values .param (by decide), isDry.values .list (by decide),
    isDry.value? .start (by decide), isDry.value? .maxDepth (by decide),
    isDry.value? .format (by decide)]

theorem dashed_dryRun (given : Given) :
    dashed .run given '-' "dry-run".toList = (given.addFlag .dryRun none).map (·, none) := by
  rfl

/-- What is read for a query to be expanded is read for it to be run, too. -/
theorem Reads.run_of_expand {words : List String} {given : Given}
    (reads : Reads .expand {} words given) : Reads .run {} words given ∧ given.Of .expand := by
  have none : ∀ entry ∈ ([] : List (Flag × Option String)), entry.1 ∉ Level.expand.flags := by simp
  have whole : ∀ given : Given, given.behind [] = given := by simp [Given.behind]
  simpa only [whole] using reads.run none (by simp [Given.Of])

theorem Given.Of.has_eq_false {level : Level} {given : Given} (isOf : given.Of level) {flag : Flag}
    (other : flag ∉ level.flags) : given.has flag = false := by
  rw [Bool.eq_false_iff]
  intro has
  obtain ⟨entry, member, same⟩ := List.any_eq_true.mp has
  rw [beq_iff_eq] at same
  exact other (same ▸ isOf entry member)

theorem Given.Of.value?_eq_none {level : Level} {given : Given} (isOf : given.Of level)
    {flag : Flag} (other : flag ∉ level.flags) : given.value? flag = none := by
  have absent : given.flags.lookup flag = none := by
    refine List.lookup_eq_none_iff.mpr ?_
    intro entry member
    rw [bne_iff_ne]
    intro same
    exact other (same ▸ isOf entry member)
  rw [Given.value?, absent]
  rfl

theorem Reads.dryRun {words dry : List String} {given : Given}
    (reads : Reads .expand {} words given)
    (placed : dry = "--dry-run" :: words ∨ dry = words ++ ["--dry-run"] ∧ "--" ∉ words) :
    ∃ isDry, Reads .run {} dry isDry ∧ given.Dry isDry := by
  have argument : "--dry-run".toList = '-' :: '-' :: "dry-run".toList := rfl
  rcases placed with rfl | ⟨rfl, noEnd⟩
  · have other : ∀ entry ∈ [(Flag.dryRun, (none : Option String))],
        entry.1 ∉ Level.expand.flags := by decide
    obtain ⟨rest, _⟩ := reads.run other (by simp [Given.Of])
    refine ⟨given.behind [(.dryRun, none)], .flags argument (by decide) ?_ rest, ?_⟩
    · rfl
    · simpa [Given.behind] using Given.Dry.insert given.flags [] given.words
  · obtain ⟨reads, isOf⟩ := reads.run_of_expand
    have notYet : given.has .dryRun = false := isOf.has_eq_false (by decide)
    have added : given.addFlag .dryRun none =
        .ok { given with flags := (.dryRun, none) :: given.flags } := by
      refine Given.addFlag_eq_ok_iff.mpr ⟨by decide, by decide, ?_, by simp, rfl⟩
      simp [notYet]
    refine ⟨{ given with flags := (.dryRun, none) :: given.flags },
      reads.append noEnd (.flags argument (by decide) ?_ (.done _)), ?_⟩
    · rw [dashed_dryRun, added]
      rfl
    · exact Given.Dry.insert [] given.flags given.words

/-! ### What is shown -/

/-- No database is configured. -/
def Environment.Unconfigured (env : Environment) : Prop :=
  env.databaseUrl = none ∧ ∀ config, env.config = .ok config → config.databaseUrl = none

/-- There is a configuration to use, and a file is there and compiles. -/
def Environment.Compiles (env : Environment) (file : String) : Prop :=
  ∃ config text set, env.config = .ok config ∧ env.contents file = .text text ∧
    QuerySet.parse text = .ok set

variable {env : Environment} {args : ExpandArgs}

theorem load_eq_ok_iff {file : String} {set : QuerySet} :
    load env file = .ok set ↔
      ∃ text, env.contents file = .text text ∧ QuerySet.parse text = .ok set := by
  unfold load source
  rw [Except.bind_eq_ok_iff]
  simp only [Except.mapError_eq_ok_iff]
  cases env.contents file <;> simp [Contents.text?]

theorem showExpansion_withExecute (config : Config) (options : Options) (execute : Bool)
    (set : QuerySet) :
    showExpansion env config args (options.withExecute execute) set =
      showExpansion env config args options set := by
  simp only [showExpansion, QuerySet.expand_withExecute, QuerySet.log_withExecute]
  rfl

theorem compiles_iff {config : Config} (configured : env.config = .ok config) {file : String} :
    env.Compiles file ↔ ∃ set, load env file = .ok set := by
  simp only [load_eq_ok_iff]
  constructor
  · rintro ⟨_, text, set, _, there, parsed⟩
    exact ⟨set, text, there, parsed⟩
  · rintro ⟨set, text, there, parsed⟩
    exact ⟨config, text, set, configured, there, parsed⟩

/-- Expanding a query ends with a report. A dry run ends with the same one, and so does running
the query without a database, but for a warning if the file compiles. -/
theorem perform_run_expand (env : Environment) (args : ExpandArgs) :
    ∃ report, (Command.expand args).perform env = .report report ∧
      (∀ databaseUrl, (Command.run args databaseUrl true).perform env = .report report) ∧
      (env.Unconfigured →
        (env.Compiles args.file → (Command.run args none false).perform env =
          .report { report with output := report.output ++ noDatabase env.colours }) ∧
        (¬ env.Compiles args.file →
          (Command.run args none false).perform env = .report report)) := by
  unfold Command.perform
  cases configured : env.config with
  | error error =>
    have never : ¬ env.Compiles args.file := by
      rintro ⟨config, _, _, isConfig, _⟩
      cases configured.symm.trans isConfig
    exact ⟨_, rfl, fun _ => rfl, fun _ => ⟨fun compiles => (never compiles).elim, fun _ => rfl⟩⟩
  | ok config =>
    simp only [performExpand, performRun, showExpansion_withExecute]
    cases loaded : load env args.file with
    | error report =>
      have never : ¬ env.Compiles args.file := by
        rintro compiles
        obtain ⟨set, isSet⟩ := (compiles_iff configured).mp compiles
        cases loaded.symm.trans isSet
      exact ⟨_, rfl, fun _ => rfl, fun _ => ⟨fun compiles => (never compiles).elim, fun _ => rfl⟩⟩
    | ok set =>
      refine ⟨_, rfl, fun _ => rfl, ?_⟩
      rintro ⟨noVariable, noSetting⟩
      have noUrl : env.databaseUrl.or config.databaseUrl = none := by
        rw [noVariable, noSetting config configured]
        rfl
      refine ⟨fun _ => ?_, fun fails => (fails ((compiles_iff configured).mpr ⟨set, loaded⟩)).elim⟩
      simp only [noUrl, bind, Except.bind, pure, Except.pure, Bool.false_eq_true, if_false,
        Option.none_or]
      rfl

theorem expand_command?_eq_some_iff {given : Given} {command : Command} :
    Level.expand.command? given = some command ↔
      ∃ file query, given.words.reverse = [file, query] ∧
        .expand (given.expandArgs file query) = command := by
  constructor
  · intro isCommand
    unfold Level.command? at isCommand
    split at isCommand
    · contradiction
    · contradiction
    · next file query _ isWords => exact ⟨file, query, isWords, Option.some.inj isCommand⟩
    · contradiction
    · cases isCommand
  · rintro ⟨file, query, isWords, rfl⟩
    simp [Level.command?, isWords]

theorem run_command?_eq {given : Given} {file query : String}
    (isWords : given.words.reverse = [file, query]) :
    Level.run.command? given = some
      (.run (given.expandArgs file query) (given.value? .databaseUrl) (given.has .dryRun)) := by
  simp [Level.command?, isWords]

/-- A dry run shows what expanding a query shows: it ends with the same code, writes the same
output and the same errors, and logs the same lines, but for their times. Running the query
without a database does so, too; if the file compiles, an empty line and a warning follow its
output. -/
theorem dryRun_shows_expansion {words : List String} {asked : Invocation}
    (understood : Request.ofArguments? ("expand" :: words) = some (.invoke asked))
    {dry : List String}
    (placed : dry = "--dry-run" :: words ∨ dry = words ++ ["--dry-run"] ∧ "--" ∉ words)
    (env : Environment) :
    ∃ args report isDry run,
      asked.command = .expand args ∧ asked.perform env = .report report ∧
      Request.ofArguments? ("run" :: dry) = some (.invoke isDry) ∧
      isDry.perform env = .report report ∧
      Request.ofArguments? ("run" :: words) = some (.invoke run) ∧
      (env.Unconfigured →
        (env.Compiles args.file → run.perform env =
          .report { report with
            output := report.output ++ linesText
              [ "", paint (env.colours && !asked.plain) (.of .yellow)
                  "⚠ No database URL. Use --database-url or set SQLTPL_DATABASE_URL" ] }) ∧
        (¬ env.Compiles args.file → run.perform env = .report report)) := by
  have expandNamed : Level.ofName? "expand" = some .expand := rfl
  have runNamed : Level.ofName? "run" = some .run := rfl
  obtain ⟨given, command, reads, isCommand, rfl⟩ :=
    (ofArguments?_eq_invoke_iff expandNamed).mp understood
  obtain ⟨file, query, isWords, rfl⟩ := expand_command?_eq_some_iff.mp isCommand
  obtain ⟨dryGiven, readsDry, isDry⟩ := reads.dryRun placed
  obtain ⟨readsRun, isOf⟩ := reads.run_of_expand
  let args := given.expandArgs file query
  let seen : Environment :=
    { env with
      colours := env.colours && !given.has .plain
      verbose := env.verbose || given.has .verbose }
  obtain ⟨report, expanded, dryRun, run⟩ := perform_run_expand seen args
  refine ⟨args, report, ⟨given.has .verbose, given.has .plain,
      .run args (dryGiven.value? .databaseUrl) true⟩,
    ⟨given.has .verbose, given.has .plain, .run args none false⟩, rfl, expanded, ?_, dryRun _, ?_,
    run⟩
  · refine (ofArguments?_eq_invoke_iff runNamed).mpr ⟨dryGiven, _, readsDry,
      run_command?_eq (isDry.words ▸ isWords), ?_⟩
    rw [isDry.dryRun, isDry.expandArgs, isDry.has .verbose (by decide),
      isDry.has .plain (by decide)]
  · refine (ofArguments?_eq_invoke_iff runNamed).mpr ⟨given, _, readsRun,
      run_command?_eq isWords, ?_⟩
    have noUrl : given.value? .databaseUrl = none := isOf.value?_eq_none (by decide)
    have noDryRun : given.has .dryRun = false := isOf.has_eq_false (by decide)
    rw [noUrl, noDryRun]

/-- A directory with a file of queries and no configuration. -/
def peopleFiles : Environment where
  contents path := if path = "people.sql" then .text people else .missing

/-- What asks for people of some age. -/
def oldWords : List String := ["people.sql", "old", "--start", "3"]

theorem people_dryRun :
    ∃ report isDry run,
      Request.ofArguments? ("run" :: oldWords ++ ["--dry-run"]) = some (.invoke isDry) ∧
      isDry.perform peopleFiles = .report report ∧
      Request.ofArguments? ("run" :: oldWords) = some (.invoke run) ∧
      run.perform peopleFiles = .report
        { report with
          output := report.output ++ linesText
            ["", "⚠ No database URL. Use --database-url or set SQLTPL_DATABASE_URL"] } := by
  have understood : Request.ofArguments? ("expand" :: oldWords) = some (.invoke
      { command := .expand { file := "people.sql", query := "old", start := some 3 } }) := by
    have named : Level.ofName? "expand" = some .expand := rfl
    refine (ofArguments?_eq_invoke_iff named).mpr
      ⟨⟨[(.start, some "3")], ["old", "people.sql"]⟩, _, ?_, rfl, rfl⟩
    have dashes : "--start".toList = '-' :: '-' :: "start".toList := rfl
    exact .word rfl rfl (.word rfl rfl (.value dashes (by decide) rfl rfl rfl (.done _)))
  have placed : oldWords ++ ["--dry-run"] = "--dry-run" :: oldWords ∨
      oldWords ++ ["--dry-run"] = oldWords ++ ["--dry-run"] ∧ "--" ∉ oldWords := by decide
  obtain ⟨args, report, isDry, run, isArgs, _, isDryRun, shown, isRun, warned⟩ :=
    dryRun_shows_expansion understood placed peopleFiles
  obtain rfl := Command.expand.inj isArgs
  have unconfigured : peopleFiles.Unconfigured := by
    refine ⟨rfl, ?_⟩
    rintro config ⟨⟩
    rfl
  have compiles : peopleFiles.Compiles "people.sql" :=
    ⟨{}, people, peopleSet, rfl, rfl, parse_people⟩
  exact ⟨report, isDry, run, isDryRun, shown, isRun, (warned unconfigured).1 compiles⟩

end CommandLine
end SqlTemplate
