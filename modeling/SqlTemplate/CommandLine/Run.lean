import SqlTemplate.CommandLine.Arguments
import SqlTemplate.Log

/-!
# Running commands

A command is run with what it can see, and leaves a report of what it writes and the code that
it ends with: zero for success, one for an error, two for a query that could not be bound.
Running a query without a database, or as a dry run, shows what expanding it shows.
-/

namespace SqlTemplate.CommandLine
open SqlTemplate.Source SqlTemplate.Terminal

def linesText (lines : List String) : String := String.join (lines.map (· ++ "\n"))

structure Report where
  code : UInt8 := 0
  output : String := ""
  log : List LogLine := []
  /-- What follows the logged lines. -/
  errors : String := ""
deriving Repr, DecidableEq

namespace Report

/-- The standard error, without the times of logged lines. -/
def standardError (report : Report) : String :=
  linesText (report.log.map LogLine.text) ++ report.errors

def behind (report : Report) (lines : List LogLine) : Report :=
  { report with log := lines ++ report.log }

end Report

def errorReport (colours : Bool) (message : String) : Report :=
  { code := 1, errors := paint colours (.boldOf .red) "Error:" ++ " " ++ message }

def errorSnippet (colours : Bool) (source : String) (error : CompileError) : String :=
  snippet error.message source error.position colours

def padding (width : Nat) (text : String) : String :=
  String.ofList (List.replicate (width - text.length) ' ')

def tokenLine (colours : Bool) (token : Token) : String :=
  let position := token.position.text
  let kind := token.kind.title
  paint colours .faint (padding 7 position ++ position) ++ "  " ++
    paint colours (.of .cyan) (kind ++ padding 16 kind) ++ " " ++
    paint colours (.of .white) (Text.quoted token.value)

def queryLines (colours : Bool) (set : QuerySet) (query : NamedQuery) : List String :=
  let place := "(" ++ query.position.text ++ ")"
  let parameter (name : String) : String :=
    let style := if Identifier.isOptional name then Style.faint else Style.of .yellow
    paint colours style (":" ++ name)
  let parameters := (set.parameters? query.name).getD []
  let compositions := (set.compositions? query.name).getD []
  let docs := query.docs.map fun docs => "  " ++ paint colours (.of .white) docs
  [ "", paint colours (.boldOf .cyan) query.name ++ " " ++ paint colours .faint place ] ++
    docs.toList ++
    (if parameters.isEmpty then [] else
      [ "  " ++ paint colours .faint "Params:" ++ " " ++
          " ".intercalate (parameters.map parameter) ]) ++
    (if compositions.isEmpty then [] else
      [ "  " ++ paint colours .faint "Composes:" ++ " " ++
          paint colours (.of .green) (", ".intercalate compositions) ])

def setLines (colours : Bool) (set : QuerySet) : List String :=
  let count := toString set.queries.length
  (paint colours (.of .green) "✓" ++ " " ++ paint colours (.of .cyan) count ++ " queries") ::
    set.queries.flatMap (queryLines colours set)

/-- Names for so many arguments, numbered from the first placeholder on. -/
def argumentLabels (start : UInt32) (count : Nat) : List String :=
  (List.range count).map fun i => "$" ++ toString (start.toNat + i)

def boundLines (colours : Bool) (start : UInt32) (query : BoundQuery) : List String :=
  let argument (label : String) (value : Scalar) : String :=
    "  " ++ label ++ " = " ++ paint colours (.of .yellow) value.display
  [ paint colours (.boldOf .green) "Statement:"
  , "  " ++ paint colours (.of .white) query.statement ] ++
    (if query.arguments.isEmpty then [] else
      [ "", paint colours (.of .cyan) "Arguments:" ] ++
        List.zipWith argument (argumentLabels start query.arguments.length) query.arguments)

def unboundLines (colours : Bool) (query : UnboundQuery) : List String :=
  [ paint colours (.boldOf .red) "Unbound query:"
  , "  " ++ paint colours (.of .white) query.statement
  , "" ] ++
    query.errors.map fun error =>
      "  " ++ paint colours (.of .red) "✗" ++ " " ++ error.message

/-- The report of an expansion. As text, what is unbound goes to the errors. -/
def expansionReport (colours : Bool) (format : Format) (start : UInt32) : Expansion → Report
  | .ok query =>
    match format with
    | .json => { output := query.toJson.pretty ++ "\n" }
    | .text => { output := linesText (boundLines colours start query) }
  | .error query =>
    match format with
    | .json => { code := 2, output := query.toJson.pretty ++ "\n" }
    | .text => { code := 2, errors := linesText (unboundLines colours query) }

inductive Contents where
  | absent (reason : String)
  | folder
  | text (text : String)
deriving Repr, DecidableEq

namespace Contents

def missing : Contents := absent "No such file or directory (os error 2)"

def isAbsent : Contents → Bool
  | absent _ => true
  | _ => false

def text? : Contents → Except String String
  | absent reason => .error reason
  | folder => .error "Is a directory (os error 21)"
  | text content => .ok content

end Contents

structure Environment where
  contents : String → Contents
  configDirectory : Option String := none
  databaseUrl : Option String := none
  colours : Bool := false
  verbose : Bool := false

inductive Action where
  | report (report : Report)
  /-- A bound query is to be run on a database, once these lines are logged. -/
  | execute (url : String) (query : BoundQuery) (log : List LogLine)

def Action.mapLog (f : List LogLine → List LogLine) : Action → Action
  | report r => report { r with log := f r.log }
  | execute url query log => execute url query (f log)

def version : String := "sqltpl 0.3.0"

def usage : String := linesText
  [ "Compile SQL template files into positional statements"
  , ""
  , "Usage: sqltpl [-v] [--no-color] COMMAND"
  , ""
  , "Commands:"
  , "  check FILE          Compile a file and list its queries"
  , "  tokens FILE         Print the token stream of a file"
  , "  expand FILE QUERY   Expand a query and print the statement and arguments"
  , "  run FILE QUERY      Expand a query and execute it"
  , ""
  , "Options of expand and run:"
  , "  -p, --param NAME=JSON     Parameter (bare text is taken as a string)"
  , "      --in NAME=JSON_ARRAY  List parameter, also as NAME=a,b,c"
  , "      --start NUMBER        First placeholder number"
  , "      --max-depth NUMBER    Deepest composition nesting"
  , "  -f, --format FORMAT       Output format, text or json"
  , ""
  , "Options of run:"
  , "      --database-url URL    Database connection URL"
  , "  -d, --dry-run             Only show the statement" ]

def configFile : String := "sqltpl.toml"

namespace Environment

/-- The places of the configuration, the first of which that has one is used. -/
def configPaths (env : Environment) : List String :=
  configFile :: (env.configDirectory.map (· ++ "/sqltpl/config.toml")).toList

def configPath? (env : Environment) : Option String :=
  env.configPaths.find? fun path => !(env.contents path).isAbsent

def config (env : Environment) : Except ConfigError Config :=
  match env.configPath? with
  | some path => Config.ofFile path (env.contents path).text?
  | none => .ok {}

/-- What is logged when a configuration was found. -/
def configLog (env : Environment) : List LogLine :=
  env.configPath?.toList.map fun path =>
    { level := .debug, target := "sqltpl::config", message := "loaded config"
      fields := [("path", path)] }

def shows (env : Environment) (line : LogLine) : Bool := env.verbose || line.level == .warn

end Environment

def compiledLine (set : QuerySet) : LogLine where
  level := .debug
  target := "sqltpl::compiler"
  message := "compiled query set"
  fields := [("queries", toString set.queries.length)]

def connectedLine (url : String) : LogLine where
  level := .debug
  target := "sqltpl::engine"
  message := "connected"
  fields :=
    [("placeholder",
      match Sql.PlaceholderStyle.ofUrl url with
      | .dollar => "Dollar"
      | .question => "Question")]

def source (env : Environment) (file : String) : Except Report String :=
  (env.contents file).text?.mapError fun reason =>
    errorReport env.colours ("cannot read " ++ file ++ ": " ++ reason ++ "\n")

def load (env : Environment) (file : String) : Except Report QuerySet := do
  let text ← source env file
  (QuerySet.parse text).mapError fun error =>
    let place := paint env.colours .faint ("  in " ++ file)
    { code := 1, errors := errorSnippet env.colours text error ++ place ++ "\n" }

def options (config : Config) (args : ExpandArgs) : Options :=
  let options := (args.start.map config.options.withIndex).getD config.options
  (args.maxDepth.map options.withMaxDepth).getD options

def showTokens (env : Environment) (file : String) : Except Report Report := do
  let text ← source env file
  match tokenize text with
  | .ok tokens => return { output := linesText (tokens.map (tokenLine env.colours)) }
  | .error e => throw { code := 1, errors := errorSnippet env.colours text (.lex e) }

def showExpansion (env : Environment) (config : Config) (args : ExpandArgs) (options : Options)
    (set : QuerySet) : Report :=
  let params := bindings args.params args.lists
  let report := expansionReport env.colours (args.format.getD config.format) options.index
    (set.expand args.query params options)
  report.behind (set.log args.query params options)

def noDatabase (colours : Bool) : String :=
  linesText
    [ "", paint colours (.of .yellow)
        "⚠ No database URL. Use --database-url or set SQLTPL_DATABASE_URL" ]

def connecting (env : Environment) (url : String) : String :=
  if env.verbose then paint env.colours .faint "Connecting to:" ++ " " ++ url ++ "\n" else ""

def performExpand (env : Environment) (config : Config) (args : ExpandArgs) :
    Except Report Report := do
  let set ← load env args.file
  let shown := showExpansion env config args ((options config args).withExecute false) set
  return shown.behind [compiledLine set]

def performRun (env : Environment) (config : Config) (args : ExpandArgs)
    (databaseUrl : Option String) (dryRun : Bool) : Except Report Action := do
  let set ← load env args.file
  let options := options config args
  let shown := showExpansion env config args options set
  if dryRun then return .report (shown.behind [compiledLine set])
  match (databaseUrl.or env.databaseUrl).or config.databaseUrl with
  | none =>
    let shown := { shown with output := shown.output ++ noDatabase env.colours }
    return .report (shown.behind [compiledLine set])
  | some url =>
    let front := [compiledLine set, connectedLine url]
    match set.expand args.query (bindings args.params args.lists) options with
    | .ok query => return .execute url query (front ++ shown.log)
    | .error _ =>
      let shown := { shown with output := connecting env url ++ shown.output }
      return .report (shown.behind front)

/-- The report that there is no configuration to use. A reason for that is told once with the
path and once more by itself. -/
def configReport (colours : Bool) (error : ConfigError) : Report :=
  let again :=
    match error with
    | .unreadable _ reason => ": " ++ reason ++ "\n"
    | .invalid _ => ""
  errorReport colours (error.message ++ again)

def Command.perform (command : Command) (env : Environment) : Action :=
  match env.config with
  | .error error => .report (configReport env.colours error)
  | .ok config =>
    let action : Except Report Action :=
      match command with
      | .check file =>
        (load env file).map fun set =>
          .report { output := linesText (setLines env.colours set), log := [compiledLine set] }
      | .tokens file => (showTokens env file).map .report
      | .expand args => (performExpand env config args).map .report
      | .run args databaseUrl dryRun => performRun env config args databaseUrl dryRun
    let action :=
      match action with
      | .ok action => action
      | .error report => .report report
    action.mapLog fun log => (env.configLog ++ log).filter env.shows

def Invocation.perform (env : Environment) (invocation : Invocation) : Action :=
  invocation.command.perform
    { env with
      colours := env.colours && !invocation.plain
      verbose := env.verbose || invocation.verbose }

/-- The files below a folder, each with the names that lead to it. -/
abbrev Tree := List (List String × String)

def pathNames (path : String) : List String :=
  (path.splitOn "/").filter fun name => name != "" && name != "."

/-- The root, of which only the device without contents is known. -/
def root : Tree := [(["dev", "null"], "")]

inductive Spot where
  | folder (tree : Tree) (names : List String)
  | file (text : String)
  | nowhere (reason : String)

namespace Spot

def ofNames (tree : Tree) (names : List String) : Spot :=
  match tree.lookup names with
  | some text => file text
  | none =>
    if tree.any (names.isPrefixOf ·.1) then folder tree names
    else nowhere "No such file or directory (os error 2)"

/-- One name further. Names have at most 255 bytes. -/
def step (spot : Spot) (name : String) : Spot :=
  match spot with
  | nowhere reason => nowhere reason
  | file _ => nowhere "Not a directory (os error 20)"
  | folder tree names =>
    if name == "" || name == "." then spot
    else if name == ".." then
      if names.isEmpty then folder [] [] else folder tree names.dropLast
    else if 255 < name.utf8ByteSize then nowhere "File name too long (os error 36)"
    else ofNames tree (names ++ [name])

def contents : Spot → Contents
  | folder _ _ => .folder
  | file text => .text text
  | nowhere reason => .absent reason

end Spot

/-- What stands at a path of a directory with these files. Paths have less than 4096 bytes,
none of which is zero. -/
def contentsIn (files : List (String × String)) (path : String) : Contents :=
  if path.isEmpty then .missing
  else if path.contains '\x00' then .absent "file name contained an unexpected NUL byte"
  else if 4096 ≤ path.utf8ByteSize then .absent "File name too long (os error 36)"
  else
    let tree := if path.startsWith "/" then root else files.map (Prod.map pathNames id)
    ((path.splitOn "/").foldl Spot.step (.folder tree [])).contents

end SqlTemplate.CommandLine
