import SqlTemplate.CommandLine.Run

/-!
# The command line program
-/

namespace SqlTemplate.CommandLine

def readContents (path : String) : IO Contents := do
  try
    return .text (← IO.FS.readFile path)
  catch
    | .noFileOrDirectory .. => return .missing
    | .inappropriateType _ 21 _ => return .folder
    | error => return .absent (toString error)

def Command.files : Command → List String
  | check file => [file]
  | tokens file => [file]
  | expand args => [args.file]
  | run args _ _ => [args.file]

def environment (invocation : Invocation) : IO Environment := do
  let home ← IO.getEnv "HOME"
  let configHome ← IO.getEnv "XDG_CONFIG_HOME"
  let configDirectory := configHome.or (home.map (· ++ "/.config"))
  let colours := (← (← IO.getStdout).isTty) && (← IO.getEnv "NO_COLOR").isNone
  let databaseUrl ← IO.getEnv "SQLTPL_DATABASE_URL"
  let env : Environment := { contents := fun _ => .missing, configDirectory, databaseUrl, colours }
  let known ← (env.configPaths ++ invocation.command.files).mapM fun path =>
    return (path, ← readContents path)
  return { env with contents := fun path => (known.lookup path).getD .missing }

def Report.write (report : Report) : IO UInt32 := do
  IO.print report.output
  IO.eprint report.standardError
  return report.code.toUInt32

def runMain (words : List String) : IO UInt32 := do
  match Request.ofArguments? words with
  | none =>
    IO.eprint usage
    return 2
  | some .help =>
    IO.print usage
    return 0
  | some .version =>
    IO.println version
    return 0
  | some (.invoke invocation) =>
    let env ← environment invocation
    match invocation.perform env with
    | .report report => report.write
    | .execute _ _ log =>
      let error := RunError.connection "no database driver is available"
      ((errorReport env.colours (error.message ++ "\n")).behind log).write

end SqlTemplate.CommandLine

def main (words : List String) : IO UInt32 := SqlTemplate.CommandLine.runMain words
