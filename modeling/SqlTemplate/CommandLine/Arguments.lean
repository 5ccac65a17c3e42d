import SqlTemplate.Toml
import SqlTemplate.Value

/-!
# Configuration and arguments of the command line

A flag that takes a value has it attached, behind an equals sign that a letter may leave out, or
as the next argument, which must not look like a flag. Two dashes alone end the flags. Only
parameters and lists may be given more than once. A parameter is given as a name, an equals sign
and a JSON value; what is no JSON counts as text.
-/

namespace SqlTemplate

inductive Format where
  | text
  | json
deriving Repr, DecidableEq

def Format.ofName? : String → Option Format
  | "text" => some .text
  | "json" => some .json
  | _ => none

structure Config where
  databaseUrl : Option String := none
  startIndex : UInt32 := 1
  maxDepth : Nat := 32
  format : Format := .text
deriving Repr, DecidableEq

inductive ConfigError where
  | unreadable (path reason : String)
  | invalid (path : String)
deriving Repr, DecidableEq

def ConfigError.message : ConfigError → String
  | unreadable path reason => "Cannot read " ++ path ++ ": " ++ reason
  | invalid path => "Invalid config " ++ path

namespace Config

/-- A configuration with one more setting, if the setting exists and the value fits it. -/
def set? (config : Config) : String × Toml.Value → Option Config
  | ("database_url", .string url) => some { config with databaseUrl := some url }
  | ("start_index", .integer n) =>
    if 0 ≤ n && n.toNat < UInt32.size then some { config with startIndex := UInt32.ofNat n.toNat } else none
  | ("max_depth", .integer n) => if 0 ≤ n then some { config with maxDepth := n.toNat } else none
  | ("format", .string name) => (Format.ofName? name).map fun format => { config with format }
  | ("format", .table _ [(name, value)]) =>
    if value.isEmpty then (Format.ofName? name).map fun format => { config with format } else none
  | _ => none

def ofToml? (text : String) : Option Config := do
  (← Toml.settings? text).foldlM set? {}

def ofFile (path : String) (text : Except String String) : Except ConfigError Config :=
  match text with
  | .error reason => .error (.unreadable path reason)
  | .ok text =>
    match ofToml? text with
    | some config => .ok config
    | none => .error (.invalid path)

def options (config : Config) : Options :=
  (({} : Options).withIndex config.startIndex).withMaxDepth config.maxDepth

end Config
end SqlTemplate

namespace SqlTemplate.CommandLine
open SqlTemplate.Text

def jsonOrText (text : String) : Json := (Json.parse? text).getD (.string text)

def binding? (argument : String) : Option (String × Json) :=
  let cs := argument.toList
  match cs.dropWhile (· != '=') with
  | [] => none
  | _ :: value =>
    let name := trim (cs.takeWhile (· != '='))
    some (String.ofList name, jsonOrText (String.ofList value))

def splitCommas : List Char → List (List Char)
  | [] => [[]]
  | c :: cs =>
    if c == ',' then [] :: splitCommas cs
    else
      match splitCommas cs with
      | part :: parts => (c :: part) :: parts
      | [] => [[c]]

def items : Json → List Json
  | .array values => values
  | .string text =>
    (splitCommas text.toList).map fun part => jsonOrText (String.ofList (trim part))
  | value => [value]

def listBinding? (argument : String) : Option (String × List Json) :=
  (binding? argument).map fun (name, value) => (name, items value)

/-- Parameters and lists as values. A list takes the place of a parameter of its name. -/
def bindings (params : List (String × Json)) (lists : List (String × List Json)) : Params :=
  let scalars := params.foldl
    (fun bound (name, value) => bound.insert name (.scalar (Scalar.ofJson value))) Params.empty
  lists.foldl
    (fun bound (name, values) => bound.insert name (.list (values.map Scalar.ofJson))) scalars

structure ExpandArgs where
  file : String
  query : String
  params : List (String × Json) := []
  lists : List (String × List Json) := []
  start : Option UInt32 := none
  maxDepth : Option Nat := none
  format : Option Format := none

inductive Command where
  | check (file : String)
  | tokens (file : String)
  | expand (args : ExpandArgs)
  | run (args : ExpandArgs) (databaseUrl : Option String) (dryRun : Bool)

structure Invocation where
  verbose : Bool := false
  plain : Bool := false
  command : Command

inductive Request where
  | help
  | version
  | invoke (invocation : Invocation)

/-! ### Flags -/

inductive Flag where
  | verbose | plain | help | version
  | param | list | start | maxDepth | format
  | databaseUrl | dryRun
deriving Repr, DecidableEq

def Flag.long : Flag → String
  | verbose => "verbose"
  | plain => "no-color"
  | help => "help"
  | version => "version"
  | param => "param"
  | list => "in"
  | start => "start"
  | maxDepth => "max-depth"
  | format => "format"
  | databaseUrl => "database-url"
  | dryRun => "dry-run"

def Flag.letter? : Flag → Option Char
  | verbose => some 'v'
  | help => some 'h'
  | version => some 'V'
  | param => some 'p'
  | format => some 'f'
  | dryRun => some 'd'
  | _ => none

def Flag.takesValue : Flag → Bool
  | param | list | start | maxDepth | format | databaseUrl => true
  | _ => false

def Flag.repeats : Flag → Bool
  | param | list => true
  | _ => false

inductive Level where
  | top | check | tokens | expand | run
deriving Repr, DecidableEq

def Level.ofName? : String → Option Level
  | "check" => some .check
  | "tokens" => some .tokens
  | "expand" => some .expand
  | "run" => some .run
  | _ => none

def Level.flags : Level → List Flag
  | top => [.verbose, .plain, .help, .version]
  | check | tokens => [.verbose, .plain, .help]
  | expand => [.verbose, .plain, .help, .param, .list, .start, .maxDepth, .format]
  | run =>
    [.verbose, .plain, .help, .param, .list, .start, .maxDepth, .format, .databaseUrl, .dryRun]

def Level.arity : Level → Nat
  | top => 0
  | check | tokens => 1
  | expand | run => 2

/-! ### Arguments one by one -/

/-- What was given so far, the latest first. -/
structure Given where
  flags : List (Flag × Option String) := []
  words : List String := []

inductive Stop where
  | misuse
  | help
  | version
deriving Repr, DecidableEq

def natural? (cs : List Char) : Option Nat :=
  if !cs.isEmpty && cs.all Char.isDigit then some (Json.valueOfDigits cs) else none

/-- A number of thirty-two bits; it may have a sign, as long as it is not below zero. -/
def start? (text : String) : Option UInt32 := do
  let n ←
    match text.toList with
    | '-' :: cs => (natural? cs).filter (· == 0)
    | '+' :: cs => natural? cs
    | cs => natural? cs
  if n < UInt32.size then some (UInt32.ofNat n) else none

def maxDepth? (text : String) : Option Nat :=
  let number :=
    match text.toList with
    | '+' :: cs => natural? cs
    | cs => natural? cs
  number.filter (· < UInt64.size)

def Flag.accepts (flag : Flag) (value : String) : Bool :=
  match flag with
  | param => (binding? value).isSome
  | list => (listBinding? value).isSome
  | start => (start? value).isSome
  | maxDepth => (maxDepth? value).isSome
  | format => (Format.ofName? value).isSome
  | _ => true

namespace Given

def has (given : Given) (flag : Flag) : Bool := given.flags.any (·.1 == flag)

def value? (given : Given) (flag : Flag) : Option String :=
  (given.flags.lookup flag).join

def values (given : Given) (flag : Flag) : List String :=
  (given.flags.filterMap fun (other, value) => if other == flag then value else none).reverse

def addFlag (given : Given) (flag : Flag) (value : Option String) : Except Stop Given :=
  if flag == .help then .error .help
  else if flag == .version then .error .version
  else if given.has flag && !flag.repeats then .error .misuse
  else if value.any (!flag.accepts ·) then .error .misuse
  else .ok { given with flags := (flag, value) :: given.flags }

/-- One more argument without a flag. The first names a file and is not empty. -/
def addWord (given : Given) (level : Level) (word : String) : Except Stop Given :=
  if given.words.length == level.arity then .error .misuse
  else if given.words.isEmpty && word.isEmpty then .error .misuse
  else .ok { given with words := word :: given.words }

end Given

def looksLikeFlag (argument : String) : Bool :=
  match argument.toList with
  | '-' :: _ :: _ => true
  | _ => false

def nextValue : List String → Except Stop (String × List String)
  | [] => .error .misuse
  | argument :: more => if looksLikeFlag argument then .error .misuse else .ok (argument, more)

theorem nextValue_length_le {arguments rest : List String} {value : String}
    (h : nextValue arguments = .ok (value, rest)) : rest.length ≤ arguments.length := by
  unfold nextValue at h
  split at h
  · simp at h
  · split at h <;> simp at h; simp [h.2]

/-- Flags that share a dash. If the last of them takes its value from the next argument, it
is left over. -/
def letters (level : Level) (given : Given) : List Char → Except Stop (Given × Option Flag)
  | [] => .ok (given, none)
  | c :: cs =>
    match level.flags.find? (·.letter? == some c) with
    | none => .error .misuse
    | some flag =>
      if flag.takesValue then
        match cs with
        | [] => .ok (given, some flag)
        | cs =>
          let value := if cs.head? == some '=' then cs.tail else cs
          (given.addFlag flag (some (String.ofList value))).map (·, none)
      else
        match given.addFlag flag none with
        | .ok given => letters level given cs
        | .error stop => .error stop

def longFlag (level : Level) (given : Given) (text : List Char) :
    Except Stop (Given × Option Flag) :=
  let name := String.ofList (text.takeWhile (· != '='))
  let attached := (text.dropWhile (· != '=')).tail?
  match level.flags.find? (·.long == name) with
  | none => .error .misuse
  | some flag =>
    match flag.takesValue, attached with
    | true, none => .ok (given, some flag)
    | false, some _ => .error .misuse
    | _, attached => (given.addFlag flag (attached.map String.ofList)).map (·, none)

def arguments (level : Level) (given : Given) : List String → Except Stop Given
  | [] => .ok given
  | argument :: more =>
    match argument.toList with
    | ['-', '-'] => more.foldlM (Given.addWord · level) given
    | '-' :: c :: cs =>
      match if c == '-' then longFlag level given cs else letters level given (c :: cs) with
      | .error stop => .error stop
      | .ok (given, none) => arguments level given more
      | .ok (given, some flag) =>
        match h : nextValue more with
        | .error stop => .error stop
        | .ok (value, rest) =>
          have := nextValue_length_le h
          match given.addFlag flag (some value) with
          | .error stop => .error stop
          | .ok given => arguments level given rest
    | _ =>
      match given.addWord level argument with
      | .error stop => .error stop
      | .ok given => arguments level given more
termination_by arguments => arguments.length

/-! ### Commands -/

def Given.expandArgs (given : Given) (file query : String) : ExpandArgs where
  file
  query
  params := (given.values .param).filterMap binding?
  lists := (given.values .list).filterMap listBinding?
  start := (given.value? .start).bind start?
  maxDepth := (given.value? .maxDepth).bind maxDepth?
  format := (given.value? .format).bind Format.ofName?

def Level.command? (level : Level) (given : Given) : Option Command :=
  match level, given.words.reverse with
  | check, [file] => some (.check file)
  | tokens, [file] => some (.tokens file)
  | expand, [file, query] => some (.expand (given.expandArgs file query))
  | run, [file, query] =>
    let args := given.expandArgs file query
    some (.run args (given.value? .databaseUrl) (given.has .dryRun))
  | _, _ => none

def isHelpTopic : List String → Bool
  | [] => true
  | [name] => name == "help" || (Level.ofName? name).isSome
  | _ => false

def commandRequest (front : Given) (name : String) (more : List String) : Except Stop Request :=
  match Level.ofName? name with
  | none => .error (if name == "help" && isHelpTopic more then .help else .misuse)
  | some level => do
    let given ← arguments level {} more
    match level.command? given with
    | none => throw .misuse
    | some command =>
      return .invoke
        { verbose := front.has .verbose || given.has .verbose
          plain := front.has .plain || given.has .plain
          command }

def request (front : Given) : List String → Except Stop Request
  | [] => .error .misuse
  | argument :: more =>
    match argument.toList with
    | ['-', '-'] => .error .misuse
    | '-' :: c :: cs =>
      match if c == '-' then longFlag .top front cs else letters .top front (c :: cs) with
      | .ok (front, none) => request front more
      | .ok (_, some _) => .error .misuse
      | .error stop => .error stop
    | _ => commandRequest front argument more

def Request.ofArguments? (words : List String) : Option Request :=
  match request {} words with
  | .ok request => some request
  | .error .help => some .help
  | .error .version => some .version
  | .error .misuse => none

end SqlTemplate.CommandLine
