import JackTokens.Command

namespace JackTokens

/-- Why reading a command line ends before a command can be run. -/
inductive Halt where
  | usage
  | help
  | version (program : String)
deriving DecidableEq

inductive CommandName where
  | tokens
  | check
deriving DecidableEq

def CommandName.ofWord? : String → Option CommandName
  | "tokens" => some .tokens
  | "check" => some .check
  | _ => none

/-- The program, or one of its commands: `none` stands before the command. -/
abbrev Place := Option CommandName

def Place.program : Place → String
  | none => "jackt"
  | some .tokens => "jackt-tokens"
  | some .check => "jackt-check"

inductive Flag where
  | verbose
  | noColor
  | help
  | version
deriving DecidableEq

inductive ValueOption where
  | config
  | format
  | bufferSize
deriving DecidableEq

inductive AnyOption where
  | flag (flag : Flag)
  | value (option : ValueOption)
deriving DecidableEq

def AnyOption.isKnownAt (place : Place) : AnyOption → Bool
  | .value .format => place == some .tokens
  | .value .bufferSize => place == some .tokens
  | _ => true

def AnyOption.ofLong? : String → Option AnyOption
  | "verbose" => some (.flag .verbose)
  | "no-color" => some (.flag .noColor)
  | "help" => some (.flag .help)
  | "version" => some (.flag .version)
  | "config" => some (.value .config)
  | "format" => some (.value .format)
  | "buffer-size" => some (.value .bufferSize)
  | _ => none

def AnyOption.ofShort? : Char → Option AnyOption
  | 'v' => some (.flag .verbose)
  | 'h' => some (.flag .help)
  | 'V' => some (.flag .version)
  | 'c' => some (.value .config)
  | 'F' => some (.value .format)
  | 'b' => some (.value .bufferSize)
  | _ => none

/-- What is given on one side of the command name. -/
structure Given where
  verbose : Bool
  noColor : Bool
  config? : Option String
  format? : Option Format
  bufferSize? : Option Nat
  paths : List String
deriving DecidableEq

namespace Given

def nothing : Given :=
  ⟨false, false, none, none, none, []⟩

/-- A number of bytes below `2 ^ 64`. A plus sign and leading zeros are allowed. -/
def sizeOf? (text : String) : Option Nat :=
  let digits := match text.toList with
    | '+' :: rest => rest
    | cs => cs
  if digits.isEmpty || !digits.all Char.isDigit then none
  else if decimalValue digits < UInt64.size then some (decimalValue digits)
  else none

def raise (given : Given) (place : Place) : Flag → Except Halt Given
  | .verbose => if given.verbose then .error .usage else .ok { given with verbose := true }
  | .noColor => if given.noColor then .error .usage else .ok { given with noColor := true }
  | .help => .error .help
  | .version => .error (.version place.program)

/-- Takes over an option with its value. One that is there already is wrong. -/
def assign (given : Given) (value : String) : ValueOption → Except Halt Given
  | .config =>
    if given.config?.isSome || value = "" then .error .usage
    else .ok { given with config? := some value }
  | .format =>
    match given.format?, Format.ofName? value with
    | none, some format => .ok { given with format? := some format }
    | _, _ => .error .usage
  | .bufferSize =>
    match given.bufferSize?, sizeOf? value with
    | none, some size => .ok { given with bufferSize? := some size }
    | _, _ => .error .usage

def addPath (given : Given) (path : String) : Except Halt Given :=
  if path = "" then .error .usage else .ok { given with paths := given.paths ++ [path] }

end Given

/-- What was given so far, and the option that waits for its value in the next argument. -/
abbrev Reading := Option ValueOption × Given

/-- Reads options of one letter each, written together. The rest after one with a value is its
value; an equals sign may stand before it. -/
def readCluster (place : Place) (given : Given) : List Char → Except Halt Reading
  | [] => .ok (none, given)
  | c :: rest =>
    match (AnyOption.ofShort? c).filter (·.isKnownAt place) with
    | none => .error .usage
    | some (.flag flag) => do readCluster place (← given.raise place flag) rest
    | some (.value option) =>
      match rest with
      | [] => .ok (some option, given)
      | '=' :: value => do return (none, ← given.assign (String.ofList value) option)
      | value => do return (none, ← given.assign (String.ofList value) option)

def readLong (place : Place) (given : Given) (text : List Char) : Except Halt Reading :=
  let name := String.ofList (text.takeWhile (· != '='))
  let attached := text.dropWhile (· != '=')
  match (AnyOption.ofLong? name).filter (·.isKnownAt place), attached with
  | some (.flag flag), [] => do return (none, ← given.raise place flag)
  | some (.value option), [] => .ok (some option, given)
  | some (.value option), _ :: value => do
    return (none, ← given.assign (String.ofList value) option)
  | _, _ => .error .usage

def isOptionText (argument : String) : Bool :=
  argument.toList.head? = some '-' && argument != "-"

def readOption (place : Place) (given : Given) (argument : String) : Except Halt Reading :=
  match argument.toList with
  | '-' :: '-' :: name => readLong place given name
  | _ :: letters => readCluster place given letters
  | [] => .error .usage

/-- Reads what follows a command: paths and options in any order, and only paths after two
hyphens. -/
def readArguments (command : CommandName) (waiting : Option ValueOption) (given : Given) :
    List String → Except Halt Given
  | [] => if waiting.isSome then .error .usage else .ok given
  | argument :: rest =>
    match waiting with
    | some option =>
      if isOptionText argument then .error .usage
      else do readArguments command none (← given.assign argument option) rest
    | none =>
      if argument = "--" then rest.foldlM Given.addPath given
      else if isOptionText argument then do
        let (waiting, given) ← readOption (some command) given argument
        readArguments command waiting given rest
      else do readArguments command none (← given.addPath argument) rest

structure Invocation where
  command : CommandName
  before : Given
  after : Given
deriving DecidableEq

def readCommandLine (waiting : Option ValueOption) (before : Given) :
    List String → Except Halt Invocation
  | [] => .error .usage
  | argument :: rest =>
    match waiting with
    | some option =>
      if isOptionText argument then .error .usage
      else do readCommandLine none (← before.assign argument option) rest
    | none =>
      if argument = "--" then .error .usage
      else if isOptionText argument then do
        let (waiting, before) ← readOption none before argument
        readCommandLine waiting before rest
      else
        match CommandName.ofWord? argument with
        | some command => do return ⟨command, before, ← readArguments command none .nothing rest⟩
        | none => .error (if argument = "help" then .help else .usage)

structure Surroundings where
  verbose? : Option String
  noColor? : Option String
  config? : Option String
  home? : Option String
  configDirectory? : Option String

/-- The directory for settings: the one that is named for it by its whole path, else a directory
in the home directory. -/
def configDirectoryOf (home? named? : Option String) : Option String :=
  match named?.filter (·.startsWith "/") with
  | some directory => some directory
  | none => home?.map (· ++ "/.config")

namespace Surroundings

def isFlagValue (value : String) : Bool :=
  value == "true" || value == "false"

/-- A variable counts on each side of the command name where its option is not given. -/
def suits (found? : Option String) (valid : String → Bool) (before after : Bool) : Bool :=
  (before && after) || found?.all valid

def suit (around : Surroundings) (invocation : Invocation) : Bool :=
  suits around.verbose? isFlagValue invocation.before.verbose invocation.after.verbose &&
  suits around.noColor? isFlagValue invocation.before.noColor invocation.after.noColor &&
  suits around.config? (· != "") invocation.before.config?.isSome invocation.after.config?.isSome

end Surroundings

namespace Invocation

def config? (invocation : Invocation) (around : Surroundings) : Option String :=
  invocation.after.config? <|> invocation.before.config? <|> around.config?

def settings (invocation : Invocation) (files : FileSystem) (around : Surroundings) :
    Except CommandError Settings :=
  match invocation.config? around with
  | some path => Settings.load files path
  | none => Settings.search files (Settings.searchPaths around.home? around.configDirectory?)

def run (invocation : Invocation) (files : FileSystem) (settings : Settings) : Completion :=
  let given := invocation.after
  match invocation.command with
  | .tokens =>
    completeListing files settings ⟨given.format?, given.bufferSize?⟩ given.paths (.empty none)
  | .check => completeCheck files settings given.paths (.empty none)

end Invocation

def invocationOf (around : Surroundings) (arguments : List String) : Except Halt Invocation := do
  let invocation ← readCommandLine none .nothing arguments
  if invocation.after.paths.isEmpty || !around.suit invocation then .error .usage
  else return invocation

structure ProgramRun where
  exit : UInt8
  output : ByteArray
  errors : String

def version : String :=
  "0.1.0"

def usageText : String :=
  "Usage: jackt [OPTIONS] <COMMAND>\n\n" ++
  "Commands:\n" ++
  "  tokens  Print the tokens of each file\n" ++
  "  check   Check that each file tokenizes\n\n" ++
  "Options:\n" ++
  "  -v, --verbose          Enable verbose output\n" ++
  "  -c, --config <CONFIG>  Path to configuration file\n" ++
  "      --no-color         Disable color output\n" ++
  "  -h, --help             Print help\n" ++
  "  -V, --version          Print version\n"

def haltRun : Halt → ProgramRun
  | .usage => ⟨2, .empty, usageText⟩
  | .help => ⟨0, usageText.toUTF8, ""⟩
  | .version program => ⟨0, (program ++ " " ++ version ++ "\n").toUTF8, ""⟩

/-- What a completion shows outside. The words of a panic are left out. -/
def programRunOf : Completion → ProgramRun
  | .panicked output reports => ⟨101, output.written, String.join reports⟩
  | .returned ⟨.ok (), output, reports⟩ => ⟨0, output.written, String.join reports⟩
  | .returned ⟨.error error, output, reports⟩ =>
    ⟨1, output.written, String.join reports ++ errorLine error⟩

def runProgram (files : FileSystem) (around : Surroundings) (arguments : List String) :
    ProgramRun :=
  match invocationOf around arguments with
  | .error halt => haltRun halt
  | .ok invocation =>
    match invocation.settings files around with
    | .error error => ⟨1, .empty, errorLine error⟩
    | .ok settings => programRunOf (invocation.run files settings)

end JackTokens
