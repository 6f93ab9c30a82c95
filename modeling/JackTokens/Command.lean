import JackTokens.Settings
import JackTokens.Sink
import JackTokens.Tokenizer

namespace JackTokens

def tokenizeFile (files : FileSystem) (capacity : Nat) (path : String) :
    Except CommandError (List Token) :=
  match files.openFile path with
  | .error cause => .error (.unopened path cause)
  | .ok reader =>
    let drained := (Tokenizer.ofReader reader capacity).drain
    match drained.error? with
    | some cause => .error (.stopped path cause)
    | none => .ok drained.tokens

/-- The report of an error in the file at `path`, with the line of the file if it can be read. -/
def stoppedReport (files : FileSystem) (path : String) (cause : LexError) : String :=
  { cause.diagnostic with origin? := some path }.render (files.readText path).toOption

def errorLine (error : CommandError) : String :=
  "error: " ++ error.message ++ "\n"

/-- What a user is told about an error in a file. -/
def errorReport (files : FileSystem) : CommandError → String
  | .stopped path cause => stoppedReport files path cause ++ "\n"
  | error => errorLine error

structure CommandRun where
  result : Except CommandError Unit
  output : Sink
  /-- What was reported on the way, in order. -/
  reports : List String

/-- Tokenizes files in order. `emit` writes what there is to say of a file without errors; an error
is reported and counted. A failed write ends the run at once. -/
def runFiles (files : FileSystem) (capacity : Nat)
    (emit : Sink → String → List Token → Except CommandError Unit × Sink) :
    List String → Nat → Sink → CommandRun
  | [], failed, output =>
    ⟨if failed = 0 then .ok () else .error (.failedFiles failed), output, []⟩
  | path :: paths, failed, output =>
    match tokenizeFile files capacity path with
    | .error error =>
      let run := runFiles files capacity emit paths (failed + 1) output
      { run with reports := errorReport files error :: run.reports }
    | .ok tokens =>
      match emit output path tokens with
      | (.error error, output) => ⟨.error error, output, []⟩
      | (.ok (), output) => runFiles files capacity emit paths failed output

/-- What becomes of a run over files: it returns, or it panics, with this much written and reported
before. -/
inductive Completion where
  | returned (run : CommandRun)
  | panicked (output : Sink) (reports : List String)

/-- The file opens, and the buffer to read it with cannot be allocated. -/
def panicsAt (files : FileSystem) (capacity : Nat) (path : String) : Bool :=
  match files.openFile path with
  | .error _ => false
  | .ok reader => (ReadBuffer.make? reader capacity).isNone

/-- Runs over the paths up to the first that panics. All buffers of a run have one size, so none of
the files before that one opens, and nothing has been written. -/
def complete (files : FileSystem) (capacity : Nat) (run : List String → CommandRun)
    (paths : List String) : Completion :=
  match paths.span fun path => !panicsAt files capacity path with
  | (paths, []) => .returned (run paths)
  | (paths, _ :: _) => .panicked (run paths).output (run paths).reports

/-- What may be asked of the listing command, beside the settings. -/
structure ListingOptions where
  format? : Option Format
  bufferSize? : Option Nat
deriving DecidableEq

namespace ListingOptions

def format (options : ListingOptions) (settings : Settings) : Format :=
  options.format?.getD settings.format

def capacity (options : ListingOptions) (settings : Settings) : Nat :=
  options.bufferSize?.getD settings.bufferCapacity

end ListingOptions

def runListing (files : FileSystem) (settings : Settings) (options : ListingOptions)
    (paths : List String) (output : Sink) : CommandRun :=
  runFiles files (options.capacity settings)
    (fun output _ tokens => output.writeListing (options.format settings) tokens) paths 0 output

/-- The listing command as a whole. -/
def completeListing (files : FileSystem) (settings : Settings) (options : ListingOptions)
    (paths : List String) (output : Sink) : Completion :=
  complete files (options.capacity settings)
    (fun paths => runListing files settings options paths output) paths

/-- A line with the path and the number of tokens. -/
def checkLine (path : String) (tokens : List Token) : String :=
  path ++ ": " ++ decimal tokens.length ++ " tokens\n"

def emitCheck (output : Sink) (path : String) (tokens : List Token) :
    Except CommandError Unit × Sink :=
  match output.write (checkLine path tokens) with
  | (.error cause, output) => (.error (.device cause), output)
  | (.ok (), output) => (.ok (), output)

def runCheck (files : FileSystem) (settings : Settings) (paths : List String) (output : Sink) :
    CommandRun :=
  runFiles files settings.bufferCapacity emitCheck paths 0 output

/-- The checking command as a whole. -/
def completeCheck (files : FileSystem) (settings : Settings) (paths : List String)
    (output : Sink) : Completion :=
  complete files settings.bufferCapacity (fun paths => runCheck files settings paths output) paths

end JackTokens
