import JackTokens.CommandLine

namespace JackTokens

/-- A failure of the system in the words of messages. -/
def deviceErrorOf : IO.Error → DeviceError
  | .noFileOrDirectory _ _ _ => .noSuchFile
  | .permissionDenied _ _ _ => .noPermission
  | .inappropriateType _ code _ => if code = 21 || code = 0 - 21 then .directory else .notDirectory
  | error => ⟨.other, error.toString⟩

/-- What opening the file at `path` gives. A directory can be opened, but not read. -/
def openPath (path : String) : IO (Except DeviceError Reader) := do
  try
    let bytes ← IO.FS.readBinFile path
    return .ok (.ofBytes bytes.toList)
  catch error =>
    let cause := deviceErrorOf error
    if cause.kind = .isADirectory then return .ok (.ofSteps [.fail cause])
    else return .error cause

/-- A failure that shows that there is nothing at the path. -/
def isAbsence (cause : DeviceError) : Bool :=
  cause.kind = .notFound || cause.kind = .notADirectory

/-- The files that were opened, by path. -/
def filesOf (opened : List (String × Except DeviceError Reader)) : FileSystem where
  present path :=
    match opened.lookup path with
    | some (.ok _) => true
    | some (.error cause) => !isAbsence cause
    | none => false
  openFile path := (opened.lookup path).getD (.error .noSuchFile)

/-- The paths that a run may read. -/
def neededPaths (around : Surroundings) (arguments : List String) : List String :=
  match invocationOf around arguments with
  | .error _ => []
  | .ok invocation =>
    let settings := match invocation.config? around with
      | some path => [path]
      | none => Settings.searchPaths around.home? around.configDirectory?
    settings ++ invocation.after.paths

def surroundings : IO Surroundings := do
  let home? ← IO.getEnv "HOME"
  let xdg? ← IO.getEnv "XDG_CONFIG_HOME"
  return {
    verbose? := ← IO.getEnv "JACKT_VERBOSE"
    noColor? := ← IO.getEnv "JACKT_NO_COLOR"
    config? := ← IO.getEnv "JACKT_CONFIG"
    home?
    configDirectory? := configDirectoryOf home? xdg? }

end JackTokens

open JackTokens in
def main (arguments : List String) : IO UInt32 := do
  let around ← surroundings
  let paths := neededPaths around arguments
  let opened ← paths.mapM fun path => return (path, ← openPath path)
  let run := runProgram (filesOf opened) around arguments
  let output ← IO.getStdout
  output.write run.output
  output.flush
  IO.eprint run.errors
  return run.exit.toUInt32
