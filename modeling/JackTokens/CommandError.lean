import JackTokens.LexError

namespace JackTokens

/-- Why a command, or its work on one file, fails. -/
inductive CommandError where
  | settings (message : String)
  | unopened (path : String) (cause : DeviceError)
  | stopped (path : String) (cause : LexError)
  /-- So many files failed, each with a report of its own. -/
  | failedFiles (count : Nat)
  | device (cause : DeviceError)
  /-- Writing fails within a JSON array. -/
  | json (cause : DeviceError)
deriving DecidableEq

namespace CommandError

def message : CommandError → String
  | settings message => "Configuration error: " ++ message
  | unopened path cause => "Cannot read " ++ path ++ ": " ++ cause.message
  | stopped path cause => path ++ ": " ++ cause.message
  | failedFiles count => decimal count ++ " file(s) failed to tokenize"
  | device cause => "IO error: " ++ cause.message
  | json cause => "JSON error: " ++ cause.message

/-- The messages of the causes, each the cause of the one before it. -/
def causes : CommandError → List String
  | unopened _ cause => [cause.message]
  | stopped _ (.unreadable cause) => [(LexError.unreadable cause).message, cause.message]
  | stopped _ cause => [cause.message]
  | device cause => [cause.message]
  | _ => []

end CommandError

end JackTokens
