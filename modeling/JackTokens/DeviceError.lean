namespace JackTokens

/-- What went wrong with a device: a reader, a file or an output. -/
inductive DeviceError.Kind where
  | interrupted
  | wouldBlock
  | timedOut
  | brokenPipe
  | unexpectedEof
  | invalidData
  | permissionDenied
  | notFound
  | connectionReset
  | isADirectory
  | notADirectory
  | other
deriving DecidableEq

/-- A failure that a device reports, in its own words. -/
structure DeviceError where
  kind : DeviceError.Kind
  message : String
deriving DecidableEq

namespace DeviceError

def noSuchFile : DeviceError :=
  ⟨.notFound, "No such file or directory (os error 2)"⟩

def noPermission : DeviceError :=
  ⟨.permissionDenied, "Permission denied (os error 13)"⟩

def notDirectory : DeviceError :=
  ⟨.notADirectory, "Not a directory (os error 20)"⟩

def directory : DeviceError :=
  ⟨.isADirectory, "Is a directory (os error 21)"⟩

def notText : DeviceError :=
  ⟨.invalidData, "stream did not contain valid UTF-8"⟩

def diskFull : DeviceError :=
  ⟨.other, "disk full"⟩

end DeviceError

end JackTokens
