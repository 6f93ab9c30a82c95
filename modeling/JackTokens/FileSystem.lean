import JackTokens.Reader

namespace JackTokens

structure FileSystem where
  /-- Something stands at the path. -/
  present : String → Bool
  /-- Opens what stands at the path for reading. -/
  openFile : String → Except DeviceError Reader

namespace FileSystem

/-- The bytes of all steps up to the end of the input. Interrupted calls do not count. -/
def gather : List ReadStep → Except DeviceError (List UInt8)
  | [] => .ok []
  | .data [] :: _ => .ok []
  | .data bytes :: steps =>
    match gather steps with
    | .error error => .error error
    | .ok more => .ok (bytes ++ more)
  | .fail error :: steps => if error.kind = .interrupted then gather steps else .error error

def readText (files : FileSystem) (path : String) : Except DeviceError String :=
  match files.openFile path with
  | .error error => .error error
  | .ok reader =>
    match gather reader.steps with
    | .error error => .error error
    | .ok bytes =>
      match String.fromUTF8? bytes.toByteArray with
      | none => .error .notText
      | some text => .ok text

end FileSystem

end JackTokens
