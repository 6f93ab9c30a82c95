import JackTokens.CommandError
import JackTokens.Listing

namespace JackTokens

/-- An output that takes `capacity?` bytes and then fails; one without a capacity takes all. -/
structure Sink where
  capacity? : Option Nat
  written : ByteArray

namespace Sink

def empty (capacity? : Option Nat) : Sink :=
  ⟨capacity?, .empty⟩

/-- The bytes that still find room. -/
def fit (sink : Sink) (bytes : ByteArray) : ByteArray :=
  match sink.capacity? with
  | none => bytes
  | some capacity => bytes.extract 0 (capacity - sink.written.size)

/-- Writes `text` as far as there is room for it, and fails if there is not room for all. -/
def write (sink : Sink) (text : String) : Except DeviceError Unit × Sink :=
  let taken := sink.fit text.toUTF8
  (if taken.size < text.utf8ByteSize then .error .diskFull else .ok (),
    { sink with written := sink.written ++ taken })

def writeAll (sink : Sink) : List String → Except DeviceError Unit × Sink
  | [] => (.ok (), sink)
  | piece :: pieces =>
    match sink.write piece with
    | (.error cause, sink) => (.error cause, sink)
    | (.ok (), sink) => sink.writeAll pieces

/-- Writes a JSON array and a line feed. A failure within the array is one of JSON. -/
def writeJson (sink : Sink) (tokens : List Token) : Except CommandError Unit × Sink :=
  match sink.write (jsonArray (tokens.map Token.jsonEntry)) with
  | (.error cause, sink) => (.error (.json cause), sink)
  | (.ok (), sink) =>
    match sink.write "\n" with
    | (.error cause, sink) => (.error (.device cause), sink)
    | (.ok (), sink) => (.ok (), sink)

def writeListing (sink : Sink) (format : Format) (tokens : List Token) :
    Except CommandError Unit × Sink :=
  match format with
  | .json => sink.writeJson tokens
  | format =>
    match sink.writeAll (listingPieces format tokens) with
    | (.error cause, sink) => (.error (.device cause), sink)
    | (.ok (), sink) => (.ok (), sink)

end Sink

end JackTokens
