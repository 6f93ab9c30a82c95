import JackTokens.ReadBuffer

namespace JackTokens

inductive BufferRequest where
  | next
  | peek
deriving DecidableEq

namespace ReadBuffer

def serve (buffer : ReadBuffer) : BufferRequest → Except ReadError (Option Char) × ReadBuffer
  | .next => buffer.next
  | .peek => buffer.peek

/-- The answers to a sequence of requests. -/
def session (buffer : ReadBuffer) : List BufferRequest → List (Except ReadError (Option Char))
  | [] => []
  | request :: requests =>
    match buffer.serve request with
    | (reply, buffer) => reply :: buffer.session requests

def serveAll (buffer : ReadBuffer) (requests : List BufferRequest) : ReadBuffer :=
  requests.foldl (fun buffer request => (buffer.serve request).2) buffer

end ReadBuffer

end JackTokens
