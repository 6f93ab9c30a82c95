import JackTokens.Cursor

namespace JackTokens

inductive CursorRequest where
  | next
  | peek
  | nextIf (expected : Char)
deriving DecidableEq

/-- The answer to a request: a character, or whether the expected one was met. -/
inductive CursorReply where
  | char (result : Except ReadError (Option Char))
  | met (result : Except ReadError Bool)

namespace CursorReply

def error? : CursorReply → Option ReadError
  | char (.error cause) => some cause
  | met (.error cause) => some cause
  | _ => none

/-- The failure of the device that the reply reports. -/
def device? (reply : CursorReply) : Option DeviceError :=
  match reply.error? with
  | some (.device error) => some error
  | _ => none

/-- The reply leaves the user where it was: with an error, a look, or another character ahead than
the expected one. -/
def isIdle (request : CursorRequest) (reply : CursorReply) : Bool :=
  match request, reply with
  | .peek, _ => true
  | _, met (.ok false) => true
  | _, reply => reply.error?.isSome

/-- The character that the user is given for good. -/
def consumed (request : CursorRequest) (reply : CursorReply) : List Char :=
  match request, reply with
  | .next, char (.ok c) => c.toList
  | .nextIf expected, met (.ok true) => [expected]
  | _, _ => []

end CursorReply

namespace Cursor

def serve (cursor : Cursor) : CursorRequest → CursorReply × Cursor
  | .next => match cursor.next with
    | (result, cursor) => (.char result, cursor)
  | .peek => match cursor.peek with
    | (result, cursor) => (.char result, cursor)
  | .nextIf expected => match cursor.nextIf (· == expected) with
    | (result, cursor) => (.met (result.map Option.isSome), cursor)

/-- Each request of a sequence with the answer to it. -/
def session (cursor : Cursor) : List CursorRequest → List (CursorRequest × CursorReply)
  | [] => []
  | request :: requests =>
    match cursor.serve request with
    | (reply, cursor) => (request, reply) :: cursor.session requests

def serveAll (cursor : Cursor) (requests : List CursorRequest) : Cursor :=
  requests.foldl (fun cursor request => (cursor.serve request).2) cursor

end Cursor

end JackTokens
