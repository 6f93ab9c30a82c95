import JackTokens.Tokenizer

namespace JackTokens

inductive Request where
  | advance
  | peek
  | next
deriving DecidableEq

/-- The answer to a request. An item is what `next` gives; it has no end of input of its own. -/
inductive Reply where
  | token (result : Except LexError (Option Token))
  | item (result : Option (Except LexError Token))

/-- What a user sees of a tokenizer between two requests. -/
structure Sight where
  token : Option Token
  span : Option Span
  exhausted : Bool
  failed : Bool
  position : Position
deriving DecidableEq

namespace Tokenizer

def sight (t : Tokenizer) : Sight :=
  ⟨t.currentToken, t.tokenSpan, t.isExhausted, t.hasFailed, t.position⟩

def serve (t : Tokenizer) : Request → Reply × Tokenizer
  | .advance => match t.advance with
    | (result, t) => (.token result, t)
  | .peek => match t.peek with
    | (result, t) => (.token result, t)
  | .next => match t.next with
    | (result, t) => (.item result, t)

/-- Each answer to a sequence of requests, with what is seen after it. -/
def session (t : Tokenizer) : List Request → List (Reply × Sight)
  | [] => []
  | request :: requests =>
    match t.serve request with
    | (reply, t) => (reply, t.sight) :: t.session requests

def serveAll (t : Tokenizer) (requests : List Request) : Tokenizer :=
  requests.foldl (fun t request => (t.serve request).2) t

end Tokenizer

end JackTokens
