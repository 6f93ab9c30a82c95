namespace JackTokens

/-- Reads a value from the front of a text and gives it with the rest, or fails. -/
abbrev TextParser (α : Type) := StateT (List Char) Option α

namespace TextParser

def ahead : TextParser (Option Char) := fun cs =>
  some (cs.head?, cs)

def one (p : Char → Bool) : TextParser Char
  | c :: cs => if p c then some (c, cs) else none
  | [] => none

def exactly : List Char → TextParser Unit
  | [] => pure ()
  | c :: cs => do
    let _ ← one (· == c)
    exactly cs

/-- As many characters as there are of which `p` holds. -/
def allOf (p : Char → Bool) : TextParser (List Char) := fun cs =>
  some (cs.takeWhile p, cs.dropWhile p)

def someOf (p : Char → Bool) : TextParser (List Char) := do
  let first ← one p
  let more ← allOf p
  return first :: more

def exactlyOf (p : Char → Bool) : Nat → TextParser (List Char)
  | 0 => pure []
  | n + 1 => do
    let first ← one p
    let more ← exactlyOf p n
    return first :: more

/-- What `parser` reads, `limit` times at most. -/
def manyUpTo {α : Type} (parser : TextParser α) : Nat → TextParser (List α)
  | 0 => pure []
  | limit + 1 =>
    (do
      let first ← parser
      let more ← manyUpTo parser limit
      return first :: more) <|> pure []

/-- What `parser` reads, as often as it does. It reads a character each time, so there are no more
times than characters. -/
def many {α : Type} (parser : TextParser α) : TextParser (List α) := fun cs =>
  manyUpTo parser cs.length cs

/-- One or more of what `parser` reads, with `separator` between. -/
def separated {α β : Type} (parser : TextParser α) (separator : TextParser β) :
    TextParser (List α) := do
  let first ← parser
  let more ← many (do
    let _ ← separator
    parser)
  return first :: more

def finish : TextParser Unit
  | [] => some ((), [])
  | _ => none

end TextParser

end JackTokens
