import JackTokens.Span
import JackTokens.Lines

namespace JackTokens

/-- How grave a diagnostic is. -/
inductive Level where
  | error
  | warning
  | note
deriving DecidableEq

def Level.text : Level → String
  | .error => "error"
  | .warning => "warning"
  | .note => "note"

/-- A report to the user, with the stretch of source that it is about if there is one. -/
structure Diagnostic where
  level : Level
  message : String
  span? : Option Span
  /-- The name of the source, shown with the place. -/
  origin? : Option String
  notes : List String
deriving DecidableEq

namespace Diagnostic

def error (message : String) : Diagnostic :=
  ⟨.error, message, none, none, []⟩

def isError (d : Diagnostic) : Bool :=
  d.level = .error

def spaces (n : Nat) : String :=
  String.ofList (List.replicate n ' ')

/-- The line of `source` that holds `p`, with its number in a gutter, and a caret under the
character at `p`. -/
def excerpt (source : String) (p : Position) : String :=
  match line? source p.line.toNat with
  | none => ""
  | some shown =>
    let number := decimal p.line.toNat
    let gutter := spaces number.length
    "\n" ++ gutter ++ " |" ++
    "\n" ++ number ++ " | " ++ shown ++
    "\n" ++ gutter ++ " | " ++ spaces (p.column.toNat - 1) ++ "^"

/-- Where the diagnostic points, and the source line there if the source is known. -/
def location (d : Diagnostic) (source? : Option String) : String :=
  match d.span? with
  | none => ""
  | some span =>
    "\n --> " ++ d.origin?.getD "<input>" ++ ":" ++ span.text ++
    match source? with
    | none => ""
    | some source => excerpt source span.start

def noteLines (d : Diagnostic) : String :=
  String.join (d.notes.map fun note => "\n  = note: " ++ note)

/-- The whole report: level and message, place, source line and notes. -/
def render (d : Diagnostic) (source? : Option String) : String :=
  d.level.text ++ ": " ++ d.message ++ d.location source? ++ d.noteLines

end Diagnostic

end JackTokens
