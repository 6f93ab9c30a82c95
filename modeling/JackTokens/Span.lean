import JackTokens.Position

namespace JackTokens

/-- A stretch of text: where it begins, and its length in bytes. -/
structure Span where
  start : Position
  length : Nat
deriving DecidableEq

namespace Span

def point (p : Position) : Span :=
  ⟨p, 0⟩

/-- The stretch from `first` up to `last`, empty if `last` comes first. -/
def between (first last : Position) : Span :=
  ⟨first, last.offset - first.offset⟩

/-- The offset just past the stretch. -/
def stop (s : Span) : Nat :=
  s.start.offset + s.length

def isEmpty (s : Span) : Bool :=
  s.length == 0

def text (s : Span) : String :=
  s.start.text

end Span

end JackTokens
