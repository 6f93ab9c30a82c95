import JackTokens.Decimal

namespace JackTokens

/-- A place in a text: the bytes before it, its line, and its column in characters.
Lines and columns count from 1, in 32 bits: 0 comes after the largest number. -/
structure Position where
  offset : Nat
  line : UInt32
  column : UInt32
deriving DecidableEq

namespace Position

def start : Position :=
  ⟨0, 1, 1⟩

/-- The place after `c`: a line feed ends its line. -/
def advance (p : Position) (c : Char) : Position :=
  if c = '\n' then ⟨p.offset + c.utf8Size, p.line + 1, 1⟩
  else ⟨p.offset + c.utf8Size, p.line, p.column + 1⟩

/-- The place after all of `cs`. -/
def after (p : Position) (cs : List Char) : Position :=
  cs.foldl advance p

def text (p : Position) : String :=
  decimal p.line.toNat ++ ":" ++ decimal p.column.toNat

theorem after_append (p : Position) (cs ds : List Char) :
    p.after (cs ++ ds) = (p.after cs).after ds :=
  List.foldl_append

@[simp] theorem offset_advance (p : Position) (c : Char) :
    (p.advance c).offset = p.offset + c.utf8Size := by
  unfold advance
  split <;> rfl

end Position

end JackTokens
