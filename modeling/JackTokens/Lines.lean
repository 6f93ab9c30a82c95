namespace JackTokens

/-- A line without the one carriage return that may stand before its line feed. -/
def dropReturn (line : List Char) : List Char :=
  if line.getLast? = some '\r' then line.dropLast else line

/-- The lines of a text. A line feed ends a line and is no part of it, nor is a carriage return
directly before it. A last line without a line feed stays as it is, and is no line if empty. -/
def linesOf (cs : List Char) : List (List Char) :=
  match _h : cs.dropWhile (· != '\n') with
  | [] => if cs.isEmpty then [] else [cs]
  | _ :: rest => dropReturn (cs.takeWhile (· != '\n')) :: linesOf rest
termination_by cs.length
decreasing_by
  have total : (cs.takeWhile (· != '\n') ++ cs.dropWhile (· != '\n')).length = cs.length := by
    rw [List.takeWhile_append_dropWhile]
  rw [_h, List.length_append, List.length_cons] at total
  omega

/-- Line number `n` of a text, counted from 1. -/
def line? (text : String) (n : Nat) : Option String :=
  if n = 0 then none else (linesOf text.toList)[n - 1]?.map String.ofList

end JackTokens
