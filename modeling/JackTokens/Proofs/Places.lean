import JackTokens.Position
import JackTokens.Proofs.Encoding
import Mathlib.Data.List.Induction
import Mathlib.Data.List.TakeWhile

namespace JackTokens

/-- The number of the line that a text leads to, without a bound. -/
def lineBehind (text : List Char) : Nat :=
  text.count '\n' + 1

/-- The column that a text leads to, without a bound. -/
def columnBehind (text : List Char) : Nat :=
  (text.reverse.takeWhile (· != '\n')).length + 1

theorem columnBehind_single {line : List Char} (h : '\n' ∉ line) :
    columnBehind line = line.length + 1 := by
  have whole : line.reverse.takeWhile (· != '\n') = line.reverse := by
    refine List.takeWhile_eq_self_iff.mpr fun c hc => bne_iff_ne.mpr ?_
    rintro rfl
    exact h (List.mem_reverse.mp hc)
  rw [columnBehind, whole, List.length_reverse]

theorem lineFeed_not_mem_spaces (n : Nat) : '\n' ∉ List.replicate n ' ' :=
  fun feed => absurd (List.eq_of_mem_replicate feed) (by decide)

/-- With as many characters on a line as 32 bits can number, the column behind them is one more. -/
theorem columnBehind_spaces :
    columnBehind (List.replicate (UInt32.size - 1) ' ') = UInt32.size := by
  rw [columnBehind_single (lineFeed_not_mem_spaces _), List.length_replicate]
  rfl

namespace Position

/-- `p` is the place behind `text`, up to multiples of `2 ^ 32` in its line and its column: each is
right as long as 32 bits hold it. -/
structure IsBehind (p : Position) (text : List Char) : Prop where
  offset : p.offset = (encode text).length
  line : p.line.toNat = lineBehind text % UInt32.size
  column : p.column.toNat = columnBehind text % UInt32.size

theorem offset_after (p : Position) (cs : List Char) :
    (p.after cs).offset = p.offset + (encode cs).length := by
  induction cs generalizing p with
  | nil => rfl
  | cons c cs ih =>
    have rest := ih (p.advance c)
    rw [offset_advance] at rest
    rw [encode_cons, List.length_append, String.length_utf8EncodeChar, ← Nat.add_assoc]
    exact rest

theorem line_after (p : Position) (cs : List Char) :
    (p.after cs).line = p.line + .ofNat (cs.count '\n') := by
  induction cs generalizing p with
  | nil => exact (UInt32.add_zero _).symm
  | cons c cs ih =>
    show ((p.advance c).after cs).line = _
    rw [ih]
    by_cases feed : c = '\n'
    · subst feed
      rw [List.count_cons_self, UInt32.ofNat_add, UInt32.add_comm (.ofNat _), ← UInt32.add_assoc]
      rfl
    · have stays : (p.advance c).line = p.line := by rw [advance, if_neg feed]
      rw [List.count_cons_of_ne feed, stays]

theorem column_advance (p : Position) (text : List Char) (c : Char)
    (h : p.column.toNat = columnBehind text % UInt32.size) :
    (p.advance c).column.toNat = columnBehind (text ++ [c]) % UInt32.size := by
  unfold advance columnBehind
  rw [List.reverse_append]
  by_cases feed : c = '\n'
  · subst feed
    rfl
  · have further : [c].reverse ++ text.reverse = c :: text.reverse := rfl
    rw [further, List.takeWhile_cons_of_pos (by simpa using feed), List.length_cons, if_neg feed]
    dsimp only
    rw [UInt32.toNat_add, h, columnBehind]
    exact Nat.mod_add_mod _ _ _

theorem isBehind_after (text : List Char) : (start.after text).IsBehind text where
  offset := by
    rw [offset_after]
    exact Nat.zero_add _
  line := by
    have sum := line_after start text
    rw [sum, UInt32.toNat_add, UInt32.toNat_ofNat', lineBehind, Nat.add_comm (text.count '\n')]
    exact Nat.add_mod_mod _ _ _
  column := by
    induction text using List.reverseRecOn with
    | nil => rfl
    | append_singleton text c ih =>
      rw [after_append]
      exact column_advance _ text c ih

theorem IsBehind.column_eq_zero {p : Position} {text : List Char} (h : p.IsBehind text)
    (full : columnBehind text = UInt32.size) : p.column = 0 := by
  have column := h.column
  rw [full, Nat.mod_self] at column
  exact UInt32.toNat_inj.mp column

end Position

end JackTokens
