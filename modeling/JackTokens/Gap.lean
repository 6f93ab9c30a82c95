import JackTokens.CharacterClass
import JackTokens.Cursor
import JackTokens.LexError

namespace JackTokens

namespace Cursor

/-- Reads to the end of a block comment, which is the next asterisk followed by a slash. The comment
was opened at `opening`. -/
def skipBlock (cursor : Cursor) (opening : Position) : Except LexError Unit × Cursor :=
  match _h : cursor.next with
  | (.error cause, cursor) => (.error (.unreadable cause), cursor)
  | (.ok none, cursor) => (.error (.malformed opening .unterminatedComment), cursor)
  | (.ok (some c), inside) =>
    if c = '*' then
      match _h2 : inside.nextIf (· == '/') with
      | (.error cause, cursor) => (.error (.unreadable cause), cursor)
      | (.ok (some _), cursor) => (.ok (), cursor)
      | (.ok none, cursor) => skipBlock cursor opening
    else skipBlock inside opening
termination_by cursor.remaining
decreasing_by
  · have first := remaining_lt_of_next _h
    have second := inside.nextIf_remaining_le (· == '/')
    rw [_h2] at second
    exact Nat.lt_of_le_of_lt second first
  · exact remaining_lt_of_next _h

/-- Reads the rest of a line comment, up to the line feed. -/
def skipLine (cursor : Cursor) : Except LexError Unit × Cursor :=
  match cursor.readWhile (· != '\n') with
  | (.error cause, cursor) => (.error (.unreadable cause), cursor)
  | (.ok _, cursor) => (.ok (), cursor)

/-- Reads the rest of a comment after the slash at `opening`; `false` if the slash opens none. -/
def skipComment (cursor : Cursor) (opening : Position) : Except LexError Bool × Cursor :=
  match cursor.nextIf (· == '/') with
  | (.error cause, cursor) => (.error (.unreadable cause), cursor)
  | (.ok (some _), cursor) =>
    match cursor.skipLine with
    | (.error error, cursor) => (.error error, cursor)
    | (.ok (), cursor) => (.ok true, cursor)
  | (.ok none, cursor) =>
    match cursor.nextIf (· == '*') with
    | (.error cause, cursor) => (.error (.unreadable cause), cursor)
    | (.ok none, cursor) => (.ok false, cursor)
    | (.ok (some _), cursor) =>
      match cursor.skipBlock opening with
      | (.error error, cursor) => (.error error, cursor)
      | (.ok (), cursor) => (.ok true, cursor)

theorem skipBlock_remaining_le (cursor : Cursor) (opening : Position) :
    (cursor.skipBlock opening).2.remaining ≤ cursor.remaining := by
  fun_induction skipBlock cursor opening with
  | case1 cursor _ _ h => simpa [h] using cursor.next_remaining_le
  | case2 cursor _ h => simpa [h] using cursor.next_remaining_le
  | case3 cursor inside cause after h2 h =>
    have first := remaining_lt_of_next h
    have second := inside.nextIf_remaining_le (· == '/')
    rw [h2] at second
    exact Nat.le_trans second (Nat.le_of_lt first)
  | case4 cursor inside c after h2 h =>
    have first := remaining_lt_of_next h
    have second := inside.nextIf_remaining_le (· == '/')
    rw [h2] at second
    exact Nat.le_trans second (Nat.le_of_lt first)
  | case5 cursor inside after h2 h ih =>
    have first := remaining_lt_of_next h
    have second := inside.nextIf_remaining_le (· == '/')
    rw [h2] at second
    exact Nat.le_trans ih (Nat.le_trans second (Nat.le_of_lt first))
  | case6 cursor c inside h _ ih => exact Nat.le_trans ih (Nat.le_of_lt (remaining_lt_of_next h))

theorem skipLine_remaining_le (cursor : Cursor) :
    cursor.skipLine.2.remaining ≤ cursor.remaining := by
  have bound := cursor.readWhile_remaining_le (· != '\n')
  unfold skipLine
  split
  next h => simpa [h] using bound
  next h => simpa [h] using bound

theorem skipComment_remaining_le (cursor : Cursor) (opening : Position) :
    (cursor.skipComment opening).2.remaining ≤ cursor.remaining := by
  have slash := cursor.nextIf_remaining_le (· == '/')
  unfold skipComment
  split
  next h => simpa [h] using slash
  next after h =>
    rw [h] at slash
    have line := after.skipLine_remaining_le
    split
    next h2 =>
      rw [h2] at line
      exact Nat.le_trans line slash
    next h2 =>
      rw [h2] at line
      exact Nat.le_trans line slash
  next after h =>
    rw [h] at slash
    have star := after.nextIf_remaining_le (· == '*')
    split
    next h2 =>
      rw [h2] at star
      exact Nat.le_trans star slash
    next h2 =>
      rw [h2] at star
      exact Nat.le_trans star slash
    next opened h2 =>
      rw [h2] at star
      have block := opened.skipBlock_remaining_le opening
      split
      next h3 =>
        rw [h3] at block
        exact Nat.le_trans block (Nat.le_trans star slash)
      next h3 =>
        rw [h3] at block
        exact Nat.le_trans block (Nat.le_trans star slash)

/-- Reads blanks and comments, and the character after them: the first of a token, `none` at the
end of the input. -/
def skipGap (cursor : Cursor) : Except LexError (Option Char) × Cursor :=
  match _h : cursor.next with
  | (.error cause, cursor) => (.error (.unreadable cause), cursor)
  | (.ok none, cursor) => (.ok none, cursor)
  | (.ok (some c), after) =>
    if isBlank c then skipGap after
    else if c = '/' then
      match _h2 : after.skipComment after.position with
      | (.error error, cursor) => (.error error, cursor)
      | (.ok false, cursor) => (.ok (some c), cursor)
      | (.ok true, cursor) => skipGap cursor
    else (.ok (some c), after)
termination_by cursor.remaining
decreasing_by
  · exact remaining_lt_of_next _h
  · have first := remaining_lt_of_next _h
    have second := after.skipComment_remaining_le after.position
    rw [_h2] at second
    exact Nat.lt_of_le_of_lt second first

theorem remaining_lt_of_skipGap {cursor read : Cursor} {c : Char}
    (h : cursor.skipGap = (.ok (some c), read)) : read.remaining < cursor.remaining := by
  fun_induction skipGap cursor with
  | case1 => simp at h
  | case2 => simp at h
  | case3 cursor d after hn _ ih => exact Nat.lt_trans (ih h) (remaining_lt_of_next hn)
  | case4 => simp at h
  | case5 cursor after skipped hs hn _ =>
    have first := remaining_lt_of_next hn
    have second := after.skipComment_remaining_le after.position
    rw [hs] at second
    simp only [Prod.mk.injEq] at h
    obtain ⟨_, rfl⟩ := h
    exact Nat.lt_of_le_of_lt second first
  | case6 cursor after skipped hs hn _ ih =>
    have first := remaining_lt_of_next hn
    have second := after.skipComment_remaining_le after.position
    rw [hs] at second
    exact Nat.lt_trans (ih h) (Nat.lt_of_le_of_lt second first)
  | case7 cursor d after hn =>
    simp only [Prod.mk.injEq] at h
    obtain ⟨_, rfl⟩ := h
    exact remaining_lt_of_next hn

end Cursor

end JackTokens
