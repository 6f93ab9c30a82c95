import JackTokens.Gap
import JackTokens.Token

namespace JackTokens

/-- A token and the stretch of text that it was read from. -/
structure Lexeme where
  token : Token
  span : Span
deriving DecidableEq

namespace Cursor

def readWord (cursor : Cursor) (first : Char) : Except LexError Token × Cursor :=
  match cursor.readWhile isWordPart with
  | (.error cause, cursor) => (.error (.unreadable cause), cursor)
  | (.ok more, cursor) => (.ok (.ofWord (String.ofList (first :: more))), cursor)

/-- The string constant whose opening quote is the current character. It ends on its line. -/
def readString (cursor : Cursor) (start : Position) : Except LexError Token × Cursor :=
  match cursor.readWhile (fun c => c != '"' && c != '\n') with
  | (.error cause, cursor) => (.error (.unreadable cause), cursor)
  | (.ok content, cursor) =>
    match cursor.nextIf (· == '"') with
    | (.error cause, cursor) => (.error (.unreadable cause), cursor)
    | (.ok none, cursor) => (.error (.malformed start .unterminatedString), cursor)
    | (.ok (some _), cursor) => (.ok (.stringConstant (String.ofList content)), cursor)

/-- The integer constant that begins with `first`, the current character. It is below `2 ^ 32`. -/
def readInteger (cursor : Cursor) (first : Char) (start : Position) :
    Except LexError Token × Cursor :=
  match cursor.readWhile isDecimalDigit with
  | (.error cause, cursor) => (.error (.unreadable cause), cursor)
  | (.ok more, cursor) =>
    let value := decimalValue (first :: more)
    if value < UInt32.size then (.ok (.integerConstant value.toUInt32), cursor)
    else (.error (.malformed start (.outOfRange (String.ofList (first :: more)))), cursor)

def readSymbol (cursor : Cursor) (c : Char) (start : Position) : Except LexError Token × Cursor :=
  match Symbol.ofChar? c with
  | some symbol => (.ok (.symbol symbol), cursor)
  | none => (.error (.malformed start (.unrecognized c)), cursor)

def readToken (cursor : Cursor) (c : Char) : Except LexError Token × Cursor :=
  if isWordStart c then cursor.readWord c
  else if c = '"' then cursor.readString cursor.position
  else if isDecimalDigit c then cursor.readInteger c cursor.position
  else cursor.readSymbol c cursor.position

/-- Passes over the gap ahead and reads the token behind it, `none` at the end of the input. -/
def readLexeme (cursor : Cursor) : Except LexError (Option Lexeme) × Cursor :=
  match cursor.skipGap with
  | (.error error, cursor) => (.error error, cursor)
  | (.ok none, cursor) => (.ok none, cursor)
  | (.ok (some c), cursor) =>
    match cursor.readToken c with
    | (.error error, after) => (.error error, after)
    | (.ok token, after) =>
      (.ok (some ⟨token, .between cursor.position after.nextPosition⟩), after)

theorem readToken_remaining_le (cursor : Cursor) (c : Char) :
    (cursor.readToken c).2.remaining ≤ cursor.remaining := by
  unfold readToken
  split
  next =>
    have bound := cursor.readWhile_remaining_le isWordPart
    unfold readWord
    split
    next h => simpa [h] using bound
    next h => simpa [h] using bound
  split
  next =>
    have bound := cursor.readWhile_remaining_le (fun c => c != '"' && c != '\n')
    unfold readString
    split
    next h => simpa [h] using bound
    next content inside h =>
      rw [h] at bound
      have quote := inside.nextIf_remaining_le (· == '"')
      split
      next h2 =>
        rw [h2] at quote
        exact Nat.le_trans quote bound
      next h2 =>
        rw [h2] at quote
        exact Nat.le_trans quote bound
      next h2 =>
        rw [h2] at quote
        exact Nat.le_trans quote bound
  split
  next =>
    have bound := cursor.readWhile_remaining_le isDecimalDigit
    unfold readInteger
    split
    next h => simpa [h] using bound
    next h =>
      rw [h] at bound
      dsimp only
      split
      · exact bound
      · exact bound
  next =>
    unfold readSymbol
    split
    · exact Nat.le_refl _
    · exact Nat.le_refl _

theorem remaining_lt_of_readLexeme {cursor read : Cursor} {lexeme : Lexeme}
    (h : cursor.readLexeme = (.ok (some lexeme), read)) : read.remaining < cursor.remaining := by
  unfold readLexeme at h
  split at h
  next => simp at h
  next => simp at h
  next c found hs =>
    have bound := found.readToken_remaining_le c
    split at h
    next => simp at h
    next hr =>
      simp only [Prod.mk.injEq] at h
      obtain ⟨_, rfl⟩ := h
      rw [hr] at bound
      exact Nat.lt_of_le_of_lt bound (remaining_lt_of_skipGap hs)

end Cursor

end JackTokens
