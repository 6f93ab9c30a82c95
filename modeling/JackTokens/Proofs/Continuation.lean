import JackTokens.Lexeme

namespace JackTokens

section

variable {ε ζ α β : Type}

/-- Goes on from what a step gave; its failure, in the words of `wrap`, ends the whole. -/
def andThen (x : Except ε α × Cursor) (wrap : ε → ζ) (k : α → Cursor → Except ζ β × Cursor) :
    Except ζ β × Cursor :=
  match x with
  | (.error error, cursor) => (.error (wrap error), cursor)
  | (.ok a, cursor) => k a cursor

theorem andThen_remaining_le {x : Except ε α × Cursor} {n : Nat} (wrap : ε → ζ)
    {k : α → Cursor → Except ζ β × Cursor} (h : x.2.remaining ≤ n)
    (later : ∀ a cursor, (k a cursor).2.remaining ≤ cursor.remaining) :
    (andThen x wrap k).2.remaining ≤ n := by
  rcases x with ⟨_ | a, cursor⟩
  · exact h
  · exact Nat.le_trans (later a cursor) h

end

namespace Cursor

theorem nextIf_eq (cursor : Cursor) (p : Char → Bool) :
    cursor.nextIf p = andThen cursor.peek id fun c? ahead =>
      match c? with
      | none => (.ok none, ahead)
      | some c => if p c then ahead.next else (.ok none, ahead) := by
  unfold nextIf
  rcases cursor.peek with ⟨_ | _ | _, _⟩
  · rfl
  · rfl
  · rfl

theorem readMore_eq (cursor : Cursor) (p : Char → Bool) (read : List Char) :
    cursor.readMore p read = andThen (cursor.nextIf p) id fun c? ahead =>
      match c? with
      | none => (.ok read.reverse, ahead)
      | some c => ahead.readMore p (c :: read) := by
  rw [readMore]
  rcases cursor.nextIf p with ⟨_ | _ | _, _⟩
  · rfl
  · rfl
  · rfl

theorem skipBlock_eq (cursor : Cursor) (opening : Position) :
    cursor.skipBlock opening = andThen cursor.next .unreadable fun c? inside =>
      match c? with
      | none => (.error (.malformed opening .unterminatedComment), inside)
      | some c =>
        if c = '*' then
          andThen (inside.nextIf (· == '/')) .unreadable fun slash? after =>
            match slash? with
            | none => after.skipBlock opening
            | some _ => (.ok (), after)
        else inside.skipBlock opening := by
  rw [skipBlock]
  rcases cursor.next with ⟨_ | _ | c, inside⟩
  · rfl
  · rfl
  · simp only [andThen]
    split
    next =>
      rcases inside.nextIf (· == '/') with ⟨_ | _ | _, _⟩
      · rfl
      · rfl
      · rfl
    next => rfl

theorem skipLine_eq (cursor : Cursor) :
    cursor.skipLine = andThen (cursor.readWhile (· != '\n')) .unreadable fun _ after =>
      (.ok (), after) := by
  unfold skipLine
  rcases cursor.readWhile (· != '\n') with ⟨_ | _, _⟩
  · rfl
  · rfl

theorem skipComment_eq (cursor : Cursor) (opening : Position) :
    cursor.skipComment opening =
      andThen (cursor.nextIf (· == '/')) .unreadable fun slash? after =>
        match slash? with
        | some _ => andThen after.skipLine id fun _ behind => (.ok true, behind)
        | none =>
          andThen (after.nextIf (· == '*')) .unreadable fun star? inside =>
            match star? with
            | none => (.ok false, inside)
            | some _ =>
              andThen (inside.skipBlock opening) id fun _ behind => (.ok true, behind) := by
  unfold skipComment
  rcases cursor.nextIf (· == '/') with ⟨_ | _ | _, after⟩
  · rfl
  · simp only [andThen]
    rcases after.nextIf (· == '*') with ⟨_ | _ | _, inside⟩
    · rfl
    · rfl
    · rcases h : inside.skipBlock opening with ⟨_ | _, _⟩
      · simp [h]
      · simp [h]
  · rcases h : after.skipLine with ⟨_ | _, _⟩
    · simp [andThen, h]
    · simp [andThen, h]

theorem skipGap_eq (cursor : Cursor) :
    cursor.skipGap = andThen cursor.next .unreadable fun c? after =>
      match c? with
      | none => (.ok none, after)
      | some c =>
        if isBlank c then after.skipGap
        else if c = '/' then
          andThen (after.skipComment after.position) id fun opened behind =>
            if opened then behind.skipGap else (.ok (some c), behind)
        else (.ok (some c), after) := by
  rw [skipGap]
  rcases cursor.next with ⟨_ | _ | c, after⟩
  · rfl
  · rfl
  · simp only [andThen]
    split
    next => rfl
    split
    next =>
      rcases after.skipComment after.position with ⟨_ | _ | _, _⟩
      · rfl
      · rfl
      · rfl
    next => rfl

theorem readWord_eq (cursor : Cursor) (first : Char) :
    cursor.readWord first = andThen (cursor.readWhile isWordPart) .unreadable fun more after =>
      (.ok (.ofWord (String.ofList (first :: more))), after) := by
  unfold readWord
  rcases cursor.readWhile isWordPart with ⟨_ | _, _⟩
  · rfl
  · rfl

theorem readString_eq (cursor : Cursor) (start : Position) :
    cursor.readString start =
      andThen (cursor.readWhile fun c => c != '"' && c != '\n') .unreadable fun content inside =>
        andThen (inside.nextIf (· == '"')) .unreadable fun quote? after =>
          match quote? with
          | none => (.error (.malformed start .unterminatedString), after)
          | some _ => (.ok (.stringConstant (String.ofList content)), after) := by
  unfold readString
  rcases cursor.readWhile (fun c => c != '"' && c != '\n') with ⟨_ | content, inside⟩
  · rfl
  · simp only [andThen]
    rcases inside.nextIf (· == '"') with ⟨_ | _ | _, _⟩
    · rfl
    · rfl
    · rfl

theorem readInteger_eq (cursor : Cursor) (first : Char) (start : Position) :
    cursor.readInteger first start =
      andThen (cursor.readWhile isDecimalDigit) .unreadable fun more after =>
        if decimalValue (first :: more) < UInt32.size then
          (.ok (.integerConstant (decimalValue (first :: more)).toUInt32), after)
        else (.error (.malformed start (.outOfRange (String.ofList (first :: more)))), after) := by
  unfold readInteger
  rcases cursor.readWhile isDecimalDigit with ⟨_ | _, _⟩
  · rfl
  · rfl

theorem readLexeme_eq (cursor : Cursor) :
    cursor.readLexeme = andThen cursor.skipGap id fun c? found =>
      match c? with
      | none => (.ok none, found)
      | some c =>
        andThen (found.readToken c) id fun token after =>
          (.ok (some ⟨token, .between found.position after.nextPosition⟩), after) := by
  unfold readLexeme
  rcases cursor.skipGap with ⟨_ | _ | c, found⟩
  · rfl
  · rfl
  · rcases h : found.readToken c with ⟨_ | _, _⟩
    · simp [andThen, h]
    · simp [andThen, h]

theorem skipGap_remaining_le (cursor : Cursor) :
    cursor.skipGap.2.remaining ≤ cursor.remaining := by
  fun_induction skipGap cursor with
  | case1 cursor _ _ h => simpa [h] using cursor.next_remaining_le
  | case2 cursor _ h => simpa [h] using cursor.next_remaining_le
  | case3 cursor c after h _ ih => exact Nat.le_trans ih (Nat.le_of_lt (remaining_lt_of_next h))
  | case4 cursor after _ _ hs h _ =>
    have first := remaining_lt_of_next h
    have second := after.skipComment_remaining_le after.position
    rw [hs] at second
    exact Nat.le_trans second (Nat.le_of_lt first)
  | case5 cursor after _ hs h _ =>
    have first := remaining_lt_of_next h
    have second := after.skipComment_remaining_le after.position
    rw [hs] at second
    exact Nat.le_trans second (Nat.le_of_lt first)
  | case6 cursor after _ hs h _ ih =>
    have first := remaining_lt_of_next h
    have second := after.skipComment_remaining_le after.position
    rw [hs] at second
    exact Nat.le_trans ih (Nat.le_trans second (Nat.le_of_lt first))
  | case7 cursor c after h => exact Nat.le_of_lt (remaining_lt_of_next h)

end Cursor

end JackTokens
