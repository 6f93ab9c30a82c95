import JackTokens.ReadBuffer
import JackTokens.Position

namespace JackTokens

/-- A reading position: on a current character, with the next one in sight. -/
structure Cursor where
  buffer : ReadBuffer
  /-- The character read last, `none` before the first and after the last. -/
  current : Option Char
  /-- The place of the current character. -/
  position : Position
  /-- The place of the next character. -/
  nextPosition : Position

namespace Cursor

/-- Before the first character of what `reader` gives. -/
def ofReader (reader : Reader) (capacity : Nat) : Cursor :=
  ⟨.ofReader reader capacity, none, .start, .start⟩

def remaining (cursor : Cursor) : Nat :=
  cursor.buffer.remaining

/-- The next character, `none` at the end of the input. -/
def peek (cursor : Cursor) : Except ReadError (Option Char) × Cursor :=
  match cursor.buffer.peek with
  | (result, buffer) => (result, { cursor with buffer })

/-- Steps over `c`, which was read and left `buffer` behind; `none` is the end of the input. -/
def step (cursor : Cursor) (buffer : ReadBuffer) (c : Option Char) : Cursor :=
  ⟨buffer, c, cursor.nextPosition, cursor.nextPosition.after c.toList⟩

/-- Makes the next character the current one. A failure leaves the cursor where it was. -/
def next (cursor : Cursor) : Except ReadError (Option Char) × Cursor :=
  match cursor.buffer.next with
  | (.error error, buffer) => (.error error, { cursor with buffer })
  | (.ok c, buffer) => (.ok c, cursor.step buffer c)

/-- Reads the next character if `p` holds of it. -/
def nextIf (cursor : Cursor) (p : Char → Bool) : Except ReadError (Option Char) × Cursor :=
  match cursor.peek with
  | (.error error, cursor) => (.error error, cursor)
  | (.ok none, cursor) => (.ok none, cursor)
  | (.ok (some c), cursor) => if p c then cursor.next else (.ok none, cursor)

theorem next_fst (cursor : Cursor) : cursor.next.1 = cursor.buffer.next.1 := by
  unfold next
  rcases cursor.buffer.next with ⟨_ | _, _⟩
  · rfl
  · rfl

theorem next_buffer (cursor : Cursor) : cursor.next.2.buffer = cursor.buffer.next.2 := by
  unfold next
  rcases cursor.buffer.next with ⟨_ | _, _⟩
  · rfl
  · rfl

/-- Where a step leads depends on where it begins and on what it finds only. -/
theorem next_places {c d : Cursor} (same : c.next.1 = d.next.1) (position : c.position = d.position)
    (nextPosition : c.nextPosition = d.nextPosition) :
    c.next.2.position = d.next.2.position ∧ c.next.2.nextPosition = d.next.2.nextPosition := by
  rw [next_fst, next_fst] at same
  unfold next
  rcases hc : c.buffer.next with ⟨_ | x, _⟩
  · rcases hd : d.buffer.next with ⟨_ | y, _⟩
    · exact ⟨position, nextPosition⟩
    · simp [hc, hd] at same
  · rcases hd : d.buffer.next with ⟨_ | y, _⟩
    · simp [hc, hd] at same
    · simp only [hc, hd, Except.ok.injEq] at same
      refine ⟨nextPosition, ?_⟩
      simp only [step, same, nextPosition]

theorem peek_remaining (cursor : Cursor) : cursor.peek.2.remaining = cursor.remaining :=
  cursor.buffer.peek_remaining

theorem remaining_lt_of_next {cursor read : Cursor} {c : Char}
    (h : cursor.next = (.ok (some c), read)) : read.remaining < cursor.remaining := by
  unfold next at h
  split at h
  next => simp at h
  next hb =>
    simp only [Prod.mk.injEq, Except.ok.injEq] at h
    obtain ⟨rfl, rfl⟩ := h
    exact ReadBuffer.remaining_lt_of_next hb

theorem next_remaining_le (cursor : Cursor) : cursor.next.2.remaining ≤ cursor.remaining := by
  have bound := cursor.buffer.next_remaining_le
  unfold next
  split
  next h =>
    rw [h] at bound
    exact bound
  next h =>
    rw [h] at bound
    exact bound

theorem remaining_lt_of_nextIf {cursor read : Cursor} {p : Char → Bool} {c : Char}
    (h : cursor.nextIf p = (.ok (some c), read)) : read.remaining < cursor.remaining := by
  have total := cursor.peek_remaining
  unfold nextIf at h
  split at h
  next => simp at h
  next => simp at h
  next hp =>
    simp only [hp] at total
    split at h
    · have bound := remaining_lt_of_next h
      omega
    · simp at h

theorem nextIf_remaining_le (cursor : Cursor) (p : Char → Bool) :
    (cursor.nextIf p).2.remaining ≤ cursor.remaining := by
  have total := cursor.peek_remaining
  unfold nextIf
  split
  next h => simpa [h] using Nat.le_of_eq total
  next h => simpa [h] using Nat.le_of_eq total
  next ahead h =>
    simp only [h] at total
    split
    · have bound := ahead.next_remaining_le
      omega
    · exact Nat.le_of_eq total

/-- Reads characters as long as `p` holds. `read` has those read before, the latest first. -/
def readMore (cursor : Cursor) (p : Char → Bool) (read : List Char) :
    Except ReadError (List Char) × Cursor :=
  match _h : cursor.nextIf p with
  | (.error error, cursor) => (.error error, cursor)
  | (.ok none, cursor) => (.ok read.reverse, cursor)
  | (.ok (some c), cursor) => readMore cursor p (c :: read)
termination_by cursor.remaining
decreasing_by exact remaining_lt_of_nextIf _h

def readWhile (cursor : Cursor) (p : Char → Bool) : Except ReadError (List Char) × Cursor :=
  cursor.readMore p []

theorem readMore_remaining_le (cursor : Cursor) (p : Char → Bool) (read : List Char) :
    (cursor.readMore p read).2.remaining ≤ cursor.remaining := by
  fun_induction readMore cursor p read with
  | case1 cursor _ _ _ h => simpa [h] using cursor.nextIf_remaining_le p
  | case2 cursor _ _ h => simpa [h] using cursor.nextIf_remaining_le p
  | case3 cursor _ _ _ h ih => exact Nat.le_trans ih (Nat.le_of_lt (remaining_lt_of_nextIf h))

theorem readWhile_remaining_le (cursor : Cursor) (p : Char → Bool) :
    (cursor.readWhile p).2.remaining ≤ cursor.remaining :=
  cursor.readMore_remaining_le p []

end Cursor

end JackTokens
