import JackTokens.Proofs.Decoding
import JackTokens.Proofs.Simulation
import JackTokens.Tokenizer

namespace JackTokens

/-- The bytes of the character that was read. -/
def readWidth : Except ReadError (Option Char) → Nat
  | .ok (some c) => c.utf8Size
  | _ => 0

namespace ReadBuffer

theorem next_remaining {buffer : ReadBuffer} (wf : buffer.WellFormed) :
    buffer.next.2.remaining + readWidth buffer.next.1 = buffer.remaining := by
  have total := buffer.decode_remaining
  have spec := decode_stream wf
  unfold next
  rcases hd : buffer.decode with ⟨_ | _ | ⟨c, width⟩, ahead⟩
  · rw [hd] at total
    exact total
  · rw [hd] at total
    exact total
  · rw [hd] at total spec
    have bound := (width_of_decode hd).2
    have size := Flow.width_of_decode spec
    simp only [remaining, consume, List.length_drop, readWidth] at total ⊢
    omega

theorem stream_of_fill_end {buffer filled : ReadBuffer} {want : Nat} (hw : want ≤ 1)
    (h : buffer.fill want = (.ok false, filled)) : filled.stream = [] := by
  obtain ⟨ended, few⟩ := ended_of_fill h
  have none : filled.unread = [] := List.length_eq_zero_iff.mp (by omega)
  simp [stream, none, ended]

theorem stream_of_next_none {buffer used : ReadBuffer} (h : buffer.next = (.ok none, used)) :
    used.stream = [] := by
  have ended : buffer.decode = (.ok none, used) := by
    unfold next at h
    split at h
    next => cases h
    next hd =>
      cases h
      exact hd
    next => cases h
  unfold decode at ended
  split at ended
  next => cases ended
  next hf =>
    cases ended
    exact stream_of_fill_end (Nat.le_refl 1) hf
  next filled hf =>
    have enough := le_unread_of_fill hf
    split at ended
    next hu => simp [hu] at enough
    next =>
      split at ended
      next => cases ended
      next =>
        split at ended
        next => cases ended
        next => cases ended
        next =>
          split at ended
          next => cases ended
          next => cases ended

end ReadBuffer

namespace Cursor

variable {cursor : Cursor}

theorem next_offset (cursor : Cursor) :
    cursor.next.2.nextPosition.offset = cursor.nextPosition.offset + readWidth cursor.next.1 := by
  unfold next
  rcases cursor.buffer.next with ⟨_ | _ | c, buffer⟩
  · rfl
  · rfl
  · exact Position.offset_advance _ c

theorem offset_le_next (cursor : Cursor) :
    cursor.nextPosition.offset ≤ cursor.next.2.nextPosition.offset := by
  rw [next_offset]
  exact Nat.le_add_right _ _

theorem next_remaining (wf : cursor.buffer.WellFormed) :
    cursor.next.2.remaining + readWidth cursor.next.1 = cursor.remaining := by
  rw [remaining, next_buffer, next_fst]
  exact ReadBuffer.next_remaining wf

theorem next_wellFormed (wf : cursor.buffer.WellFormed) : cursor.next.2.buffer.WellFormed := by
  rw [next_buffer]
  exact wf.next

/-- A run follows itself. What each look and each step keeps, unless it fails where `Cut` lets it,
is kept on the way. -/
theorem self_simulation {P : Cursor → Prop} {Cut : Prop}
    (peek : ∀ c : Cursor, P c → P c.peek.2 ∨ Cut ∧ ∃ cause, c.peek.1 = .error cause)
    (next : ∀ c : Cursor, P c → P c.next.2 ∨ Cut ∧ ∃ cause, c.next.1 = .error cause) :
    Simulation (fun c d => c = d ∧ P d) fun _ _ => Cut := by
  refine ⟨?_, ?_, ?_, ?_, fun h _ => h⟩
  · rintro c d ⟨rfl, h⟩
    rcases peek c h with kept | ⟨cut, cause, failed⟩
    · exact .inl ⟨rfl, rfl, kept⟩
    · exact .inr ⟨cause, failed, cut⟩
  · rintro c d ⟨rfl, h⟩
    rcases next c h with kept | ⟨cut, cause, failed⟩
    · exact .inl ⟨rfl, rfl, kept⟩
    · exact .inr ⟨cause, failed, cut⟩
  · rintro c d ⟨rfl, _⟩
    rfl
  · rintro c d ⟨rfl, _⟩
    rfl

theorem keeping_simulation {P : Cursor → Prop} (peek : ∀ c : Cursor, P c → P c.peek.2)
    (next : ∀ c : Cursor, P c → P c.next.2) :
    Simulation (fun c d => c = d ∧ P d) fun _ _ => False :=
  self_simulation (fun c h => .inl (peek c h)) fun c h => .inl (next c h)

/-- What each look and each step keeps is kept by reading a token. -/
theorem readLexeme_keeps {P : Cursor → Prop} (peek : ∀ c : Cursor, P c → P c.peek.2)
    (next : ∀ c : Cursor, P c → P c.next.2) (h : P cursor) : P cursor.readLexeme.2 := by
  rcases (keeping_simulation peek next).readLexeme ⟨rfl, h⟩ with ⟨_, _, kept⟩ | ⟨_, _, never⟩
  · exact kept
  · exact never.elim

theorem offset_le_readLexeme (cursor : Cursor) :
    cursor.nextPosition.offset ≤ cursor.readLexeme.2.nextPosition.offset := by
  refine readLexeme_keeps (P := fun c => cursor.nextPosition.offset ≤ c.nextPosition.offset) ?_ ?_
    (Nat.le_refl _)
  · exact fun c h => h
  · exact fun c h => Nat.le_trans h c.offset_le_next

/-- The bytes passed and the bytes to come stay the same in sum. -/
theorem readLexeme_total (wf : cursor.buffer.WellFormed) :
    cursor.readLexeme.2.buffer.WellFormed ∧
      cursor.readLexeme.2.nextPosition.offset + cursor.readLexeme.2.remaining =
        cursor.nextPosition.offset + cursor.remaining := by
  refine readLexeme_keeps (P := fun c => c.buffer.WellFormed ∧
    c.nextPosition.offset + c.remaining = cursor.nextPosition.offset + cursor.remaining) ?_ ?_
    ⟨wf, rfl⟩
  · rintro c ⟨wf, total⟩
    refine ⟨wf.peek, ?_⟩
    rw [peek_remaining]
    exact total
  · rintro c ⟨wf, total⟩
    have left := next_remaining wf
    have passed := c.next_offset
    exact ⟨next_wellFormed wf, by omega⟩

theorem offset_le_stop {after : Cursor} {lexeme : Lexeme}
    (h : cursor.readLexeme = (.ok (some lexeme), after)) :
    after.nextPosition.offset ≤ lexeme.span.stop := by
  unfold readLexeme at h
  split at h
  next => cases h
  next => cases h
  next found _ =>
    split at h
    next => cases h
    next =>
      cases h
      simp only [Span.between, Span.stop]
      omega

/-- Where no token is left, nothing at all is. -/
theorem stream_of_readLexeme_none {after : Cursor} (h : cursor.readLexeme = (.ok none, after)) :
    after.buffer.stream = [] := by
  have found : cursor.skipGap = (.ok none, after) := by
    unfold readLexeme at h
    split at h
    next => cases h
    next hg =>
      cases h
      exact hg
    next =>
      split at h
      next => cases h
      next => cases h
  clear h
  fun_induction skipGap cursor with
  | case1 => cases found
  | case2 cursor after hn =>
    cases found
    unfold next at hn
    split at hn
    next => cases hn
    next hb =>
      cases hn
      exact ReadBuffer.stream_of_next_none hb
  | case3 _ _ _ _ _ ih => exact ih found
  | case4 => cases found
  | case5 => cases found
  | case6 _ _ _ _ _ _ ih => exact ih found
  | case7 => cases found

end Cursor

namespace Tokenizer

/-- The tokens to come are all still to be read. -/
structure Running (t : Tokenizer) : Prop where
  peeked : t.peeked = none
  ended : t.ended = false
  failure : t.failure = none

def Drained.cons (lexeme : Lexeme) (drained : Drained) : Drained :=
  { drained with lexemes := lexeme :: drained.lexemes }

/-- The tokens and how they end. -/
def Drained.outcome (drained : Drained) : List Lexeme × Option LexError :=
  (drained.lexemes, drained.error?)

variable {t : Tokenizer}

theorem running_ofReader (reader : Reader) (capacity : Nat) : (ofReader reader capacity).Running :=
  ⟨rfl, rfl, rfl⟩

theorem Running.step (h : t.Running) (cursor : Cursor) (lexeme : Option Lexeme) :
    ({ t with cursor }.withCurrent lexeme).Running :=
  ⟨h.peeked, h.ended, h.failure⟩

theorem Running.pull_eq (h : t.Running) :
    t.pull =
      match t.cursor.readLexeme with
      | (.error error, cursor) => (.error error, { t with cursor, failure := some (.record error) })
      | (.ok none, cursor) => (.ok none, { t with cursor, ended := true })
      | (.ok (some lexeme), cursor) => (.ok (some lexeme), { t with cursor }) := by
  unfold pull
  split
  next hf => simp [h.failure] at hf
  next =>
    have going : ¬ t.ended = true := by simp [h.ended]
    exact if_neg going

theorem Running.advance_eq (h : t.Running) :
    t.advance =
      match t.cursor.readLexeme with
      | (.error error, cursor) =>
        (.error error, { t with cursor, failure := some (.record error) }.withCurrent none)
      | (.ok none, cursor) => (.ok none, { t with cursor, ended := true }.withCurrent none)
      | (.ok (some lexeme), cursor) =>
        (.ok (some lexeme.token), { t with cursor }.withCurrent (some lexeme)) := by
  have cleared : (t.withCurrent none).Running := h.step t.cursor none
  unfold advance
  split
  next hp => simp [h.peeked] at hp
  next =>
    rw [cleared.pull_eq, cursor_withCurrent]
    rcases t.cursor.readLexeme with ⟨_ | _ | _, cursor⟩
    · rfl
    · rfl
    · rfl

theorem drainMore_eq (t : Tokenizer) (taken : List Lexeme) :
    t.drainMore taken =
      match t.advance with
      | (.error error, t) => ⟨taken.reverse, some error, t⟩
      | (.ok none, t) => ⟨taken.reverse, none, t⟩
      | (.ok (some _), t) => t.drainMore (t.current.toList ++ taken) := by
  rw [drainMore]
  rcases t.advance with ⟨_ | _ | _, _⟩
  · rfl
  · rfl
  · rfl

/-- The tokens taken before stand in front, and make no other difference. -/
theorem drainMore_taken (t : Tokenizer) (taken : List Lexeme) :
    t.drainMore taken = { t.drain with lexemes := taken.reverse ++ t.drain.lexemes } := by
  induction hn : t.pending using Nat.strongRecOn generalizing t taken with
  | ind n ih =>
    rw [drain, drainMore_eq t taken, drainMore_eq t []]
    rcases ha : t.advance with ⟨error | _ | token, u⟩
    · simp
    · simp
    · have less := pending_lt_of_advance ha
      dsimp only
      rw [ih _ (hn ▸ less) u (u.current.toList ++ taken) rfl,
        ih _ (hn ▸ less) u (u.current.toList ++ []) rfl]
      simp

/-- Draining goes by one token after the other. -/
theorem Running.drain_eq (h : t.Running) :
    t.drain =
      match t.cursor.readLexeme with
      | (.error error, cursor) =>
        ⟨[], some error, { t with cursor, failure := some (.record error) }.withCurrent none⟩
      | (.ok none, cursor) => ⟨[], none, { t with cursor, ended := true }.withCurrent none⟩
      | (.ok (some lexeme), cursor) =>
        ({ t with cursor }.withCurrent (some lexeme)).drain.cons lexeme := by
  rw [drain, drainMore_eq, h.advance_eq]
  rcases t.cursor.readLexeme with ⟨_ | _ | lexeme, cursor⟩
  · rfl
  · rfl
  · exact drainMore_taken _ [lexeme]

/-- No token of a run stops before the first reading does. -/
theorem Running.offset_le_stop (h : t.Running) {lexeme : Lexeme} (hl : lexeme ∈ t.drain.lexemes) :
    t.cursor.readLexeme.2.nextPosition.offset ≤ lexeme.span.stop := by
  induction hn : t.cursor.remaining using Nat.strongRecOn generalizing t with
  | ind n ih =>
    rw [h.drain_eq] at hl
    rcases hr : t.cursor.readLexeme with ⟨error | _ | first, cursor⟩
    · rw [hr] at hl
      cases hl
    · rw [hr] at hl
      cases hl
    · rw [hr] at hl
      rcases List.mem_cons.mp hl with rfl | hl
      · exact Cursor.offset_le_stop hr
      · have less := Cursor.remaining_lt_of_readLexeme hr
        have later := ih _ (hn ▸ less) (h.step cursor (some first)) hl rfl
        exact Nat.le_trans cursor.offset_le_readLexeme later

end Tokenizer

end JackTokens
