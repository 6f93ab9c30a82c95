import JackTokens.Proofs.Draining
import JackTokens.Proofs.Encoding
import JackTokens.Session

namespace JackTokens

namespace Cursor

/-- Cursors at the same place of the same input, however it is cut into reads and buffered. -/
structure Alike (c d : Cursor) : Prop where
  left : c.buffer.WellFormed
  right : d.buffer.WellFormed
  stream : c.buffer.stream = d.buffer.stream
  position : c.position = d.position
  nextPosition : c.nextPosition = d.nextPosition

theorem alike_ofReader {a b : Reader} (h : flow a.steps = flow b.steps) (m n : Nat) :
    (ofReader a m).Alike (ofReader b n) where
  left := ReadBuffer.wellFormed_ofReader a m
  right := ReadBuffer.wellFormed_ofReader b n
  stream := by
    change (ReadBuffer.ofReader a m).stream = (ReadBuffer.ofReader b n).stream
    rw [ReadBuffer.stream_ofReader, ReadBuffer.stream_ofReader, h]
  position := rfl
  nextPosition := rfl

theorem Alike.peek {c d : Cursor} (h : c.Alike d) :
    c.peek.1 = d.peek.1 ∧ c.peek.2.Alike d.peek.2 := by
  have same := (ReadBuffer.peek_stream h.left).symm.trans
    ((congrArg Flow.peek h.stream).trans (ReadBuffer.peek_stream h.right))
  obtain ⟨result, ahead⟩ := Prod.mk.inj same
  exact ⟨result, h.left.peek, h.right.peek, ahead, h.position, h.nextPosition⟩

theorem Alike.next {c d : Cursor} (h : c.Alike d) :
    c.next.1 = d.next.1 ∧ c.next.2.Alike d.next.2 := by
  have same := (ReadBuffer.next_stream h.left).symm.trans
    ((congrArg Flow.next h.stream).trans (ReadBuffer.next_stream h.right))
  obtain ⟨result, ahead⟩ := Prod.mk.inj same
  rw [← next_fst, ← next_fst] at result
  rw [← next_buffer, ← next_buffer] at ahead
  obtain ⟨position, nextPosition⟩ := next_places result h.position h.nextPosition
  refine ⟨result, ?_, ?_, ahead, position, nextPosition⟩
  · rw [next_buffer]
    exact h.left.next
  · rw [next_buffer]
    exact h.right.next

/-- How an input is cut into reads and buffered cannot be seen. -/
theorem alike_simulation : Simulation Alike fun _ _ => False where
  peek h := .inl h.peek
  next h := .inl h.next
  position h := h.position
  nextPosition h := h.nextPosition
  later h _ := h

theorem Alike.readLexeme {c d : Cursor} (h : c.Alike d) :
    c.readLexeme.1 = d.readLexeme.1 ∧ c.readLexeme.2.Alike d.readLexeme.2 := by
  rcases alike_simulation.readLexeme h with same | ⟨_, _, impossible⟩
  · exact same
  · exact impossible.elim

end Cursor

namespace Tokenizer

/-- Tokenizers that differ in how their input is cut and buffered only. -/
def Alike (t u : Tokenizer) : Prop :=
  ∃ cursor, t.cursor.Alike cursor ∧ u = { t with cursor }

theorem Alike.sight {t u : Tokenizer} (h : t.Alike u) : t.sight = u.sight := by
  obtain ⟨d, rel, rfl⟩ := h
  simp only [Tokenizer.sight, isExhausted, hasFailed, position, rel.position]

theorem Alike.pull {t u : Tokenizer} (h : t.Alike u) :
    t.pull.1 = u.pull.1 ∧ t.pull.2.Alike u.pull.2 := by
  obtain ⟨d, rel, rfl⟩ := h
  unfold Tokenizer.pull
  dsimp only
  split
  next => exact ⟨rfl, d, rel, rfl⟩
  split
  next => exact ⟨rfl, d, rel, rfl⟩
  next =>
    obtain ⟨result, rel'⟩ := rel.readLexeme
    rcases ht : t.cursor.readLexeme with ⟨answer, c'⟩
    rcases hu : d.readLexeme with ⟨_, d'⟩
    simp only [ht, hu] at result rel'
    subst result
    rcases answer with error | _ | lexeme
    · exact ⟨rfl, d', rel', rfl⟩
    · exact ⟨rfl, d', rel', rfl⟩
    · exact ⟨rfl, d', rel', rfl⟩

theorem Alike.advance {t u : Tokenizer} (h : t.Alike u) :
    t.advance.1 = u.advance.1 ∧ t.advance.2.Alike u.advance.2 := by
  obtain ⟨d, rel, rfl⟩ := h
  have cleared : Alike (t.withCurrent none) ({ t with cursor := d }.withCurrent none) :=
    ⟨d, rel, rfl⟩
  obtain ⟨result, rel'⟩ := cleared.pull
  unfold Tokenizer.advance
  dsimp only
  split
  next => exact ⟨rfl, d, rel, rfl⟩
  next hp =>
    rcases ht : (t.withCurrent none).pull with ⟨answer, t'⟩
    rcases hu : ({ t with cursor := d }.withCurrent none).pull with ⟨_, u'⟩
    simp only [ht, hu] at result rel' ⊢
    subst result
    rcases answer with error | lexeme?
    · exact ⟨rfl, rel'⟩
    · obtain ⟨d', rel'', rfl⟩ := rel'
      exact ⟨rfl, d', rel'', rfl⟩

theorem Alike.peek {t u : Tokenizer} (h : t.Alike u) :
    t.peek.1 = u.peek.1 ∧ t.peek.2.Alike u.peek.2 := by
  obtain ⟨result, rel'⟩ := h.pull
  obtain ⟨d, rel, rfl⟩ := h
  unfold Tokenizer.peek
  dsimp only
  split
  next => exact ⟨rfl, d, rel, rfl⟩
  next hp =>
    rcases ht : t.pull with ⟨answer, t'⟩
    rcases hu : { t with cursor := d }.pull with ⟨_, u'⟩
    simp only [ht, hu] at result rel' ⊢
    subst result
    rcases answer with error | lexeme?
    · exact ⟨rfl, rel'⟩
    · obtain ⟨d', rel'', rfl⟩ := rel'
      exact ⟨rfl, d', rel'', rfl⟩

theorem Alike.next {t u : Tokenizer} (h : t.Alike u) :
    t.next.1 = u.next.1 ∧ t.next.2.Alike u.next.2 := by
  obtain ⟨result, rel'⟩ := h.advance
  have failed : t.hasFailed = u.hasFailed := congrArg Sight.failed h.sight
  unfold Tokenizer.next
  rw [← failed]
  split
  next => exact ⟨rfl, h⟩
  next =>
    rcases ht : t.advance with ⟨answer, t'⟩
    rcases hu : u.advance with ⟨_, u'⟩
    simp only [ht, hu] at result rel'
    subst result
    rcases answer with error | _ | token
    · exact ⟨rfl, rel'⟩
    · exact ⟨rfl, rel'⟩
    · exact ⟨rfl, rel'⟩

theorem Alike.serve {t u : Tokenizer} (h : t.Alike u) (request : Request) :
    (t.serve request).1 = (u.serve request).1 ∧ (t.serve request).2.Alike (u.serve request).2 := by
  cases request with
  | advance => exact ⟨congrArg Reply.token h.advance.1, h.advance.2⟩
  | peek => exact ⟨congrArg Reply.token h.peek.1, h.peek.2⟩
  | next => exact ⟨congrArg Reply.item h.next.1, h.next.2⟩

theorem Alike.session {t u : Tokenizer} (h : t.Alike u) (requests : List Request) :
    t.session requests = u.session requests := by
  induction requests generalizing t u with
  | nil => rfl
  | cons request requests ih =>
    obtain ⟨reply, rel⟩ := h.serve request
    simp only [Tokenizer.session, reply, rel.sight, ih rel]

/-- Buffering is invisible, also when reads fail: what a user gets and sees depends on the bytes
and failures of the input in their order, and on nothing else. -/
theorem session_eq_of_flow_eq {a b : List ReadStep} (h : flow a = flow b) (m n : Nat)
    (requests : List Request) :
    (ofReader (.ofSteps a) m).session requests = (ofReader (.ofSteps b) n).session requests := by
  have rel : (ofReader (.ofSteps a) m).Alike (ofReader (.ofSteps b) n) :=
    ⟨_, Cursor.alike_ofReader h m n, rfl⟩
  exact rel.session requests

/-- A character is cut by a failure here, and read in one piece there. -/
theorem session_eq_of_cut_character :
    flow [.data [0x22, 0xC3], .fail ⟨.interrupted, "signal"⟩, .fail ⟨.wouldBlock, "busy"⟩,
        .data [0xA9, 0x22], .data [], .data [0x78]] =
      flow [.data [0x22], .data [0xC3], .fail ⟨.wouldBlock, "busy"⟩, .data [0xA9], .data [0x22]] ∧
    (ofReader (.ofSteps [.data [0x22, 0xC3], .fail ⟨.interrupted, "signal"⟩,
        .fail ⟨.wouldBlock, "busy"⟩, .data [0xA9, 0x22], .data [], .data [0x78]]) 0).session
        [.peek, .advance, .next, .advance] =
      (ofReader (.ofSteps [.data [0x22], .data [0xC3], .fail ⟨.wouldBlock, "busy"⟩, .data [0xA9],
        .data [0x22]]) 4096).session [.peek, .advance, .next, .advance] := by
  have same : flow [.data [0x22, 0xC3], .fail ⟨.interrupted, "signal"⟩, .fail ⟨.wouldBlock, "busy"⟩,
        .data [0xA9, 0x22], .data [], .data [0x78]] =
      flow [.data [0x22], .data [0xC3], .fail ⟨.wouldBlock, "busy"⟩, .data [0xA9],
        .data [0x22]] := rfl
  exact ⟨same, session_eq_of_flow_eq same 0 4096 [.peek, .advance, .next, .advance]⟩

theorem Alike.outcome_drainMore {t u : Tokenizer} (h : t.Alike u) (taken : List Lexeme) :
    (t.drainMore taken).outcome = (u.drainMore taken).outcome := by
  induction hn : t.pending using Nat.strongRecOn generalizing t u taken with
  | ind n ih =>
    obtain ⟨result, rel⟩ := h.advance
    rw [drainMore_eq t, drainMore_eq u]
    rcases ht : t.advance with ⟨answer, t'⟩
    rcases hu : u.advance with ⟨_, u'⟩
    rw [ht, hu] at result rel
    dsimp only at result rel
    subst result
    rcases answer with error | _ | token
    · rfl
    · rfl
    · have less := pending_lt_of_advance ht
      have current : t'.current = u'.current := by
        obtain ⟨d, _, rfl⟩ := rel
        rfl
      dsimp only
      rw [current]
      exact ih _ (hn ▸ less) rel _ rfl

/-- What a reader gives is tokenized as the same bytes and failures from any other one are. -/
theorem outcome_eq_of_flow_eq {a b : Reader} (h : flow a.steps = flow b.steps) (m n : Nat) :
    (ofReader a m).drain.outcome = (ofReader b n).drain.outcome := by
  have rel : (ofReader a m).Alike (ofReader b n) := ⟨_, Cursor.alike_ofReader h m n, rfl⟩
  exact rel.outcome_drainMore []

theorem outcome_of_text {reader : Reader} {text : String}
    (h : flow reader.steps = (encode text.toList).map .ok) (capacity : Nat) :
    (ofReader reader capacity).drain.outcome = (ofText text).drain.outcome := by
  apply outcome_eq_of_flow_eq
  rw [h, Reader.flow_ofBytes, toList_toUTF8]

end Tokenizer

end JackTokens
