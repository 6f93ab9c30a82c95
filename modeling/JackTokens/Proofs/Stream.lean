import JackTokens.Proofs.Flow

namespace JackTokens

theorem length_of_trailing? {lead : UInt8} {ranges : List ByteRange}
    (h : trailing? lead = some ranges) : ranges.length + 1 ≤ minCapacity := by
  have bound : ∀ found ∈ trailing? lead, found.length ≤ 3 := by
    unfold trailing?
    repeat' split
    all_goals simp
  exact Nat.succ_le_succ (bound ranges h)

namespace ReadBuffer

/-- Any character fits, and the unread bytes lie within the buffer. -/
structure WellFormed (buffer : ReadBuffer) : Prop where
  min_le : minCapacity ≤ buffer.capacity
  stop_le : buffer.stop ≤ buffer.capacity

/-- All that is still to come: the unread bytes, then what the reader has left. -/
def stream (buffer : ReadBuffer) : Flow :=
  buffer.unread.map .ok ++ if buffer.ended then [] else flow buffer.reader.steps

theorem wellFormed_ofReader (reader : Reader) (capacity : Nat) :
    (ofReader reader capacity).WellFormed :=
  ⟨Nat.le_max_right _ _, Nat.zero_le _⟩

theorem stream_ofReader (reader : Reader) (capacity : Nat) :
    (ofReader reader capacity).stream = flow reader.steps := rfl

@[simp] theorem compact_ended (buffer : ReadBuffer) : buffer.compact.ended = buffer.ended := by
  unfold compact
  split <;> rfl

theorem WellFormed.compact {buffer : ReadBuffer} (wf : buffer.WellFormed) :
    buffer.compact.WellFormed := by
  have stop := wf.stop_le
  unfold ReadBuffer.compact
  split
  next =>
    refine ⟨wf.min_le, ?_⟩
    simp only [ReadBuffer.stop] at stop ⊢
    omega
  next => exact wf

/-- As long as fewer bytes are unread than a character may have, a call of the reader offers
room. -/
theorem WellFormed.room_pos {buffer : ReadBuffer} (wf : buffer.WellFormed)
    (h : buffer.unread.length < minCapacity) : 0 < buffer.compact.room := by
  have bound := wf.min_le
  unfold ReadBuffer.compact
  split
  next =>
    simp only [room, stop]
    omega
  next full => omega

theorem WellFormed.accept {buffer : ReadBuffer} (wf : buffer.WellFormed) {reader next : Reader}
    {bytes : List UInt8} (h : reader.read buffer.room = (.ok bytes, next)) :
    (buffer.accept next bytes).WellFormed := by
  have stop := wf.stop_le
  have fits := Reader.length_le_of_read h
  refine ⟨wf.min_le, ?_⟩
  simp only [ReadBuffer.accept, ReadBuffer.stop, room, List.length_append] at stop fits ⊢
  omega

theorem WellFormed.fill {buffer : ReadBuffer} (wf : buffer.WellFormed) (want : Nat) :
    (buffer.fill want).2.WellFormed := by
  fun_induction ReadBuffer.fill buffer want with
  | case1 => exact wf
  | case2 => exact wf
  | case3 => exact ⟨wf.compact.min_le, wf.compact.stop_le⟩
  | case4 buffer _ _ byte bytes reader h ih => exact ih (wf.compact.accept h)
  | case5 buffer _ _ error reader h _ ih => exact ih ⟨wf.compact.min_le, wf.compact.stop_le⟩
  | case6 => exact ⟨wf.compact.min_le, wf.compact.stop_le⟩

/-- An attempt comes short only at the end of the input. -/
theorem ended_of_fill {buffer filled : ReadBuffer} {want : Nat}
    (h : buffer.fill want = (.ok false, filled)) :
    filled.ended = true ∧ filled.unread.length < want := by
  fun_induction fill buffer want with
  | case1 => cases h
  | case2 buffer hold ended =>
    cases h
    exact ⟨ended, by simpa [holds_iff] using hold⟩
  | case3 buffer hold =>
    cases h
    exact ⟨rfl, by simpa [holds_iff] using hold⟩
  | case4 _ _ _ _ _ _ _ ih => exact ih h
  | case5 _ _ _ _ _ _ _ ih => exact ih h
  | case6 => cases h

/-- Filling the buffer waits for the bytes of its stream. -/
theorem await_stream {buffer : ReadBuffer} {want : Nat} (wf : buffer.WellFormed)
    (h : want ≤ minCapacity) :
    Flow.await want buffer.stream =
      ((buffer.fill want).1.map fun full =>
          if full then some ((buffer.fill want).2.unread.take want) else none,
        (buffer.fill want).2.stream) := by
  fun_induction ReadBuffer.fill buffer want with
  | case1 buffer hold =>
    simpa [stream, Except.map] using Flow.await_bytes _ (holds_iff.mp hold)
  | case2 buffer hold ended =>
    have few : buffer.unread.length < want := by simpa [holds_iff] using hold
    simpa [stream, ended, Except.map] using Flow.await_end few
  | case3 buffer hold ended reader hr =>
    have few : buffer.unread.length < want := by simpa [holds_iff] using hold
    have none := Reader.flow_of_read_end (wf.room_pos (Nat.lt_of_lt_of_le few h)) hr
    rw [compact_reader] at none
    simpa [stream, ended, none, Except.map] using Flow.await_end few
  | case4 buffer hold ended byte bytes reader hr ih =>
    have more := Reader.flow_of_read_bytes hr
    rw [compact_reader] at more
    have same : buffer.stream = (buffer.compact.accept reader (byte :: bytes)).stream := by
      simp [stream, accept, ended, more]
    rw [same]
    exact ih (wf.compact.accept hr)
  | case5 buffer hold ended error reader hr again ih =>
    have more := Reader.flow_of_read_fail hr
    rw [compact_reader, if_pos again] at more
    have same : buffer.stream = { buffer.compact with reader }.stream := by
      simp [stream, ended, more]
    rw [same]
    exact ih ⟨wf.compact.min_le, wf.compact.stop_le⟩
  | case6 buffer hold ended error reader hr final =>
    have few : buffer.unread.length < want := by simpa [holds_iff] using hold
    have more := Reader.flow_of_read_fail hr
    rw [compact_reader, if_neg final] at more
    simpa [stream, ended, more, Except.map] using
      Flow.await_failure error (flow reader.steps) few

theorem decode_stream {buffer : ReadBuffer} (wf : buffer.WellFormed) :
    Flow.decode buffer.stream = (buffer.decode.1, buffer.decode.2.stream) := by
  have first := await_stream wf (by decide : 1 ≤ minCapacity)
  unfold ReadBuffer.decode
  split
  next error filled hf =>
    rw [hf] at first
    exact Flow.decode_of_await_error first
  next filled hf =>
    rw [hf] at first
    exact Flow.decode_of_await_end first
  next filled hf =>
    rw [hf] at first
    rw [← Flow.eq_of_await_ok first]
    have enough := le_unread_of_fill hf
    have wf' : filled.WellFormed := by simpa [hf] using wf.fill 1
    split
    next hu => simp [hu] at enough
    next lead rest hu =>
      have shape : ∃ s, filled.stream = .ok lead :: s := ⟨_, by rw [stream, hu]; rfl⟩
      obtain ⟨s, hs⟩ := shape
      rw [hs]
      split
      next ht => simp [Flow.decode, ht, hs]
      next ranges ht =>
        have second := @await_stream filled (ranges.length + 1) wf' (length_of_trailing? ht)
        rw [Flow.decode_lead s ht, ← hs, second]
        rcases filled.fill (ranges.length + 1) with ⟨_ | _ | _, ahead⟩
        · rfl
        · rfl
        · simp only [Except.map, if_true, List.drop_take, Nat.add_sub_cancel]
          rcases decodeSequence lead ranges ((ahead.unread.drop 1).take ranges.length) with _ | _
          · rfl
          · rfl

theorem WellFormed.decode {buffer : ReadBuffer} (wf : buffer.WellFormed) :
    buffer.decode.2.WellFormed := by
  have first := wf.fill 1
  unfold ReadBuffer.decode
  split
  next hf => simpa [hf] using first
  next hf => simpa [hf] using first
  next filled hf =>
    rw [hf] at first
    split
    next => exact first
    next lead rest _ =>
      split
      next => exact first
      next ranges _ =>
        have second := first.fill (ranges.length + 1)
        split
        next hg => simpa [hg] using second
        next hg => simpa [hg] using second
        next hg =>
          rw [hg] at second
          split
          next => exact second
          next => exact second

theorem WellFormed.consume {buffer : ReadBuffer} (wf : buffer.WellFormed) {n : Nat}
    (h : n ≤ buffer.unread.length) : (buffer.consume n).WellFormed := by
  have stop := wf.stop_le
  refine ⟨wf.min_le, ?_⟩
  simp only [ReadBuffer.consume, ReadBuffer.stop, List.length_drop] at stop ⊢
  omega

theorem stream_consume {buffer : ReadBuffer} {n : Nat} (h : n ≤ buffer.unread.length) :
    (buffer.consume n).stream = buffer.stream.drop n := by
  have inside : n ≤ (buffer.unread.map Except.ok : Flow).length := by simpa using h
  rw [stream, stream, List.drop_append_of_le_length inside, ← List.map_drop]
  rfl

theorem WellFormed.peek {buffer : ReadBuffer} (wf : buffer.WellFormed) :
    buffer.peek.2.WellFormed := by
  have ahead := wf.decode
  unfold ReadBuffer.peek
  split
  next hd => simpa [hd] using ahead
  next hd => simpa [hd] using ahead
  next hd => simpa [hd] using ahead

theorem WellFormed.next {buffer : ReadBuffer} (wf : buffer.WellFormed) :
    buffer.next.2.WellFormed := by
  have ahead := wf.decode
  unfold ReadBuffer.next
  split
  next hd => simpa [hd] using ahead
  next hd => simpa [hd] using ahead
  next hd =>
    rw [hd] at ahead
    exact ahead.consume (width_of_decode hd).2

theorem peek_stream {buffer : ReadBuffer} (wf : buffer.WellFormed) :
    Flow.peek buffer.stream = (buffer.peek.1, buffer.peek.2.stream) := by
  unfold Flow.peek ReadBuffer.peek
  rw [decode_stream wf]
  rcases buffer.decode with ⟨_ | _ | _, _⟩
  · rfl
  · rfl
  · rfl

theorem next_stream {buffer : ReadBuffer} (wf : buffer.WellFormed) :
    Flow.next buffer.stream = (buffer.next.1, buffer.next.2.stream) := by
  unfold Flow.next ReadBuffer.next
  rw [decode_stream wf]
  rcases hd : buffer.decode with ⟨_ | _ | ⟨c, width⟩, ahead⟩
  · rfl
  · rfl
  · simp only [stream_consume (width_of_decode hd).2]

end ReadBuffer

end JackTokens
