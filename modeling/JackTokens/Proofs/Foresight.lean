import JackTokens.Proofs.Retrying

namespace JackTokens

/-- The answer is one of the input, and no failure of the device. -/
def Settled (answer : Except ReadError (Option Char)) : Prop :=
  ∀ error, answer ≠ .error (.device error)

theorem settled_ok (c? : Option Char) : Settled (.ok c?) :=
  nofun

namespace ReadBuffer

variable {buffer filled decoded : ReadBuffer} {want : Nat}
  {found : Except ReadError (Option (Char × Nat))}

/-- What the buffer alone says is next: a character, with its width, whose bytes are all unread, or
that these bytes form none, or the end, which the reader has reported behind the last byte. -/
inductive Shows (buffer : ReadBuffer) : Except ReadError (Option (Char × Nat)) → Prop
  | ended : buffer.unread = [] → buffer.ended = true → Shows buffer (.ok none)
  | lead {lead : UInt8} {rest : List UInt8} :
      buffer.unread = lead :: rest → trailing? lead = none →
      Shows buffer (.error (.malformed .lead))
  | truncated {lead : UInt8} {rest : List UInt8} {ranges : List ByteRange} :
      buffer.unread = lead :: rest → trailing? lead = some ranges → buffer.ended = true →
      rest.length < ranges.length → Shows buffer (.error (.malformed .truncated))
  | sequence {lead : UInt8} {rest : List UInt8} {ranges : List ByteRange} {cause : Malformed} :
      buffer.unread = lead :: rest → trailing? lead = some ranges → ranges.length ≤ rest.length →
      decodeSequence lead ranges (rest.take ranges.length) = .error cause →
      Shows buffer (.error (.malformed cause))
  | char {lead : UInt8} {rest : List UInt8} {ranges : List ByteRange} {c : Char} :
      buffer.unread = lead :: rest → trailing? lead = some ranges → ranges.length ≤ rest.length →
      decodeSequence lead ranges (rest.take ranges.length) = .ok c →
      Shows buffer (.ok (some (c, ranges.length + 1)))

/-- The bytes that a step uses up. -/
def foundWidth : Except ReadError (Option (Char × Nat)) → Nat
  | .ok (some (_, width)) => width
  | _ => 0

theorem fill_of_enough (h : want ≤ buffer.unread.length) :
    buffer.fill want = (.ok true, buffer) := by
  rw [fill, if_pos (holds_iff.mpr h)]

theorem fill_of_ended (few : buffer.unread.length < want) (ended : buffer.ended = true) :
    buffer.fill want = (.ok false, buffer) := by
  have short : ¬ buffer.holds want = true := fun h => Nat.not_le_of_lt few (holds_iff.mp h)
  rw [fill, if_neg short, if_pos ended]

theorem device_of_fill {cause : ReadError} (h : buffer.fill want = (.error cause, filled)) :
    ∃ error, cause = .device error := by
  fun_induction fill buffer want with
  | case1 => cases h
  | case2 => cases h
  | case3 => cases h
  | case4 _ _ _ _ _ _ _ ih => exact ih h
  | case5 _ _ _ _ _ _ _ ih => exact ih h
  | case6 _ _ _ error =>
    cases h
    exact ⟨error, rfl⟩

/-- However often the reader is called, unread bytes stay unread and in front. -/
theorem unread_prefix_fill (buffer : ReadBuffer) (want : Nat) :
    buffer.unread <+: (buffer.fill want).2.unread := by
  fun_induction fill buffer want with
  | case1 => exact List.prefix_rfl
  | case2 => exact List.prefix_rfl
  | case3 buffer => simp
  | case4 buffer _ _ byte bytes reader _ ih =>
    apply List.IsPrefix.trans _ ih
    simp [accept]
  | case5 buffer _ _ error reader _ _ ih => simpa using ih
  | case6 buffer => simp

/-- What was decoded can be read off the buffer that decoding leaves behind, unless the device has
failed. -/
theorem decode_cases (buffer : ReadBuffer) :
    (∃ error, buffer.decode.1 = .error (.device error)) ∨
      buffer.decode.2.Shows buffer.decode.1 := by
  unfold decode
  split
  next hf =>
    obtain ⟨error, rfl⟩ := device_of_fill hf
    exact .inl ⟨error, rfl⟩
  next filled hf =>
    obtain ⟨ended, few⟩ := ended_of_fill hf
    exact .inr (.ended (List.length_eq_zero_iff.mp (Nat.lt_one_iff.mp few)) ended)
  next filled hf =>
    have enough := le_unread_of_fill hf
    split
    next hu => simp [hu] at enough
    next lead rest hu =>
      split
      next ht => exact .inr (.lead hu ht)
      next ranges ht =>
        -- The first byte is still in front after the second call of `fill`.
        obtain ⟨more, same⟩ := filled.unread_prefix_fill (ranges.length + 1)
        rw [hu, List.cons_append] at same
        split
        next hg =>
          obtain ⟨error, rfl⟩ := device_of_fill hg
          exact .inl ⟨error, rfl⟩
        next ahead hg =>
          obtain ⟨ended, few⟩ := ended_of_fill hg
          rw [hg] at same
          rw [← same] at few
          exact .inr (.truncated same.symm ht ended (Nat.lt_of_succ_lt_succ few))
        next ahead hg =>
          have whole := le_unread_of_fill hg
          rw [hg] at same
          rw [← same] at whole
          have inside := Nat.le_of_succ_le_succ whole
          rw [← same, List.drop_one, List.tail_cons]
          split
          next hd => exact .inr (.sequence same.symm ht inside hd)
          next hd => exact .inr (.char same.symm ht inside hd)

theorem fill_one {lead : UInt8} {rest : List UInt8} (hu : buffer.unread = lead :: rest) :
    buffer.fill 1 = (.ok true, buffer) :=
  fill_of_enough (by simp [hu])

/-- With all bytes of a character unread, decoding is left to them. -/
theorem decode_of_unread {lead : UInt8} {rest : List UInt8} {ranges : List ByteRange}
    (hu : buffer.unread = lead :: rest) (ht : trailing? lead = some ranges)
    (enough : ranges.length ≤ rest.length) :
    buffer.decode = match decodeSequence lead ranges (rest.take ranges.length) with
      | .error cause => (.error (.malformed cause), buffer)
      | .ok c => (.ok (some (c, ranges.length + 1)), buffer) := by
  have whole : buffer.fill (ranges.length + 1) = (.ok true, buffer) :=
    fill_of_enough (by simpa [hu] using enough)
  rcases hd : decodeSequence lead ranges (rest.take ranges.length) with cause | c
  · simp only [decode, fill_one hu, hu, ht, whole, List.drop_one, List.tail_cons, hd]
  · simp only [decode, fill_one hu, hu, ht, whole, List.drop_one, List.tail_cons, hd]

theorem Shows.decode (h : buffer.Shows found) : buffer.decode = (found, buffer) := by
  cases h with
  | ended none ended =>
    have short : buffer.fill 1 = (.ok false, buffer) := fill_of_ended (by simp [none]) ended
    simp only [ReadBuffer.decode, short]
  | lead hu ht => simp only [ReadBuffer.decode, fill_one hu, hu, ht]
  | @truncated lead rest ranges hu ht ended few =>
    have short : buffer.fill (ranges.length + 1) = (.ok false, buffer) :=
      fill_of_ended (by simpa [hu] using few) ended
    simp only [ReadBuffer.decode, fill_one hu, hu, ht, short]
  | sequence hu ht enough hd => rw [decode_of_unread hu ht enough, hd]
  | char hu ht enough hd => rw [decode_of_unread hu ht enough, hd]

theorem Shows.withReader (h : buffer.Shows found) (reader : Reader) :
    { buffer with reader }.Shows found := by
  cases h with
  | ended none ended => exact .ended none ended
  | lead hu ht => exact .lead hu ht
  | truncated hu ht ended few => exact .truncated hu ht ended few
  | sequence hu ht enough hd => exact .sequence hu ht enough hd
  | char hu ht enough hd => exact .char hu ht enough hd

theorem peek_eq (buffer : ReadBuffer) :
    buffer.peek = (buffer.decode.1.map (Option.map (·.1)), buffer.decode.2) := by
  unfold peek
  rcases buffer.decode with ⟨_ | _ | _, _⟩
  · rfl
  · rfl
  · rfl

theorem next_eq (buffer : ReadBuffer) :
    buffer.next = (buffer.peek.1, buffer.peek.2.consume (foundWidth buffer.decode.1)) := by
  rw [peek_eq]
  unfold next
  rcases buffer.decode with ⟨_ | _ | _, _⟩
  · rfl
  · rfl
  · rfl

theorem Shows.peek (h : buffer.Shows found) :
    buffer.peek = (found.map (Option.map (·.1)), buffer) := by
  rw [peek_eq, h.decode]

theorem Shows.next (h : buffer.Shows found) :
    buffer.next = (found.map (Option.map (·.1)), buffer.consume (foundWidth found)) := by
  rw [next_eq, h.peek, h.decode]

theorem next_of_peek_error {cause : ReadError} {failed : ReadBuffer}
    (h : buffer.peek = (.error cause, failed)) : buffer.next = (.error cause, failed) := by
  have nothing : foundWidth buffer.decode.1 = 0 := by
    rw [peek_eq] at h
    rcases hd : buffer.decode.1 with _ | _
    · rfl
    · rw [hd] at h
      cases h
  rw [next_eq, h, nothing]
  rfl

/-- An answer that a look gives stands in the buffer that is left behind. -/
theorem shows_of_peek (settled : Settled buffer.peek.1) :
    ∃ found, buffer.peek.2.Shows found ∧ buffer.peek.1 = found.map (Option.map (·.1)) ∧
      buffer.next = buffer.peek.2.next := by
  rw [next_eq]
  rw [peek_eq] at settled ⊢
  rcases buffer.decode_cases with ⟨error, failed⟩ | shown
  · rw [failed] at settled
    exact absurd rfl (settled error)
  · exact ⟨_, shown, rfl, shown.next.symm⟩

end ReadBuffer

namespace Cursor

variable {cursor ahead behind : Cursor} {answer : Except ReadError (Option Char)}

/-- The cursor with another reader in the place of its own. -/
def withReader (cursor : Cursor) (reader : Reader) : Cursor :=
  { cursor with buffer := { cursor.buffer with reader } }

/-- What is next is settled: whatever a reader would give, looks and steps do not call it and give
`answer`. A look changes nothing, and where a step leads does not depend on the reader either. -/
structure Foresees (cursor : Cursor) (answer : Except ReadError (Option Char)) : Prop where
  peek : ∀ reader, (cursor.withReader reader).peek = (answer, cursor.withReader reader)
  next : ∀ reader, (cursor.withReader reader).next = (answer, cursor.next.2.withReader reader)

theorem peek_eq (cursor : Cursor) :
    cursor.peek = (cursor.buffer.peek.1, { cursor with buffer := cursor.buffer.peek.2 }) := rfl

theorem foresees_of_shows {found : Except ReadError (Option (Char × Nat))}
    (h : cursor.buffer.Shows found) : cursor.Foresees (found.map (Option.map (·.1))) := by
  constructor
  · intro reader
    unfold Cursor.peek withReader
    rw [(h.withReader reader).peek]
  · intro reader
    unfold Cursor.next withReader
    rw [(h.withReader reader).next, h.next]
    rcases found with _ | _
    · rfl
    · rfl

theorem Foresees.peek_eq (h : cursor.Foresees answer) : cursor.peek = (answer, cursor) :=
  h.peek cursor.buffer.reader

theorem Foresees.next_fst (h : cursor.Foresees answer) : cursor.next.1 = answer :=
  congrArg Prod.fst (h.next cursor.buffer.reader)

theorem next_of_peek_error {cause : ReadError} (h : cursor.peek = (.error cause, ahead)) :
    cursor.next = (.error cause, ahead) := by
  unfold peek at h
  unfold next
  rcases hb : cursor.buffer.peek with ⟨result, buffer⟩
  rw [hb] at h
  cases h
  rw [ReadBuffer.next_of_peek_error hb]

/-- A look that the device lets through leaves a cursor that foresees the answer and goes on like
the one before. -/
theorem foresees_of_peek (h : cursor.peek = (answer, ahead)) (settled : Settled answer) :
    ahead.Foresees answer ∧ ahead.next = cursor.next := by
  rw [peek_eq] at h
  obtain ⟨rfl, rfl⟩ := Prod.mk.inj h
  obtain ⟨found, shown, same, read⟩ := ReadBuffer.shows_of_peek settled
  refine ⟨?_, ?_⟩
  · rw [same]
    exact foresees_of_shows shown
  · unfold next
    rw [read]
    dsimp only
    rcases cursor.buffer.peek.2.next with ⟨_ | _, _⟩
    · rfl
    · rfl

/-- Behind a look that gave an answer a step cannot fail, nor give another one. -/
theorem eq_of_seen {c? : Option Char} (h : cursor.peek = (.ok c?, ahead))
    (hn : ahead.next = (answer, behind)) : answer = .ok c? := by
  have given := (foresees_of_peek h (settled_ok c?)).1.next_fst
  rw [hn] at given
  exact given

/-- A failing look fails for every request: each gives the cause and leaves the same cursor. -/
theorem serve_of_failed {cause : ReadError} (h : cursor.peek = (.error cause, ahead))
    (request : CursorRequest) :
    ∃ reply, reply.error? = some cause ∧ cursor.serve request = (reply, ahead) := by
  cases request with
  | next => exact ⟨.char (.error cause), rfl, by rw [serve, next_of_peek_error h]⟩
  | peek => exact ⟨.char (.error cause), rfl, by rw [serve, h]⟩
  | nextIf expected =>
    refine ⟨.met (.error cause), rfl, ?_⟩
    rw [serve, nextIf, h]
    rfl

/-- After an answer to a look each request is answered as it would have been without the look. -/
theorem serve_of_seen (h : cursor.peek = (answer, ahead)) (settled : Settled answer)
    (request : CursorRequest) : ahead.serve request = cursor.serve request := by
  obtain ⟨foreseen, read⟩ := foresees_of_peek h settled
  cases request with
  | next => rw [serve, serve, read]
  | peek => rw [serve, serve, foreseen.peek_eq, h]
  | nextIf expected => rw [serve, serve, nextIf, nextIf, foreseen.peek_eq, h]

theorem session_eq_of_serve_eq {d : Cursor}
    (h : ∀ request, cursor.serve request = d.serve request) (requests : List CursorRequest) :
    cursor.session requests = d.session requests := by
  cases requests with
  | nil => rfl
  | cons request requests => rw [session_cons, session_cons, h request]

theorem Foresees.nextIf_expected {expected : Char} (h : cursor.Foresees (.ok (some expected))) :
    cursor.nextIf (· == expected) = cursor.next := by
  rw [nextIf, h.peek_eq]
  simp only [beq_self_eq_true, if_true]

/-- Looks for a character other than the one foreseen change nothing. -/
theorem Foresees.nextIf_other {c? : Option Char} {expected : Char} (h : cursor.Foresees (.ok c?))
    (other : c? ≠ some expected) : cursor.nextIf (· == expected) = (.ok none, cursor) := by
  rw [nextIf, h.peek_eq]
  cases c? with
  | none => rfl
  | some c =>
    have differs : c ≠ expected := fun same => other (congrArg some same)
    simp only [beq_eq_false_iff_ne.mpr differs, Bool.false_eq_true, if_false]

/-- Asking for a character fails as a look does, or steps onto it, or is a look at another one. -/
theorem meet_cases (cursor : Cursor) (expected : Char) :
    (∃ cause ahead, cursor.peek = (.error cause, ahead) ∧
        cursor.serve (.nextIf expected) = (.met (.error cause), ahead)) ∨
      (∃ behind, cursor.peek.1 = .ok (some expected) ∧
        cursor.next = (.ok (some expected), behind) ∧
        cursor.serve (.nextIf expected) = (.met (.ok true), behind)) ∨
      ∃ c? ahead, c? ≠ some expected ∧ cursor.peek = (.ok c?, ahead) ∧
        cursor.serve (.nextIf expected) = (.met (.ok false), ahead) := by
  rcases hp : cursor.peek with ⟨cause | c?, ahead⟩
  · refine .inl ⟨cause, ahead, rfl, ?_⟩
    rw [serve, nextIf, hp]
    rfl
  · obtain ⟨foreseen, read⟩ := foresees_of_peek hp (settled_ok c?)
    rw [← serve_of_seen hp (settled_ok c?), serve_nextIf]
    by_cases met : c? = some expected
    · subst met
      have given : ahead.next = (.ok (some expected), ahead.next.2) :=
        Prod.ext foreseen.next_fst rfl
      refine .inr (.inl ⟨ahead.next.2, rfl, read ▸ given, ?_⟩)
      rw [foreseen.nextIf_expected, foreseen.next_fst]
      rfl
    · refine .inr (.inr ⟨c?, ahead, met, rfl, ?_⟩)
      rw [foreseen.nextIf_other met]
      rfl

/-- On the way from `cursor` to `behind` the characters of `text` are used up, and no more. -/
structure Consumes (cursor : Cursor) (text : List Char) (behind : Cursor) : Prop where
  wellFormed : behind.buffer.WellFormed
  bytes : cursor.buffer.stream.bytes = encode text ++ behind.buffer.stream.bytes
  nextPosition : behind.nextPosition = cursor.nextPosition.after text
  stays : text = [] → behind.current = cursor.current ∧ behind.position = cursor.position
  moves : ∀ before c, text = before ++ [c] →
    behind.current = some c ∧ behind.position = cursor.nextPosition.after before

theorem Consumes.peek (wf : cursor.buffer.WellFormed) (h : cursor.peek = (answer, ahead)) :
    cursor.Consumes [] ahead := by
  have same := (Flow.peek_accounts cursor.buffer.stream).1
  rw [ReadBuffer.peek_stream wf] at same
  rw [peek_eq] at h
  obtain ⟨_, rfl⟩ := Prod.mk.inj h
  exact ⟨wf.peek, same, rfl, fun _ => ⟨rfl, rfl⟩, by simp⟩

theorem Consumes.next (wf : cursor.buffer.WellFormed) {c : Char}
    (h : cursor.next = (.ok (some c), behind)) : cursor.Consumes [c] behind := by
  have given := (Flow.next_accounts cursor.buffer.stream).1
  rw [ReadBuffer.next_stream wf] at given
  have wf' := wf.next
  unfold Cursor.next at h
  rcases hb : cursor.buffer.next with ⟨cause | c?, buffer⟩
  · rw [hb] at h
    cases h
  · rw [hb] at h given wf'
    cases h
    refine ⟨wf', given, rfl, by simp, ?_⟩
    intro before d same
    cases before with
    | nil =>
      cases same
      exact ⟨rfl, rfl⟩
    | cons => simp at same

theorem Consumes.trans {text more : List Char} {last : Cursor} (first : cursor.Consumes text behind)
    (second : behind.Consumes more last) : cursor.Consumes (text ++ more) last := by
  have bytes : cursor.buffer.stream.bytes = encode (text ++ more) ++ last.buffer.stream.bytes := by
    rw [first.bytes, second.bytes, encode_append, List.append_assoc]
  have nextPosition : last.nextPosition = cursor.nextPosition.after (text ++ more) := by
    rw [second.nextPosition, first.nextPosition, Position.after_append]
  refine ⟨second.wellFormed, bytes, nextPosition, ?_, ?_⟩
  · intro none
    obtain ⟨rfl, rfl⟩ := List.append_eq_nil_iff.mp none
    obtain ⟨current, position⟩ := second.stays rfl
    rw [current, position]
    exact first.stays rfl
  · intro before c same
    rcases List.eq_nil_or_concat more with rfl | ⟨front, d, rfl⟩
    · obtain ⟨current, position⟩ := second.stays rfl
      rw [current, position]
      exact first.moves before c (by simpa using same)
    · rw [List.concat_eq_append, ← List.append_assoc] at same
      obtain ⟨rfl, final⟩ := List.append_inj' same rfl
      obtain ⟨current, position⟩ := second.moves front d List.concat_eq_append
      rw [current, position, first.nextPosition, Position.after_append]
      exact ⟨congrArg some (List.singleton_inj.mp final), rfl⟩

/-- The bytes ahead tell whether characters were used up. -/
theorem Consumes.eq_nil {text : List Char} (h : cursor.Consumes text behind)
    (none : cursor.Consumes [] behind) : text = [] := by
  cases text with
  | nil => rfl
  | cons c text =>
    have bytes := none.bytes.symm.trans h.bytes
    have lengths := congrArg List.length bytes
    obtain ⟨lead, rest, same, _⟩ := exists_lead c
    rw [encode_cons, same] at lengths
    simp [encode] at lengths
    omega

/-- Asking whether `expected` is next is a look, and a step if it is. -/
structure Meets (cursor : Cursor) (expected : Char) (reply : CursorReply) (behind : Cursor) :
    Prop where
  /-- It fails only as the look does. -/
  answer : reply = .met (cursor.peek.1.map (· == some expected))
  met_iff : reply = .met (.ok true) ↔ ∃ c, cursor.Consumes [c] behind
  step : reply = .met (.ok true) → cursor.next = (.ok (some expected), behind)
  look : reply ≠ .met (.ok true) → cursor.Consumes [] behind
  /-- No later request can tell that the question was asked. A failure of the device is excepted,
  and `failed` says what it does. -/
  later : reply ≠ .met (.ok true) → reply.device? = none →
    (∀ request, behind.serve request = cursor.serve request) ∧
      ∀ requests, behind.session requests = cursor.session requests
  /-- The device reports a failure once: any other request would have met it in the same way. -/
  failed : ∀ cause, reply = .met (.error cause) → ∀ request, ∃ same,
    same.error? = some cause ∧ cursor.serve request = (same, behind)

theorem not_met_of_look (look : cursor.Consumes [] behind) :
    ¬ ∃ c, cursor.Consumes [c] behind := by
  rintro ⟨c, used⟩
  cases used.eq_nil look

theorem meets (wf : cursor.buffer.WellFormed) (expected : Char) :
    cursor.Meets expected (cursor.serve (.nextIf expected)).1
      (cursor.serve (.nextIf expected)).2 := by
  rcases cursor.meet_cases expected with
    ⟨cause, ahead, seen, served⟩ | ⟨behind, seen, read, served⟩ | ⟨c?, ahead, other, seen, served⟩
  · have looked := Consumes.peek wf seen
    rw [served]
    refine ⟨by rw [seen]; rfl, iff_of_false nofun (not_met_of_look looked), nofun,
      fun _ => looked, ?_, ?_⟩
    · intro _ silent
      have settled : Settled (.error cause) := by
        rintro error same
        cases same
        cases silent
      have alike := serve_of_seen seen settled
      exact ⟨alike, session_eq_of_serve_eq alike⟩
    · intro other same
      cases same
      exact serve_of_failed seen
  · have used := Consumes.next wf read
    rw [served]
    refine ⟨?_, iff_of_true rfl ⟨expected, used⟩, fun _ => read, ?_, ?_, nofun⟩
    · rw [seen]
      simp [Except.map]
    · intro unmet
      exact absurd rfl unmet
    · intro unmet
      exact absurd rfl unmet
  · have looked := Consumes.peek wf seen
    rw [served]
    refine ⟨?_, iff_of_false nofun (not_met_of_look looked), nofun, fun _ => looked, ?_, nofun⟩
    · rw [seen]
      simp [Except.map, other]
    · intro _ _
      have alike := serve_of_seen seen (settled_ok c?)
      exact ⟨alike, session_eq_of_serve_eq alike⟩

end Cursor

end JackTokens
