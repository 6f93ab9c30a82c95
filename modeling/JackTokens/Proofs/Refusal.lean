import JackTokens.BufferSession
import JackTokens.Proofs.CharacterBytes
import JackTokens.Proofs.Retrying

namespace JackTokens

/-- The error for bytes that no character begins, as they themselves decide it. -/
inductive Refused : List UInt8 → String → Prop
  | lead {lead rest} : (∀ n, ¬ TrailingCount lead.toNat n) →
      Refused (lead :: rest) "invalid UTF-8 lead byte"
  | truncated {lead rest n} : TrailingCount lead.toNat n → rest.length < n →
      Refused (lead :: rest) "truncated UTF-8 sequence at end of input"
  | sequence {lead rest n start} : TrailingCount lead.toNat n → n ≤ rest.length →
      LongestStart (lead :: rest) start →
      Refused (lead :: rest)
        ("invalid utf-8 sequence of " ++ decimal start.length ++ " bytes from index 0")

/-- No character begins the bytes. -/
def Stuck (rest : List UInt8) : Prop :=
  ∀ c more, rest ≠ String.utf8EncodeChar c ++ more

theorem TrailingCount.unique {lead n m : Nat} (hn : TrailingCount lead n)
    (hm : TrailingCount lead m) : n = m := by
  unfold TrailingCount at hn hm
  omega

theorem LongestStart.length_unique {bytes start other : List UInt8}
    (h : LongestStart bytes start) (ho : LongestStart bytes other) :
    start.length = other.length := by
  have first := h.longest other ho.begins ho.viable
  have second := ho.longest start h.begins h.viable
  omega

theorem Refused.unique {rest : List UInt8} {message other : String} (h : Refused rest message)
    (ho : Refused rest other) : message = other := by
  cases h with
  | lead none =>
    cases ho with
    | lead => rfl
    | truncated count => exact absurd count (none _)
    | sequence count => exact absurd count (none _)
  | truncated count few =>
    cases ho with
    | lead none => exact absurd count (none _)
    | truncated => rfl
    | sequence count' enough =>
      have same := count.unique count'
      omega
  | sequence count enough longest =>
    cases ho with
    | lead none => exact absurd count (none _)
    | truncated count' few =>
      have same := count.unique count'
      omega
    | sequence _ _ longest' => rw [longest.length_unique longest']

theorem LongestText.stuck {bytes rest : List UInt8} {text : List Char} (h : LongestText bytes text)
    (split : bytes = encode text ++ rest) : Stuck rest := by
  intro c more same
  have longer : encode (text ++ [c]) <+: bytes := by
    refine ⟨more, ?_⟩
    rw [split, same, encode_append, encode_cons]
    simp [encode]
  have bound := h.longest _ longer
  have size := c.utf8Size_pos
  rw [encode_append, encode_cons, List.length_append, List.length_append,
    String.length_utf8EncodeChar] at bound
  omega

theorem LongestText.whole_iff {bytes rest : List UInt8} {text : List Char}
    (h : LongestText bytes text) (split : bytes = encode text ++ rest) :
    rest = [] ↔ ∃ whole, bytes = encode whole := by
  constructor
  · intro none
    rw [none, List.append_nil] at split
    exact ⟨text, split⟩
  · rintro ⟨whole, same⟩
    have bound := h.longest whole ⟨[], by rw [List.append_nil, same]⟩
    rw [← same, split, List.length_append] at bound
    exact List.length_eq_zero_iff.mp (by omega)

theorem cause_of_decodeSequence {lead : UInt8} {ranges : List ByteRange} {rest : List UInt8}
    {cause : Malformed} (h : decodeSequence lead ranges rest = .error cause) :
    cause = .sequence (matching ranges rest + 1) := by
  unfold decodeSequence at h
  split at h
  next => cases h
  next =>
    cases h
    rfl

namespace Flow

/-- Where no character can be read, the error says why, and nothing is used up. -/
theorem decode_stuck {rest : List UInt8} (h : Stuck rest) (some : rest ≠ []) :
    ∃ cause : Malformed, Refused rest cause.message ∧
      decode (rest.map .ok) = (.error (.malformed cause), rest.map .ok) := by
  cases rest with
  | nil => exact absurd rfl some
  | cons lead rest =>
    cases ht : trailing? lead with
    | none =>
      have never : ∀ n, ¬ TrailingCount lead.toNat n := by
        intro n count
        obtain ⟨ranges, found, _⟩ := exists_trailing? count
        rw [ht] at found
        cases found
      refine ⟨.lead, .lead never, ?_⟩
      simp only [List.map_cons, decode, ht]
    | some ranges =>
      have count := (trailing?_cases ht).1
      by_cases full : ranges.length ≤ rest.length
      · have waited := await_bytes [] full
        rw [List.append_nil] at waited
        have bound := matching_le ranges rest
        rcases hd : decodeSequence lead ranges (rest.take ranges.length) with cause | c
        · have length : (lead :: rest.take (matching ranges rest)).length =
              matching ranges (rest.take ranges.length) + 1 := by
            rw [matching_take, List.length_cons, List.length_take]
            omega
          have refused := Refused.sequence count full (longestStart_matching ht rest)
          rw [length] at refused
          obtain rfl := cause_of_decodeSequence hd
          refine ⟨.sequence _, refused, ?_⟩
          simp only [List.map_cons, decode, ht, waited, hd]
        · have width : (rest.take ranges.length).length = ranges.length := by
            rw [List.length_take]
            omega
          have bytes := eq_of_decodeSequence hd ht width
          have whole : lead :: rest = String.utf8EncodeChar c ++ rest.drop ranges.length := by
            rw [← bytes, List.cons_append, List.take_append_drop]
          exact absurd whole (h c _)
      · have few : rest.length < ranges.length := by omega
        have waited := await_end few
        refine ⟨.truncated, .truncated count few, ?_⟩
        simp only [List.map_cons, decode, ht, waited]

/-- With no character ahead, each look and each step gives the same answer, and changes nothing. -/
theorem exists_final {rest : List UInt8} (h : Stuck rest) :
    ∃ final, peek (rest.map .ok) = (final, rest.map .ok) ∧
      next (rest.map .ok) = (final, rest.map .ok) ∧ (final = .ok none ↔ rest = []) ∧
      (rest ≠ [] → ∃ cause : Malformed, final = .error (.malformed cause) ∧
        Refused rest cause.message) := by
  by_cases none : rest = []
  · subst none
    exact ⟨.ok Option.none, rfl, rfl, by simp, by simp⟩
  · obtain ⟨cause, refused, stopped⟩ := decode_stuck h none
    refine ⟨.error (.malformed cause), ?_, ?_, by simp [none], fun _ => ⟨cause, rfl, refused⟩⟩
    · rw [peek, stopped]
    · rw [next, stopped]

end Flow

namespace ReadBuffer

/-- The bytes are all that is still to come. -/
structure Before (buffer : ReadBuffer) (bytes : List UInt8) : Prop where
  wellFormed : buffer.WellFormed
  stream : buffer.stream = bytes.map .ok

variable {buffer : ReadBuffer} {rest : List UInt8} {final : Except ReadError (Option Char)}

theorem before_ofReader {pieces : List (List UInt8)} (filled : ∀ piece ∈ pieces, piece ≠ [])
    (capacity : Nat) :
    (ofReader (.ofSteps (pieces.map .data)) capacity).Before pieces.flatten := by
  refine ⟨wellFormed_ofReader _ _, ?_⟩
  rw [stream_ofReader, Reader.ofSteps]
  induction pieces with
  | nil => rfl
  | cons piece pieces ih =>
    obtain ⟨some, filled⟩ := List.forall_mem_cons.mp filled
    rw [List.map_cons, flow_data _ some, List.flatten_cons, List.map_append]
    exact congrArg (piece.map Except.ok ++ ·) (ih filled)

theorem Before.next_char {c : Char} (h : buffer.Before (String.utf8EncodeChar c ++ rest)) :
    ∃ used, buffer.next = (.ok (some c), used) ∧ used.Before rest := by
  have read := next_stream h.wellFormed
  rw [h.stream, List.map_append, Flow.next_char] at read
  obtain ⟨given, ahead⟩ := Prod.mk.inj read
  refine ⟨buffer.next.2, ?_, h.wellFormed.next, ahead.symm⟩
  rw [given]

theorem session_cons (buffer : ReadBuffer) (request : BufferRequest)
    (requests : List BufferRequest) :
    buffer.session (request :: requests) =
      (buffer.serve request).1 :: (buffer.serve request).2.session requests := rfl

theorem Before.session_final (h : buffer.Before rest)
    (peek : Flow.peek (rest.map .ok) = (final, rest.map .ok))
    (next : Flow.next (rest.map .ok) = (final, rest.map .ok)) (requests : List BufferRequest) :
    buffer.session requests = List.replicate requests.length final := by
  induction requests generalizing buffer with
  | nil => rfl
  | cons request requests ih =>
    have step : (buffer.serve request).1 = final ∧ (buffer.serve request).2.Before rest := by
      cases request with
      | next =>
        have read := next_stream h.wellFormed
        rw [h.stream, next] at read
        obtain ⟨reply, stays⟩ := Prod.mk.inj read
        exact ⟨reply.symm, h.wellFormed.next, stays.symm⟩
      | peek =>
        have seen := peek_stream h.wellFormed
        rw [h.stream, peek] at seen
        obtain ⟨reply, stays⟩ := Prod.mk.inj seen
        exact ⟨reply.symm, h.wellFormed.peek, stays.symm⟩
    obtain ⟨reply, stays⟩ := step
    rw [session_cons, ih stays, reply]
    rfl

/-- The characters of a text are read one by one, and what is behind it is still to come. -/
theorem Before.session_text {text : List Char} (h : buffer.Before (encode text ++ rest))
    (later : List BufferRequest) :
    ∃ used : ReadBuffer, used.Before rest ∧
      buffer.session (List.replicate text.length .next ++ later) =
        text.map (fun c => .ok (some c)) ++ used.session later := by
  induction text generalizing buffer with
  | nil => exact ⟨buffer, h, rfl⟩
  | cons c text ih =>
    rw [encode_cons, List.append_assoc] at h
    obtain ⟨first, read, ahead⟩ := h.next_char
    obtain ⟨used, behind, replies⟩ := ih ahead
    refine ⟨used, behind, ?_⟩
    rw [List.length_cons, List.replicate_succ, List.cons_append, session_cons, serve, read, replies]
    rfl

/-- Reading decodes UTF-8 and nothing else. The characters are those of the longest text at the
front of the bytes; behind it comes the end of the input if these are all bytes, and otherwise an
error that the bytes left over decide, again and again. -/
theorem reads_longest_text (pieces : List (List UInt8)) (filled : ∀ piece ∈ pieces, piece ≠ [])
    (capacity : Nat) :
    ∃ text rest final, LongestText pieces.flatten text ∧ pieces.flatten = encode text ++ rest ∧
      (∀ later, (ofReader (.ofSteps (pieces.map .data)) capacity).session
          (List.replicate text.length .next ++ later) =
        text.map (fun c => .ok (some c)) ++ List.replicate later.length final) ∧
      (final = .ok none ↔ ∃ whole, pieces.flatten = encode whole) ∧
      ((¬ ∃ whole, pieces.flatten = encode whole) →
        ∃ cause, final = .error cause ∧ cause.kind = .invalidData ∧
          ∀ message, Refused rest message ↔ message = cause.message) := by
  obtain ⟨text, longest⟩ := exists_longestText pieces.flatten
  obtain ⟨rest, split⟩ := longest.begins
  have whole := longest.whole_iff split.symm
  obtain ⟨final, peek, next, ended, failed⟩ := Flow.exists_final (longest.stuck split.symm)
  refine ⟨text, rest, final, longest, split.symm, ?_, ended.trans whole, ?_⟩
  · intro later
    have start := before_ofReader filled capacity
    rw [← split] at start
    obtain ⟨used, behind, replies⟩ := start.session_text later
    rw [replies, behind.session_final peek next]
  · intro malformed
    obtain ⟨cause, same, refused⟩ := failed fun none => malformed (whole.mp none)
    refine ⟨_, same, rfl, ?_⟩
    intro message
    constructor
    · intro other
      exact other.unique refused
    · intro same
      rw [same]
      exact refused

/-- The character that begins behind the first one is cut by the reads, and its third byte is no
tail. -/
theorem reads_longest_text_broken_character :
    (∀ piece ∈ ([[0x61, 0xE2], [0x82], [0x41]] : List (List UInt8)), piece ≠ []) ∧
      ∃ text rest final, LongestText [0x61, 0xE2, 0x82, 0x41] text ∧
        [0x61, 0xE2, 0x82, 0x41] = encode text ++ rest ∧
        (ofReader (.ofSteps [.data [0x61, 0xE2], .data [0x82], .data [0x41]]) 0).session
            (List.replicate text.length .next ++ [.peek, .next]) =
          text.map (fun c => .ok (some c)) ++ [final, final] := by
  have filled : ∀ piece ∈ ([[0x61, 0xE2], [0x82], [0x41]] : List (List UInt8)), piece ≠ [] := by
    decide
  obtain ⟨text, rest, final, longest, split, replies, _⟩ := reads_longest_text _ filled 0
  exact ⟨filled, text, rest, final, longest, split, replies [.peek, .next]⟩

end ReadBuffer

end JackTokens
