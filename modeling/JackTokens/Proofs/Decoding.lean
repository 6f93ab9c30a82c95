import JackTokens.Proofs.Encoding
import JackTokens.Proofs.Stream

namespace JackTokens

/-- The bytes that a character is decoded from are those that encode it. -/
theorem eq_of_decodeSequence {lead : UInt8} {ranges : List ByteRange} {rest : List UInt8} {c : Char}
    (h : decodeSequence lead ranges rest = .ok c) (ht : trailing? lead = some ranges)
    (hr : rest.length = ranges.length) : lead :: rest = String.utf8EncodeChar c := by
  have decoded : (lead :: rest).toByteArray.utf8DecodeChar? 0 = some c := by
    unfold decodeSequence at h
    split at h
    next hd =>
      cases h
      exact hd
    next => cases h
  obtain ⟨more, whole⟩ := ByteArray.exists_of_utf8DecodeChar?_eq_some decoded
  have bytes : lead :: rest = String.utf8EncodeChar c ++ more.data.toList := by
    have lists := congrArg (·.data.toList) whole
    simpa using lists
  obtain ⟨first, others, same, count⟩ := exists_lead c
  rw [same, List.cons_append] at bytes
  obtain ⟨rfl, tail⟩ := List.cons.inj bytes
  -- The first byte fixes the width, so nothing can be left over.
  obtain ⟨found, hf, width⟩ := exists_trailing? count
  have ranges_eq : found = ranges := Option.some.inj (hf.symm.trans ht)
  have lengths := congrArg List.length tail
  rw [List.length_append, hr, ← width, ranges_eq] at lengths
  have nothing : more.data.toList = [] := List.length_eq_zero_iff.mp (by omega)
  rw [same, tail, nothing, List.append_nil]

namespace Flow

/-- A failure that ends the waiting is the first one ahead; the bytes before it stay. -/
theorem of_await_error {n : Nat} {s left : Flow} {cause : ReadError}
    (h : await n s = (.error cause, left)) :
    ∃ (front : List UInt8) (error : DeviceError) (back : Flow),
      front.length < n ∧ cause = .device error ∧
      s = front.map .ok ++ .error error :: back ∧ left = front.map .ok ++ back := by
  induction n generalizing s left with
  | zero => simp [await] at h
  | succ n ih =>
    rcases s with _ | ⟨error | byte, s⟩
    · simp [await] at h
    · simp only [await, Prod.mk.injEq, Except.error.injEq] at h
      obtain ⟨rfl, rfl⟩ := h
      exact ⟨[], error, s, Nat.succ_pos n, rfl, rfl, rfl⟩
    · rcases hr : await n s with ⟨_ | answer, rest⟩
      · simp only [await, hr, Except.map, Prod.mk.injEq, Except.error.injEq] at h
        obtain ⟨rfl, rfl⟩ := h
        obtain ⟨front, error, back, few, same, whole, after⟩ := ih hr
        refine ⟨byte :: front, error, back, Nat.succ_lt_succ few, same, ?_, ?_⟩
        · rw [whole, List.map_cons, List.cons_append]
        · rw [after, List.map_cons, List.cons_append]
      · simp [await, hr, Except.map] at h

theorem of_await_some {n : Nat} {s left : Flow} {bytes : List UInt8}
    (h : await n s = (.ok (some bytes), left)) :
    bytes.length = n ∧ ∃ back, s = bytes.map .ok ++ back := by
  induction n generalizing s left bytes with
  | zero =>
    cases h
    exact ⟨rfl, s, rfl⟩
  | succ n ih =>
    rcases s with _ | ⟨error | byte, s⟩
    · simp [await] at h
    · simp [await] at h
    · rcases hr : await n s with ⟨_ | _ | more, rest⟩
      · simp [await, hr, Except.map] at h
      · simp [await, hr, Except.map] at h
      · simp only [await, hr, Except.map, Option.map_some, Prod.mk.injEq, Except.ok.injEq,
          Option.some.injEq] at h
        obtain ⟨rfl, _⟩ := h
        obtain ⟨length, back, rfl⟩ := ih hr
        exact ⟨by rw [List.length_cons, length], back, rfl⟩

theorem of_await_none {n : Nat} {s left : Flow} (h : await n s = (.ok none, left)) :
    ∃ front : List UInt8, front.length < n ∧ s = front.map .ok := by
  induction n generalizing s left with
  | zero => simp [await] at h
  | succ n ih =>
    rcases s with _ | ⟨error | byte, s⟩
    · exact ⟨[], Nat.succ_pos n, rfl⟩
    · simp [await] at h
    · rcases hr : await n s with ⟨_ | _ | more, rest⟩
      · simp [await, hr, Except.map] at h
      · obtain ⟨front, few, rfl⟩ := ih hr
        exact ⟨byte :: front, Nat.succ_lt_succ few, rfl⟩
      · simp [await, hr, Except.map] at h

/-- What decoding can come to. Only a failure of the device changes what is ahead: it is taken
out, and the few bytes before it stay. -/
inductive Decodes : Flow → Except ReadError (Option (Char × Nat)) → Flow → Prop
  | ended : Decodes [] (.ok none) []
  | char (c : Char) (back : Flow) :
      Decodes ((String.utf8EncodeChar c).map .ok ++ back)
        (.ok (some (c, (String.utf8EncodeChar c).length)))
        ((String.utf8EncodeChar c).map .ok ++ back)
  | failed {front : List UInt8} (error : DeviceError) (back : Flow) :
      front.length < minCapacity →
      Decodes (front.map .ok ++ .error error :: back) (.error (.device error))
        (front.map .ok ++ back)
  | malformed (cause : Malformed) (s : Flow) : Decodes s (.error (.malformed cause)) s

theorem decodes (s : Flow) : Decodes s (decode s).1 (decode s).2 := by
  rcases s with _ | ⟨error | lead, s⟩
  · exact .ended
  · exact @Decodes.failed [] error s (by decide)
  · rw [decode]
    split
    next => exact .malformed _ _
    next ranges ht =>
      have width := length_of_trailing? ht
      split
      next cause left ha =>
        obtain ⟨front, error, back, few, rfl, rfl, rfl⟩ := of_await_error ha
        have fits : (lead :: front).length < minCapacity := by
          rw [List.length_cons]
          omega
        exact .failed error back fits
      next left ha =>
        rw [eq_of_await_ok ha]
        exact .malformed _ _
      next rest left ha =>
        rw [eq_of_await_ok ha]
        obtain ⟨length, back, rfl⟩ := of_await_some ha
        split
        next => exact .malformed _ _
        next c hd =>
          have bytes := eq_of_decodeSequence hd ht length
          have count : ranges.length + 1 = (String.utf8EncodeChar c).length := by
            rw [← bytes, List.length_cons, length]
          rw [count, ← List.cons_append, ← List.map_cons, bytes]
          exact .char c back

theorem width_of_decode {s left : Flow} {c : Char} {width : Nat}
    (h : decode s = (.ok (some (c, width)), left)) : width = c.utf8Size := by
  have spec := decodes s
  rw [h] at spec
  cases spec with
  | char => exact String.length_utf8EncodeChar c

theorem peek_fst (s : Flow) : (peek s).1 = (decode s).1.map (Option.map (·.1)) := by
  unfold peek
  rcases decode s with ⟨_ | _ | _, _⟩
  · rfl
  · rfl
  · rfl

theorem next_fst (s : Flow) : (next s).1 = (decode s).1.map (Option.map (·.1)) := by
  unfold next
  rcases decode s with ⟨_ | _ | _, _⟩
  · rfl
  · rfl
  · rfl

/-- A failure ahead is met only where it may be within the next character. Where it is not met, it
cannot be told from anything else in its place. -/
theorem decode_beside (error : DeviceError) (bytes : List UInt8) (s t : Flow) :
    (bytes.length < minCapacity ∧
        (decode (bytes.map .ok ++ .error error :: s)).1 = .error (.device error)) ∨
      ∃ result, (∀ c width, result = .ok (some (c, width)) → width ≤ bytes.length) ∧
        decode (bytes.map .ok ++ .error error :: s) =
          (result, bytes.map .ok ++ .error error :: s) ∧
        decode (bytes.map .ok ++ t) = (result, bytes.map .ok ++ t) := by
  cases bytes with
  | nil => exact .inl ⟨by decide, rfl⟩
  | cons lead rest =>
    cases ht : trailing? lead with
    | none =>
      refine .inr ⟨.error (.malformed .lead), ?_, ?_, ?_⟩
      · intro c width same
        cases same
      · simp only [List.map_cons, List.cons_append, decode, ht]
      · simp only [List.map_cons, List.cons_append, decode, ht]
    | some ranges =>
      have width := length_of_trailing? ht
      by_cases full : ranges.length ≤ rest.length
      · have waited (u : Flow) := await_bytes u full
        rcases hd : decodeSequence lead ranges (rest.take ranges.length) with cause | c
        · refine .inr ⟨.error (.malformed cause), ?_, ?_, ?_⟩
          · intro c width same
            cases same
          · simp only [List.map_cons, List.cons_append, decode, ht, waited, hd]
          · simp only [List.map_cons, List.cons_append, decode, ht, waited, hd]
        · refine .inr ⟨.ok (some (c, ranges.length + 1)), ?_, ?_, ?_⟩
          · intro c width same
            cases same
            exact Nat.succ_le_succ full
          · simp only [List.map_cons, List.cons_append, decode, ht, waited, hd]
          · simp only [List.map_cons, List.cons_append, decode, ht, waited, hd]
      · have few : rest.length < ranges.length := Nat.lt_of_not_le full
        refine .inl ⟨?_, ?_⟩
        · rw [List.length_cons]
          omega
        · simp only [List.map_cons, List.cons_append, decode, ht, await_failure error s few]

end Flow

end JackTokens
