import JackTokens.CursorSession
import JackTokens.Proofs.Decoding
import JackTokens.Proofs.Places

namespace JackTokens

/-- The text of the longest part at the front of `bytes` that encodes one. -/
structure LongestText (bytes : List UInt8) (text : List Char) : Prop where
  begins : encode text <+: bytes
  longest : ∀ other, encode other <+: bytes → (encode other).length ≤ (encode text).length

/-- The characters that a session gives the user for good. -/
def consumed (shown : List (CursorRequest × CursorReply)) : List Char :=
  shown.flatMap fun entry => entry.2.consumed entry.1

/-- The failures of the device that a session reports. -/
def reported (shown : List (CursorRequest × CursorReply)) : List DeviceError :=
  shown.filterMap fun entry => entry.2.device?

theorem utf8EncodeChar_append_inj {c d : Char} {s t : List UInt8}
    (h : String.utf8EncodeChar c ++ s = String.utf8EncodeChar d ++ t) : c = d ∧ s = t := by
  have first := Flow.decode_char c (s.map .ok)
  have second := Flow.decode_char d (t.map .ok)
  rw [← List.map_append] at first second
  rw [h, second] at first
  have same : c = d := by
    simp only [Prod.mk.injEq, Except.ok.injEq, Option.some.injEq] at first
    exact first.1.1.symm
  subst same
  exact ⟨rfl, List.append_cancel_left h⟩

/-- The encoding of a text begins that of another one only if the text does. -/
theorem isPrefix_of_encode {cs ds : List Char} (h : encode cs <+: encode ds) : cs <+: ds := by
  induction cs generalizing ds with
  | nil => exact List.nil_prefix
  | cons c cs ih =>
    obtain ⟨rest, whole⟩ := h
    cases ds with
    | nil =>
      obtain ⟨lead, more, bytes, _⟩ := exists_lead c
      simp [encode, bytes] at whole
    | cons d ds =>
      rw [encode_cons, encode_cons, List.append_assoc] at whole
      obtain ⟨rfl, tail⟩ := utf8EncodeChar_append_inj whole
      exact List.cons_prefix_cons.mpr ⟨rfl, ih ⟨rest, tail⟩⟩

theorem exists_longestText (bytes : List UInt8) : ∃ text, LongestText bytes text := by
  induction hn : bytes.length using Nat.strongRecOn generalizing bytes with
  | ind n ih =>
    by_cases readable : ∃ c rest, bytes = String.utf8EncodeChar c ++ rest
    · obtain ⟨c, rest, rfl⟩ := readable
      have shorter : rest.length < n := by
        have size := c.utf8Size_pos
        rw [List.length_append, String.length_utf8EncodeChar] at hn
        omega
      obtain ⟨text, begins, longest⟩ := ih _ shorter rest rfl
      refine ⟨c :: text, ?_, ?_⟩
      · rw [encode_cons]
        exact (List.prefix_append_right_inj _).mpr begins
      · rintro other ⟨left, whole⟩
        cases other with
        | nil => exact Nat.zero_le _
        | cons d other =>
          rw [encode_cons, List.append_assoc] at whole
          obtain ⟨rfl, tail⟩ := utf8EncodeChar_append_inj whole
          have bound := longest other ⟨left, tail⟩
          rw [encode_cons, encode_cons, List.length_append, List.length_append]
          omega
    · refine ⟨[], List.nil_prefix, ?_⟩
      rintro other ⟨left, whole⟩
      cases other with
      | nil => exact Nat.le_refl _
      | cons d other =>
        rw [encode_cons, List.append_assoc] at whole
        exact absurd ⟨d, _, whole.symm⟩ readable

theorem LongestText.begun {bytes : List UInt8} {text other : List Char}
    (h : LongestText bytes text) (ho : encode other <+: bytes) : other <+: text := by
  have shorter := h.longest other ho
  exact isPrefix_of_encode (List.prefix_of_prefix_length_le ho h.begins shorter)

/-- A text is the longest one if no character can be read behind it. -/
theorem LongestText.eq_of_stuck {bytes rest : List UInt8} {text whole : List Char}
    (h : LongestText bytes whole) (split : bytes = encode text ++ rest)
    (stuck : ∀ c more, rest ≠ String.utf8EncodeChar c ++ more) : text = whole := by
  obtain ⟨others, rfl⟩ := h.begun ⟨rest, split.symm⟩
  cases others with
  | nil => exact (List.append_nil text).symm
  | cons c others =>
    obtain ⟨more, same⟩ := h.begins
    rw [split, encode_append, encode_cons, List.append_assoc, List.append_assoc] at same
    exact absurd (List.append_cancel_left same).symm (stuck c _)

namespace Flow

def bytes (s : Flow) : List UInt8 :=
  s.filterMap fun
    | .ok byte => some byte
    | .error _ => none

def failures (s : Flow) : List DeviceError :=
  s.filterMap fun
    | .ok _ => none
    | .error error => some error

@[simp] theorem bytes_append (s t : Flow) : bytes (s ++ t) = bytes s ++ bytes t :=
  List.filterMap_append

@[simp] theorem failures_append (s t : Flow) : failures (s ++ t) = failures s ++ failures t :=
  List.filterMap_append

@[simp] theorem bytes_map (bytes : List UInt8) : Flow.bytes (bytes.map .ok) = bytes := by
  induction bytes with
  | nil => rfl
  | cons byte bytes ih => exact congrArg (byte :: ·) ih

@[simp] theorem failures_map (bytes : List UInt8) : failures (bytes.map .ok) = [] := by
  induction bytes with
  | nil => rfl
  | cons byte bytes ih => exact ih

@[simp] theorem bytes_error (error : DeviceError) (s : Flow) :
    bytes (.error error :: s) = bytes s := rfl

@[simp] theorem failures_error (error : DeviceError) (s : Flow) :
    failures (.error error :: s) = error :: failures s := rfl

def charsOf : Except ReadError (Option Char) → List Char
  | .ok (some c) => [c]
  | _ => []

def failureOf {α : Type} : Except ReadError α → List DeviceError
  | .error (.device error) => [error]
  | _ => []

/-- Looking at the next character takes a failure at most. -/
theorem peek_accounts (s : Flow) :
    bytes s = bytes (peek s).2 ∧ failures s = failureOf (peek s).1 ++ failures (peek s).2 := by
  have spec := decodes s
  unfold peek
  rcases hd : decode s with ⟨result, left⟩
  rw [hd] at spec
  cases spec with
  | ended => exact ⟨rfl, rfl⟩
  | char c back => exact ⟨rfl, rfl⟩
  | failed error back few => simp [failureOf]
  | malformed cause => exact ⟨rfl, rfl⟩

/-- Reading a character takes what it gives, and no more. -/
theorem next_accounts (s : Flow) :
    bytes s = encode (charsOf (next s).1) ++ bytes (next s).2 ∧
      failures s = failureOf (next s).1 ++ failures (next s).2 := by
  have spec := decodes s
  unfold next
  rcases hd : decode s with ⟨result, left⟩
  rw [hd] at spec
  cases spec with
  | ended => exact ⟨rfl, rfl⟩
  | char c back => simp [charsOf, failureOf, encode]
  | failed error back few => simp [charsOf, failureOf, encode]
  | malformed cause => exact ⟨rfl, rfl⟩

/-- A character that was seen ahead is the one read next. -/
theorem next_of_peek {s left : Flow} {c : Char} (h : peek s = (.ok (some c), left)) :
    (next left).1 = .ok (some c) := by
  have spec := decodes s
  unfold peek at h
  rcases hd : decode s with ⟨result, ahead⟩
  rw [hd] at spec h
  cases spec with
  | ended => simp at h
  | char d back =>
    simp only [Prod.mk.injEq, Except.ok.injEq, Option.some.injEq] at h
    obtain ⟨rfl, rfl⟩ := h
    change (next ((String.utf8EncodeChar d).map .ok ++ back)).1 = _
    rw [next, hd]
  | failed error back few => simp at h
  | malformed cause => simp at h

/-- A character that the bytes ahead begin with is read, unless a failure comes in between. -/
theorem decode_of_bytes {s : Flow} {c : Char} {more : List UInt8}
    (h : bytes s = String.utf8EncodeChar c ++ more) :
    (∃ width, (decode s).1 = .ok (some (c, width))) ∨
      ∃ error, (decode s).1 = .error (.device error) := by
  rcases ha : await (String.utf8EncodeChar c).length s with ⟨cause | _ | front, left⟩
  · obtain ⟨front, error, back, few, _, rfl, _⟩ := of_await_error ha
    rw [bytes_append, bytes_map, bytes_error] at h
    have begun : front <+: String.utf8EncodeChar c :=
      List.prefix_of_prefix_length_le ⟨_, h⟩ (List.prefix_append _ _) (Nat.le_of_lt few)
    obtain ⟨tail, same⟩ := begun
    rcases decode_beside error front back (tail.map .ok) with ⟨_, failed⟩ | ⟨result, _, hs, ht⟩
    · exact .inr ⟨error, failed⟩
    · have whole := decode_char c []
      rw [List.append_nil, ← same, List.map_append, ht] at whole
      rw [hs, (Prod.mk.inj whole).1]
      exact .inl ⟨_, rfl⟩
  · obtain ⟨front, few, rfl⟩ := of_await_none ha
    have count := congrArg List.length h
    rw [bytes_map, List.length_append] at count
    omega
  · obtain ⟨length, back, rfl⟩ := of_await_some ha
    rw [bytes_append, bytes_map] at h
    rw [(List.append_inj h length).1, decode_char]
    exact .inl ⟨_, rfl⟩

/-- Reading gives a character, or a failure of the device, or there is no character to read. -/
theorem next_cases (s : Flow) :
    (∃ c, (next s).1 = .ok (some c)) ∨ (∃ error, (next s).1 = .error (.device error)) ∨
      ∀ c more, bytes s ≠ String.utf8EncodeChar c ++ more := by
  by_cases readable : ∃ c more, bytes s = String.utf8EncodeChar c ++ more
  · obtain ⟨c, more, h⟩ := readable
    rw [next_fst]
    rcases decode_of_bytes h with ⟨width, read⟩ | ⟨error, failed⟩
    · rw [read]
      exact .inl ⟨c, rfl⟩
    · rw [failed]
      exact .inr (.inl ⟨error, rfl⟩)
  · exact .inr (.inr fun c more h => readable ⟨c, more, h⟩)

theorem kind_of_failures {steps : List ReadStep} {error : DeviceError}
    (h : error ∈ failures (flow steps)) : error.kind ≠ .interrupted := by
  fun_induction flow steps with
  | case1 => simp [failures] at h
  | case2 again steps _ ih => exact ih h
  | case3 final steps other ih =>
    rw [failures_error] at h
    rcases List.mem_cons.mp h with rfl | h
    · exact other
    · exact ih h
  | case4 => simp [failures] at h
  | case5 byte bytes steps ih =>
    rw [failures_append, failures_map, List.nil_append] at h
    exact ih h

end Flow

theorem consumed_cons (entry : CursorRequest × CursorReply)
    (shown : List (CursorRequest × CursorReply)) :
    consumed (entry :: shown) = entry.2.consumed entry.1 ++ consumed shown := rfl

theorem reported_cons (entry : CursorRequest × CursorReply)
    (shown : List (CursorRequest × CursorReply)) :
    reported (entry :: shown) = entry.2.device?.toList ++ reported shown := by
  cases failure : entry.2.device? with
  | none => simp [reported, failure]
  | some error => simp [reported, failure]

namespace Cursor

variable {cursor : Cursor} {script : Flow} {text : List Char} {failures : List DeviceError}

/-- What the input holds is what has been given, and then what is ahead of the cursor. -/
structure Accounted (script : Flow) (text : List Char) (failures : List DeviceError)
    (cursor : Cursor) : Prop where
  wellFormed : cursor.buffer.WellFormed
  bytes : script.bytes = encode text ++ cursor.buffer.stream.bytes
  failures : script.failures = failures ++ cursor.buffer.stream.failures

/-- The cursor is behind `text`, on its last character or past the end. -/
structure Placed (text : List Char) (cursor : Cursor) : Prop where
  ahead : cursor.nextPosition = Position.start.after text
  onChar : ∀ c, cursor.current = some c →
    ∃ before, text = before ++ [c] ∧ cursor.position = Position.start.after before
  offChar : cursor.current = none → cursor.position = cursor.nextPosition

theorem next_cases (cursor : Cursor) :
    (∃ cause buffer, cursor.next = (.error cause, { cursor with buffer })) ∨
      ∃ c buffer, cursor.next = (.ok c, cursor.step buffer c) := by
  unfold next
  rcases cursor.buffer.next with ⟨cause | c, buffer⟩
  · exact .inl ⟨cause, buffer, rfl⟩
  · exact .inr ⟨c, buffer, rfl⟩

theorem next_of_peek (wf : cursor.buffer.WellFormed) {c : Char}
    (h : cursor.peek.1 = .ok (some c)) : cursor.peek.2.next.1 = .ok (some c) := by
  have seen := ReadBuffer.peek_stream wf
  have read := ReadBuffer.next_stream wf.peek
  rw [show cursor.buffer.peek.1 = .ok (some c) from h] at seen
  have given := Flow.next_of_peek seen
  rw [read] at given
  exact (next_fst _).trans given

/-- Asking for a character ends with reading it, or like a look at the next one. -/
theorem nextIf_cases (wf : cursor.buffer.WellFormed) (p : Char → Bool) :
    (∃ c, p c = true ∧ cursor.peek.1 = .ok (some c) ∧ cursor.peek.2.next.1 = .ok (some c) ∧
        cursor.nextIf p = (.ok (some c), cursor.peek.2.next.2)) ∨
      (∃ cause, cursor.peek.1 = .error cause ∧ cursor.nextIf p = (.error cause, cursor.peek.2)) ∨
      (∃ c?, cursor.peek.1 = .ok c? ∧ cursor.nextIf p = (.ok none, cursor.peek.2)) := by
  unfold nextIf
  rcases hp : cursor.peek with ⟨cause | _ | c, ahead⟩
  · exact .inr (.inl ⟨cause, rfl, rfl⟩)
  · exact .inr (.inr ⟨none, rfl, rfl⟩)
  · dsimp only
    split
    next expected =>
      have given := next_of_peek wf (congrArg Prod.fst hp)
      rw [hp] at given
      refine .inl ⟨c, expected, rfl, given, ?_⟩
      rw [← given]
    next => exact .inr (.inr ⟨some c, rfl, rfl⟩)

theorem Accounted.peek (h : cursor.Accounted script text failures) :
    Accounted script text (failures ++ Flow.failureOf cursor.peek.1) cursor.peek.2 := by
  have ahead := ReadBuffer.peek_stream h.wellFormed
  obtain ⟨bytes, taken⟩ := Flow.peek_accounts cursor.buffer.stream
  rw [ahead] at bytes taken
  refine ⟨h.wellFormed.peek, ?_, ?_⟩
  · exact h.bytes.trans (congrArg (encode text ++ ·) bytes)
  · rw [List.append_assoc]
    exact h.failures.trans (congrArg (failures ++ ·) taken)

theorem Accounted.next (h : cursor.Accounted script text failures) :
    Accounted script (text ++ Flow.charsOf cursor.next.1)
      (failures ++ Flow.failureOf cursor.next.1) cursor.next.2 := by
  have ahead := ReadBuffer.next_stream h.wellFormed
  obtain ⟨bytes, taken⟩ := Flow.next_accounts cursor.buffer.stream
  rw [ahead] at bytes taken
  have wf := h.wellFormed.next
  rw [next_fst]
  refine ⟨?_, ?_, ?_⟩
  · rw [next_buffer]
    exact wf
  · rw [next_buffer, encode_append, List.append_assoc, h.bytes, bytes]
  · rw [next_buffer, List.append_assoc, h.failures, taken]

theorem serve_next (cursor : Cursor) :
    cursor.serve .next = (.char cursor.next.1, cursor.next.2) := rfl

theorem serve_peek (cursor : Cursor) :
    cursor.serve .peek = (.char cursor.peek.1, cursor.peek.2) := rfl

theorem serve_nextIf (cursor : Cursor) (expected : Char) :
    cursor.serve (.nextIf expected) =
      (.met ((cursor.nextIf (· == expected)).1.map Option.isSome),
        (cursor.nextIf (· == expected)).2) := rfl

theorem Accounted.nextIf (h : cursor.Accounted script text failures) (p : Char → Bool) :
    Accounted script (text ++ Flow.charsOf (cursor.nextIf p).1)
      (failures ++ Flow.failureOf (cursor.nextIf p).1) (cursor.nextIf p).2 := by
  have seen := h.peek
  rcases cursor.nextIf_cases h.wellFormed p with
    ⟨c, _, ahead, read, same⟩ | ⟨cause, ahead, same⟩ | ⟨c?, ahead, same⟩
  · have taken := seen.next
    rw [ahead, read] at taken
    rw [same]
    simpa [Flow.failureOf] using taken
  · rw [ahead] at seen
    rw [same]
    simpa [Flow.charsOf] using seen
  · have silent : Flow.failureOf cursor.peek.1 = [] := by
      rw [ahead]
      rfl
    rw [silent] at seen
    rw [same]
    simpa [Flow.charsOf, Flow.failureOf] using seen

/-- What a request does: it leaves the user where it was, or it steps onto the next character, or
past the end. -/
theorem serve_cases (wf : cursor.buffer.WellFormed) (request : CursorRequest) :
    ((cursor.serve request).1.consumed request = [] ∧
        (cursor.serve request).2.current = cursor.current ∧
        (cursor.serve request).2.position = cursor.position ∧
        (cursor.serve request).2.nextPosition = cursor.nextPosition) ∨
      ∃ c? buffer, (cursor.serve request).1.consumed request = c?.toList ∧
        (cursor.serve request).1.isIdle request = false ∧
        (cursor.serve request).2 = cursor.step buffer c? := by
  cases request with
  | next =>
    rw [serve_next]
    rcases cursor.next_cases with ⟨cause, buffer, same⟩ | ⟨c?, buffer, same⟩
    · rw [same]
      exact .inl ⟨rfl, rfl, rfl, rfl⟩
    · rw [same]
      exact .inr ⟨c?, buffer, rfl, rfl, rfl⟩
  | peek => exact .inl ⟨rfl, rfl, rfl, rfl⟩
  | nextIf expected =>
    rw [serve_nextIf]
    rcases cursor.nextIf_cases wf (· == expected) with
      ⟨c, met, _, read, same⟩ | ⟨cause, _, same⟩ | ⟨c?, _, same⟩
    · rcases cursor.peek.2.next_cases with ⟨cause, buffer, given⟩ | ⟨c?, buffer, given⟩
      · rw [given] at read
        cases read
      · rw [given] at read same
        cases read
        rw [same, ← beq_iff_eq.mp met]
        exact .inr ⟨some c, buffer, rfl, rfl, rfl⟩
    · rw [same]
      exact .inl ⟨rfl, rfl, rfl, rfl⟩
    · rw [same]
      exact .inl ⟨rfl, rfl, rfl, rfl⟩

theorem Placed.step (h : cursor.Placed text) (buffer : ReadBuffer) (c? : Option Char) :
    (cursor.step buffer c?).Placed (text ++ c?.toList) := by
  have here : (cursor.step buffer c?).position = cursor.nextPosition := rfl
  cases c? with
  | none =>
    rw [Option.toList_none, List.append_nil]
    exact ⟨h.ahead, by simp [Cursor.step], fun _ => rfl⟩
  | some c =>
    rw [Option.toList_some]
    refine ⟨?_, ?_, by simp [Cursor.step]⟩
    · rw [Position.after_append, ← h.ahead]
      rfl
    · intro d hd
      cases hd
      exact ⟨text, rfl, here.trans h.ahead⟩

theorem Placed.serve (h : cursor.Placed text) (wf : cursor.buffer.WellFormed)
    (request : CursorRequest) :
    Placed (text ++ (cursor.serve request).1.consumed request) (cursor.serve request).2 := by
  rcases serve_cases wf request with
    ⟨nothing, current, position, next⟩ | ⟨c?, buffer, given, _, same⟩
  · rw [nothing, List.append_nil]
    refine ⟨next.trans h.ahead, ?_, ?_⟩
    · intro c hc
      rw [position]
      exact h.onChar c (current ▸ hc)
    · intro hc
      rw [position, next]
      exact h.offChar (current ▸ hc)
  · rw [given, same]
    exact h.step buffer c?

theorem consumed_char (result : Except ReadError (Option Char)) :
    (CursorReply.char result).consumed .next = Flow.charsOf result := by
  rcases result with _ | _ | _
  · rfl
  · rfl
  · rfl

theorem consumed_met {result : Except ReadError (Option Char)} {expected : Char}
    (h : ∀ c, result = .ok (some c) → c = expected) :
    (CursorReply.met (result.map Option.isSome)).consumed (.nextIf expected) =
      Flow.charsOf result := by
  rcases result with _ | _ | c
  · rfl
  · rfl
  · rw [h c rfl]
    rfl

theorem device?_char (result : Except ReadError (Option Char)) :
    (CursorReply.char result).device?.toList = Flow.failureOf result := by
  rcases result with (_ | _) | _
  · rfl
  · rfl
  · rfl

theorem device?_met (result : Except ReadError (Option Char)) :
    (CursorReply.met (result.map Option.isSome)).device?.toList = Flow.failureOf result := by
  rcases result with (_ | _) | _
  · rfl
  · rfl
  · rfl

theorem eq_of_nextIf (wf : cursor.buffer.WellFormed) {c expected : Char}
    (h : (cursor.nextIf (· == expected)).1 = .ok (some c)) : c = expected := by
  rcases cursor.nextIf_cases wf (· == expected) with
    ⟨d, met, _, _, same⟩ | ⟨cause, _, same⟩ | ⟨c?, _, same⟩
  · rw [same] at h
    cases h
    exact beq_iff_eq.mp met
  · rw [same] at h
    cases h
  · rw [same] at h
    cases h

theorem Accounted.serve (h : cursor.Accounted script text failures) (request : CursorRequest) :
    Accounted script (text ++ (cursor.serve request).1.consumed request)
      (failures ++ (cursor.serve request).1.device?.toList) (cursor.serve request).2 := by
  cases request with
  | next =>
    rw [serve_next, consumed_char, device?_char]
    exact h.next
  | peek =>
    have nothing : (CursorReply.char cursor.peek.1).consumed .peek = [] := rfl
    rw [serve_peek, nothing, device?_char, List.append_nil]
    exact h.peek
  | nextIf expected =>
    rw [serve_nextIf, consumed_met fun c => eq_of_nextIf h.wellFormed, device?_met]
    exact h.nextIf _

theorem session_cons (cursor : Cursor) (request : CursorRequest) (requests : List CursorRequest) :
    cursor.session (request :: requests) =
      (request, (cursor.serve request).1) :: (cursor.serve request).2.session requests := rfl

/-- Whatever is asked, and however often it fails, the accounts and the place stay right. -/
theorem Accounted.serveAll (h : cursor.Accounted script text failures) (hp : cursor.Placed text)
    (requests : List CursorRequest) :
    Accounted script (text ++ consumed (cursor.session requests))
        (failures ++ reported (cursor.session requests)) (cursor.serveAll requests) ∧
      Placed (text ++ consumed (cursor.session requests)) (cursor.serveAll requests) := by
  induction requests generalizing cursor text failures with
  | nil =>
    have nothing : consumed (cursor.session []) = [] ∧ reported (cursor.session []) = [] :=
      ⟨rfl, rfl⟩
    rw [nothing.1, nothing.2, List.append_nil, List.append_nil]
    exact ⟨h, hp⟩
  | cons request requests ih =>
    have rest := ih (h.serve request) (hp.serve h.wellFormed request)
    rw [session_cons, consumed_cons, reported_cons, ← List.append_assoc, ← List.append_assoc]
    exact rest

theorem accounted_ofReader (reader : Reader) (capacity : Nat) :
    (ofReader reader capacity).Accounted (flow reader.steps) [] [] := by
  have stream := ReadBuffer.stream_ofReader reader capacity
  refine ⟨ReadBuffer.wellFormed_ofReader reader capacity, ?_, ?_⟩
  · exact congrArg Flow.bytes stream.symm
  · exact congrArg Flow.failures stream.symm

theorem placed_ofReader (reader : Reader) (capacity : Nat) :
    (ofReader reader capacity).Placed [] := by
  refine ⟨rfl, ?_, fun _ => rfl⟩
  intro c hc
  cases hc

/-- As many requests for a character as a text has characters give the text. -/
theorem consumed_all (wf : cursor.buffer.WellFormed) {text : List Char}
    (ahead : cursor.buffer.stream = (encode text).map .ok) :
    consumed (cursor.session (List.replicate text.length .next)) = text := by
  induction text generalizing cursor with
  | nil => rfl
  | cons c text ih =>
    have read := ReadBuffer.next_stream wf
    rw [ahead, Flow.next_encode] at read
    obtain ⟨given, left⟩ := Prod.mk.inj read
    have after : cursor.next.2.buffer.WellFormed := by
      rw [next_buffer]
      exact wf.next
    have behind : cursor.next.2.buffer.stream = (encode text).map .ok := by rw [next_buffer, left]
    rw [List.length_cons, List.replicate_succ, session_cons, consumed_cons, serve_next,
      consumed_char, next_fst, ← given, ih after behind]
    rfl

end Cursor

end JackTokens
