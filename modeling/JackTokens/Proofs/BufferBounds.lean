import JackTokens.StoredBuffer
import JackTokens.Proofs.CharacterBytes
import JackTokens.Proofs.Retrying

namespace JackTokens

/-- More bytes are needed for the next character than there are. -/
inductive Wanting : List UInt8 → Prop
  | empty : Wanting []
  | cut {lead rest n} : TrailingCount lead.toNat n → rest.length < n → Wanting (lead :: rest)

/-- The bytes that calls of a reader gave, the latest call first. -/
def delivered (calls : List ReadCall) : List UInt8 :=
  calls.reverse.flatMap fun call => received call.given

theorem delivered_cons (call : ReadCall) (calls : List ReadCall) :
    delivered (call :: calls) = delivered calls ++ received call.given := by
  simp [delivered]

/-- What a reader gives to calls with these rooms. -/
def Reader.answers (reader : Reader) : List Nat → List (Except DeviceError (List UInt8))
  | [] => []
  | room :: rooms =>
    match reader.read room with
    | (given, reader) => given :: reader.answers rooms

/-- The characters that a request gives the user for good. -/
def BufferRequest.taken : BufferRequest → Except ReadError (Option Char) → List Char
  | .next, reply => Flow.charsOf reply
  | .peek, _ => []

def takenAll (requests : List BufferRequest) (replies : List (Except ReadError (Option Char))) :
    List Char :=
  (requests.zip replies).flatMap fun entry => entry.1.taken entry.2

namespace ReadBuffer

variable {buffer : ReadBuffer}

@[simp] theorem compact_refills (buffer : ReadBuffer) :
    buffer.compact.refills = buffer.refills := by
  unfold compact
  split <;> rfl

/-- A character that is read lies at the front of the unread bytes. -/
theorem take_of_decode (wf : buffer.WellFormed) {decoded : ReadBuffer} {c : Char} {width : Nat}
    (h : buffer.decode = (.ok (some (c, width)), decoded)) :
    decoded.unread.take width = String.utf8EncodeChar c := by
  have enough := (width_of_decode h).2
  have spec := Flow.decodes buffer.stream
  rw [decode_stream wf, h] at spec
  generalize buffer.stream = whole at spec
  generalize hs : decoded.stream = s at spec
  cases spec with
  | char _ back =>
    have hs : decoded.stream = (String.utf8EncodeChar c).map .ok ++ back := hs
    have front := congrArg (List.take (String.utf8EncodeChar c).length) hs
    rw [stream, List.take_append_of_le_length (by simpa using enough), ← List.map_take,
      List.take_left' (List.length_map _)] at front
    have bytes := congrArg Flow.bytes front
    rwa [Flow.bytes_map, Flow.bytes_map] at bytes

theorem serve_accounts (wf : buffer.WellFormed) (request : BufferRequest) :
    buffer.stream.bytes = encode (request.taken (buffer.serve request).1) ++
      (buffer.serve request).2.stream.bytes := by
  cases request with
  | next =>
    have given := (Flow.next_accounts buffer.stream).1
    rwa [next_stream wf] at given
  | peek =>
    have same := (Flow.peek_accounts buffer.stream).1
    rwa [peek_stream wf] at same

theorem WellFormed.serve (wf : buffer.WellFormed) (request : BufferRequest) :
    (buffer.serve request).2.WellFormed := by
  cases request with
  | next => exact wf.next
  | peek => exact wf.peek

/-- Requests take bytes from the front of the input. -/
theorem session_accounts (wf : buffer.WellFormed) (requests : List BufferRequest) :
    buffer.stream.bytes = encode (takenAll requests (buffer.session requests)) ++
      (buffer.serveAll requests).stream.bytes := by
  induction requests generalizing buffer with
  | nil => rfl
  | cons request requests ih =>
    have first := serve_accounts wf request
    rw [ih (wf.serve request), ← List.append_assoc, ← encode_append] at first
    exact first

end ReadBuffer

namespace StoredBuffer

/-- The buffer as it runs, which forgets what lies in the store besides the unread bytes. -/
def view (buffer : StoredBuffer) : ReadBuffer :=
  ⟨buffer.reader, buffer.store.length, buffer.start, buffer.unread, buffer.ended, buffer.refills⟩

@[simp] theorem view_unread (buffer : StoredBuffer) : buffer.view.unread = buffer.unread := rfl

@[simp] theorem view_ended (buffer : StoredBuffer) : buffer.view.ended = buffer.ended := rfl

/-- The unread bytes lie within a store of `size` bytes, the calls are those of `script`, each was
made for need and with room, and what they gave is `text` and the unread bytes. -/
structure Sound (script : Reader) (size : Nat) (text : List Char) (buffer : StoredBuffer) :
    Prop where
  min_le : minCapacity ≤ size
  length_store : buffer.store.length = size
  start_le : buffer.start ≤ buffer.stop
  stop_le : buffer.stop ≤ size
  offers : buffer.calls.map ReadCall.room = buffer.reader.offers
  answered : ∀ rooms, script.answers ((buffer.calls.map ReadCall.room).reverse ++ rooms) =
    (buffer.calls.map ReadCall.given).reverse ++ buffer.reader.answers rooms
  calls : ∀ call ∈ buffer.calls,
    0 < call.room ∧ (received call.given).length ≤ call.room ∧ Wanting call.unread
  ended : ∀ call ∈ buffer.calls, call.given = .ok [] → buffer.ended = true
  delivered : encode text ++ buffer.unread = delivered buffer.calls
  refills : buffer.refills = buffer.calls.countP fun call => received call.given ≠ []

variable {script : Reader} {size : Nat} {text : List Char} {buffer : StoredBuffer}

theorem length_unread (h : buffer.Sound script size text) :
    buffer.unread.length = buffer.stop - buffer.start := by
  have stop := h.stop_le
  have length := h.length_store
  rw [unread, List.length_drop, List.length_take]
  omega

theorem Sound.view_room (h : buffer.Sound script size text) :
    buffer.view.room = size - buffer.stop := by
  have start := h.start_le
  have length := length_unread h
  simp only [ReadBuffer.room, ReadBuffer.stop, view, h.length_store]
  omega

theorem Sound.wellFormed (h : buffer.Sound script size text) : buffer.view.WellFormed := by
  have start := h.start_le
  have stop := h.stop_le
  have length := length_unread h
  have least := h.min_le
  constructor
  · simpa [view, h.length_store] using least
  · simp only [ReadBuffer.stop, view, h.length_store]
    omega

theorem Sound.compact? (h : buffer.Sound script size text) :
    ∃ moved, buffer.compact? = some moved ∧ moved.Sound script size text ∧
      moved.view = { buffer.view with start := 0 } := by
  have start := h.start_le
  have stop := h.stop_le
  have length := length_unread h
  let store := buffer.unread ++ buffer.store.drop buffer.unread.length
  let moved : StoredBuffer :=
    { buffer with store, start := 0, stop := buffer.stop - buffer.start }
  have inside : 0 + buffer.unread.length ≤ buffer.store.length := by
    rw [h.length_store]
    omega
  have all : slice? buffer.store buffer.start buffer.stop = some buffer.unread :=
    if_pos ⟨start, h.length_store ▸ stop⟩
  have placed : write? buffer.store 0 buffer.unread = some store := by
    rw [write?, if_pos inside, Nat.zero_add]
    rfl
  have rest : minus? buffer.stop buffer.start = some (buffer.stop - buffer.start) := if_pos start
  have kept : store.length = size := by
    rw [List.length_append, List.length_drop, h.length_store]
    omega
  have same : moved.unread = buffer.unread := by
    show List.drop 0 (store.take (buffer.stop - buffer.start)) = buffer.unread
    rw [List.drop_zero, ← length, List.take_left]
  refine ⟨moved, ?_, ?_, ?_⟩
  · simp [StoredBuffer.compact?, all, placed, rest, moved]
  · exact ⟨h.min_le, kept, Nat.zero_le _, Nat.le_trans (Nat.sub_le _ _) stop, h.offers,
      h.answered, h.calls, h.ended, by rw [same]; exact h.delivered, h.refills⟩
  · simp only [view, same, kept, h.length_store, moved]

theorem Sound.makeRoom? (h : buffer.Sound script size text) :
    ∃ made, buffer.makeRoom? = some made ∧ made.Sound script size text ∧
      made.view = buffer.view.compact := by
  have stop := h.stop_le
  unfold StoredBuffer.makeRoom? ReadBuffer.compact
  rw [h.length_store, h.view_room]
  by_cases full : buffer.stop = size
  · obtain ⟨made, moved, sound, view⟩ := h.compact?
    refine ⟨made, by rw [if_pos full, moved], sound, ?_⟩
    rw [if_pos (by omega)]
    exact view
  · refine ⟨buffer, if_neg full, h, ?_⟩
    rw [if_neg (by omega)]

/-- What a call gives lies behind the unread bytes. -/
theorem Sound.read? (h : buffer.Sound script size text) {given : Except DeviceError (List UInt8)}
    {reader : Reader} (hr : buffer.reader.read buffer.view.room = (given, reader)) :
    (received given).length ≤ buffer.view.room ∧ ∃ store,
      buffer.read? = some (given, { buffer with
          reader, store, calls := ⟨buffer.unread, buffer.view.room, given⟩ :: buffer.calls }) ∧
        store.length = size ∧
        (store.take (buffer.stop + (received given).length)).drop buffer.start =
          buffer.unread ++ received given := by
  have start := h.start_le
  have stop := h.stop_le
  have room := h.view_room
  have fits : (received given).length ≤ buffer.view.room := by
    cases given with
    | error => exact Nat.zero_le _
    | ok bytes => exact Reader.length_le_of_read hr
  let store := buffer.store.take buffer.stop ++ received given ++
    buffer.store.drop (buffer.stop + (received given).length)
  have free : slice? buffer.store buffer.stop buffer.store.length =
      some (buffer.store.drop buffer.stop) := by
    rw [slice?, if_pos ⟨h.length_store ▸ stop, Nat.le_refl _⟩, List.take_length]
  have offered : (buffer.store.drop buffer.stop).length = buffer.view.room := by
    rw [List.length_drop, h.length_store, room]
  have placed : write? buffer.store buffer.stop (received given) = some store :=
    if_pos (by rw [h.length_store]; omega)
  have length : (buffer.store.take buffer.stop).length = buffer.stop := by
    rw [List.length_take, h.length_store]
    omega
  refine ⟨fits, store, ?_, ?_, ?_⟩
  · simp only [StoredBuffer.read?, free, offered, hr, Option.bind_eq_bind, Option.bind_some]
    rw [placed]
    rfl
  · rw [List.length_append, List.length_append, length, List.length_drop, h.length_store]
    omega
  · have whole : buffer.stop + (received given).length =
        (buffer.store.take buffer.stop ++ received given).length := by
      rw [List.length_append, length]
    rw [whole, List.take_left, List.drop_append_of_le_length (by omega)]
    rfl

/-- The reader is to be called. -/
structure Due (buffer : StoredBuffer) : Prop where
  going : buffer.ended = false
  few : buffer.unread.length < minCapacity
  wanting : Wanting buffer.unread

/-- The accounts go on with the bytes of a call, once they are counted as unread. -/
theorem Sound.took (h : buffer.Sound script size text) (due : buffer.Due)
    (room : 0 < buffer.view.room)
    {given : Except DeviceError (List UInt8)} {reader : Reader} {store : List UInt8}
    {refills : Nat} {ended : Bool} (hr : buffer.reader.read buffer.view.room = (given, reader))
    (fits : (received given).length ≤ buffer.view.room) (length : store.length = size)
    (back : (store.take (buffer.stop + (received given).length)).drop buffer.start =
      buffer.unread ++ received given)
    (counted : refills = buffer.refills + if received given ≠ [] then 1 else 0)
    (last : given = .ok [] → ended = true) :
    Sound script size text { buffer with
      reader, store, ended, refills, stop := buffer.stop + (received given).length,
      calls := ⟨buffer.unread, buffer.view.room, given⟩ :: buffer.calls } := by
  have start := h.start_le
  have stop := h.stop_le
  have free := h.view_room
  constructor
  case min_le => exact h.min_le
  case length_store => exact length
  case start_le => exact Nat.le_trans start (Nat.le_add_right _ _)
  case stop_le =>
    show buffer.stop + (received given).length ≤ size
    omega
  case offers =>
    rw [Reader.offers_of_read hr]
    exact congrArg (buffer.view.room :: ·) h.offers
  case answered =>
    intro rooms
    have before := h.answered (buffer.view.room :: rooms)
    rw [Reader.answers, hr] at before
    simp only [List.map_cons, List.reverse_cons, List.append_assoc, List.singleton_append]
    exact before
  case calls =>
    intro call hc
    rcases List.mem_cons.mp hc with rfl | hc
    · exact ⟨room, fits, due.wanting⟩
    · exact h.calls call hc
  case ended =>
    intro call hc none
    rcases List.mem_cons.mp hc with rfl | hc
    · exact last none
    · have past := h.ended call hc none
      rw [due.going] at past
      cases past
  case delivered =>
    rw [delivered_cons, ← h.delivered, List.append_assoc]
    exact congrArg (encode text ++ ·) back
  case refills =>
    rw [List.countP_cons, ← h.refills]
    simpa using counted

/-- A call that is due keeps the accounts, whatever it gives. -/
theorem Sound.refill? (h : buffer.Sound script size text) (due : buffer.Due)
    {given : Except DeviceError (List UInt8)} {reader : Reader}
    (hr : buffer.view.compact.reader.read buffer.view.compact.room = (given, reader)) :
    ∃ after, buffer.refill? = some (given, after) ∧ after.refills = buffer.refills ∧
      after.ended = false ∧ ∀ refills ended,
        refills = buffer.refills + (if received given ≠ [] then 1 else 0) →
        (given = .ok [] → ended = true) →
        let left := { after with stop := after.stop + (received given).length, ended, refills }
        left.Sound script size text ∧ left.view = { buffer.view.compact with
          reader, ended, refills, unread := buffer.unread ++ received given } := by
  obtain ⟨made, hm, sound, view⟩ := h.makeRoom?
  have room := h.wellFormed.room_pos due.few
  have unread : made.unread = buffer.unread := by
    have same := congrArg ReadBuffer.unread view
    rwa [ReadBuffer.compact_unread] at same
  have refills : made.refills = buffer.refills := by
    have same := congrArg ReadBuffer.refills view
    rwa [ReadBuffer.compact_refills] at same
  have ended : made.ended = buffer.ended := by
    have same := congrArg ReadBuffer.ended view
    rwa [ReadBuffer.compact_ended] at same
  have due : made.Due :=
    ⟨ended.trans due.going, unread ▸ due.few, unread ▸ due.wanting⟩
  rw [← view] at hr room
  obtain ⟨fits, store, read, length, back⟩ := sound.read? hr
  refine ⟨{ made with
      reader, store, calls := ⟨made.unread, made.view.room, given⟩ :: made.calls }, ?_, refills,
    due.going, ?_⟩
  · rw [StoredBuffer.refill?, hm]
    exact read
  · intro refills' ended' counted last
    rw [← refills] at counted
    refine ⟨sound.took due room hr fits length back counted last, ?_⟩
    rw [← view, ← unread, ← back]
    show ReadBuffer.mk reader store.length made.start _ ended' refills' =
      ReadBuffer.mk reader made.store.length made.start _ ended' refills'
    rw [length, sound.length_store]
    rfl

theorem Sound.refill?_end (h : buffer.Sound script size text) (due : buffer.Due) {reader : Reader}
    (hr : buffer.view.compact.reader.read buffer.view.compact.room = (.ok [], reader)) :
    ∃ after, buffer.refill? = some (.ok [], after) ∧
      Sound script size text { after with ended := true } ∧
      { after with ended := true }.view = { buffer.view.compact with reader, ended := true } := by
  obtain ⟨after, called, refills, _, next⟩ := h.refill? due hr
  obtain ⟨sound, view⟩ := next after.refills true (by simpa [received]) fun _ => rfl
  refine ⟨after, called, sound, view.trans ?_⟩
  simp [received, refills, StoredBuffer.view]

theorem Sound.refill?_bytes (h : buffer.Sound script size text) (due : buffer.Due) {reader : Reader}
    {byte : UInt8} {bytes : List UInt8}
    (hr : buffer.view.compact.reader.read buffer.view.compact.room =
      (.ok (byte :: bytes), reader)) :
    ∃ after, let taken := { after with
        stop := after.stop + (byte :: bytes).length, refills := after.refills + 1 }
      buffer.refill? = some (.ok (byte :: bytes), after) ∧ taken.Sound script size text ∧
        taken.view = buffer.view.compact.accept reader (byte :: bytes) ∧
        taken.unread = buffer.unread ++ byte :: bytes := by
  obtain ⟨after, called, refills, ended, next⟩ := h.refill? due hr
  obtain ⟨sound, view⟩ :=
    next (after.refills + 1) after.ended (by simp [received, refills]) (by simp)
  refine ⟨after, called, sound, view.trans ?_, congrArg ReadBuffer.unread view⟩
  simp [received, refills, ended, due.going, ReadBuffer.accept, StoredBuffer.view]

theorem Sound.refill?_fail (h : buffer.Sound script size text) (due : buffer.Due) {reader : Reader}
    {error : DeviceError}
    (hr : buffer.view.compact.reader.read buffer.view.compact.room = (.error error, reader)) :
    ∃ after, buffer.refill? = some (.error error, after) ∧ after.Sound script size text ∧
      after.view = { buffer.view.compact with reader } ∧ after.unread = buffer.unread := by
  obtain ⟨after, called, refills, ended, next⟩ := h.refill? due hr
  obtain ⟨sound, view⟩ := next after.refills after.ended (by simpa [received]) (by simp)
  have unread := (congrArg ReadBuffer.unread view).trans (List.append_nil _)
  refine ⟨after, called, sound, view.trans ?_, unread⟩
  simp [received, refills, ended, due.going, StoredBuffer.view]

theorem Sound.fill?_eq (h : buffer.Sound script size text) (want : Nat) :
    buffer.fill? want =
      if buffer.view.holds want then some (.ok true, buffer)
      else if buffer.ended then some (.ok false, buffer)
      else
        match buffer.refill? with
        | none => none
        | some (.ok [], after) => some (.ok false, { after with ended := true })
        | some (.ok (byte :: bytes), after) =>
          fill? { after with
            stop := after.stop + (byte :: bytes).length
            refills := after.refills + 1 } want
        | some (.error error, after) =>
          if error.kind = .interrupted then fill? after want
          else some (.error (.device error), after) := by
  have held : minus? buffer.stop buffer.start = some buffer.unread.length := by
    rw [length_unread h]
    exact if_pos h.start_le
  rw [StoredBuffer.fill?, held]
  simp only [ReadBuffer.holds_iff, view]
  split
  next => rfl
  next =>
    split
    next => rfl
    next =>
      split
      next none => rw [none]
      next ended => rw [ended]
      next given => rw [given]
      next failed => rw [failed]

theorem due_of_need {want : Nat} (bound : want ≤ minCapacity)
    (need : ∀ more, (buffer.unread ++ more).length < want → Wanting (buffer.unread ++ more))
    (hold : ¬ buffer.view.holds want = true) (going : ¬ buffer.view.ended = true) :
    buffer.Due := by
  have few : buffer.unread.length < want := by
    rw [ReadBuffer.holds_iff] at hold
    exact Nat.lt_of_not_le hold
  have here := need []
  rw [List.append_nil] at here
  exact ⟨Bool.eq_false_iff.mpr going, Nat.lt_of_lt_of_le few bound, here few⟩

/-- Filling stays within the store, does what it does as it runs, and reads for need only, as long
as all unread bytes fewer than `want` are too few for a character. -/
theorem Sound.fill? (h : buffer.Sound script size text) {want : Nat} (bound : want ≤ minCapacity)
    (need : ∀ more, (buffer.unread ++ more).length < want → Wanting (buffer.unread ++ more)) :
    ∃ filled, buffer.fill? want = some ((buffer.view.fill want).1, filled) ∧
      filled.Sound script size text ∧ filled.view = (buffer.view.fill want).2 := by
  generalize hv : buffer.view = v
  fun_induction ReadBuffer.fill v want generalizing buffer with
  | case1 v hold =>
    refine ⟨buffer, ?_, h, hv⟩
    rw [h.fill?_eq, hv, if_pos hold]
  | case2 v hold ended =>
    subst hv
    have ended : buffer.ended = true := ended
    refine ⟨buffer, ?_, h, rfl⟩
    rw [h.fill?_eq, if_neg hold, if_pos ended]
  | case3 v hold going reader hr =>
    subst hv
    have due := due_of_need bound need hold going
    obtain ⟨after, called, sound, view⟩ := h.refill?_end due hr
    refine ⟨_, ?_, sound, view⟩
    rw [h.fill?_eq, if_neg hold, due.going, called]
    rfl
  | case4 v hold going byte bytes reader hr ih =>
    subst hv
    have due := due_of_need bound need hold going
    obtain ⟨after, called, sound, view, unread⟩ := h.refill?_bytes due hr
    have need' := fun more => need ((byte :: bytes) ++ more)
    simp only [← List.append_assoc, ← unread] at need'
    obtain ⟨filled, run, done⟩ := ih sound need' view
    refine ⟨filled, ?_, done⟩
    rw [h.fill?_eq, if_neg hold, due.going, called]
    exact run
  | case5 v hold going error reader hr again ih =>
    subst hv
    have due := due_of_need bound need hold going
    obtain ⟨after, called, sound, view, unread⟩ := h.refill?_fail due hr
    rw [← unread] at need
    obtain ⟨filled, run, done⟩ := ih sound need view
    refine ⟨filled, ?_, done⟩
    rw [h.fill?_eq, if_neg hold, due.going, called]
    simpa [again] using run
  | case6 v hold going error reader hr final =>
    subst hv
    have due := due_of_need bound need hold going
    obtain ⟨after, called, sound, view, _⟩ := h.refill?_fail due hr
    refine ⟨after, ?_, sound, view⟩
    rw [h.fill?_eq, if_neg hold, due.going, called]
    simp [final]

theorem getElem?_start {lead : UInt8} {rest : List UInt8} (h : buffer.unread = lead :: rest) :
    buffer.store[buffer.start]? = some lead := by
  have first : buffer.unread[0]? = some lead := by
    rw [h]
    rfl
  rw [unread, List.getElem?_drop, Nat.add_zero] at first
  by_cases inside : buffer.start < buffer.stop
  · rwa [List.getElem?_take_of_lt inside] at first
  · rw [List.getElem?_take_eq_none (Nat.le_of_not_lt inside)] at first
    cases first

theorem Sound.slice?_front (h : buffer.Sound script size text) {width : Nat}
    (enough : width ≤ buffer.unread.length) :
    slice? buffer.store buffer.start (buffer.start + width) = some (buffer.unread.take width) := by
  have start := h.start_le
  have stop := h.stop_le
  have length := h.length_store
  rw [length_unread h] at enough
  rw [slice?, if_pos ⟨Nat.le_add_right _ _, by omega⟩, unread, List.drop_take, List.drop_take,
    List.take_take, Nat.add_sub_cancel_left, Nat.min_eq_left enough]

theorem Sound.decode? (h : buffer.Sound script size text) :
    ∃ decoded, buffer.decode? = some (buffer.view.decode.1, decoded) ∧
      decoded.Sound script size text ∧ decoded.view = buffer.view.decode.2 := by
  have none : ∀ more, (buffer.unread ++ more).length < 1 → Wanting (buffer.unread ++ more) := by
    intro more few
    rw [List.length_eq_zero_iff.mp (Nat.lt_one_iff.mp few)]
    exact .empty
  obtain ⟨filled, run, sound, view⟩ := h.fill? (by decide) none
  unfold StoredBuffer.decode? ReadBuffer.decode
  rw [run]
  rcases hf : buffer.view.fill 1 with ⟨error | _ | _, ahead⟩
  · rw [hf] at view
    exact ⟨filled, rfl, sound, view⟩
  · rw [hf] at view
    exact ⟨filled, rfl, sound, view⟩
  · have enough := ReadBuffer.le_unread_of_fill hf
    rw [hf] at view
    subst view
    cases hu : filled.unread with
    | nil => simp [hu] at enough
    | cons lead rest =>
      simp only [view_unread, hu, getElem?_start hu]
      cases ht : trailing? lead with
      | none => exact ⟨filled, rfl, sound, rfl⟩
      | some ranges =>
        have count := (trailing?_cases ht).1
        have cut : ∀ more, (filled.unread ++ more).length < ranges.length + 1 →
            Wanting (filled.unread ++ more) := by
          intro more few
          rw [hu] at few ⊢
          exact .cut count (Nat.lt_of_succ_lt_succ few)
        obtain ⟨whole, run, sound, view⟩ := sound.fill? (length_of_trailing? ht) cut
        dsimp only
        rw [run]
        rcases hw : filled.view.fill (ranges.length + 1) with ⟨error | _ | _, ahead⟩
        · rw [hw] at view
          exact ⟨whole, rfl, sound, view⟩
        · rw [hw] at view
          exact ⟨whole, rfl, sound, view⟩
        · have width := ReadBuffer.le_unread_of_fill hw
          rw [hw] at view
          subst view
          have same : (whole.unread.take (ranges.length + 1)).drop 1 =
              (whole.unread.drop 1).take ranges.length := by
            rw [List.drop_take, Nat.add_sub_cancel]
          simp only [sound.slice?_front width, same, view_unread]
          rcases decodeSequence lead ranges ((whole.unread.drop 1).take ranges.length) with _ | c
          · exact ⟨whole, rfl, sound, rfl⟩
          · exact ⟨whole, rfl, sound, rfl⟩

/-- A character that is taken moves from the unread bytes to the text. -/
theorem Sound.consume (h : buffer.Sound script size text) {c : Char} {width : Nat}
    (enough : width ≤ buffer.unread.length)
    (front : buffer.unread.take width = String.utf8EncodeChar c) :
    let used := { buffer with start := buffer.start + width }
    used.Sound script size (text ++ [c]) ∧ used.view = buffer.view.consume width := by
  intro used
  have start := h.start_le
  have unread : used.unread = buffer.unread.drop width := by
    rw [StoredBuffer.unread, StoredBuffer.unread, List.drop_drop]
  have bytes : encode (text ++ [c]) ++ used.unread = encode text ++ buffer.unread := by
    rw [encode_append, encode_cons, ← front, unread, List.append_assoc, List.append_assoc]
    exact congrArg (encode text ++ ·) (List.take_append_drop width buffer.unread)
  refine ⟨⟨h.min_le, h.length_store, ?_, h.stop_le, h.offers, h.answered, h.calls, h.ended,
    bytes.trans h.delivered, h.refills⟩, ?_⟩
  · rw [length_unread h] at enough
    show buffer.start + width ≤ buffer.stop
    omega
  · rw [view, unread]
    rfl

theorem Sound.serve? (h : buffer.Sound script size text) (request : BufferRequest) :
    ∃ left, buffer.serve? request = some ((buffer.view.serve request).1, left) ∧
      left.Sound script size (text ++ request.taken (buffer.view.serve request).1) ∧
      left.view = (buffer.view.serve request).2 := by
  obtain ⟨decoded, run, sound, view⟩ := h.decode?
  cases request with
  | next =>
    show ∃ left, buffer.next? = some (buffer.view.next.1, left) ∧
      left.Sound script size (text ++ Flow.charsOf buffer.view.next.1) ∧
      left.view = buffer.view.next.2
    unfold next? ReadBuffer.next
    rw [run]
    rcases hd : buffer.view.decode with ⟨error | _ | ⟨c, width⟩, ahead⟩
    · rw [hd] at view
      exact ⟨decoded, rfl, by simpa [Flow.charsOf] using sound, view⟩
    · rw [hd] at view
      exact ⟨decoded, rfl, by simpa [Flow.charsOf] using sound, view⟩
    · rw [hd] at view
      have enough := (ReadBuffer.width_of_decode hd).2
      have front := ReadBuffer.take_of_decode h.wellFormed hd
      subst view
      obtain ⟨sound, same⟩ := sound.consume enough front
      exact ⟨_, rfl, sound, same⟩
  | peek =>
    show ∃ left, buffer.peek? = some (buffer.view.peek.1, left) ∧
      left.Sound script size (text ++ []) ∧ left.view = buffer.view.peek.2
    rw [List.append_nil]
    unfold peek? ReadBuffer.peek
    rw [run]
    rcases hd : buffer.view.decode with ⟨error | _ | ⟨c, width⟩, ahead⟩
    · rw [hd] at view
      exact ⟨decoded, rfl, sound, view⟩
    · rw [hd] at view
      exact ⟨decoded, rfl, sound, view⟩
    · rw [hd] at view
      exact ⟨decoded, rfl, sound, view⟩

/-- A run never leaves the bounds of the store, and it is the run of the buffer that it stands
for. -/
theorem Sound.session? (h : buffer.Sound script size text) (requests : List BufferRequest) :
    ∃ left, buffer.session? requests = some (buffer.view.session requests, left) ∧
      left.Sound script size (text ++ takenAll requests (buffer.view.session requests)) ∧
      left.view = buffer.view.serveAll requests := by
  induction requests generalizing buffer text with
  | nil => exact ⟨buffer, rfl, by simpa [takenAll] using h, rfl⟩
  | cons request requests ih =>
    obtain ⟨after, step, sound, view⟩ := h.serve? request
    obtain ⟨left, run, sound, same⟩ := ih sound
    rw [view] at run sound same
    refine ⟨left, ?_, ?_, same⟩
    · simp [StoredBuffer.session?, step, run, ReadBuffer.session]
    · rw [List.append_assoc] at sound
      exact sound

theorem sound_ofReader (steps : List ReadStep) (capacity : Nat) :
    (ofReader (.ofSteps steps) capacity).Sound (.ofSteps steps) (max capacity minCapacity) [] := by
  constructor
  case min_le => exact Nat.le_max_right _ _
  case length_store => exact List.length_replicate
  case start_le => exact Nat.le_refl _
  case stop_le => exact Nat.zero_le _
  case offers => rfl
  case answered => exact fun _ => rfl
  case calls => simp [ofReader]
  case ended => simp [ofReader]
  case delivered => rfl
  case refills => rfl

theorem view_ofReader (reader : Reader) (capacity : Nat) :
    (ofReader reader capacity).view = .ofReader reader capacity := by
  simp [ofReader, view, unread, ReadBuffer.ofReader]

/-- The store is allocated exactly when the buffer is that it stands for. -/
theorem view_make? (reader : Reader) (capacity : Nat) :
    (make? reader capacity).map view = ReadBuffer.make? reader capacity := by
  unfold make? ReadBuffer.make?
  split
  next => exact congrArg some (view_ofReader reader capacity)
  next => rfl

/-- A buffer is read and written within its store, whatever is asked of it and whatever its reader
gives. It calls the reader with room, and only while the next character is not there as a whole;
no byte is lost on the way to the user, and none is left when the reader gives nothing. -/
theorem buffer_within_bounds (steps : List ReadStep) (capacity : Nat)
    (requests : List BufferRequest) :
    let start := StoredBuffer.ofReader (.ofSteps steps) capacity
    let running := ReadBuffer.ofReader (.ofSteps steps) capacity
    ∃ buffer, start.session? requests = some (running.session requests, buffer) ∧
      buffer.view = running.serveAll requests ∧
      buffer.store.length = max capacity 4 ∧
      buffer.start ≤ buffer.stop ∧ buffer.stop ≤ buffer.store.length ∧
      buffer.calls.map ReadCall.room = buffer.reader.offers ∧
      (Reader.ofSteps steps).answers (buffer.calls.map ReadCall.room).reverse =
        (buffer.calls.map ReadCall.given).reverse ∧
      (∀ call ∈ buffer.calls,
        0 < call.room ∧ (received call.given).length ≤ call.room ∧ Wanting call.unread) ∧
      ((∃ call ∈ buffer.calls, call.given = .ok []) →
        delivered buffer.calls = (flow steps).bytes) ∧
      encode (takenAll requests (running.session requests)) ++ buffer.unread =
        delivered buffer.calls ∧
      buffer.refills = buffer.calls.countP fun call => received call.given ≠ [] := by
  intro start running
  obtain ⟨buffer, run, sound, view⟩ := (sound_ofReader steps capacity).session? requests
  rw [view_ofReader, List.nil_append] at *
  have answered := sound.answered []
  rw [List.append_nil, Reader.answers, List.append_nil] at answered
  refine ⟨buffer, run, view, sound.length_store, sound.start_le,
    sound.length_store ▸ sound.stop_le, sound.offers, answered, sound.calls, ?_, sound.delivered,
    sound.refills⟩
  rintro ⟨call, hc, none⟩
  have wf := ReadBuffer.wellFormed_ofReader (.ofSteps steps) capacity
  have accounts := ReadBuffer.session_accounts wf requests
  have left : (running.serveAll requests).stream = buffer.unread.map .ok := by
    rw [← view, ReadBuffer.stream, view_ended, sound.ended call hc none]
    simp
  rw [left, Flow.bytes_map, sound.delivered] at accounts
  exact accounts.symm

end StoredBuffer

end JackTokens
