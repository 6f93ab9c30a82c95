import JackTokens.BufferSession

namespace JackTokens

/-- The part of `store` from `first` up to `last`, `none` out of its bounds. -/
def slice? (store : List UInt8) (first last : Nat) : Option (List UInt8) :=
  if first ≤ last ∧ last ≤ store.length then some ((store.take last).drop first) else none

/-- Puts `bytes` over those of `store` at `place`, `none` out of its bounds. -/
def write? (store : List UInt8) (place : Nat) (bytes : List UInt8) : Option (List UInt8) :=
  if place + bytes.length ≤ store.length then
    some (store.take place ++ bytes ++ store.drop (place + bytes.length))
  else none

/-- The difference, `none` below zero. -/
def minus? (m n : Nat) : Option Nat :=
  if n ≤ m then some (m - n) else none

/-- The bytes that a call of a reader gave. -/
def received : Except DeviceError (List UInt8) → List UInt8
  | .ok bytes => bytes
  | .error _ => []

/-- A call of the reader as a buffer made it. -/
structure ReadCall where
  /-- The bytes that were unread at the call. -/
  unread : List UInt8
  room : Nat
  given : Except DeviceError (List UInt8)

/-- A read buffer as it lies in memory: the unread bytes are those of `store` from `start` up to
`stop`. Each operation is `none` if it leaves the bounds of the store. -/
structure StoredBuffer where
  reader : Reader
  store : List UInt8
  start : Nat
  stop : Nat
  ended : Bool
  refills : Nat
  /-- The calls of the reader so far, the latest call first. -/
  calls : List ReadCall

namespace StoredBuffer

/-- An empty buffer, once its store is allocated. -/
def ofReader (reader : Reader) (capacity : Nat) : StoredBuffer :=
  ⟨reader, List.replicate (max capacity minCapacity) 0, 0, 0, false, 0, []⟩

/-- Allocates the store of a buffer; `none` is a panic here as well. -/
def make? (reader : Reader) (capacity : Nat) : Option StoredBuffer :=
  if max capacity minCapacity ≤ maxAllocation then some (ofReader reader capacity) else none

def unread (buffer : StoredBuffer) : List UInt8 :=
  (buffer.store.take buffer.stop).drop buffer.start

/-- Moves the unread bytes to the front. -/
def compact? (buffer : StoredBuffer) : Option StoredBuffer := do
  let unread ← slice? buffer.store buffer.start buffer.stop
  let store ← write? buffer.store 0 unread
  let stop ← minus? buffer.stop buffer.start
  return { buffer with store, start := 0, stop }

def makeRoom? (buffer : StoredBuffer) : Option StoredBuffer :=
  if buffer.stop = buffer.store.length then buffer.compact? else some buffer

/-- One call of the reader with the part of the store behind the unread bytes. What it gives is
written there. -/
def read? (buffer : StoredBuffer) :
    Option (Except DeviceError (List UInt8) × StoredBuffer) := do
  let free ← slice? buffer.store buffer.stop buffer.store.length
  match buffer.reader.read free.length with
  | (given, reader) =>
    let store ← write? buffer.store buffer.stop (received given)
    let calls := ⟨buffer.unread, free.length, given⟩ :: buffer.calls
    return (given, { buffer with reader, store, calls })

theorem reader_of_makeRoom? {buffer made : StoredBuffer} (h : buffer.makeRoom? = some made) :
    made.reader = buffer.reader := by
  unfold makeRoom? at h
  split at h
  next =>
    obtain ⟨unread, _, h⟩ := Option.bind_eq_some_iff.mp h
    obtain ⟨store, _, h⟩ := Option.bind_eq_some_iff.mp h
    obtain ⟨stop, _, h⟩ := Option.bind_eq_some_iff.mp h
    cases h
    rfl
  next =>
    cases h
    rfl

theorem reader_of_read? {buffer after : StoredBuffer} {given : Except DeviceError (List UInt8)}
    (h : buffer.read? = some (given, after)) :
    ∃ room, buffer.reader.read room = (given, after.reader) := by
  obtain ⟨free, _, h⟩ := Option.bind_eq_some_iff.mp h
  obtain ⟨store, _, h⟩ := Option.bind_eq_some_iff.mp h
  cases h
  exact ⟨free.length, rfl⟩

/-- Makes room where there is none, and calls the reader. -/
def refill? (buffer : StoredBuffer) :
    Option (Except DeviceError (List UInt8) × StoredBuffer) :=
  buffer.makeRoom?.bind read?

theorem pending_lt_of_refill? {buffer after : StoredBuffer}
    {given : Except DeviceError (List UInt8)} (h : buffer.refill? = some (given, after))
    (some : given ≠ .ok []) : after.reader.pending < buffer.reader.pending := by
  obtain ⟨made, hm, hr⟩ := Option.bind_eq_some_iff.mp h
  obtain ⟨room, read⟩ := reader_of_read? hr
  rw [reader_of_makeRoom? hm] at read
  rcases given with error | _ | ⟨byte, bytes⟩
  · exact Reader.pending_lt_of_read_error read
  · exact absurd rfl some
  · exact Reader.pending_lt_of_read_ok read

/-- Reads until `want` bytes are unread; `false` if the input ends first. -/
def fill? (buffer : StoredBuffer) (want : Nat) : Option (Except ReadError Bool × StoredBuffer) :=
  match minus? buffer.stop buffer.start with
  | none => none
  | some held =>
    if want ≤ held then some (.ok true, buffer)
    else if buffer.ended then some (.ok false, buffer)
    else
      match _h : buffer.refill? with
      | none => none
      | some (.ok [], after) => some (.ok false, { after with ended := true })
      | some (.ok (byte :: bytes), after) =>
        fill? { after with
          stop := after.stop + (byte :: bytes).length
          refills := after.refills + 1 } want
      | some (.error error, after) =>
        if error.kind = .interrupted then fill? after want
        else some (.error (.device error), after)
termination_by buffer.reader.pending
decreasing_by
  · exact pending_lt_of_refill? _h (by simp)
  · exact pending_lt_of_refill? _h (by simp)

def decode? (buffer : StoredBuffer) :
    Option (Except ReadError (Option (Char × Nat)) × StoredBuffer) :=
  match buffer.fill? 1 with
  | none => none
  | some (.error error, buffer) => some (.error error, buffer)
  | some (.ok false, buffer) => some (.ok none, buffer)
  | some (.ok true, buffer) =>
    match buffer.store[buffer.start]? with
    | none => none
    | some lead =>
      match trailing? lead with
      | none => some (.error (.malformed .lead), buffer)
      | some ranges =>
        match buffer.fill? (ranges.length + 1) with
        | none => none
        | some (.error error, buffer) => some (.error error, buffer)
        | some (.ok false, buffer) => some (.error (.malformed .truncated), buffer)
        | some (.ok true, buffer) =>
          match slice? buffer.store buffer.start (buffer.start + (ranges.length + 1)) with
          | none => none
          | some bytes =>
            match decodeSequence lead ranges (bytes.drop 1) with
            | .error cause => some (.error (.malformed cause), buffer)
            | .ok c => some (.ok (some (c, ranges.length + 1)), buffer)

def peek? (buffer : StoredBuffer) : Option (Except ReadError (Option Char) × StoredBuffer) :=
  match buffer.decode? with
  | none => none
  | some (.error error, buffer) => some (.error error, buffer)
  | some (.ok none, buffer) => some (.ok none, buffer)
  | some (.ok (some (c, _)), buffer) => some (.ok (some c), buffer)

def next? (buffer : StoredBuffer) : Option (Except ReadError (Option Char) × StoredBuffer) :=
  match buffer.decode? with
  | none => none
  | some (.error error, buffer) => some (.error error, buffer)
  | some (.ok none, buffer) => some (.ok none, buffer)
  | some (.ok (some (c, width)), buffer) =>
    some (.ok (some c), { buffer with start := buffer.start + width })

def serve? (buffer : StoredBuffer) :
    BufferRequest → Option (Except ReadError (Option Char) × StoredBuffer)
  | .next => buffer.next?
  | .peek => buffer.peek?

/-- The answers to a sequence of requests, and the buffer behind them. -/
def session? (buffer : StoredBuffer) :
    List BufferRequest → Option (List (Except ReadError (Option Char)) × StoredBuffer)
  | [] => some ([], buffer)
  | request :: requests => do
    let (reply, buffer) ← buffer.serve? request
    let (replies, buffer) ← buffer.session? requests
    return (reply :: replies, buffer)

end StoredBuffer

end JackTokens
