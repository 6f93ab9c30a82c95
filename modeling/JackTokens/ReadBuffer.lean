import JackTokens.Reader
import JackTokens.Utf8

namespace JackTokens

/-- Why no further character can be had from an input. -/
inductive ReadError where
  | device (error : DeviceError)
  | malformed (cause : Malformed)
deriving DecidableEq

namespace ReadError

def kind : ReadError → DeviceError.Kind
  | device error => error.kind
  | malformed _ => .invalidData

def message : ReadError → String
  | device error => error.message
  | malformed cause => cause.message

end ReadError

/-- A buffer of `capacity` bytes before a reader. It holds `start` bytes that are used up, then the
unread ones, and free room behind them. -/
structure ReadBuffer where
  reader : Reader
  capacity : Nat
  start : Nat
  unread : List UInt8
  /-- The reader has reported the end of the input. -/
  ended : Bool
  /-- The calls of the reader that gave bytes. -/
  refills : Nat

/-- Room for the longest character. -/
def minCapacity : Nat :=
  4

def defaultCapacity : Nat :=
  4096

/-- The most bytes that one allocation may ask for. -/
def maxAllocation : Nat :=
  Nat.pow 2 63 - 1

namespace ReadBuffer

/-- An empty buffer with room for one character at least, once its bytes are allocated. -/
def ofReader (reader : Reader) (capacity : Nat) : ReadBuffer :=
  ⟨reader, max capacity minCapacity, 0, [], false, 0⟩

/-- Allocates a buffer; `none` is a panic, when it asks for more bytes than one may. -/
def make? (reader : Reader) (capacity : Nat) : Option ReadBuffer :=
  if max capacity minCapacity ≤ maxAllocation then some (ofReader reader capacity) else none

/-- The end of the unread bytes. -/
def stop (buffer : ReadBuffer) : Nat :=
  buffer.start + buffer.unread.length

/-- The free bytes behind the unread ones. -/
def room (buffer : ReadBuffer) : Nat :=
  buffer.capacity - buffer.stop

/-- The bytes that are still to be consumed, from the buffer and from the reader. -/
def remaining (buffer : ReadBuffer) : Nat :=
  buffer.unread.length + buffer.reader.dataLength

/-- Without room behind the unread bytes, moves them to the front. -/
def compact (buffer : ReadBuffer) : ReadBuffer :=
  if buffer.room = 0 then { buffer with start := 0 } else buffer

/-- Takes over what a call of the reader gave. -/
def accept (buffer : ReadBuffer) (reader : Reader) (bytes : List UInt8) : ReadBuffer :=
  { buffer with reader, unread := buffer.unread ++ bytes, refills := buffer.refills + 1 }

/-- Uses up the first `n` unread bytes. -/
def consume (buffer : ReadBuffer) (n : Nat) : ReadBuffer :=
  { buffer with start := buffer.start + n, unread := buffer.unread.drop n }

/-- At least `n` bytes are unread. Looks no further than these. -/
def holds (buffer : ReadBuffer) (n : Nat) : Bool :=
  n ≤ (buffer.unread.take n).length

theorem make?_eq_some {reader : Reader} {capacity : Nat} (h : capacity ≤ maxAllocation) :
    make? reader capacity = some (ofReader reader capacity) :=
  if_pos (Nat.max_le.mpr ⟨h, by decide⟩)

theorem make?_eq_none {reader : Reader} {capacity : Nat} (h : maxAllocation < capacity) :
    make? reader capacity = none :=
  if_neg (Nat.not_le.mpr (Nat.lt_of_lt_of_le h (Nat.le_max_left _ _)))

theorem holds_iff {buffer : ReadBuffer} {n : Nat} :
    buffer.holds n = true ↔ n ≤ buffer.unread.length := by
  simp only [holds, decide_eq_true_eq, List.length_take]
  omega

@[simp] theorem compact_reader (buffer : ReadBuffer) : buffer.compact.reader = buffer.reader := by
  unfold compact
  split <;> rfl

@[simp] theorem compact_unread (buffer : ReadBuffer) : buffer.compact.unread = buffer.unread := by
  unfold compact
  split <;> rfl

/-- Reads until `want` bytes are unread; `false` if the input ends first. An interrupted call is
made again. Any other failure ends the attempt and keeps every unread byte. -/
def fill (buffer : ReadBuffer) (want : Nat) : Except ReadError Bool × ReadBuffer :=
  if buffer.holds want then (.ok true, buffer)
  else if buffer.ended then (.ok false, buffer)
  else
    match _h : buffer.compact.reader.read buffer.compact.room with
    | (.ok [], reader) => (.ok false, { buffer.compact with reader, ended := true })
    | (.ok (byte :: bytes), reader) => fill (buffer.compact.accept reader (byte :: bytes)) want
    | (.error error, reader) =>
      if error.kind = .interrupted then fill { buffer.compact with reader } want
      else (.error (.device error), { buffer.compact with reader })
termination_by buffer.reader.pending
decreasing_by
  · simpa [accept] using Reader.pending_lt_of_read_ok _h
  · simpa using Reader.pending_lt_of_read_error _h

/-- The next character and its width in bytes, `none` at the end of the input. Nothing is used
up. -/
def decode (buffer : ReadBuffer) : Except ReadError (Option (Char × Nat)) × ReadBuffer :=
  match buffer.fill 1 with
  | (.error error, buffer) => (.error error, buffer)
  | (.ok false, buffer) => (.ok none, buffer)
  | (.ok true, buffer) =>
    match buffer.unread with
    | [] => (.ok none, buffer)
    | lead :: _ =>
      match trailing? lead with
      | none => (.error (.malformed .lead), buffer)
      | some ranges =>
        match buffer.fill (ranges.length + 1) with
        | (.error error, buffer) => (.error error, buffer)
        | (.ok false, buffer) => (.error (.malformed .truncated), buffer)
        | (.ok true, buffer) =>
          match decodeSequence lead ranges ((buffer.unread.drop 1).take ranges.length) with
          | .error cause => (.error (.malformed cause), buffer)
          | .ok c => (.ok (some (c, ranges.length + 1)), buffer)

/-- The next character, which stays. -/
def peek (buffer : ReadBuffer) : Except ReadError (Option Char) × ReadBuffer :=
  match buffer.decode with
  | (.error error, buffer) => (.error error, buffer)
  | (.ok none, buffer) => (.ok none, buffer)
  | (.ok (some (c, _)), buffer) => (.ok (some c), buffer)

/-- The next character, which is used up. -/
def next (buffer : ReadBuffer) : Except ReadError (Option Char) × ReadBuffer :=
  match buffer.decode with
  | (.error error, buffer) => (.error error, buffer)
  | (.ok none, buffer) => (.ok none, buffer)
  | (.ok (some (c, width)), buffer) => (.ok (some c), buffer.consume width)

theorem fill_remaining (buffer : ReadBuffer) (want : Nat) :
    (buffer.fill want).2.remaining = buffer.remaining := by
  fun_induction fill buffer want with
  | case1 => rfl
  | case2 => rfl
  | case3 buffer _ _ reader h =>
    have total := Reader.dataLength_of_read_ok h
    simp only [compact_reader, List.length_nil] at total
    simp only [remaining, compact_unread]
    omega
  | case4 buffer _ _ byte bytes reader h ih =>
    have total := Reader.dataLength_of_read_ok h
    simp only [compact_reader] at total
    rw [ih]
    simp only [remaining, accept, compact_unread, List.length_append]
    omega
  | case5 buffer _ _ error reader h _ ih =>
    have total := Reader.dataLength_of_read_error h
    simp only [compact_reader] at total
    rw [ih]
    simp only [remaining, compact_unread]
    omega
  | case6 buffer _ _ error reader h _ =>
    have total := Reader.dataLength_of_read_error h
    simp only [compact_reader] at total
    simp only [remaining, compact_unread]
    omega

theorem le_unread_of_fill {buffer filled : ReadBuffer} {want : Nat}
    (h : buffer.fill want = (.ok true, filled)) : want ≤ filled.unread.length := by
  fun_induction fill buffer want with
  | case1 buffer hold =>
    cases h
    exact holds_iff.mp hold
  | case2 => simp at h
  | case3 => simp at h
  | case4 _ _ _ _ _ _ _ ih => exact ih h
  | case5 _ _ _ _ _ _ _ ih => exact ih h
  | case6 => simp at h

theorem decode_remaining (buffer : ReadBuffer) :
    buffer.decode.2.remaining = buffer.remaining := by
  unfold decode
  have first := buffer.fill_remaining 1
  split
  next h => simpa [h] using first
  next h => simpa [h] using first
  next filled h =>
    simp only [h] at first
    split
    next => exact first
    next lead rest _ =>
      split
      next => exact first
      next ranges _ =>
        have second := filled.fill_remaining (ranges.length + 1)
        split
        next h2 => simpa [h2, first] using second
        next h2 => simpa [h2, first] using second
        next h2 =>
          split
          next => simpa [h2, first] using second
          next => simpa [h2, first] using second

theorem width_of_decode {buffer decoded : ReadBuffer} {c : Char} {width : Nat}
    (h : buffer.decode = (.ok (some (c, width)), decoded)) :
    0 < width ∧ width ≤ decoded.unread.length := by
  unfold decode at h
  split at h
  next => simp at h
  next => simp at h
  next =>
    split at h
    next => simp at h
    next =>
      split at h
      next => simp at h
      next =>
        split at h
        next => simp at h
        next => simp at h
        next hf =>
          split at h
          next => simp at h
          next =>
            simp only [Prod.mk.injEq, Except.ok.injEq, Option.some.injEq] at h
            obtain ⟨⟨_, rfl⟩, rfl⟩ := h
            exact ⟨by omega, le_unread_of_fill hf⟩

theorem peek_remaining (buffer : ReadBuffer) : buffer.peek.2.remaining = buffer.remaining := by
  have total := buffer.decode_remaining
  unfold peek
  split
  next h => simpa [h] using total
  next h => simpa [h] using total
  next h => simpa [h] using total

theorem remaining_lt_of_next {buffer used : ReadBuffer} {c : Char}
    (h : buffer.next = (.ok (some c), used)) : used.remaining < buffer.remaining := by
  have total := buffer.decode_remaining
  unfold next at h
  split at h
  next => simp at h
  next => simp at h
  next d width decoded hd =>
    simp only [Prod.mk.injEq] at h
    obtain ⟨_, rfl⟩ := h
    have bound := width_of_decode hd
    simp only [hd] at total
    simp only [remaining, consume, List.length_drop] at total ⊢
    omega

theorem next_remaining_le (buffer : ReadBuffer) : buffer.next.2.remaining ≤ buffer.remaining := by
  have total := buffer.decode_remaining
  unfold next
  split
  next h => simpa [h] using Nat.le_of_eq total
  next h => simpa [h] using Nat.le_of_eq total
  next h =>
    simp only [h] at total
    simp only [remaining, consume, List.length_drop] at total ⊢
    omega

end ReadBuffer

end JackTokens
