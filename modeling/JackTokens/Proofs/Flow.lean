import JackTokens.ReadBuffer

namespace JackTokens

/-- The bytes and the failures of an input in their order. -/
abbrev Flow :=
  List (Except DeviceError UInt8)

/-- What the steps of a reader come to: an interrupted call does not count, and nothing counts from
a call without bytes on. -/
def flow : List ReadStep → Flow
  | [] => []
  | .fail error :: steps =>
    if error.kind = .interrupted then flow steps else .error error :: flow steps
  | .data [] :: _ => []
  | .data (byte :: bytes) :: steps => (byte :: bytes).map .ok ++ flow steps

theorem flow_data {bytes : List UInt8} (steps : List ReadStep) (h : bytes ≠ []) :
    flow (.data bytes :: steps) = bytes.map .ok ++ flow steps := by
  cases bytes with
  | nil => exact absurd rfl h
  | cons => rfl

namespace Flow

/-- Waits for `n` bytes and leaves them; `none` if the input ends first. A failure before the last
of them is taken out and reported instead. -/
def await : Nat → Flow → Except ReadError (Option (List UInt8)) × Flow
  | 0, s => (.ok (some []), s)
  | _ + 1, [] => (.ok none, [])
  | _ + 1, .error error :: s => (.error (.device error), s)
  | n + 1, .ok byte :: s =>
    match await n s with
    | (result, s) => (result.map (Option.map (byte :: ·)), .ok byte :: s)

theorem await_bytes {n : Nat} {bytes : List UInt8} (s : Flow) (h : n ≤ bytes.length) :
    await n (bytes.map .ok ++ s) = (.ok (some (bytes.take n)), bytes.map .ok ++ s) := by
  induction n generalizing bytes with
  | zero => simp [await]
  | succ n ih =>
    cases bytes with
    | nil => simp at h
    | cons byte bytes =>
      have rest := @ih bytes (by simpa using h)
      simp [await, rest, Except.map]

theorem await_end {n : Nat} {bytes : List UInt8} (h : bytes.length < n) :
    await n (bytes.map .ok) = (.ok none, bytes.map .ok) := by
  induction n generalizing bytes with
  | zero => omega
  | succ n ih =>
    cases bytes with
    | nil => rfl
    | cons byte bytes =>
      have rest := @ih bytes (by simpa using h)
      simp [await, rest, Except.map]

theorem await_failure {n : Nat} {bytes : List UInt8} (error : DeviceError) (s : Flow)
    (h : bytes.length < n) :
    await n (bytes.map .ok ++ .error error :: s) =
      (.error (.device error), bytes.map .ok ++ s) := by
  induction n generalizing bytes with
  | zero => omega
  | succ n ih =>
    cases bytes with
    | nil => rfl
    | cons byte bytes =>
      have rest := @ih bytes (by simpa using h)
      simp [await, rest, Except.map]

theorem eq_of_await_ok {n : Nat} {s left : Flow} {result : Option (List UInt8)}
    (h : await n s = (.ok result, left)) : left = s := by
  induction n generalizing s left result with
  | zero =>
    cases h
    rfl
  | succ n ih =>
    rcases s with _ | ⟨error | byte, s⟩
    · cases h
      rfl
    · simp [await] at h
    · cases hr : await n s with
      | mk answer rest =>
        simp only [await, hr, Prod.mk.injEq] at h
        obtain ⟨ha, rfl⟩ := h
        cases answer with
        | error => simp [Except.map] at ha
        | ok bytes => rw [ih hr]

/-- The next character and its width in bytes, `none` at the end of the input. -/
def decode : Flow → Except ReadError (Option (Char × Nat)) × Flow
  | [] => (.ok none, [])
  | .error error :: s => (.error (.device error), s)
  | .ok lead :: s =>
    match trailing? lead with
    | none => (.error (.malformed .lead), .ok lead :: s)
    | some ranges =>
      match await ranges.length s with
      | (.error error, s) => (.error error, .ok lead :: s)
      | (.ok none, s) => (.error (.malformed .truncated), .ok lead :: s)
      | (.ok (some rest), s) =>
        match decodeSequence lead ranges rest with
        | .error cause => (.error (.malformed cause), .ok lead :: s)
        | .ok c => (.ok (some (c, ranges.length + 1)), .ok lead :: s)

theorem decode_of_await_error {s left : Flow} {error : ReadError}
    (h : await 1 s = (.error error, left)) : decode s = (.error error, left) := by
  rcases s with _ | ⟨error | byte, s⟩
  · simp [await] at h
  · cases h
    rfl
  · simp [await, Except.map] at h

theorem decode_of_await_end {s left : Flow} (h : await 1 s = (.ok none, left)) :
    decode s = (.ok none, left) := by
  rcases s with _ | ⟨error | byte, s⟩
  · cases h
    rfl
  · simp [await] at h
  · simp [await, Except.map] at h

/-- A first byte that begins a character asks for the bytes after it. -/
theorem decode_lead {lead : UInt8} {ranges : List ByteRange} (s : Flow)
    (h : trailing? lead = some ranges) :
    decode (.ok lead :: s) =
      match await (ranges.length + 1) (.ok lead :: s) with
      | (.error error, s) => (.error error, s)
      | (.ok none, s) => (.error (.malformed .truncated), s)
      | (.ok (some bytes), s) =>
        match decodeSequence lead ranges (bytes.drop 1) with
        | .error cause => (.error (.malformed cause), s)
        | .ok c => (.ok (some (c, ranges.length + 1)), s) := by
  simp only [decode, h, await]
  rcases await ranges.length s with ⟨_ | _ | rest, left⟩
  · rfl
  · rfl
  · rfl

def peek (s : Flow) : Except ReadError (Option Char) × Flow :=
  match decode s with
  | (.error error, s) => (.error error, s)
  | (.ok none, s) => (.ok none, s)
  | (.ok (some (c, _)), s) => (.ok (some c), s)

def next (s : Flow) : Except ReadError (Option Char) × Flow :=
  match decode s with
  | (.error error, s) => (.error error, s)
  | (.ok none, s) => (.ok none, s)
  | (.ok (some (c, width)), s) => (.ok (some c), s.drop width)

end Flow

namespace Reader

theorem flow_ofBytes (bytes : List UInt8) : flow (ofBytes bytes).steps = bytes.map .ok := by
  cases bytes with
  | nil => rfl
  | cons byte bytes =>
    show flow [.data (byte :: bytes)] = _
    rw [flow_data [] (List.cons_ne_nil byte bytes), flow, List.append_nil]

theorem length_le_of_read {reader next : Reader} {room : Nat} {bytes : List UInt8}
    (h : reader.read room = (.ok bytes, next)) : bytes.length ≤ room := by
  unfold read at h
  split at h
  next => cases h; simp
  next => cases h
  next given steps _ =>
    split at h
    next hd =>
      cases h
      simpa using hd
    next =>
      cases h
      exact List.length_take_le room given

theorem offers_of_read {reader next : Reader} {room : Nat}
    {given : Except DeviceError (List UInt8)} (h : reader.read room = (given, next)) :
    next.offers = room :: reader.offers := by
  unfold read at h
  split at h
  next =>
    cases h
    rfl
  next =>
    cases h
    rfl
  next =>
    split at h
    · cases h
      rfl
    · cases h
      rfl

/-- A call that offers room and gives nothing has met the end. -/
theorem flow_of_read_end {reader next : Reader} {room : Nat} (hr : 0 < room)
    (h : reader.read room = (.ok [], next)) : flow reader.steps = [] := by
  unfold read at h
  split at h
  next he => simp [he, flow]
  next => cases h
  next given steps he =>
    have empty : given = [] := by
      split at h
      next => cases h; rfl
      next hd =>
        have taken : given.take room = [] := by simpa using congrArg Prod.fst h
        rcases List.take_eq_nil_iff.mp taken with zero | nil
        · omega
        · exact nil
    simp [he, empty, flow]

theorem flow_of_read_bytes {reader next : Reader} {room : Nat} {byte : UInt8} {bytes : List UInt8}
    (h : reader.read room = (.ok (byte :: bytes), next)) :
    flow reader.steps = (byte :: bytes).map .ok ++ flow next.steps := by
  unfold read at h
  split at h
  next => cases h
  next => cases h
  next given steps he =>
    split at h
    next =>
      cases h
      rw [he]
      rfl
    next hd =>
      have taken : given.take room = byte :: bytes := by simpa using congrArg Prod.fst h
      have more : next.steps = .data (given.drop room) :: steps := by
        simpa using congrArg (fun result => result.2.steps) h.symm
      have some : given ≠ [] := by
        intro nil
        simp [nil] at taken
      rw [he, more, flow_data steps some, flow_data steps hd, ← taken, ← List.append_assoc,
        ← List.map_append, List.take_append_drop]

theorem flow_of_read_fail {reader next : Reader} {room : Nat} {error : DeviceError}
    (h : reader.read room = (.error error, next)) :
    flow reader.steps =
      if error.kind = .interrupted then flow next.steps else .error error :: flow next.steps := by
  unfold read at h
  split at h
  next => cases h
  next he =>
    cases h
    rw [he]
    rfl
  next =>
    split at h
    next => cases h
    next => cases h

end Reader

end JackTokens
