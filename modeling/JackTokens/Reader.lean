import JackTokens.DeviceError

namespace JackTokens

/-- What one call of a reader gives. -/
inductive ReadStep where
  /-- Bytes; none at all is the end of the input. -/
  | data (bytes : List UInt8)
  | fail (error : DeviceError)
deriving DecidableEq

/-- A source of bytes that gives its steps in order and then the end of the input. -/
structure Reader where
  steps : List ReadStep
  /-- The room that each call so far has offered, the latest call first. -/
  offers : List Nat
deriving DecidableEq

namespace Reader

def ofSteps (steps : List ReadStep) : Reader :=
  ⟨steps, []⟩

/-- A reader that gives all of `bytes` as fast as it is asked to. -/
def ofBytes (bytes : List UInt8) : Reader :=
  ofSteps (if bytes.isEmpty then [] else [.data bytes])

/-- One call with room for `room` bytes. Bytes that find no room wait for the next call. -/
def read (reader : Reader) (room : Nat) : Except DeviceError (List UInt8) × Reader :=
  let offers := room :: reader.offers
  match reader.steps with
  | [] => (.ok [], ⟨[], offers⟩)
  | .fail error :: steps => (.error error, ⟨steps, offers⟩)
  | .data bytes :: steps =>
    match bytes.drop room with
    | [] => (.ok bytes, ⟨steps, offers⟩)
    | left => (.ok (bytes.take room), ⟨.data left :: steps, offers⟩)

def stepLength : ReadStep → Nat
  | .data bytes => bytes.length
  | .fail _ => 0

/-- The bytes that the reader has not given yet. -/
def dataLength (reader : Reader) : Nat :=
  reader.steps.foldr (fun step total => stepLength step + total) 0

/-- Bounds the number of calls that give a byte or a failure. -/
def pending (reader : Reader) : Nat :=
  reader.dataLength + reader.steps.length

theorem dataLength_of_read_ok {reader next : Reader} {room : Nat} {bytes : List UInt8}
    (h : reader.read room = (.ok bytes, next)) :
    reader.dataLength = bytes.length + next.dataLength := by
  unfold read at h
  split at h
  next he =>
    cases h
    simp [dataLength, he]
  next he => cases h
  next given steps he =>
    split at h
    next =>
      cases h
      simp [dataLength, stepLength, he]
    next left hl _ =>
      cases h
      have parts : given.length = (given.take room).length + (given.drop room).length := by
        rw [← List.length_append, List.take_append_drop]
      simp only [dataLength, stepLength, he, List.foldr_cons]
      omega

theorem dataLength_of_read_error {reader next : Reader} {room : Nat} {error : DeviceError}
    (h : reader.read room = (.error error, next)) : reader.dataLength = next.dataLength := by
  unfold read at h
  split at h
  next => cases h
  next he =>
    cases h
    simp [dataLength, stepLength, he]
  next =>
    split at h
    · cases h
    · cases h

theorem pending_lt_of_read_ok {reader next : Reader} {room : Nat} {byte : UInt8}
    {bytes : List UInt8} (h : reader.read room = (.ok (byte :: bytes), next)) :
    next.pending < reader.pending := by
  have total := dataLength_of_read_ok h
  have shorter : next.steps.length ≤ reader.steps.length := by
    unfold read at h
    split at h
    next he => cases h
    next he => cases h
    next he =>
      split at h
      · cases h
        simp [he]
      · simp only [Prod.mk.injEq] at h
        obtain ⟨_, rfl⟩ := h
        simp [he]
  simp only [pending, List.length_cons] at total ⊢
  omega

theorem pending_lt_of_read_error {reader next : Reader} {room : Nat} {error : DeviceError}
    (h : reader.read room = (.error error, next)) : next.pending < reader.pending := by
  have total := dataLength_of_read_error h
  have shorter : next.steps.length < reader.steps.length := by
    unfold read at h
    split at h
    next => cases h
    next he =>
      cases h
      simp [he]
    next =>
      split at h
      · cases h
      · cases h
  simp only [pending]
  omega

end Reader

end JackTokens
