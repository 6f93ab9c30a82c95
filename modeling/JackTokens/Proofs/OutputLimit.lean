import JackTokens.Proofs.Independence

namespace JackTokens

theorem extract_of_size_le {bytes : ByteArray} {n : Nat} (h : bytes.size ≤ n) :
    bytes.extract 0 n = bytes := by
  have whole := ByteArray.extract_zero_max_size (a := bytes) (i := n)
  rw [Nat.max_eq_left h] at whole
  exact whole

theorem extract_append_of_le_size {bytes more : ByteArray} {n : Nat} (h : n ≤ bytes.size) :
    (bytes ++ more).extract 0 n = bytes.extract 0 n := by
  have none : n - bytes.size = 0 := by omega
  rw [ByteArray.extract_append, none, Nat.zero_sub, ByteArray.extract_same, ByteArray.append_empty]

theorem extract_append_of_size_le {bytes more : ByteArray} {n : Nat} (h : bytes.size ≤ n) :
    (bytes ++ more).extract 0 n = bytes ++ more.extract 0 (n - bytes.size) := by
  rw [ByteArray.extract_append, extract_of_size_le h, Nat.zero_sub]

namespace Sink

/-- A sink with room for `capacity` bytes, after `all` was written to it. -/
def upTo (capacity : Nat) (all : ByteArray) : Sink :=
  ⟨some capacity, all.extract 0 capacity⟩

variable {capacity : Nat} {all : ByteArray}

/-- A text may be written in two parts. -/
theorem write_append (sink : Sink) (s t : String) :
    sink.write (s ++ t) =
      match sink.write s with
      | (.error cause, sink) => (.error cause, sink)
      | (.ok (), sink) => sink.write t := by
  have bytes : (s ++ t).toUTF8 = s.toUTF8 ++ t.toUTF8 := rfl
  have sum : (s ++ t).utf8ByteSize = s.utf8ByteSize + t.utf8ByteSize := String.utf8ByteSize_append
  have size : s.toUTF8.size = s.utf8ByteSize := rfl
  have tail : t.toUTF8.size = t.utf8ByteSize := rfl
  obtain ⟨_ | capacity, before⟩ := sink
  · simp only [write_unbounded, bytes, ByteArray.append_assoc]
  by_cases fits : s.toUTF8.size ≤ capacity - before.size
  · have first : (⟨some capacity, before⟩ : Sink).write s =
        (.ok (), ⟨some capacity, before ++ s.toUTF8⟩) := by
      unfold write fit
      dsimp only
      rw [extract_of_size_le fits, if_neg (by omega)]
    have room : capacity - before.size - s.toUTF8.size =
        capacity - (before ++ s.toUTF8).size := by
      rw [ByteArray.size_append]
      omega
    rw [first]
    unfold write fit
    dsimp only
    rw [bytes, extract_append_of_size_le fits, room, ByteArray.append_assoc,
      ByteArray.size_append, sum, size]
    simp only [Nat.add_lt_add_iff_left]
  · have short : (s.toUTF8.extract 0 (capacity - before.size)).size < s.utf8ByteSize := by
      rw [ByteArray.size_extract]
      omega
    unfold write fit
    dsimp only
    rw [bytes, extract_append_of_le_size (by omega), if_pos short, if_pos (by omega)]

theorem write_empty (sink : Sink) : sink.write "" = (.ok (), sink) := by
  have none : "".toUTF8 = ByteArray.empty := rfl
  obtain ⟨_ | capacity, before⟩ := sink
  · rw [write_unbounded, none, ByteArray.append_empty]
  · have kept : "".toUTF8.extract 0 (capacity - before.size) = ByteArray.empty :=
      extract_of_size_le (Nat.zero_le _)
    unfold write fit
    dsimp only
    rw [kept, ByteArray.append_empty]
    rfl

/-- How a text is cut into pieces makes no difference to what is written of it. -/
theorem writeAll_eq_write (sink : Sink) (pieces : List String) :
    sink.writeAll pieces = sink.write (String.join pieces) := by
  induction pieces generalizing sink with
  | nil => exact sink.write_empty.symm
  | cons piece pieces ih =>
    rw [String.join_cons, write_append, writeAll]
    rcases sink.write piece with ⟨_ | _, sink⟩
    · rfl
    · exact ih sink

/-- As long as there is room for all, a bounded sink has it; it fails with the first byte that is
too many and keeps those before. -/
theorem write_upTo (h : all.size ≤ capacity) (text : String) :
    (upTo capacity all).write text =
      (if (all ++ text.toUTF8).size ≤ capacity then .ok () else .error .diskFull,
        upTo capacity (all ++ text.toUTF8)) := by
  have size : text.toUTF8.size = text.utf8ByteSize := rfl
  have taken : (text.toUTF8.extract 0 (capacity - all.size)).size =
      min (capacity - all.size) text.utf8ByteSize := by
    rw [ByteArray.size_extract, Nat.sub_zero, size]
  unfold write fit upTo
  dsimp only
  rw [extract_of_size_le h, extract_append_of_size_le h, taken, ByteArray.size_append, size]
  by_cases fits : all.size + text.utf8ByteSize ≤ capacity
  · rw [if_pos fits, if_neg (by omega)]
  · rw [if_neg fits, if_pos (by omega)]

/-- Nothing more is taken once there is no room. -/
theorem upTo_append (h : capacity ≤ all.size) (more : ByteArray) :
    upTo capacity (all ++ more) = upTo capacity all := by
  rw [upTo, extract_append_of_le_size h, upTo]

theorem writeListing_eq_write {format : Format} (h : format ≠ .json) (sink : Sink)
    (tokens : List Token) :
    sink.writeListing format tokens =
      match sink.write (listing format tokens) with
      | (.error cause, sink) => (.error (.device cause), sink)
      | (.ok (), sink) => (.ok (), sink) := by
  rw [listing, ← writeAll_eq_write]
  cases format with
  | text => rfl
  | xml => rfl
  | json => exact absurd rfl h

/-- A listing that does not find room fails as JSON does if the cut is within a JSON array, which
all but the last byte belongs to, and as a device does anywhere else. -/
theorem writeListing_upTo (h : all.size ≤ capacity) (format : Format) (tokens : List Token) :
    let after := all ++ (listing format tokens).toUTF8
    (upTo capacity all).writeListing format tokens =
      (if after.size ≤ capacity then .ok ()
        else if format = .json ∧ capacity < after.size - 1 then .error (.json .diskFull)
        else .error (.device .diskFull), upTo capacity after) := by
  intro after
  by_cases json : format = .json
  · subst json
    obtain ⟨array, whole⟩ : ∃ array, array =
        all ++ (jsonArray (tokens.map Token.jsonEntry)).toUTF8 := ⟨_, rfl⟩
    have split : after = array ++ "\n".toUTF8 := by
      rw [whole, ByteArray.append_assoc]
      exact congrArg (all ++ ·.toUTF8) (listing_json tokens)
    have size : after.size = array.size + 1 := by
      rw [split, ByteArray.size_append]
      rfl
    have first : (upTo capacity all).write (jsonArray (tokens.map Token.jsonEntry)) =
        (if array.size ≤ capacity then .ok () else .error .diskFull, upTo capacity array) := by
      rw [whole]
      exact write_upTo h _
    unfold writeListing writeJson
    dsimp only
    rw [first, size]
    by_cases fits : array.size ≤ capacity
    · rw [if_pos fits]
      dsimp only
      rw [write_upTo fits, ← split, size]
      by_cases last : array.size + 1 ≤ capacity
      · simp only [if_pos last]
      · have outside : ¬ capacity < array.size + 1 - 1 := by omega
        simp only [if_neg last, outside, and_false, if_false]
    · have within : capacity < array.size + 1 - 1 := by omega
      have exceeds : ¬ array.size + 1 ≤ capacity := by omega
      rw [split, upTo_append (by omega)]
      simp only [if_neg fits, if_neg exceeds, within, and_true, if_true]
  · rw [writeListing_eq_write json, write_upTo h]
    by_cases fits : after.size ≤ capacity
    · simp only [after, if_pos fits]
    · simp only [after, if_neg fits, json, false_and, if_false]

end Sink

/-- What comes of writing all of `all` to an output with room for `capacity` bytes. -/
structure WrittenUpTo (capacity : Nat) (all : ByteArray)
    (written : Except CommandError Unit × Sink) : Prop where
  output : written.2 = .upTo capacity all
  fits : all.size ≤ capacity → written.1 = .ok ()
  overflows : capacity < all.size →
    written.1 = .error (.device .diskFull) ∨ written.1 = .error (.json .diskFull)

theorem writtenUpTo_listing {capacity : Nat} {all : ByteArray} (h : all.size ≤ capacity)
    (format : Format) (tokens : List Token) :
    WrittenUpTo capacity (all ++ (listing format tokens).toUTF8)
      ((Sink.upTo capacity all).writeListing format tokens) := by
  rw [Sink.writeListing_upTo h]
  refine ⟨rfl, fun fits => if_pos fits, fun exceeds => ?_⟩
  dsimp only
  rw [if_neg (by omega)]
  split
  · exact .inr rfl
  · exact .inl rfl

/-- A run over files does on an output with little room what it does on one without a bound, up to
the write that does not find room, which ends it. -/
theorem runFiles_upTo (files : FileSystem) (size capacity : Nat)
    (emit : Sink → String → List Token → Except CommandError Unit × Sink)
    (say : String → List Token → String)
    (speaks : ∀ before path tokens, emit ⟨none, before⟩ path tokens =
      (.ok (), ⟨none, before ++ (say path tokens).toUTF8⟩))
    (limited : ∀ all path tokens, all.size ≤ capacity →
      WrittenUpTo capacity (all ++ (say path tokens).toUTF8)
        (emit (.upTo capacity all) path tokens))
    (paths : List String) (failed : Nat) {all : ByteArray} (room : all.size ≤ capacity) :
    let free := runFiles files size emit paths failed ⟨none, all⟩
    let run := runFiles files size emit paths failed (.upTo capacity all)
    run.output = .upTo capacity free.output.written ∧
      (free.output.written.size ≤ capacity →
        run.result = free.result ∧ run.reports = free.reports) ∧
      (capacity < free.output.written.size →
        run.result = .error (.device .diskFull) ∨ run.result = .error (.json .diskFull)) := by
  induction paths generalizing failed all with
  | nil =>
    refine ⟨rfl, fun _ => ⟨rfl, rfl⟩, fun exceeds => ?_⟩
    exact absurd room (Nat.not_le.mpr exceeds)
  | cons path paths ih =>
    unfold runFiles
    rcases tokenizeFile files size path with error | tokens
    · obtain ⟨output, fits, overflows⟩ := ih (failed + 1) room
      refine ⟨output, fun little => ?_, overflows⟩
      obtain ⟨result, reports⟩ := fits little
      exact ⟨result, congrArg (errorReport files error :: ·) reports⟩
    · have wrote := limited all path tokens room
      dsimp only
      rw [speaks]
      dsimp only
      rcases written : emit (.upTo capacity all) path tokens with ⟨result, sink⟩
      rw [written] at wrote
      by_cases little : (all ++ (say path tokens).toUTF8).size ≤ capacity
      · obtain rfl : result = .ok () := wrote.fits little
        obtain rfl : sink = _ := wrote.output
        exact ih failed little
      · -- What the later files would add is behind the cut.
        have exceeds := Nat.not_le.mp little
        have output : sink = .upTo capacity (all ++ (say path tokens).toUTF8) := wrote.output
        have later := (runFiles_unbounded files size emit say speaks paths failed
          (all ++ (say path tokens).toUTF8)).1
        rw [later]
        dsimp only
        rw [Sink.upTo_append (by omega), ByteArray.size_append]
        rcases wrote.overflows exceeds with rfl | rfl
        · exact ⟨output, fun fits => absurd exceeds (by omega), fun _ => .inl rfl⟩
        · exact ⟨output, fun fits => absurd exceeds (by omega), fun _ => .inr rfl⟩

/-- An output that takes a number of bytes and then fails has got just so many of the listing, or of
all that the files would have to say, and the failed write is what the user is told of. -/
theorem output_cut_at_limit :
    (∀ format tokens capacity,
      let full := (listing format tokens).toUTF8
      (Sink.empty (some capacity)).writeListing format tokens =
        if full.size ≤ capacity then (.ok (), ⟨some capacity, full⟩)
        else (.error (if format = .json ∧ capacity < full.size - 1 then .json .diskFull
          else .device .diskFull), ⟨some capacity, full.extract 0 capacity⟩)) ∧
    ∀ files settings options paths capacity,
      let free := runListing files settings options paths (.empty none)
      let run := runListing files settings options paths (.empty (some capacity))
      run.output.written = free.output.written.extract 0 capacity ∧
        if free.output.written.size ≤ capacity then run.result = free.result
        else run.result = .error (.device .diskFull) ∨ run.result = .error (.json .diskFull) := by
  have nothing (capacity : Nat) : Sink.empty (some capacity) = .upTo capacity .empty := by
    rw [Sink.upTo, extract_of_size_le (Nat.zero_le _)]
    rfl
  refine ⟨?_, ?_⟩
  · intro format tokens capacity full
    rw [nothing, Sink.writeListing_upTo (Nat.zero_le _), ByteArray.empty_append]
    by_cases fits : full.size ≤ capacity
    · rw [if_pos fits, if_pos fits, Sink.upTo, extract_of_size_le fits]
    · rw [if_neg fits, if_neg fits, Sink.upTo]
      split
      · rfl
      · rfl
  · intro files settings options paths capacity free run
    have begun : ByteArray.empty.size ≤ capacity := Nat.zero_le capacity
    have cut := runFiles_upTo files (options.capacity settings) capacity
      (fun output _ tokens => output.writeListing (options.format settings) tokens)
      (fun _ => listing (options.format settings))
      (fun before _ => Sink.writeListing_unbounded before _)
      (fun _ _ tokens room => writtenUpTo_listing room _ tokens) paths 0 begun
    rw [← nothing] at cut
    obtain ⟨output, fits, overflows⟩ := cut
    refine ⟨congrArg Sink.written output, ?_⟩
    by_cases little : free.output.written.size ≤ capacity
    · rw [if_pos little]
      exact (fits little).1
    · rw [if_neg little]
      exact overflows (Nat.not_le.mp little)

end JackTokens
