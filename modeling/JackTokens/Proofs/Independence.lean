import JackTokens.CommandLine
import JackTokens.Proofs.Listings
import JackTokens.Proofs.Progress
import JackTokens.Proofs.WholeInput
import Mathlib.Data.List.TakeDrop

namespace JackTokens

/-- What is said of the files at `paths`, in order: nothing of one that has no tokens. -/
def FileSystem.said (files : FileSystem) (say : String → List Token → String)
    (paths : List String) : String :=
  String.join (paths.filterMap fun path => (files.tokens? path).map (say path))

/-- The number of paths that have no tokens, each counted as often as it is given. -/
def FileSystem.failing (files : FileSystem) (paths : List String) : Nat :=
  paths.countP fun path => (files.tokens? path).isNone

/-- The tokens of a file are those that a tokenizer with any buffer gives of it, one by one, if it
gives no error. -/
theorem FileSystem.tokens?_eq_some {files : FileSystem} {path : String} {tokens : List Token}
    (capacity : Nat) : files.tokens? path = some tokens ↔
      ∃ reader, files.openFile path = .ok reader ∧
        (Tokenizer.ofReader reader capacity).Yields tokens := by
  have collected := @tokenizeFile_eq_ok files capacity path tokens
  rw [← collected, tokenizeFile]
  rcases files.openFile path with cause | reader
  · simp
  · have running := Tokenizer.running_ofReader reader capacity
    simp only [Except.ok.injEq, exists_eq_left', running.yields_iff]
    rcases (Tokenizer.ofReader reader capacity).drain.error? with _ | error
    · simp
    · simp

theorem panicsAt_eq_false (files : FileSystem) {capacity : Nat} (h : capacity ≤ maxAllocation)
    (path : String) : panicsAt files capacity path = false := by
  unfold panicsAt
  rcases files.openFile path with cause | reader
  · rfl
  · dsimp only
    rw [ReadBuffer.make?_eq_some h]
    rfl

theorem panicsAt_eq_true {files : FileSystem} {path : String} {reader : Reader}
    (opened : files.openFile path = .ok reader) {capacity : Nat} (h : maxAllocation < capacity) :
    panicsAt files capacity path = true := by
  rw [panicsAt, opened]
  dsimp only
  rw [ReadBuffer.make?_eq_none h]
  rfl

/-- A run whose buffers can be allocated returns. -/
theorem complete_eq_returned (files : FileSystem) {capacity : Nat} (h : capacity ≤ maxAllocation)
    (run : List String → CommandRun) (paths : List String) :
    complete files capacity run paths = .returned (run paths) := by
  have calm : ∀ path ∈ paths, (!panicsAt files capacity path) = true := by
    intro path _
    rw [panicsAt_eq_false files h]
    rfl
  rw [complete, List.span_eq_takeWhile_dropWhile, List.takeWhile_eq_self_iff.mpr calm,
    List.dropWhile_eq_nil_iff.mpr calm]

/-- A run panics at the first file if it opens and asks for too large a buffer. -/
theorem complete_eq_panicked {files : FileSystem} {path : String} {reader : Reader}
    (opened : files.openFile path = .ok reader) {capacity : Nat} (h : maxAllocation < capacity)
    (run : List String → CommandRun) (paths : List String) :
    complete files capacity run (path :: paths) = .panicked (run []).output (run []).reports := by
  rw [complete, List.span_eq_takeWhile_dropWhile, List.takeWhile_cons, List.dropWhile_cons,
    panicsAt_eq_true opened h]
  rfl

theorem runFiles_unopened {files : FileSystem} (capacity : Nat)
    (emit : Sink → String → List Token → Except CommandError Unit × Sink) {paths : List String}
    (h : ∀ path ∈ paths, ∃ cause, files.openFile path = .error cause) (failed : Nat)
    (output : Sink) : (runFiles files capacity emit paths failed output).output = output := by
  induction paths generalizing failed with
  | nil => rfl
  | cons path paths ih =>
    obtain ⟨⟨cause, missing⟩, others⟩ := List.forall_mem_cons.mp h
    rw [runFiles, tokenizeFile, missing]
    exact ih others (failed + 1)

/-- A run panics for want of a buffer only, and before it has written anything. -/
theorem output_of_panicked {files : FileSystem} {capacity : Nat}
    {emit : Sink → String → List Token → Except CommandError Unit × Sink} {paths : List String}
    {output written : Sink} {reports : List String}
    (h : complete files capacity (fun paths => runFiles files capacity emit paths 0 output) paths =
      .panicked written reports) : maxAllocation < capacity ∧ written = output := by
  have large : maxAllocation < capacity := by
    by_contra fits
    rw [complete_eq_returned files (Nat.le_of_not_lt fits)] at h
    cases h
  refine ⟨large, ?_⟩
  rw [complete, List.span_eq_takeWhile_dropWhile] at h
  split at h
  next => cases h
  next paths _ _ split =>
    cases h
    obtain ⟨rfl, _⟩ := Prod.mk.inj split
    refine runFiles_unopened capacity emit (fun path hp => ?_) 0 output
    have calm := List.mem_takeWhile_imp hp
    rcases opened : files.openFile path with cause | reader
    · exact ⟨cause, rfl⟩
    · rw [panicsAt_eq_true opened large] at calm
      cases calm

theorem tokenizeFile_capacity (files : FileSystem) (m n : Nat) (path : String) :
    tokenizeFile files m path = tokenizeFile files n path := by
  unfold tokenizeFile
  rcases files.openFile path with cause | reader
  · rfl
  · have same := Tokenizer.outcome_eq_of_flow_eq (a := reader) rfl m n
    obtain ⟨lexemes, ends⟩ := Prod.mk.inj same
    simp only [Tokenizer.Drained.tokens, lexemes, ends]

theorem runFiles_capacity (files : FileSystem) (m n : Nat)
    (emit : Sink → String → List Token → Except CommandError Unit × Sink) (paths : List String)
    (failed : Nat) (output : Sink) :
    runFiles files m emit paths failed output = runFiles files n emit paths failed output := by
  induction paths generalizing failed output with
  | nil => rfl
  | cons path paths ih =>
    unfold runFiles
    rw [tokenizeFile_capacity files m n path]
    simp only [ih]

/-- A run over files writes what is said of each one without errors, and counts the others. -/
theorem runFiles_unbounded (files : FileSystem) (capacity : Nat)
    (emit : Sink → String → List Token → Except CommandError Unit × Sink)
    (say : String → List Token → String)
    (speaks : ∀ before path tokens, emit ⟨none, before⟩ path tokens =
      (.ok (), ⟨none, before ++ (say path tokens).toUTF8⟩))
    (paths : List String) (failed : Nat) (before : ByteArray) :
    (runFiles files capacity emit paths failed ⟨none, before⟩).output =
        ⟨none, before ++ (files.said say paths).toUTF8⟩ ∧
      (runFiles files capacity emit paths failed ⟨none, before⟩).result =
        if failed + files.failing paths = 0 then .ok ()
        else .error (.failedFiles (failed + files.failing paths)) := by
  induction paths generalizing failed before with
  | nil =>
    refine ⟨?_, rfl⟩
    have empty : before ++ (files.said say []).toUTF8 = before := ByteArray.append_empty
    rw [empty]
    rfl
  | cons path paths ih =>
    unfold runFiles
    rcases clean : files.tokens? path with _ | tokens
    · rcases ran : tokenizeFile files capacity path with error | tokens
      · obtain ⟨output, result⟩ := ih (failed + 1) before
        have said : files.said say (path :: paths) = files.said say paths := by
          simp [FileSystem.said, clean]
        have count : files.failing (path :: paths) = files.failing paths + 1 := by
          simp [FileSystem.failing, clean]
        have total : failed + files.failing (path :: paths) =
            failed + 1 + files.failing paths := by omega
        dsimp only
        rw [said, total]
        exact ⟨output, result⟩
      · rw [tokenizeFile_eq_ok.mp ran] at clean
        cases clean
    · have ran : tokenizeFile files capacity path = .ok tokens := tokenizeFile_eq_ok.mpr clean
      have said : (files.said say (path :: paths)).toUTF8 =
          (say path tokens).toUTF8 ++ (files.said say paths).toUTF8 := by
        have join : files.said say (path :: paths) = say path tokens ++ files.said say paths := by
          simp [FileSystem.said, clean, String.join_cons]
        rw [join]
        rfl
      have count : files.failing (path :: paths) = files.failing paths := by
        simp [FileSystem.failing, clean]
      rw [ran]
      dsimp only
      rw [speaks]
      dsimp only
      rw [said, count, ← ByteArray.append_assoc]
      exact ih failed _

theorem emitCheck_unbounded (before : ByteArray) (path : String) (tokens : List Token) :
    emitCheck ⟨none, before⟩ path tokens =
      (.ok (), ⟨none, before ++ (checkLine path tokens).toUTF8⟩) := by
  rw [emitCheck, Sink.write_unbounded]

theorem FileSystem.count_listing {files : FileSystem} {path : String} {tokens : List Token}
    (h : files.tokens? path = some tokens) :
    (listing .text tokens).toList.count '\n' = tokens.length := by
  unfold tokens? at h
  split at h
  next => cases h
  next text read =>
    rcases lexed : tokensOf text with error | found
    · rw [lexed] at h
      cases h
    · rw [lexed] at h
      cases h
      apply count_textListing
      intro token ht
      exact oneLine_of_tokensOf lexed ht

theorem tokensOf_semicolon : tokensOf ";" = .ok [.symbol .semicolon] := by
  have word : Spelled (.symbol .semicolon) [';'] [] := .symbol .semicolon nofun
  have tiled : Tiles .start [';'] [⟨.symbol .semicolon, ⟨.start, 1⟩⟩] [] := .cons .nil word .nil
  have whole : ";".toList = [';'] ++ [] := rfl
  obtain ⟨u, hu, _⟩ := Tokenizer.drain_last whole tiled (.closed .nil)
  rw [tokensOf, hu]
  rfl

theorem FileSystem.tokens?_semicolon {files : FileSystem} {path : String}
    (opened : files.openFile path = .ok (.ofBytes ";".toUTF8.toList)) :
    files.tokens? path = some [.symbol .semicolon] := by
  have script : flow (Reader.ofBytes ";".toUTF8.toList).steps = (encode ";".toList).map .ok := by
    rw [Reader.flow_ofBytes, toList_toUTF8]
  rw [tokens?, (readText_eq_ok opened).mpr script]
  dsimp only
  rw [tokensOf_semicolon]
  rfl

end JackTokens
