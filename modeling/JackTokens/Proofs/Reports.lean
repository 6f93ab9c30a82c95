import JackTokens.DirectoryTree
import JackTokens.Proofs.Independence
import Mathlib.Data.List.Infix

namespace JackTokens

/-- What is reported of a file that fails. A report of an error in the text points into the file,
and one of a failure to read on does not. -/
inductive Reported (files : FileSystem) (path : String) : String → Prop
  | unopened {cause} : files.openFile path = .error cause →
      Reported files path ("error: Cannot read " ++ path ++ ": " ++ cause.message ++ "\n")
  | malformed {reader position fault excerpt} : files.openFile path = .ok reader →
      (∀ capacity, (Tokenizer.ofReader reader capacity).drain.error? =
        some (.malformed position fault)) →
      Reported files path ("error: " ++ fault.message ++ "\n --> " ++ path ++ ":" ++
        position.text ++ excerpt ++ "\n")
  | unreadable {reader cause} : files.openFile path = .ok reader →
      (∀ capacity, (Tokenizer.ofReader reader capacity).drain.error? =
        some (.unreadable cause)) →
      Reported files path ("error: failed to read input: " ++ cause.message ++ "\n")

variable {files : FileSystem} {path : String}

theorem error?_capacity (reader : Reader) (m n : Nat) :
    (Tokenizer.ofReader reader m).drain.error? = (Tokenizer.ofReader reader n).drain.error? :=
  (Prod.mk.inj (Tokenizer.outcome_eq_of_flow_eq (b := reader) rfl m n)).2

/-- A file fails when it is opened, or when it is tokenized. -/
theorem tokenizeFile_error {capacity : Nat} {error : CommandError}
    (h : tokenizeFile files capacity path = .error error) :
    (∃ cause, files.openFile path = .error cause ∧ error = .unopened path cause) ∨
      ∃ reader cause, files.openFile path = .ok reader ∧
        (Tokenizer.ofReader reader capacity).drain.error? = some cause ∧
        error = .stopped path cause := by
  unfold tokenizeFile at h
  split at h
  next cause opened =>
    cases h
    exact .inl ⟨cause, opened, rfl⟩
  next reader opened =>
    dsimp only at h
    split at h
    next cause failed =>
      cases h
      exact .inr ⟨reader, cause, opened, failed, rfl⟩
    next => cases h

theorem stoppedReport_malformed (files : FileSystem) (path : String) (position : Position)
    (fault : LexFault) :
    ∃ excerpt, stoppedReport files path (.malformed position fault) =
      "error: " ++ fault.message ++ "\n --> " ++ path ++ ":" ++ position.text ++ excerpt := by
  have shape : ∃ excerpt, stoppedReport files path (.malformed position fault) =
      "error" ++ ": " ++ fault.message ++
        ("\n --> " ++ path ++ ":" ++ position.text ++ excerpt) ++ String.join [] := ⟨_, rfl⟩
  have heading : "error" ++ ": " = "error: " := by decide
  obtain ⟨excerpt, shape⟩ := shape
  refine ⟨excerpt, ?_⟩
  rw [shape, heading, String.join_nil, String.append_empty]
  simp only [String.append_assoc]

/-- Without a place, the name of the file is left out as well. -/
theorem stoppedReport_unreadable (files : FileSystem) (path : String) (cause : ReadError) :
    stoppedReport files path (.unreadable cause) =
      "error: failed to read input: " ++ cause.message := by
  have shape : stoppedReport files path (.unreadable cause) =
      "error" ++ ": " ++ ("failed to read input: " ++ cause.message) ++ "" ++
        String.join [] := rfl
  have heading : "error" ++ ": " ++ "failed to read input: " = "error: failed to read input: " := by
    decide
  rw [shape, String.join_nil, String.append_empty, String.append_empty, ← String.append_assoc,
    heading]

theorem reported_of_error {capacity : Nat} {error : CommandError}
    (h : tokenizeFile files capacity path = .error error) :
    Reported files path (errorReport files error) := by
  rcases tokenizeFile_error h with ⟨cause, opened, rfl⟩ | ⟨reader, cause, opened, failed, rfl⟩
  · have shape : errorReport files (.unopened path cause) =
        "error: " ++ ("Cannot read " ++ path ++ ": " ++ cause.message) ++ "\n" := rfl
    have heading : "error: " ++ "Cannot read " = "error: Cannot read " := by decide
    rw [shape, ← String.append_assoc, ← String.append_assoc, ← String.append_assoc, heading]
    exact .unopened opened
  · have always (n : Nat) := (error?_capacity reader n capacity).trans failed
    cases cause with
    | unreadable cause =>
      rw [errorReport, stoppedReport_unreadable]
      exact .unreadable opened always
    | malformed position fault =>
      obtain ⟨excerpt, report⟩ := stoppedReport_malformed files path position fault
      rw [errorReport, report]
      exact .malformed opened always

/-- The path stands in the report, unless the file was opened and cannot be read on. -/
theorem Reported.names {report : String} (h : Reported files path report) :
    path.toList <:+: report.toList ∨
      ∃ reader cause, files.openFile path = .ok reader ∧
        (∀ capacity, (Tokenizer.ofReader reader capacity).drain.error? =
          some (.unreadable cause)) ∧
        report = "error: failed to read input: " ++ cause.message ++ "\n" := by
  cases h with
  | @unopened cause =>
    refine .inl ⟨"error: Cannot read ".toList, (": " ++ cause.message ++ "\n").toList, ?_⟩
    simp
  | @malformed reader position fault excerpt =>
    refine .inl ⟨("error: " ++ fault.message ++ "\n --> ").toList,
      (":" ++ position.text ++ excerpt ++ "\n").toList, ?_⟩
    simp
  | unreadable opened failed => exact .inr ⟨_, _, opened, failed, rfl⟩

/-- What is reported of the files at `paths`, in order: nothing of one without errors. -/
def FileSystem.reports (files : FileSystem) (paths : List String) : List String :=
  paths.filterMap fun path =>
    match tokenizeFile files defaultCapacity path with
    | .error error => some (errorReport files error)
    | .ok _ => none

theorem forall₂_reports (files : FileSystem) (paths : List String) :
    List.Forall₂ (Reported files) (paths.filter fun path => (files.tokens? path).isNone)
      (files.reports paths) := by
  induction paths with
  | nil => exact .nil
  | cons path paths ih =>
    rcases ran : tokenizeFile files defaultCapacity path with error | tokens
    · have failing : files.tokens? path = none := by
        by_contra clean
        obtain ⟨tokens, found⟩ := Option.ne_none_iff_exists'.mp clean
        rw [tokenizeFile_eq_ok.mpr found] at ran
        cases ran
      have reports : files.reports (path :: paths) =
          errorReport files error :: files.reports paths := by
        simp [FileSystem.reports, ran]
      rw [reports, List.filter_cons_of_pos (by simp [failing])]
      exact .cons (reported_of_error ran) ih
    · have clean := tokenizeFile_eq_ok.mp ran
      have reports : files.reports (path :: paths) = files.reports paths := by
        simp [FileSystem.reports, ran]
      rw [reports, List.filter_cons_of_neg (by simp [clean])]
      exact ih

/-- An output that takes all has no part in what is reported. -/
theorem runFiles_reports (files : FileSystem) (capacity : Nat)
    (emit : Sink → String → List Token → Except CommandError Unit × Sink)
    (speaks : ∀ before path tokens, ∃ after,
      emit ⟨none, before⟩ path tokens = (.ok (), ⟨none, after⟩))
    (paths : List String) (failed : Nat) (before : ByteArray) :
    (runFiles files capacity emit paths failed ⟨none, before⟩).reports = files.reports paths := by
  rw [runFiles_capacity files capacity defaultCapacity]
  induction paths generalizing failed before with
  | nil => rfl
  | cons path paths ih =>
    unfold runFiles
    rcases ran : tokenizeFile files defaultCapacity path with error | tokens
    · simp [FileSystem.reports, ran, ih]
    · obtain ⟨after, spoken⟩ := speaks before path tokens
      simp [FileSystem.reports, ran, spoken, ih]

/-- Each failing file has one report, in the order of the paths, and both commands give the same
reports. A report names its file, apart from a file that was opened and cannot be read on: of that
one only the failure is told. -/
theorem failing_files_reported (files : FileSystem) (settings : Settings)
    (options : ListingOptions) (paths : List String) (before : ByteArray) :
    let listed := runListing files settings options paths ⟨none, before⟩
    let checked := runCheck files settings paths ⟨none, before⟩
    List.Forall₂ (Reported files) (paths.filter fun path => (files.tokens? path).isNone)
        listed.reports ∧
      checked.reports = listed.reports ∧
      ∀ path report, Reported files path report → path.toList <:+: report.toList ∨
        ∃ reader cause, files.openFile path = .ok reader ∧
          (∀ capacity, (Tokenizer.ofReader reader capacity).drain.error? =
            some (.unreadable cause)) ∧
          report = "error: failed to read input: " ++ cause.message ++ "\n" := by
  intro listed checked
  have writing : listed.reports = files.reports paths :=
    runFiles_reports files _ _ (fun before _ tokens =>
      ⟨_, Sink.writeListing_unbounded before (options.format settings) tokens⟩) paths 0 before
  have checking : checked.reports = files.reports paths :=
    runFiles_reports files _ _ (fun before path tokens =>
      ⟨_, emitCheck_unbounded before path tokens⟩) paths 0 before
  refine ⟨?_, checking.trans writing.symm, fun _ _ => Reported.names⟩
  rw [writing]
  exact forall₂_reports files paths

/-- Nothing is read of a file if the first call of its reader fails. -/
theorem error?_of_failure {error : DeviceError} (final : error.kind ≠ .interrupted)
    (steps : List ReadStep) (capacity : Nat) :
    (Tokenizer.ofReader (.ofSteps (.fail error :: steps)) capacity).drain.error? =
      some (.unreadable (.device error)) := by
  have running := Tokenizer.running_ofReader (.ofSteps (.fail error :: steps)) capacity
  have read := ReadBuffer.next_stream
    (ReadBuffer.wellFormed_ofReader (.ofSteps (.fail error :: steps)) capacity)
  have ahead : flow (Reader.ofSteps (.fail error :: steps)).steps = .error error :: flow steps :=
    if_neg final
  rw [ReadBuffer.stream_ofReader, ahead] at read
  have failed : (Cursor.ofReader (.ofSteps (.fail error :: steps)) capacity).next.1 =
      .error (.device error) := by
    rw [Cursor.next_fst]
    exact (Prod.mk.inj read).1.symm
  have lexed : (Cursor.ofReader (.ofSteps (.fail error :: steps)) capacity).readLexeme.1 =
      .error (.unreadable (.device error)) := by
    rw [Cursor.readLexeme_eq, Cursor.skipGap_eq]
    rcases hn : (Cursor.ofReader (.ofSteps (.fail error :: steps)) capacity).next with ⟨_, after⟩
    rw [hn] at failed
    cases failed
    rfl
  rw [running.drain_eq]
  rcases hr : (Cursor.ofReader (.ofSteps (.fail error :: steps)) capacity).readLexeme
    with ⟨_, after⟩
  rw [hr] at lexed
  cases lexed
  simp only [Tokenizer.ofReader, hr]

/-- Every path is a directory, which can be opened and not read: the report is silent about it. -/
theorem report_of_directory_unnamed :
    let files : FileSystem := ⟨fun _ => true, fun _ => .ok DirectoryTree.empty.reader⟩
    (runCheck files .default ["Sources"] (.empty none)).reports =
        ["error: failed to read input: Is a directory (os error 21)\n"] ∧
      ¬ "Sources".toList <:+:
        "error: failed to read input: Is a directory (os error 21)\n".toList := by
  intro files
  have failed := @error?_of_failure .directory (by decide) [] defaultCapacity
  have ran : tokenizeFile files defaultCapacity "Sources" =
      .error (.stopped "Sources" (.unreadable (.device .directory))) := by
    unfold tokenizeFile
    simp only [files, DirectoryTree.reader, DirectoryTree.empty, failed]
  refine ⟨?_, by decide⟩
  have reports := runFiles_reports files Settings.default.bufferCapacity emitCheck
    (fun before path tokens => ⟨_, emitCheck_unbounded before path tokens⟩) ["Sources"] 0 .empty
  refine reports.trans ?_
  simp only [FileSystem.reports, List.filterMap_cons, List.filterMap_nil, ran, errorReport,
    stoppedReport_unreadable]
  decide

end JackTokens
