import JackTokens.Proofs.Buffering
import JackTokens.Proofs.Finality
import JackTokens.Proofs.Tiling

namespace JackTokens

def ReadStep.isData : ReadStep → Bool
  | data _ => true
  | fail _ => false

/-- The step gives bytes, or it is an interruption. -/
def ReadStep.passes : ReadStep → Bool
  | data bytes => !bytes.isEmpty
  | fail error => error.kind = .interrupted

/-- Steps that all pass come to their bytes, with or without the interruptions. -/
theorem exists_flow_append {before : List ReadStep} (h : ∀ step ∈ before, step.passes = true) :
    ∃ bytes : List UInt8, bytes.length = (Reader.ofSteps before).dataLength ∧
      (∀ more, flow (before ++ more) = bytes.map .ok ++ flow more) ∧
      ∀ more, flow (before.filter (·.isData) ++ more) = bytes.map .ok ++ flow more := by
  induction before with
  | nil => exact ⟨[], rfl, fun _ => rfl, fun _ => rfl⟩
  | cons step before ih =>
    obtain ⟨passes, h⟩ := List.forall_mem_cons.mp h
    obtain ⟨bytes, length, whole, filtered⟩ := ih h
    cases step with
    | data given =>
      have some : given ≠ [] := by simpa [ReadStep.passes] using passes
      refine ⟨given ++ bytes, ?_, ?_, ?_⟩
      · rw [List.length_append, length]
        rfl
      · intro more
        rw [List.cons_append, flow_data _ some, whole, List.map_append, List.append_assoc]
      · intro more
        rw [List.filter_cons_of_pos rfl, List.cons_append, flow_data _ some, filtered,
          List.map_append, List.append_assoc]
    | fail error =>
      have again : error.kind = .interrupted := by simpa [ReadStep.passes] using passes
      refine ⟨bytes, ?_, ?_, ?_⟩
      · rw [length]
        exact (Nat.zero_add _).symm
      · intro more
        rw [List.cons_append, flow, if_pos again, whole]
      · intro more
        rw [List.filter_cons_of_neg Bool.false_ne_true, filtered]

theorem Reader.dataLength_append (before after : List ReadStep) :
    (ofSteps (before ++ after)).dataLength =
      (ofSteps before).dataLength + (ofSteps after).dataLength := by
  induction before with
  | nil => exact (Nat.zero_add _).symm
  | cons step before ih =>
    simp only [ofSteps, dataLength, List.cons_append, List.foldr_cons] at ih ⊢
    omega

theorem Reader.dataLength_filter (steps : List ReadStep) :
    (ofSteps (steps.filter (·.isData))).dataLength = (ofSteps steps).dataLength := by
  induction steps with
  | nil => rfl
  | cons step steps ih =>
    cases step with
    | data bytes => exact congrArg (bytes.length + ·) ih
    | fail error => exact ih.trans (Nat.zero_add _).symm

namespace Flow

theorem peek_beside (error : DeviceError) (bytes : List UInt8) (s t : Flow) :
    (bytes.length < minCapacity ∧
        (peek (bytes.map .ok ++ .error error :: s)).1 = .error (.device error)) ∨
      ∃ result, peek (bytes.map .ok ++ .error error :: s) =
          (result, bytes.map .ok ++ .error error :: s) ∧
        peek (bytes.map .ok ++ t) = (result, bytes.map .ok ++ t) := by
  rcases decode_beside error bytes s t with ⟨few, failed⟩ | ⟨result, _, hs, ht⟩
  · refine .inl ⟨few, ?_⟩
    rw [peek_fst, failed]
    rfl
  · unfold peek
    rw [hs, ht]
    rcases result with _ | _ | ⟨c, width⟩
    · exact .inr ⟨_, rfl, rfl⟩
    · exact .inr ⟨_, rfl, rfl⟩
    · exact .inr ⟨_, rfl, rfl⟩

theorem next_beside (error : DeviceError) (bytes : List UInt8) (s t : Flow) :
    (bytes.length < minCapacity ∧
        (next (bytes.map .ok ++ .error error :: s)).1 = .error (.device error)) ∨
      ∃ (result : Except ReadError (Option Char)) (left : List UInt8),
        left.length + readWidth result = bytes.length ∧
        next (bytes.map .ok ++ .error error :: s) =
          (result, left.map .ok ++ .error error :: s) ∧
        next (bytes.map .ok ++ t) = (result, left.map .ok ++ t) := by
  rcases decode_beside error bytes s t with ⟨few, failed⟩ | ⟨result, fits, hs, ht⟩
  · refine .inl ⟨few, ?_⟩
    rw [next_fst, failed]
    rfl
  · unfold next
    rw [hs, ht]
    rcases result with _ | _ | ⟨c, width⟩
    · exact .inr ⟨_, bytes, rfl, rfl, rfl⟩
    · exact .inr ⟨_, bytes, rfl, rfl, rfl⟩
    · have enough := fits c width rfl
      have size := width_of_decode hs
      have dropped (u : Flow) : List.drop width (bytes.map .ok ++ u) =
          (bytes.drop width).map .ok ++ u := by
        rw [List.drop_append_of_le_length (by simpa using enough), List.map_drop]
      refine .inr ⟨.ok (some c), bytes.drop width, ?_, ?_, ?_⟩
      · rw [List.length_drop, readWidth, ← size]
        omega
      · rw [← dropped]
      · rw [← dropped]

end Flow

namespace Cursor

/-- Up to a failure that `c` meets, `d` has the same bytes ahead, and `beyond` more after them. -/
structure Beside (error : DeviceError) (beyond : Nat) (c d : Cursor) : Prop where
  left : c.buffer.WellFormed
  right : d.buffer.WellFormed
  streams : ∃ (bytes : List UInt8) (s t : Flow),
    c.buffer.stream = bytes.map .ok ++ .error error :: s ∧
      d.buffer.stream = bytes.map .ok ++ t ∧ d.remaining = bytes.length + beyond
  position : c.position = d.position
  nextPosition : c.nextPosition = d.nextPosition

/-- The failure is due: fewer bytes are left before it than a character may have. -/
def Due (error : DeviceError) (beyond : Nat) (cause : ReadError) (d : Cursor) : Prop :=
  cause = .device error ∧ d.remaining < beyond + minCapacity

variable {error : DeviceError} {beyond : Nat} {c d : Cursor}

theorem beside_ofReader {reader other : Reader} {bytes : List UInt8} {s t : Flow}
    (hs : flow reader.steps = bytes.map .ok ++ .error error :: s)
    (ht : flow other.steps = bytes.map .ok ++ t)
    (count : other.dataLength = bytes.length + beyond) (m n : Nat) :
    Beside error beyond (ofReader reader m) (ofReader other n) where
  left := ReadBuffer.wellFormed_ofReader reader m
  right := ReadBuffer.wellFormed_ofReader other n
  streams := ⟨bytes, s, t, hs, ht, (Nat.zero_add _).trans count⟩
  position := rfl
  nextPosition := rfl

theorem Beside.peek (h : Beside error beyond c d) :
    Follows (Beside error beyond) (Due error beyond) id c.peek d.peek := by
  obtain ⟨bytes, s, t, hc, hd, count⟩ := h.streams
  have seen := ReadBuffer.peek_stream h.left
  have other := ReadBuffer.peek_stream h.right
  rw [hc] at seen
  rw [hd] at other
  rcases Flow.peek_beside error bytes s t with ⟨few, failed⟩ | ⟨result, hs, ht⟩
  · rw [seen] at failed
    refine .inr ⟨.device error, failed, rfl, ?_⟩
    rw [peek_remaining, count]
    omega
  · obtain ⟨left, ahead⟩ := Prod.mk.inj (seen.symm.trans hs)
    obtain ⟨right, ahead'⟩ := Prod.mk.inj (other.symm.trans ht)
    refine .inl ⟨left.trans right.symm, h.left.peek, h.right.peek, ?_, h.position, h.nextPosition⟩
    exact ⟨bytes, s, t, ahead, ahead', d.peek_remaining.trans count⟩

theorem Beside.next (h : Beside error beyond c d) :
    Follows (Beside error beyond) (Due error beyond) id c.next d.next := by
  obtain ⟨bytes, s, t, hc, hd, count⟩ := h.streams
  have seen := ReadBuffer.next_stream h.left
  have other := ReadBuffer.next_stream h.right
  have passed := next_remaining h.right
  rw [hc] at seen
  rw [hd] at other
  rcases Flow.next_beside error bytes s t with ⟨few, failed⟩ | ⟨result, left, used, hs, ht⟩
  · rw [seen, ← next_fst] at failed
    refine .inr ⟨.device error, failed, rfl, ?_⟩
    omega
  · obtain ⟨given, ahead⟩ := Prod.mk.inj (seen.symm.trans hs)
    obtain ⟨given', ahead'⟩ := Prod.mk.inj (other.symm.trans ht)
    rw [← next_fst] at given given'
    rw [← next_buffer] at ahead ahead'
    have places := next_places (given.trans given'.symm) h.position h.nextPosition
    refine .inl ⟨given.trans given'.symm, next_wellFormed h.left, next_wellFormed h.right, ?_,
      places.1, places.2⟩
    refine ⟨left, s, t, ahead, ahead', ?_⟩
    rw [given'] at passed
    omega

/-- A run that meets the failure keeps to one that does not until the failure is due. -/
theorem beside_simulation : Simulation (Beside error beyond) (Due error beyond) where
  peek h := h.peek
  next h := h.next
  position h := h.position
  nextPosition h := h.nextPosition
  later h le := ⟨h.1, Nat.lt_of_le_of_lt le h.2⟩

theorem Beside.stream_ne_nil (h : Beside error beyond c d) : c.buffer.stream ≠ [] := by
  obtain ⟨bytes, s, t, hc, _, _⟩ := h.streams
  rw [hc]
  exact List.append_ne_nil_of_right_ne_nil _ (List.cons_ne_nil _ _)

end Cursor

namespace Tokenizer

/-- How a run that meets a failure after `f` bytes stands to one without the failure. -/
structure CutShort (error : DeviceError) (f : Nat) (cut whole : Drained) : Prop where
  lexemes : cut.lexemes <+: whole.lexemes
  early : ∀ lexeme ∈ whole.lexemes, lexeme.span.stop + minCapacity ≤ f → lexeme ∈ cut.lexemes
  failed : ∃ cause, cut.error? = some cause ∧ cut.tokenizer.Final (again (.error cause))
  outcome : cut.error? = some (.unreadable (.device error)) ∨ cut.outcome = whole.outcome

variable {error : DeviceError} {f beyond : Nat} {t u : Tokenizer}

theorem CutShort.cons {cut whole : Drained} (h : CutShort error f cut whole) (lexeme : Lexeme) :
    CutShort error f (cut.cons lexeme) (whole.cons lexeme) where
  lexemes := List.cons_prefix_cons.mpr ⟨rfl, h.lexemes⟩
  early other ho soon := by
    rcases List.mem_cons.mp ho with rfl | ho
    · exact List.mem_cons_self
    · exact List.mem_cons_of_mem _ (h.early other ho soon)
  failed := h.failed
  outcome := by
    rcases h.outcome with failed | same
    · exact .inl failed
    · obtain ⟨lexemes, ends⟩ := Prod.mk.inj same
      refine .inr (Prod.ext ?_ ends)
      exact congrArg (lexeme :: ·) lexemes

theorem Running.cutShort (ht : t.Running) (hu : u.Running)
    (rel : Cursor.Beside error beyond t.cursor u.cursor)
    (total : u.cursor.nextPosition.offset + u.cursor.remaining = f + beyond) :
    CutShort error f t.drain u.drain := by
  -- Induction on the bytes ahead: each token that both take uses some up.
  induction hn : t.cursor.remaining using Nat.strongRecOn generalizing t u with
  | ind n ih =>
    have known := Cursor.readLexeme_total rel.right
    have behind := fun lexeme => @Running.offset_le_stop u hu lexeme
    rw [ht.drain_eq]
    rcases Cursor.beside_simulation.readLexeme rel with ⟨same, rel'⟩ | ⟨cause, failed, rfl, due⟩
    · rw [hu.drain_eq]
      rcases hr : t.cursor.readLexeme with ⟨result, c⟩
      rcases hs : u.cursor.readLexeme with ⟨_, d⟩
      rw [hr, hs] at same rel'
      rw [hs] at known
      cases same
      rcases result with e | _ | lexeme
      · refine ⟨List.prefix_rfl, ?_, ⟨e, rfl, .failed rfl ht.peeked⟩, .inr rfl⟩
        intro lexeme hl
        cases hl
      · exact absurd (Cursor.stream_of_readLexeme_none hr) rel'.stream_ne_nil
      · have less := Cursor.remaining_lt_of_readLexeme hr
        have later := ih _ (hn ▸ less) (ht.step c (some lexeme)) (hu.step d (some lexeme)) rel'
          (known.2.trans total) rfl
        exact later.cons lexeme
    · rcases hr : t.cursor.readLexeme with ⟨_, c⟩
      rw [hr] at failed
      cases failed
      refine ⟨List.nil_prefix, ?_, ⟨_, rfl, .failed rfl ht.peeked⟩, .inl rfl⟩
      intro lexeme hl soon
      have late := behind lexeme hl
      omega

/-- A failure of the reader makes no wrong token and loses no finished one: up to the last few bytes
before it, the tokens are those of the same input without failures. What ends them is either an
error that the bytes before the failure decide, or the failure, and then no token follows. -/
theorem failure_keeps_finished_tokens (before after : List ReadStep) (error : DeviceError)
    (capacity : Nat) (passing : ∀ step ∈ before, step.passes = true)
    (final : error.kind ≠ .interrupted) :
    let steps := before ++ .fail error :: after
    let whole := (ofReader (.ofSteps (steps.filter (·.isData))) capacity).drain
    let cut := (ofReader (.ofSteps steps) capacity).drain
    cut.lexemes <+: whole.lexemes ∧
      (∀ lexeme ∈ whole.lexemes,
        lexeme.span.stop + 4 ≤ (Reader.ofSteps before).dataLength → lexeme ∈ cut.lexemes) ∧
      ((cut.outcome = whole.outcome ∧ cut.error? ≠ none ∧
          ∀ more, (ofReader (.ofSteps (before ++ more)) capacity).drain.outcome = cut.outcome) ∨
        (cut.error? = some (.unreadable (.device error)) ∧
          ∀ later, (cut.tokenizer.session later).map (·.1) =
            later.map (·.repeated (.error (.unreadable (.device error)))))) := by
  intro steps whole cut
  obtain ⟨bytes, length, flows, filtered⟩ := exists_flow_append passing
  have stops : flow steps = bytes.map .ok ++ .error error :: flow after := by
    rw [flows, flow, if_neg final]
  have compare (other tail : List ReadStep) (goes : flow other = bytes.map .ok ++ flow tail)
      (count : (Reader.ofSteps other).dataLength =
        bytes.length + (Reader.ofSteps tail).dataLength) :
      CutShort error (Reader.ofSteps before).dataLength cut
        (ofReader (.ofSteps other) capacity).drain := by
    have rel : Cursor.Beside error (Reader.ofSteps tail).dataLength
        (ofReader (.ofSteps steps) capacity).cursor (ofReader (.ofSteps other) capacity).cursor :=
      Cursor.beside_ofReader stops goes count capacity capacity
    refine (running_ofReader _ _).cutShort (running_ofReader _ _) rel ?_
    rw [← length, ← count]
    exact (Nat.zero_add _).trans (Nat.zero_add _)
  have main : CutShort error (Reader.ofSteps before).dataLength cut whole := by
    refine compare _ (after.filter (·.isData)) ?_ ?_
    · rw [List.filter_append, filtered, List.filter_cons_of_neg Bool.false_ne_true]
    · rw [Reader.dataLength_filter, Reader.dataLength_append, Reader.dataLength_filter, length]
      exact congrArg (_ + ·) (Nat.zero_add _)
  refine ⟨main.lexemes, main.early, ?_⟩
  obtain ⟨cause, ends, still⟩ := main.failed
  by_cases met : cut.error? = some (.unreadable (.device error))
  · rw [met] at ends
    cases ends
    exact .inr ⟨met, fun later => (still.serveAll later).1⟩
  · refine .inl ⟨main.outcome.resolve_left met, ?_, ?_⟩
    · rw [ends]
      exact Option.some_ne_none cause
    · intro more
      have other := compare (before ++ more) more (flows more) ?_
      · exact (other.outcome.resolve_left met).symm
      · rw [Reader.dataLength_append, length]

/-- The failure strikes within the second word, which must not come out shorter. The first one is
there. -/
theorem failure_keeps_finished_tokens_cut_word :
    let before : List ReadStep :=
      [.data [0x61], .fail ⟨.interrupted, "signal"⟩, .data [0x20, 0x20, 0x20, 0x62]]
    let steps := before ++ [.fail ⟨.wouldBlock, "busy"⟩, .data [0x63]]
    let cut := (ofReader (.ofSteps steps) 0).drain
    (∀ step ∈ before, step.passes = true) ∧ DeviceError.Kind.wouldBlock ≠ .interrupted ∧
      cut.lexemes <+: [⟨.identifier "a", ⟨.start, 1⟩⟩, ⟨.identifier "bc", ⟨⟨4, 1, 5⟩, 2⟩⟩] ∧
      ⟨.identifier "a", ⟨.start, 1⟩⟩ ∈ cut.lexemes ∧
      cut.error? = some (.unreadable (.device ⟨.wouldBlock, "busy"⟩)) := by
  intro before steps cut
  have passing : ∀ step ∈ before, step.passes = true := by decide
  have final : DeviceError.Kind.wouldBlock ≠ .interrupted := by decide
  obtain ⟨front, early, ends⟩ :=
    failure_keeps_finished_tokens before [.data [0x63]] ⟨.wouldBlock, "busy"⟩ 0 passing final
  let data : List ReadStep := [.data [0x61], .data [0x20, 0x20, 0x20, 0x62], .data [0x63]]
  have kept : steps.filter (·.isData) = data := rfl
  have free : ∀ k : Keyword, k.spelling ≠ "a" ∧ k.spelling ≠ "bc" := by
    intro k
    cases k
    all_goals decide
  have first : Spelled (.identifier "a") "a".toList "   bc".toList :=
    .identifier ⟨'a', [], rfl, rfl, by simp⟩ (fun k => (free k).1) (stops_cons.mpr rfl)
  have part : ∀ c ∈ ['c'], isWordPart c = true := List.forall_mem_singleton.mpr rfl
  have second : Spelled (.identifier "bc") "bc".toList [] :=
    .identifier ⟨'b', ['c'], rfl, rfl, part⟩ (fun k => (free k).2) (stops_nil _)
  have spaces : IsGap [' ', ' ', ' '] := .blank rfl (.blank rfl (.blank rfl .nil))
  have tiled : Tiles .start "a   bc".toList
      [⟨.identifier "a", ⟨.start, 1⟩⟩, ⟨.identifier "bc", ⟨⟨4, 1, 5⟩, 2⟩⟩] [] :=
    .cons .nil first (.cons spaces second .nil)
  have whole : "a   bc".toList = "a   bc".toList ++ [] := rfl
  obtain ⟨u, hu, _⟩ := drain_last whole tiled (.closed .nil)
  have script : flow (Reader.ofSteps data).steps = (encode "a   bc".toList).map .ok := rfl
  obtain ⟨lexemes, sound⟩ := Prod.mk.inj (outcome_of_text script 0)
  rw [hu] at lexemes sound
  rw [kept, lexemes] at front early
  refine ⟨passing, final, front, early _ List.mem_cons_self (by decide), ?_⟩
  rcases ends with ⟨same, failed, _⟩ | ⟨failed, _⟩
  · rw [kept] at same
    exact absurd ((Prod.mk.inj same).2.trans sound) failed
  · exact failed

end Tokenizer

end JackTokens
