import JackTokens.Command
import JackTokens.Proofs.Buffering
import JackTokens.Proofs.Cutoff

namespace JackTokens

/-- The tokens of the file at a path, if the whole of it can be read and is a text without
errors. -/
def FileSystem.tokens? (files : FileSystem) (path : String) : Option (List Token) :=
  match files.readText path with
  | .error _ => none
  | .ok text => (tokensOf text).toOption

theorem fromUTF8?_eq_some {bytes : ByteArray} {text : String} :
    String.fromUTF8? bytes = some text ↔ bytes = text.toUTF8 := by
  unfold String.fromUTF8?
  constructor
  · intro h
    split at h
    next =>
      cases h
      rfl
    next => cases h
  · rintro rfl
    exact dif_pos text.isValidUTF8

namespace Flow

theorem bytes_append_eq {front bytes : List UInt8} {s : Flow} :
    front.map .ok ++ s = bytes.map .ok ↔ ∃ more, bytes = front ++ more ∧ s = more.map .ok := by
  constructor
  · intro h
    obtain ⟨other, more, rfl, same, rfl⟩ := List.map_eq_append_iff.mp h.symm
    have whole : other = front := (List.map_inj_right fun _ _ => Except.ok.inj).mp same
    exact ⟨more, by rw [whole], rfl⟩
  · rintro ⟨more, rfl, rfl⟩
    exact List.map_append.symm

/-- A look that meets no failure leaves all as it is. -/
theorem peek_eq_ok {s left : Flow} {c? : Option Char} (h : peek s = (.ok c?, left)) :
    left = s := by
  have spec := decodes s
  unfold peek at h
  rcases hd : decode s with ⟨result, ahead⟩
  rw [hd] at spec h
  cases spec with
  | ended =>
    cases h
    rfl
  | char =>
    cases h
    rfl
  | failed => cases h
  | malformed => cases h

theorem next_eq_ok {s left : Flow} {c? : Option Char} (h : next s = (.ok c?, left)) :
    s = (encode c?.toList).map .ok ++ left := by
  have spec := decodes s
  unfold next at h
  rcases hd : decode s with ⟨result, ahead⟩
  rw [hd] at spec h
  cases spec with
  | ended =>
    cases h
    rfl
  | char c back =>
    cases h
    simp [encode]
  | failed => cases h
  | malformed => cases h

end Flow

/-- The whole of an input is gathered where no failure stands in it. -/
theorem gather_eq_ok {steps : List ReadStep} {bytes : List UInt8} :
    FileSystem.gather steps = .ok bytes ↔ flow steps = bytes.map .ok := by
  fun_induction FileSystem.gather steps generalizing bytes with
  | case1 => simp [flow, eq_comm]
  | case2 => simp [flow, eq_comm]
  | case3 piece steps filled error failed ih =>
    rw [flow_data steps filled, Flow.bytes_append_eq]
    constructor
    · intro h
      cases h
    · rintro ⟨more, _, h⟩
      rw [ih.mpr h] at failed
      cases failed
  | case4 piece steps filled more gathered ih =>
    rw [flow_data steps filled, Flow.bytes_append_eq]
    constructor
    · intro h
      cases h
      exact ⟨more, rfl, ih.mp gathered⟩
    · rintro ⟨other, rfl, h⟩
      rw [ih.mpr h] at gathered
      cases gathered
      rfl
  | case5 error steps again ih =>
    rw [flow, if_pos again]
    exact ih
  | case6 error steps final =>
    rw [flow, if_neg final]
    constructor
    · intro h
      cases h
    · intro h
      cases bytes with
      | nil => cases h
      | cons => cases h

namespace Cursor

variable {c d : Cursor}

/-- From the first place to the second one nothing but text is read. -/
structure Reads (c d : Cursor) : Prop where
  wellFormed : d.buffer.WellFormed
  text : ∃ cs, c.buffer.stream = (encode cs).map .ok ++ d.buffer.stream

theorem Reads.peek (h : c.Reads d) {c? : Option Char} (seen : d.peek.1 = .ok c?) :
    c.Reads d.peek.2 := by
  have ahead := ReadBuffer.peek_stream h.wellFormed
  have result : d.buffer.peek.1 = .ok c? := seen
  rw [result] at ahead
  obtain ⟨cs, whole⟩ := h.text
  refine ⟨h.wellFormed.peek, cs, ?_⟩
  rw [whole, ← Flow.peek_eq_ok ahead]
  rfl

theorem Reads.next (h : c.Reads d) {c? : Option Char} (read : d.next.1 = .ok c?) :
    c.Reads d.next.2 := by
  have ahead := ReadBuffer.next_stream h.wellFormed
  rw [← next_fst, read, ← next_buffer] at ahead
  obtain ⟨cs, whole⟩ := h.text
  refine ⟨next_wellFormed h.wellFormed, cs ++ c?.toList, ?_⟩
  rw [whole, Flow.next_eq_ok ahead, encode_append, List.map_append, List.append_assoc]

theorem reads_readLexeme (wf : c.buffer.WellFormed) {lexeme? : Option Lexeme}
    (h : c.readLexeme = (.ok lexeme?, d)) : c.Reads d := by
  have sim : Simulation (fun d e => d = e ∧ c.Reads e) fun _ _ => True := by
    apply self_simulation
    · intro d reads
      rcases seen : d.peek.1 with cause | c?
      · exact .inr ⟨trivial, cause, rfl⟩
      · exact .inl (reads.peek seen)
    · intro d reads
      rcases read : d.next.1 with cause | c?
      · exact .inr ⟨trivial, cause, rfl⟩
      · exact .inl (reads.next read)
  have begun : c.Reads c := ⟨wf, [], rfl⟩
  rcases sim.readLexeme ⟨rfl, begun⟩ with ⟨_, _, reads⟩ | ⟨cause, failed, _⟩
  · rw [h] at reads
    exact reads
  · rw [h] at failed
    cases failed

end Cursor

namespace Tokenizer

variable {t : Tokenizer}

/-- The whole input is text if no error ends the tokens. -/
theorem Running.exists_text (h : t.Running) (wf : t.cursor.buffer.WellFormed)
    (good : t.drain.error? = none) : ∃ cs, t.cursor.buffer.stream = (encode cs).map .ok := by
  -- Induction on the bytes ahead: each token reads text, and at the end nothing is left.
  induction hn : t.cursor.remaining using Nat.strongRecOn generalizing t with
  | ind n ih =>
    rw [h.drain_eq] at good
    rcases hr : t.cursor.readLexeme with ⟨error | _ | lexeme, cursor⟩
    · rw [hr] at good
      cases good
    · obtain ⟨cs, whole⟩ := (Cursor.reads_readLexeme wf hr).text
      rw [Cursor.stream_of_readLexeme_none hr, List.append_nil] at whole
      exact ⟨cs, whole⟩
    · rw [hr] at good
      have less := Cursor.remaining_lt_of_readLexeme hr
      have reads := Cursor.reads_readLexeme wf hr
      obtain ⟨cs, first⟩ := reads.text
      obtain ⟨ds, rest⟩ := ih _ (hn ▸ less) (h.step cursor (some lexeme)) reads.wellFormed good rfl
      refine ⟨cs ++ ds, ?_⟩
      rw [first, encode_append, List.map_append]
      exact congrArg ((encode cs).map .ok ++ ·) rest

end Tokenizer

/-- A file is read as a text if and only if its bytes are those of the text. -/
theorem FileSystem.readText_eq_ok {files : FileSystem} {path : String} {reader : Reader}
    (opened : files.openFile path = .ok reader) {text : String} :
    files.readText path = .ok text ↔ flow reader.steps = (encode text.toList).map .ok := by
  rw [← gather_eq_ok, readText, opened]
  dsimp only
  rcases hg : gather reader.steps with error | bytes
  · constructor
    · intro h
      cases h
    · intro h
      cases h
  · have encoded : String.fromUTF8? bytes.toByteArray = some text ↔
        bytes = encode text.toList := by
      rw [fromUTF8?_eq_some, toUTF8_eq]
      constructor
      · intro h
        have lists := congrArg (·.data.toList) h
        simpa using lists
      · rintro rfl
        rfl
    rw [Except.ok.injEq, ← encoded]
    dsimp only
    rcases String.fromUTF8? bytes.toByteArray with _ | other
    · simp
    · simp

/-- The whole of a file decides about its tokens, and not how it comes in. -/
theorem tokenizeFile_eq_ok {files : FileSystem} {capacity : Nat} {path : String}
    {tokens : List Token} :
    tokenizeFile files capacity path = .ok tokens ↔ files.tokens? path = some tokens := by
  rcases opened : files.openFile path with cause | reader
  · simp [tokenizeFile, FileSystem.tokens?, FileSystem.readText, opened]
  unfold tokenizeFile FileSystem.tokens?
  rw [opened]
  rcases read : files.readText path with cause | text
  · dsimp only
    rcases good : (Tokenizer.ofReader reader capacity).drain.error? with _ | error
    · -- Without an error the whole input has been read, and it was text.
      have running := Tokenizer.running_ofReader reader capacity
      have wf := ReadBuffer.wellFormed_ofReader reader capacity
      obtain ⟨cs, whole⟩ := running.exists_text wf good
      have text : (String.ofList cs).toList = cs := String.toList_ofList
      rw [← text] at whole
      have known := (FileSystem.readText_eq_ok opened).mpr whole
      rw [read] at known
      cases known
    · simp
  · have whole := (FileSystem.readText_eq_ok opened).mp read
    obtain ⟨lexemes, ends⟩ := Prod.mk.inj (Tokenizer.outcome_of_text whole capacity)
    simp only [tokensOf, Tokenizer.Drained.tokens, lexemes, ends]
    rcases (Tokenizer.ofText text).drain.error? with _ | error
    · simp [Except.toOption]
    · simp [Except.toOption]

end JackTokens
