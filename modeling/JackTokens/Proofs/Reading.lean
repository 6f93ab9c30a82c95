import JackTokens.Proofs.Continuation
import JackTokens.Proofs.Encoding
import JackTokens.Proofs.Partition
import JackTokens.Proofs.Stream

namespace JackTokens

namespace Cursor

/-- The text `cs` is still to come, from `place` on. -/
structure Ahead (cursor : Cursor) (place : Position) (cs : List Char) : Prop where
  wellFormed : cursor.buffer.WellFormed
  stream : cursor.buffer.stream = (encode cs).map .ok
  nextPosition : cursor.nextPosition = place

theorem ahead_ofReader (cs : List Char) (capacity : Nat) :
    (ofReader (.ofBytes (encode cs)) capacity).Ahead .start cs := by
  refine ⟨ReadBuffer.wellFormed_ofReader _ _, ?_, rfl⟩
  change (ReadBuffer.ofReader (.ofBytes (encode cs)) capacity).stream = _
  rw [ReadBuffer.stream_ofReader, Reader.flow_ofBytes]

variable {c : Cursor} {place : Position} {cs : List Char}

theorem Ahead.peek (h : c.Ahead place cs) :
    ∃ d, c.peek = (.ok cs.head?, d) ∧ d.Ahead place cs ∧ d.position = c.position := by
  have ahead := ReadBuffer.peek_stream h.wellFormed
  have wf := h.wellFormed.peek
  rw [h.stream] at ahead
  unfold Cursor.peek
  rcases hb : c.buffer.peek with ⟨result, buffer⟩
  rw [hb] at ahead wf
  cases cs with
  | nil =>
    obtain ⟨rfl, same⟩ := Prod.mk.inj ahead
    exact ⟨_, rfl, ⟨wf, same.symm, h.nextPosition⟩, rfl⟩
  | cons x cs =>
    rw [Flow.peek_encode] at ahead
    obtain ⟨rfl, same⟩ := Prod.mk.inj ahead
    exact ⟨_, rfl, ⟨wf, same.symm, h.nextPosition⟩, rfl⟩

theorem Ahead.next_nil (h : c.Ahead place []) :
    ∃ d, c.next = (.ok none, d) ∧ d.position = place := by
  have ahead := ReadBuffer.next_stream h.wellFormed
  rw [h.stream] at ahead
  unfold Cursor.next
  rcases hb : c.buffer.next with ⟨result, buffer⟩
  rw [hb] at ahead
  obtain ⟨rfl, _⟩ := Prod.mk.inj ahead
  exact ⟨_, rfl, h.nextPosition⟩

theorem Ahead.next_cons {x : Char} (h : c.Ahead place (x :: cs)) :
    ∃ d, c.next = (.ok (some x), d) ∧ d.Ahead (place.advance x) cs ∧ d.position = place := by
  have ahead := ReadBuffer.next_stream h.wellFormed
  have wf := h.wellFormed.next
  rw [h.stream, Flow.next_encode] at ahead
  unfold Cursor.next
  rcases hb : c.buffer.next with ⟨result, buffer⟩
  rw [hb] at ahead wf
  obtain ⟨rfl, same⟩ := Prod.mk.inj ahead
  refine ⟨_, rfl, ⟨wf, same.symm, ?_⟩, h.nextPosition⟩
  change c.nextPosition.advance x = _
  rw [h.nextPosition]

theorem Ahead.nextIf_cons {x : Char} {p : Char → Bool} (h : c.Ahead place (x :: cs))
    (hx : p x = true) :
    ∃ d, c.nextIf p = (.ok (some x), d) ∧ d.Ahead (place.advance x) cs := by
  obtain ⟨b, hb, ahead, _⟩ := h.peek
  obtain ⟨d, hd, rest, _⟩ := ahead.next_cons
  refine ⟨d, ?_, rest⟩
  rw [nextIf_eq, hb, List.head?_cons]
  simp only [andThen, hx, if_true, hd]

theorem Ahead.nextIf_stops {p : Char → Bool} (h : c.Ahead place cs) (hs : Stops p cs) :
    ∃ d, c.nextIf p = (.ok none, d) ∧ d.Ahead place cs ∧ d.position = c.position := by
  obtain ⟨d, hd, ahead, stays⟩ := h.peek
  refine ⟨d, ?_, ahead, stays⟩
  rw [nextIf_eq, hd]
  cases cs with
  | nil => rfl
  | cons x cs =>
    have stopped := stops_cons.mp hs
    simp only [andThen, List.head?_cons, stopped, Bool.false_eq_true, if_false]

theorem Ahead.readMore {p : Char → Bool} {front back : List Char}
    (h : c.Ahead place (front ++ back)) (hf : ∀ x ∈ front, p x = true) (hb : Stops p back)
    (read : List Char) :
    ∃ d, c.readMore p read = (.ok (read.reverse ++ front), d) ∧
      d.Ahead (place.after front) back := by
  induction front generalizing c place read with
  | nil =>
    obtain ⟨d, hd, ahead, _⟩ := h.nextIf_stops hb
    refine ⟨d, ?_, ahead⟩
    rw [readMore_eq, hd, List.append_nil]
    rfl
  | cons x front ih =>
    obtain ⟨b, hn, ahead⟩ := Ahead.nextIf_cons h (hf x (by simp))
    obtain ⟨d, hd, rest⟩ := ih ahead (fun y hy => hf y (List.mem_cons_of_mem x hy)) (x :: read)
    refine ⟨d, ?_, rest⟩
    rw [readMore_eq, hn]
    simp only [andThen, hd, List.reverse_cons, List.append_assoc, List.singleton_append]

theorem Ahead.readWhile {p : Char → Bool} {front back : List Char}
    (h : c.Ahead place (front ++ back)) (hf : ∀ x ∈ front, p x = true) (hb : Stops p back) :
    ∃ d, c.readWhile p = (.ok front, d) ∧ d.Ahead (place.after front) back :=
  h.readMore hf hb []

theorem Ahead.skipBlock_body {body : List Char} (h : c.Ahead place (body ++ cs))
    (hb : NoClose body) (hs : cs.head? ≠ some '/') (opening : Position) :
    ∃ d : Cursor, c.skipBlock opening = d.skipBlock opening ∧ d.Ahead (place.after body) cs := by
  induction body generalizing c place with
  | nil => exact ⟨c, rfl, h⟩
  | cons x body ih =>
    obtain ⟨star, inside⟩ := noClose_cons.mp hb
    obtain ⟨b, hn, ahead, _⟩ := Ahead.next_cons h
    -- After an asterisk the reader looks for a slash, and must not find one here.
    by_cases hx : x = '*'
    · have open_ : Stops (· == '/') (body ++ cs) := by
        intro y hy
        rw [beq_eq_false_iff_ne]
        rintro rfl
        cases body with
        | nil => exact hs hy
        | cons => exact star hx hy
      obtain ⟨d, hd, ahead', _⟩ := ahead.nextIf_stops open_
      obtain ⟨e, he, rest⟩ := ih ahead' inside
      refine ⟨e, ?_, rest⟩
      rw [skipBlock_eq, hn]
      simp only [andThen, hx, if_true, hd, he]
    · obtain ⟨e, he, rest⟩ := ih ahead inside
      refine ⟨e, ?_, rest⟩
      rw [skipBlock_eq, hn]
      simp only [andThen, hx, if_false, he]

theorem Ahead.skipBlock_closed {body : List Char}
    (h : c.Ahead place (body ++ '*' :: '/' :: cs)) (hb : NoClose body) (opening : Position) :
    ∃ d, c.skipBlock opening = (.ok (), d) ∧ d.Ahead (place.after (body ++ ['*', '/'])) cs := by
  obtain ⟨b, hc, ahead⟩ := h.skipBlock_body hb (by simp) opening
  obtain ⟨d, hd, ahead, _⟩ := ahead.next_cons
  obtain ⟨e, he, ahead⟩ := Ahead.nextIf_cons (p := (· == '/')) ahead rfl
  refine ⟨e, ?_, ?_⟩
  · rw [hc, skipBlock_eq, hd]
    simp only [andThen, if_true, he]
  · rw [Position.after_append]
    exact ahead

theorem Ahead.skipBlock_open {body : List Char} (h : c.Ahead place body) (hb : NoClose body)
    (opening : Position) :
    ∃ d, c.skipBlock opening = (.error (.malformed opening .unterminatedComment), d) := by
  rw [← List.append_nil body] at h
  obtain ⟨b, hc, ahead⟩ := h.skipBlock_body hb (by simp) opening
  obtain ⟨d, hd, _⟩ := ahead.next_nil
  refine ⟨d, ?_⟩
  rw [hc, skipBlock_eq, hd]
  rfl

theorem Ahead.skipComment_line {body : List Char} (h : c.Ahead place ('/' :: (body ++ cs)))
    (hb : '\n' ∉ body) (hs : Stops (· != '\n') cs) (opening : Position) :
    ∃ d, c.skipComment opening = (.ok true, d) ∧ d.Ahead (place.after ('/' :: body)) cs := by
  obtain ⟨b, hn, ahead⟩ := Ahead.nextIf_cons (p := (· == '/')) h rfl
  obtain ⟨d, hd, rest⟩ := ahead.readWhile (not_lineFeed_iff.mp hb) hs
  refine ⟨d, ?_, rest⟩
  rw [skipComment_eq, hn]
  simp only [andThen, skipLine_eq, hd]

/-- A slash with an asterisk behind it opens a block comment. -/
theorem Ahead.skipComment_block (h : c.Ahead place ('*' :: cs)) (opening : Position) :
    ∃ d : Cursor, c.skipComment opening =
        andThen (d.skipBlock opening) id (fun _ behind => (.ok true, behind)) ∧
      d.Ahead (place.advance '*') cs := by
  obtain ⟨b, hn, ahead, _⟩ := h.nextIf_stops (p := (· == '/')) (stops_cons.mpr rfl)
  obtain ⟨d, hd, rest⟩ := Ahead.nextIf_cons (p := (· == '*')) ahead rfl
  refine ⟨d, ?_, rest⟩
  rw [skipComment_eq, hn]
  simp only [andThen, hd]

theorem Ahead.skipComment_none (h : c.Ahead place cs)
    (hs : Stops (fun x => x == '/' || x == '*') cs) (opening : Position) :
    ∃ d, c.skipComment opening = (.ok false, d) ∧ d.Ahead place cs ∧ d.position = c.position := by
  have noLine : Stops (· == '/') cs := fun x hx => (Bool.or_eq_false_iff.mp (hs x hx)).1
  have noBlock : Stops (· == '*') cs := fun x hx => (Bool.or_eq_false_iff.mp (hs x hx)).2
  obtain ⟨b, hn, ahead, stays⟩ := h.nextIf_stops noLine
  obtain ⟨d, hd, rest, stays'⟩ := ahead.nextIf_stops noBlock
  refine ⟨d, ?_, rest, stays'.trans stays⟩
  rw [skipComment_eq, hn]
  simp only [andThen, hd]

theorem Ahead.skipGap_blank {x : Char} (h : c.Ahead place (x :: cs)) (hx : isBlank x = true) :
    ∃ d : Cursor, c.skipGap = d.skipGap ∧ d.Ahead (place.advance x) cs := by
  obtain ⟨d, hd, ahead, _⟩ := h.next_cons
  refine ⟨d, ?_, ahead⟩
  rw [skipGap_eq, hd]
  simp only [andThen, hx, if_true]

theorem Ahead.skipGap_slash (h : c.Ahead place ('/' :: cs)) :
    ∃ d : Cursor, c.skipGap = andThen (d.skipComment place) id (fun opened behind =>
        if opened then behind.skipGap else (.ok (some '/'), behind)) ∧
      d.Ahead (place.advance '/') cs ∧ d.position = place := by
  obtain ⟨d, hd, ahead, here⟩ := h.next_cons
  have solid : isBlank '/' = false := rfl
  refine ⟨d, ?_, ahead, here⟩
  rw [skipGap_eq, hd]
  simp only [andThen, here, solid, Bool.false_eq_true, if_false, if_true]

theorem Ahead.skipGap_gap {gap : List Char} (h : c.Ahead place (gap ++ cs)) (hg : IsGap gap) :
    ∃ d : Cursor, c.skipGap = d.skipGap ∧ d.Ahead (place.after gap) cs := by
  induction hg generalizing c place with
  | nil => exact ⟨c, rfl, h⟩
  | blank hb _ ih =>
    obtain ⟨b, hc, ahead⟩ := Ahead.skipGap_blank h hb
    obtain ⟨d, hd, rest⟩ := ih ahead
    exact ⟨d, hc.trans hd, rest⟩
  | @line body gap hb _ ih =>
    have text : c.Ahead place ('/' :: '/' :: (body ++ '\n' :: (gap ++ cs))) := by simpa using h
    obtain ⟨a, hc, ahead, _⟩ := text.skipGap_slash
    -- The comment stops before its line feed, which is passed over as a blank.
    obtain ⟨b, ha, ahead⟩ := ahead.skipComment_line hb (stops_lineFeed _) place
    obtain ⟨d, hb, ahead⟩ := ahead.skipGap_blank rfl
    obtain ⟨e, hd, rest⟩ := ih ahead
    refine ⟨e, ?_, ?_⟩
    · rw [hc, ha]
      simp only [andThen, if_true, hb, hd]
    · simpa [Position.after] using rest
  | @block body gap hb _ ih =>
    have text : c.Ahead place ('/' :: '*' :: (body ++ '*' :: '/' :: (gap ++ cs))) := by
      simpa using h
    obtain ⟨a, hc, ahead, _⟩ := text.skipGap_slash
    obtain ⟨b, ha, ahead⟩ := ahead.skipComment_block place
    obtain ⟨d, hb, ahead⟩ := ahead.skipBlock_closed hb place
    obtain ⟨e, hd, rest⟩ := ih ahead
    refine ⟨e, ?_, ?_⟩
    · rw [hc, ha, hb]
      simp only [andThen, if_true, hd]
    · simpa [Position.after] using rest

/-- A gap at the end of the text is passed over to the end. -/
theorem Ahead.skipGap_last (h : c.Ahead place cs) (hg : IsLastGap cs) :
    ∃ d, c.skipGap = (.ok none, d) ∧ d.position = place.after cs := by
  cases hg with
  | closed hg =>
    rw [← List.append_nil cs] at h
    obtain ⟨d, hc, ahead⟩ := h.skipGap_gap hg
    obtain ⟨e, hd, here⟩ := ahead.next_nil
    refine ⟨e, ?_, here⟩
    rw [hc, skipGap_eq, hd]
    rfl
  | @line gap body hg hb =>
    obtain ⟨a, hc, ahead⟩ := h.skipGap_gap hg
    obtain ⟨b, ha, ahead, _⟩ := ahead.skipGap_slash
    rw [← List.append_nil body] at ahead
    obtain ⟨d, hb, ahead⟩ := ahead.skipComment_line hb (stops_nil _) _
    obtain ⟨e, hd, here⟩ := ahead.next_nil
    refine ⟨e, ?_, ?_⟩
    · rw [hc, ha, hb]
      simp only [andThen, if_true]
      rw [skipGap_eq, hd]
      rfl
    · rw [here, Position.after_append]
      rfl

/-- The gap ends at a character that is neither blank nor opens a comment. -/
theorem Ahead.skipGap_stops {x : Char} (h : c.Ahead place (x :: cs)) (hx : isBlank x = false)
    (hs : x = '/' → Stops (fun d => d == '/' || d == '*') cs) :
    ∃ d, c.skipGap = (.ok (some x), d) ∧ d.Ahead (place.advance x) cs ∧ d.position = place := by
  by_cases slash : x = '/'
  · subst slash
    obtain ⟨b, hc, ahead, here⟩ := h.skipGap_slash
    obtain ⟨d, hb, rest, stays⟩ := ahead.skipComment_none (hs rfl) place
    refine ⟨d, ?_, rest, stays.trans here⟩
    rw [hc, hb]
    rfl
  · obtain ⟨d, hd, ahead, here⟩ := h.next_cons
    refine ⟨d, ?_, ahead, here⟩
    rw [skipGap_eq, hd]
    simp only [andThen, hx, slash, Bool.false_eq_true, if_false]

theorem Ahead.skipGap_open {body : List Char} (h : c.Ahead place ('/' :: '*' :: body))
    (hb : NoClose body) :
    ∃ d, c.skipGap = (.error (.malformed place .unterminatedComment), d) := by
  obtain ⟨a, hc, ahead, _⟩ := h.skipGap_slash
  obtain ⟨b, ha, ahead⟩ := ahead.skipComment_block place
  obtain ⟨d, hb⟩ := ahead.skipBlock_open hb place
  refine ⟨d, ?_⟩
  rw [hc, ha, hb]
  rfl

end Cursor

end JackTokens
