import JackTokens.Proofs.Draining
import JackTokens.Proofs.Finality

namespace JackTokens

namespace Reader

/-- Bounds the calls of a reader, those so far and those to come. None comes behind the end. -/
def callBound (reader : Reader) (ended : Bool) : Nat :=
  reader.offers.length + if ended then 0 else reader.pending + 1

theorem callBound_of_read {reader next : Reader} {room : Nat}
    {given : Except DeviceError (List UInt8)} (h : reader.read room = (given, next)) :
    (given = .ok [] → next.callBound true ≤ reader.callBound false) ∧
      (given ≠ .ok [] → next.callBound false ≤ reader.callBound false) := by
  have offers := offers_of_read h
  simp only [callBound, offers, List.length_cons, Bool.false_eq_true, if_true, if_false]
  refine ⟨fun _ => by omega, ?_⟩
  intro some
  have less : next.pending < reader.pending := by
    rcases given with error | _ | ⟨byte, bytes⟩
    · exact pending_lt_of_read_error h
    · exact absurd rfl some
    · exact pending_lt_of_read_ok h
  omega

end Reader

namespace ReadBuffer

def callBound (buffer : ReadBuffer) : Nat :=
  buffer.reader.callBound buffer.ended

theorem fill_callBound (buffer : ReadBuffer) (want : Nat) :
    (buffer.fill want).2.callBound ≤ buffer.callBound := by
  fun_induction fill buffer want with
  | case1 => exact Nat.le_refl _
  | case2 => exact Nat.le_refl _
  | case3 buffer _ going reader hr =>
    have bound := (Reader.callBound_of_read hr).1 rfl
    rw [compact_reader] at bound
    simpa [callBound, going] using bound
  | case4 buffer _ going byte bytes reader hr ih =>
    have bound := (Reader.callBound_of_read hr).2 (by simp)
    rw [compact_reader] at bound
    exact Nat.le_trans ih (by simpa [callBound, accept, going] using bound)
  | case5 buffer _ going error reader hr _ ih =>
    have bound := (Reader.callBound_of_read hr).2 (by simp)
    rw [compact_reader] at bound
    exact Nat.le_trans ih (by simpa [callBound, going] using bound)
  | case6 buffer _ going error reader hr _ =>
    have bound := (Reader.callBound_of_read hr).2 (by simp)
    rw [compact_reader] at bound
    simpa [callBound, going] using bound

theorem decode_callBound (buffer : ReadBuffer) :
    buffer.decode.2.callBound ≤ buffer.callBound := by
  have first := buffer.fill_callBound 1
  unfold decode
  split
  next hf => simpa [hf] using first
  next hf => simpa [hf] using first
  next filled hf =>
    rw [hf] at first
    split
    next => exact first
    next lead rest _ =>
      split
      next => exact first
      next ranges _ =>
        have second := Nat.le_trans (filled.fill_callBound (ranges.length + 1)) first
        split
        next hg => simpa [hg] using second
        next hg => simpa [hg] using second
        next hg =>
          rw [hg] at second
          split
          next => exact second
          next => exact second

theorem peek_callBound (buffer : ReadBuffer) : buffer.peek.2.callBound ≤ buffer.callBound := by
  have bound := buffer.decode_callBound
  unfold peek
  split
  next hd => simpa [hd] using bound
  next hd => simpa [hd] using bound
  next hd => simpa [hd] using bound

theorem next_callBound (buffer : ReadBuffer) : buffer.next.2.callBound ≤ buffer.callBound := by
  have bound := buffer.decode_callBound
  unfold next
  split
  next hd => simpa [hd] using bound
  next hd => simpa [hd] using bound
  next hd =>
    rw [hd] at bound
    exact bound

end ReadBuffer

namespace Cursor

variable {cursor : Cursor}

theorem skipGap_keeps {P : Cursor → Prop} (peek : ∀ c : Cursor, P c → P c.peek.2)
    (next : ∀ c : Cursor, P c → P c.next.2) (h : P cursor) : P cursor.skipGap.2 := by
  rcases (keeping_simulation peek next).skipGap ⟨rfl, h⟩ with ⟨_, _, kept⟩ | ⟨_, _, never⟩
  · exact kept
  · exact never.elim

theorem readToken_keeps {P : Cursor → Prop} (peek : ∀ c : Cursor, P c → P c.peek.2)
    (next : ∀ c : Cursor, P c → P c.next.2) (h : P cursor) (first : Char) :
    P (cursor.readToken first).2 := by
  rcases (keeping_simulation peek next).readToken ⟨rfl, h⟩ first with ⟨_, _, kept⟩ | ⟨_, _, never⟩
  · exact kept
  · exact never.elim

/-- The next character does not come before the current one. -/
def InOrder (cursor : Cursor) : Prop :=
  cursor.position.offset ≤ cursor.nextPosition.offset

theorem InOrder.next (h : cursor.InOrder) : cursor.next.2.InOrder := by
  unfold Cursor.next
  rcases cursor.buffer.next with ⟨_ | _ | c, buffer⟩
  · exact h
  · exact Nat.le_refl _
  · show cursor.nextPosition.offset ≤ (cursor.nextPosition.advance c).offset
    rw [Position.offset_advance]
    exact Nat.le_add_right _ _

/-- A token stops where its reading does. -/
theorem stop_of_readLexeme (h : cursor.InOrder) {after : Cursor} {lexeme : Lexeme}
    (hr : cursor.readLexeme = (.ok (some lexeme), after)) :
    lexeme.span.stop = after.nextPosition.offset := by
  have found : cursor.skipGap.2.InOrder :=
    skipGap_keeps (fun _ h => h) (fun _ h => InOrder.next h) h
  unfold readLexeme at hr
  split at hr
  next => cases hr
  next => cases hr
  next c here hg =>
    rw [hg] at found
    have further := @readToken_keeps here
      (fun d => here.nextPosition.offset ≤ d.nextPosition.offset) (fun _ h => h)
      (fun d h => Nat.le_trans h d.offset_le_next) (Nat.le_refl _) c
    split at hr
    next => cases hr
    next token after ht =>
      cases hr
      rw [ht] at further
      have ordered : here.position.offset ≤ after.nextPosition.offset :=
        Nat.le_trans found further
      simp only [Span.between, Span.stop]
      omega

end Cursor

/-- The token of a reply. -/
def Reply.token? : Reply → Option Token
  | token (.ok found) => found
  | item (some (.ok found)) => some found
  | _ => none

namespace Tokenizer

/-- The token that was read last, taken or not. -/
def newest (t : Tokenizer) : Option Lexeme :=
  t.peeked.or t.current

/-- Where the token that was read last stops. -/
def newestStop (t : Tokenizer) : Nat :=
  t.newest.elim 0 fun lexeme => lexeme.span.stop

def Drained.items (drained : Drained) : List (Except LexError Token) :=
  drained.tokens.map .ok ++ drained.error?.toList.map .error

/-- The reading of `total` bytes is in order, and it goes on where the newest token stops, as long
as it goes on at all. -/
structure Advancing (total : Nat) (t : Tokenizer) : Prop where
  wellFormed : t.cursor.buffer.WellFormed
  inOrder : t.cursor.InOrder
  total : t.cursor.nextPosition.offset + t.cursor.remaining = total
  newest : t.ended = false → t.failure = none → t.newestStop = t.cursor.nextPosition.offset

variable {t : Tokenizer} {total : Nat}

theorem pull_cursor (t : Tokenizer) :
    t.pull.2.cursor = t.cursor ∨ t.pull.2.cursor = t.cursor.readLexeme.2 := by
  unfold pull
  split
  next => exact .inl rfl
  next =>
    split
    next => exact .inl rfl
    next =>
      rcases t.cursor.readLexeme with ⟨_ | _ | _, _⟩
      · exact .inr rfl
      · exact .inr rfl
      · exact .inr rfl

theorem advance_cursor (t : Tokenizer) :
    t.advance.2.cursor = t.cursor ∨ t.advance.2.cursor = t.cursor.readLexeme.2 := by
  cases hp : t.peeked with
  | some lexeme =>
    rw [advance_of_peeked hp]
    exact .inl rfl
  | none =>
    rw [advance_eq_pull hp]
    exact t.pull_cursor

/-- A request reads one token at most. -/
theorem serve_cursor (t : Tokenizer) (request : Request) :
    (t.serve request).2.cursor = t.cursor ∨
      (t.serve request).2.cursor = t.cursor.readLexeme.2 := by
  cases request with
  | advance => exact t.advance_cursor
  | peek =>
    rw [serve_peek]
    cases hp : t.peeked with
    | some lexeme =>
      rw [peek_of_peeked hp]
      exact .inl rfl
    | none =>
      rw [peek_eq_pull hp]
      exact t.pull_cursor
  | next =>
    rw [serve_next, next_eq]
    split
    next => exact .inl rfl
    next => exact t.advance_cursor

/-- What each look and each step keeps is kept by a session. -/
theorem serveAll_keeps {P : Cursor → Prop} (peek : ∀ c : Cursor, P c → P c.peek.2)
    (next : ∀ c : Cursor, P c → P c.next.2) (h : P t.cursor) (requests : List Request) :
    P (t.serveAll requests).cursor := by
  induction requests generalizing t with
  | nil => exact h
  | cons request requests ih =>
    refine @ih (t.serve request).2 ?_
    rcases t.serve_cursor request with same | read
    · rw [same]
      exact h
    · rw [read]
      exact Cursor.readLexeme_keeps peek next h

/-- However it is asked, a tokenizer calls its reader once for each byte and each step of it, and
once more, at most. -/
theorem calls_le (steps : List ReadStep) (capacity : Nat) (requests : List Request) :
    ((ofReader (.ofSteps steps) capacity).serveAll requests).cursor.buffer.reader.offers.length ≤
      (Reader.ofSteps steps).dataLength + steps.length + 1 := by
  let bound := (ReadBuffer.ofReader (.ofSteps steps) capacity).callBound
  have kept := @serveAll_keeps (ofReader (.ofSteps steps) capacity)
    (fun c => c.buffer.callBound ≤ bound)
    (fun c h => Nat.le_trans c.buffer.peek_callBound h) (by
      intro c h
      rw [Cursor.next_buffer]
      exact Nat.le_trans c.buffer.next_callBound h) (Nat.le_refl _) requests
  have start : bound = (Reader.ofSteps steps).dataLength + steps.length + 1 := Nat.zero_add _
  rw [← start]
  exact Nat.le_trans (Nat.le_add_right _ _) kept

theorem pull_cases (t : Tokenizer) :
    (∃ lexeme cursor, t.ended = false ∧ t.failure = none ∧
      t.cursor.readLexeme = (.ok (some lexeme), cursor) ∧
      t.pull = (.ok (some lexeme), { t with cursor })) ∨
    (lexemeOf t.pull.1 = none ∧ (t.pull.2.ended = true ∨ t.pull.2.hasFailed = true)) := by
  unfold pull
  split
  next error hf => exact .inr ⟨rfl, .inr (by simp [hasFailed, hf])⟩
  next hf =>
    split
    next he => exact .inr ⟨rfl, .inl he⟩
    next he =>
      have going : t.ended = false := Bool.eq_false_iff.mpr he
      rcases t.cursor.readLexeme with ⟨error | _ | lexeme, cursor⟩
      · exact .inr ⟨rfl, .inr rfl⟩
      · exact .inr ⟨rfl, .inl rfl⟩
      · exact .inl ⟨lexeme, cursor, going, hf, rfl, rfl⟩

theorem token?_token (found : Except LexError (Option Lexeme)) :
    (Reply.token (answerOf found)).token? = (lexemeOf found).map (·.token) := by
  rcases found with _ | _ | _
  · rfl
  · rfl
  · rfl

theorem token?_item (found : Except LexError (Option Lexeme)) :
    (Reply.item (itemOf (answerOf found))).token? = (lexemeOf found).map (·.token) := by
  rcases found with _ | _ | _
  · rfl
  · rfl
  · rfl

theorem newest_advance (h : t.peeked = none) : t.advance.2.newest = lexemeOf t.pull.1 := by
  have kept := t.pulls.keeps.1
  rw [advance_eq_pull h, newest, peeked_withCurrent, kept, h, current_withCurrent]
  rfl

/-- A token that is held back is given without reading on. -/
theorem serve_of_peeked {lexeme : Lexeme} (h : t.peeked = some lexeme) (request : Request) :
    (t.serve request).2.cursor = t.cursor ∧ (t.serve request).2.newest = t.newest ∧
      (t.serve request).2.ended = t.ended ∧ (t.serve request).2.failure = t.failure ∧
      ∀ token, (t.serve request).1.token? = some token → lexeme.token = token := by
  have held : t.newest = some lexeme := by
    rw [newest, h]
    rfl
  have taken : t.advance.2.newest = t.newest := by
    rw [held, advance_of_peeked h, newest, peeked_withCurrent, current_withCurrent]
    rfl
  cases request with
  | advance =>
    rw [serve_advance, taken, advance_of_peeked h]
    exact ⟨rfl, rfl, rfl, rfl, fun _ same => Option.some.inj same⟩
  | peek =>
    rw [serve_peek, peek_of_peeked h]
    exact ⟨rfl, rfl, rfl, rfl, fun _ same => Option.some.inj same⟩
  | next =>
    rw [serve_next, next_eq]
    split
    next => exact ⟨rfl, rfl, rfl, rfl, nofun⟩
    next =>
      rw [taken, advance_of_peeked h]
      exact ⟨rfl, rfl, rfl, rfl, fun _ same => Option.some.inj same⟩

/-- With no token held back, a request reads one, or it comes to the end or to a failure. -/
theorem serve_of_none (h : t.peeked = none) (request : Request) :
    (∃ lexeme, t.ended = false ∧ t.failure = none ∧
      t.cursor.readLexeme = (.ok (some lexeme), (t.serve request).2.cursor) ∧
      (t.serve request).2.newest = some lexeme ∧
      (t.serve request).1.token? = some lexeme.token) ∨
    ((t.serve request).1.token? = none ∧
      ((t.serve request).2.ended = true ∨ (t.serve request).2.hasFailed = true)) := by
  have advanced := newest_advance h
  rcases t.pull_cases with ⟨lexeme, cursor, going, sound, read, pulled⟩ | ⟨nothing, stopped⟩
  · refine .inl ⟨lexeme, going, sound, ?_⟩
    have running : ¬ t.hasFailed = true := by simp [hasFailed, sound]
    cases request with
    | advance =>
      rw [serve_advance, advanced, advance_eq_pull h, pulled]
      exact ⟨read, rfl, rfl⟩
    | peek =>
      rw [serve_peek, peek_eq_pull h, pulled]
      exact ⟨read, rfl, rfl⟩
    | next =>
      rw [serve_next, next_eq, if_neg running, advanced, advance_eq_pull h, pulled]
      exact ⟨read, rfl, rfl⟩
  · refine .inr ?_
    cases request with
    | advance =>
      rw [serve_advance, advance_eq_pull h, token?_token, nothing]
      exact ⟨rfl, stopped⟩
    | peek =>
      rw [serve_peek, peek_eq_pull h, token?_token, nothing]
      exact ⟨rfl, stopped⟩
    | next =>
      rw [serve_next, next_eq]
      split
      next failed => exact ⟨rfl, .inr failed⟩
      next =>
        rw [advance_eq_pull h, token?_item, nothing]
        exact ⟨rfl, stopped⟩

theorem Advancing.next (c : Cursor)
    (h : c.buffer.WellFormed ∧ c.InOrder ∧ c.nextPosition.offset + c.remaining = total) :
    c.next.2.buffer.WellFormed ∧ c.next.2.InOrder ∧
      c.next.2.nextPosition.offset + c.next.2.remaining = total := by
  obtain ⟨wf, ordered, sum⟩ := h
  have left := Cursor.next_remaining wf
  have passed := c.next_offset
  exact ⟨Cursor.next_wellFormed wf, ordered.next, by omega⟩

theorem Advancing.serve (h : t.Advancing total) (request : Request) :
    (t.serve request).2.Advancing total := by
  have kept : (t.serve request).2.cursor.buffer.WellFormed ∧ (t.serve request).2.cursor.InOrder ∧
      (t.serve request).2.cursor.nextPosition.offset + (t.serve request).2.cursor.remaining =
        total := by
    refine @serveAll_keeps t (fun c => c.buffer.WellFormed ∧ c.InOrder ∧
      c.nextPosition.offset + c.remaining = total) ?_ Advancing.next
      ⟨h.wellFormed, h.inOrder, h.total⟩ [request]
    rintro c ⟨wf, ordered, sum⟩
    exact ⟨wf.peek, ordered, by rw [Cursor.peek_remaining]; exact sum⟩
  refine ⟨kept.1, kept.2.1, kept.2.2, ?_⟩
  intro going sound
  cases hp : t.peeked with
  | some lexeme =>
    obtain ⟨cursor, newest, ended, failure, _⟩ := serve_of_peeked hp request
    rw [newestStop, newest, cursor]
    exact h.newest (ended ▸ going) (failure ▸ sound)
  | none =>
    rcases serve_of_none hp request with ⟨lexeme, _, _, read, newest, _⟩ | ⟨_, ended | failed⟩
    · rw [newestStop, newest]
      exact Cursor.stop_of_readLexeme h.inOrder read
    · rw [going] at ended
      cases ended
    · simp [hasFailed, sound] at failed

theorem Advancing.serveAll (h : t.Advancing total) (requests : List Request) :
    (t.serveAll requests).Advancing total := by
  induction requests generalizing t with
  | nil => exact h
  | cons request requests ih => exact ih (h.serve request)

theorem advancing_ofReader (reader : Reader) (capacity : Nat) :
    (ofReader reader capacity).Advancing reader.dataLength := by
  refine ⟨ReadBuffer.wellFormed_ofReader _ _, Nat.le_refl _, ?_, fun _ _ => rfl⟩
  show 0 + (0 + reader.dataLength) = reader.dataLength
  omega

/-- A token that is read stops behind the one before it. -/
theorem Advancing.progress (h : t.Advancing total) (hp : t.peeked = none) {request : Request}
    {token : Token} (ht : (t.serve request).1.token? = some token) :
    ∃ lexeme, (t.serve request).2.newest = some lexeme ∧ lexeme.token = token ∧
      t.newestStop + t.cursor.remaining = total ∧ t.newestStop < lexeme.span.stop ∧
      lexeme.span.stop + (t.serve request).2.cursor.remaining = total := by
  rcases serve_of_none hp request with ⟨lexeme, going, sound, read, newest, given⟩ | ⟨nothing, _⟩
  · have less := Cursor.remaining_lt_of_readLexeme read
    have stop := Cursor.stop_of_readLexeme h.inOrder read
    have sum := (h.serve request).total
    have before := h.newest going sound
    have whole := h.total
    refine ⟨lexeme, newest, ?_, by omega, by omega, by omega⟩
    exact Option.some.inj (given.symm.trans ht)
  · rw [nothing] at ht
    cases ht

/-- Each token takes a byte at least. -/
theorem Running.lexemes_le (h : t.Running) : t.drain.lexemes.length ≤ t.cursor.remaining := by
  induction hn : t.cursor.remaining using Nat.strongRecOn generalizing t with
  | ind n ih =>
    rw [h.drain_eq]
    rcases hr : t.cursor.readLexeme with ⟨error | _ | lexeme, cursor⟩
    · exact Nat.zero_le _
    · exact Nat.zero_le _
    · have less := Cursor.remaining_lt_of_readLexeme hr
      have rest := ih _ (hn ▸ less) (h.step cursor (some lexeme)) rfl
      have count : cursor.remaining < n := hn ▸ less
      exact Nat.succ_le_of_lt (Nat.lt_of_le_of_lt rest count)

theorem Running.next_eq (h : t.Running) : t.next = (itemOf t.advance.1, t.advance.2) := by
  have running : ¬ t.hasFailed = true := by simp [hasFailed, h.failure]
  rw [Tokenizer.next_eq, if_neg running]

/-- Asked for one item after the other, `t` gives `tokens` and then nothing. -/
inductive Yields : Tokenizer → List Token → Prop
  | nothing {t : Tokenizer} : t.next.1 = none → Yields t []
  | token {t : Tokenizer} {token : Token} {tokens : List Token} :
      t.next.1 = some (.ok token) → Yields t.next.2 tokens → Yields t (token :: tokens)

theorem yields_iff_next {tokens : List Token} :
    t.Yields tokens ↔ (t.next.1 = none ∧ tokens = []) ∨
      ∃ token others, t.next.1 = some (.ok token) ∧ t.next.2.Yields others ∧
        token :: others = tokens := by
  constructor
  · intro yields
    cases yields with
    | nothing none => exact .inl ⟨none, rfl⟩
    | token given rest => exact .inr ⟨_, _, given, rest, rfl⟩
  · rintro (⟨none, rfl⟩ | ⟨token, others, given, rest, rfl⟩)
    · exact .nothing none
    · exact .token given rest

/-- Draining collects what iterating gives. -/
theorem Running.yields_iff (h : t.Running) {tokens : List Token} :
    t.Yields tokens ↔ t.drain.error? = none ∧ t.drain.tokens = tokens := by
  induction hn : t.cursor.remaining using Nat.strongRecOn generalizing t tokens with
  | ind n ih =>
    rw [yields_iff_next, h.next_eq, h.advance_eq, h.drain_eq]
    rcases hr : t.cursor.readLexeme with ⟨error | _ | lexeme, cursor⟩
    · simp [itemOf]
    · simp [itemOf, Drained.tokens, eq_comm]
    · have less := Cursor.remaining_lt_of_readLexeme hr
      have rest := fun others : List Token =>
        @ih _ (hn ▸ less) _ (h.step cursor (some lexeme)) others rfl
      simp [itemOf, rest, Drained.cons, Drained.tokens, and_assoc]

theorem Final.replies {answer : Answer} (h : t.Final answer)
    (later : Nat) :
    (t.session (List.replicate later .next)).map (·.1) = List.replicate later (.item none) := by
  rw [(h.serveAll _).1, List.map_replicate]
  rfl

/-- Iterating gives the items that draining finds, and nothing from then on. -/
theorem Running.replies (h : t.Running) (later : Nat) :
    (t.session (List.replicate (t.drain.items.length + later) .next)).map (·.1) =
      t.drain.items.map (fun item => .item (some item)) ++
        List.replicate later (.item none) := by
  induction hn : t.cursor.remaining using Nat.strongRecOn generalizing t with
  | ind n ih =>
    have taken := h.advance_eq
    rw [h.drain_eq]
    rcases hr : t.cursor.readLexeme with ⟨error | _ | lexeme, cursor⟩
    · rw [hr] at taken
      have final : t.advance.2.Final (again (.error error)) := by
        rw [taken]
        exact .failed rfl h.peeked
      show ((t.session (List.replicate (1 + later) .next)).map (·.1)) =
        [.item (some (.error error))] ++ List.replicate later (.item none)
      rw [Nat.add_comm, List.replicate_succ, session_cons, serve_next, h.next_eq, List.map_cons,
        final.replies, taken]
      rfl
    · rw [hr] at taken
      have final : t.advance.2.Final (.ok none) := by
        rw [taken]
        exact .ended h.failure rfl h.peeked
      show ((t.session (List.replicate (0 + later) .next)).map (·.1)) =
        List.replicate later (.item none)
      rw [Nat.zero_add]
      cases later with
      | zero => rfl
      | succ later =>
        rw [List.replicate_succ, session_cons, serve_next, h.next_eq, List.map_cons,
          final.replies, taken]
        rfl
    · rw [hr] at taken
      have less := Cursor.remaining_lt_of_readLexeme hr
      have rest := ih _ (hn ▸ less) (h.step cursor (some lexeme)) rfl
      let others := ({ t with cursor }.withCurrent (some lexeme)).drain
      have shift : others.items.length + 1 + later = others.items.length + later + 1 := by
        omega
      show ((t.session (List.replicate (others.items.length + 1 + later) .next)).map (·.1)) =
        .item (some (.ok lexeme.token)) ::
          (others.items.map (fun item => .item (some item)) ++ List.replicate later (.item none))
      rw [shift, List.replicate_succ, session_cons, serve_next, h.next_eq, List.map_cons, taken]
      exact congrArg (_ :: ·) rest

theorem Drained.items_length (drained : Drained) :
    drained.items.length ≤ drained.lexemes.length + 1 := by
  have errors : drained.error?.toList.length ≤ 1 := by
    cases drained.error? with
    | none => exact Nat.zero_le _
    | some => exact Nat.le_refl _
  simp only [Drained.items, Drained.tokens, List.length_append, List.length_map]
  omega

theorem Drained.ok_of_mem_dropLast {drained : Drained} {item : Except LexError Token}
    (h : item ∈ drained.items.dropLast) : ∃ token, item = .ok token := by
  have front : item ∈ drained.tokens.map Except.ok := by
    unfold Drained.items at h
    cases he : drained.error? with
    | none =>
      rw [he] at h
      exact (List.dropLast_sublist _).subset (by simpa using h)
    | some error =>
      rw [he] at h
      simpa using h
  obtain ⟨token, _, rfl⟩ := List.mem_map.mp front
  exact ⟨token, rfl⟩

/-- A tokenizer comes to an end. All its calls of the reader are no more than the bytes and the
steps there are, and one; each token that is read takes a byte behind the one before it; and the
items are no more than the bytes, and one, which alone may be an error. -/
theorem tokenizer_progresses (steps : List ReadStep) (capacity : Nat) :
    let start := ofReader (.ofSteps steps) capacity
    let total := (Reader.ofSteps steps).dataLength
    (∀ requests, let t := start.serveAll requests
      t.cursor.buffer.reader.offers.length ≤ total + steps.length + 1 ∧
        ∀ request token, (t.serve request).1.token? = some token →
          let u := (t.serve request).2
          ∃ lexeme, u.newest = some lexeme ∧ lexeme.token = token ∧
            ((t.newest = some lexeme ∧ t.peeked = some lexeme ∧ u.cursor = t.cursor) ∨
              (t.peeked = none ∧ t.newestStop + t.cursor.remaining = total ∧
                t.newestStop < lexeme.span.stop ∧
                lexeme.span.stop + u.cursor.remaining = total))) ∧
      ∃ found, found.length ≤ total + 1 ∧ (∀ item ∈ found.dropLast, ∃ token, item = .ok token) ∧
        start.rest.1 = found ∧
        ∀ later, (start.session (List.replicate (found.length + later) .next)).map (·.1) =
          found.map (fun item => .item (some item)) ++ List.replicate later (.item none) := by
  intro start total
  have running : start.Running := running_ofReader _ _
  refine ⟨?_, start.drain.items, ?_, ?_, ?_, running.replies⟩
  · intro requests t
    have advancing := (advancing_ofReader (.ofSteps steps) capacity).serveAll requests
    refine ⟨calls_le steps capacity requests, ?_⟩
    intro request token ht u
    cases hp : t.peeked with
    | some held =>
      obtain ⟨cursor, newest, _, _, given⟩ := serve_of_peeked hp request
      have same : t.newest = some held := by
        rw [Tokenizer.newest, hp]
        rfl
      exact ⟨held, newest.trans same, given token ht, .inl ⟨same, rfl, cursor⟩⟩
    | none =>
      obtain ⟨lexeme, newest, given, further⟩ := advancing.progress hp ht
      exact ⟨lexeme, newest, given, .inr ⟨rfl, further⟩⟩
  · have fewer := running.lexemes_le
    have whole : start.cursor.remaining = total := Nat.zero_add _
    exact Nat.le_trans (Drained.items_length _) (Nat.succ_le_succ (whole ▸ fewer))
  · exact fun _ => Drained.ok_of_mem_dropLast
  · rfl

end Tokenizer

end JackTokens
