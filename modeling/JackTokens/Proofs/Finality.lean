import JackTokens.Session

namespace JackTokens

/-- What taking or looking at a token comes to. -/
abbrev Answer := Except LexError (Option Token)

/-- Errors that tell a user the same: a fault and its place, or the kind and the message of a
failure to read. -/
inductive LexError.Agrees : LexError → LexError → Prop
  | malformed {position fault} : Agrees (.malformed position fault) (.malformed position fault)
  | unreadable {cause other} : cause.kind = other.kind → cause.message = other.message →
      Agrees (.unreadable cause) (.unreadable other)

/-- The end of the input or an error, where the reply tells of one. -/
def Reply.final? : Reply → Option Answer
  | token (.ok none) => some (.ok none)
  | token (.error error) => some (.error error)
  | item (some (.error error)) => some (.error error)
  | _ => none

/-- The reply to a request once `answer` has become final. -/
def Request.repeated (answer : Answer) : Request → Reply
  | advance => .token answer
  | peek => .token answer
  | next => .item none

/-- An error that was kept tells what it told at first. -/
theorem Failure.agrees_toError_record (error : LexError) : (record error).toError.Agrees error := by
  cases error with
  | unreadable => exact .unreadable rfl rfl
  | malformed => exact .malformed

namespace Tokenizer

/-- An answer as it is given again. -/
def again : Answer → Answer
  | .error error => .error (Failure.record error).toError
  | .ok token? => .ok token?

def answerOf (found : Except LexError (Option Lexeme)) : Answer :=
  found.map (Option.map (·.token))

def lexemeOf : Except LexError (Option Lexeme) → Option Lexeme
  | .error _ => none
  | .ok lexeme => lexeme

def itemOf : Answer → Option (Except LexError Token)
  | .error error => some (.error error)
  | .ok none => none
  | .ok (some token) => some (.ok token)

/-- All that reading on may come to. -/
inductive Pulls (t : Tokenizer) : Except LexError (Option Lexeme) → Tokenizer → Prop
  | failedBefore (failure : Failure) : t.failure = some failure → Pulls t (.error failure.toError) t
  | endedBefore : t.failure = none → t.ended = true → Pulls t (.ok none) t
  | fails (error : LexError) (cursor : Cursor) : t.failure = none → t.ended = false →
      Pulls t (.error error) { t with cursor, failure := some (.record error) }
  | ends (cursor : Cursor) : t.failure = none → t.ended = false →
      Pulls t (.ok none) { t with cursor, ended := true }
  | reads (lexeme : Lexeme) (cursor : Cursor) : t.failure = none → t.ended = false →
      Pulls t (.ok (some lexeme)) { t with cursor }

/-- Nothing more is read, and `answer` is all that is left to give. -/
inductive Final (t : Tokenizer) : Answer → Prop
  | failed {failure : Failure} : t.failure = some failure → t.peeked = none →
      Final t (.error failure.toError)
  | ended : t.failure = none → t.ended = true → t.peeked = none → Final t (.ok none)

/-- The token and its span come together, the end of the input and a failure do not, and neither
comes with a token held back. -/
structure Orderly (t : Tokenizer) : Prop where
  span : t.tokenSpan.isSome = t.currentToken.isSome
  apart : t.hasFailed = true → t.ended = false
  peeked : t.ended = true ∨ t.hasFailed = true → t.peeked = none

variable {t : Tokenizer} {answer : Answer}

theorem pulls (t : Tokenizer) : Pulls t t.pull.1 t.pull.2 := by
  unfold pull
  split
  next failure hf => exact .failedBefore failure hf
  next hf =>
    split
    next he => exact .endedBefore hf he
    next he =>
      have going : t.ended = false := by simpa using he
      rcases t.cursor.readLexeme with ⟨error | _ | lexeme, cursor⟩
      · exact .fails error cursor hf going
      · exact .ends cursor hf going
      · exact .reads lexeme cursor hf going

/-- Reading on takes no notice of the token read before. -/
theorem pull_withCurrent (t : Tokenizer) (current : Option Lexeme) :
    (t.withCurrent current).pull = (t.pull.1, t.pull.2.withCurrent current) := by
  unfold pull
  rw [failure_withCurrent, ended_withCurrent, cursor_withCurrent]
  split
  next => rfl
  next =>
    split
    next => rfl
    next =>
      rcases t.cursor.readLexeme with ⟨_ | _ | _, cursor⟩
      · rfl
      · rfl
      · rfl

theorem Pulls.keeps {u : Tokenizer} {found : Except LexError (Option Lexeme)}
    (h : Pulls t found u) : u.peeked = t.peeked ∧ u.currentToken = t.currentToken ∧
      u.tokenSpan = t.tokenSpan := by
  cases h with
  | failedBefore => exact ⟨rfl, rfl, rfl⟩
  | endedBefore => exact ⟨rfl, rfl, rfl⟩
  | fails => exact ⟨rfl, rfl, rfl⟩
  | ends => exact ⟨rfl, rfl, rfl⟩
  | reads => exact ⟨rfl, rfl, rfl⟩

theorem advance_of_peeked {lexeme : Lexeme} (h : t.peeked = some lexeme) :
    t.advance =
      (.ok (some lexeme.token), { t with peeked := none }.withCurrent (some lexeme)) := by
  unfold advance
  rw [h]

theorem peek_of_peeked {lexeme : Lexeme} (h : t.peeked = some lexeme) :
    t.peek = (.ok (some lexeme.token), t) := by
  unfold peek
  rw [h]

theorem advance_eq_pull (h : t.peeked = none) :
    t.advance = (answerOf t.pull.1, t.pull.2.withCurrent (lexemeOf t.pull.1)) := by
  unfold advance
  split
  next hp => simp [h] at hp
  next =>
    rw [pull_withCurrent]
    rcases t.pull with ⟨_ | lexeme?, u⟩
    · rfl
    · rfl

theorem peek_eq_pull (h : t.peeked = none) :
    t.peek = (answerOf t.pull.1, { t.pull.2 with peeked := lexemeOf t.pull.1 }) := by
  have kept := t.pulls.keeps.1
  rw [h] at kept
  unfold peek
  split
  next hp => simp [h] at hp
  next =>
    rcases hp : t.pull with ⟨_ | lexeme?, u⟩
    · rw [hp] at kept
      simp only [answerOf, lexemeOf, ← kept]
      rfl
    · rfl

theorem next_eq (t : Tokenizer) :
    t.next = if t.hasFailed then (none, t) else (itemOf t.advance.1, t.advance.2) := by
  unfold next
  split
  next => rfl
  next =>
    rcases t.advance with ⟨_ | _ | _, _⟩
    · rfl
    · rfl
    · rfl

theorem serve_advance (t : Tokenizer) :
    t.serve .advance = (.token t.advance.1, t.advance.2) := rfl

theorem serve_peek (t : Tokenizer) : t.serve .peek = (.token t.peek.1, t.peek.2) := rfl

theorem serve_next (t : Tokenizer) : t.serve .next = (.item t.next.1, t.next.2) := rfl

theorem Final.peeked (h : t.Final answer) : t.peeked = none := by
  cases h with
  | failed _ hp => exact hp
  | ended _ _ hp => exact hp

theorem Final.withCurrent (h : t.Final answer) (current : Option Lexeme) :
    (t.withCurrent current).Final answer := by
  cases h with
  | failed hf hp => exact .failed hf hp
  | ended hf he hp => exact .ended hf he hp

/-- A look either holds back the token that is taken next, or it has found that there is none. -/
theorem peek_cases (t : Tokenizer) :
    (∃ lexeme, t.peek.2.peeked = some lexeme ∧ t.peek.1 = .ok (some lexeme.token) ∧
      t.peek.2.failure = t.failure ∧
      t.advance = (t.peek.1, { t.peek.2 with peeked := none }.withCurrent (some lexeme))) ∨
    (t.peek.2.Final (again t.peek.1) ∧ t.advance = (t.peek.1, t.peek.2.withCurrent none)) := by
  cases hp : t.peeked with
  | some lexeme =>
    rw [peek_of_peeked hp, advance_of_peeked hp]
    exact .inl ⟨lexeme, hp, rfl, rfl, rfl⟩
  | none =>
    rw [peek_eq_pull hp, advance_eq_pull hp]
    have read := t.pulls
    generalize t.pull = pulled at read ⊢
    obtain ⟨found, u⟩ := pulled
    cases read with
    | failedBefore failure hf =>
      have kept : again (answerOf (.error failure.toError)) = .error failure.toError := by
        simp [again, answerOf, Except.map]
      refine .inr ⟨kept ▸ .failed hf rfl, ?_⟩
      simp only [lexemeOf, ← hp]
    | endedBefore hf he =>
      refine .inr ⟨.ended hf he rfl, ?_⟩
      simp only [lexemeOf, ← hp]
    | fails error cursor hf he =>
      refine .inr ⟨.failed rfl rfl, ?_⟩
      simp only [lexemeOf, ← hp]
    | ends cursor hf he =>
      refine .inr ⟨.ended hf rfl rfl, ?_⟩
      simp only [lexemeOf, ← hp]
    | reads lexeme cursor hf he =>
      refine .inl ⟨lexeme, rfl, rfl, rfl, ?_⟩
      simp only [lexemeOf, ← hp]

theorem advance_fst (t : Tokenizer) : t.advance.1 = t.peek.1 := by
  rcases t.peek_cases with ⟨lexeme, _, _, _, taken⟩ | ⟨_, taken⟩
  · rw [taken]
  · rw [taken]

/-- Where no token is found, that is remembered. -/
theorem final_of_peek (h : ∀ token, t.peek.1 ≠ .ok (some token)) :
    t.peek.2.Final (again t.peek.1) ∧ t.advance.2.Final (again t.peek.1) := by
  rcases t.peek_cases with ⟨lexeme, _, found, _⟩ | ⟨final, taken⟩
  · exact absurd found (h lexeme.token)
  · rw [taken]
    exact ⟨final, final.withCurrent none⟩

theorem eq_of_final?_token {result : Answer}
    (h : (Reply.token result).final? = some answer) :
    result = answer ∧ ∀ token, result ≠ .ok (some token) := by
  rcases result with error | _ | token
  · exact ⟨Option.some.inj h, nofun⟩
  · exact ⟨Option.some.inj h, nofun⟩
  · cases h

theorem eq_of_final?_item {result : Answer}
    (h : (Reply.item (itemOf result)).final? = some answer) :
    result = answer ∧ ∀ token, result ≠ .ok (some token) := by
  rcases result with error | _ | token
  · exact ⟨Option.some.inj h, nofun⟩
  · cases h
  · cases h

/-- The end of the input and an error are remembered by the request that meets them. -/
theorem final_of_serve {request : Request} (h : (t.serve request).1.final? = some answer) :
    (t.serve request).2.Final (again answer) := by
  cases request with
  | advance =>
    rw [serve_advance, advance_fst] at h
    obtain ⟨rfl, none⟩ := eq_of_final?_token h
    exact (final_of_peek none).2
  | peek =>
    rw [serve_peek] at h
    obtain ⟨rfl, none⟩ := eq_of_final?_token h
    exact (final_of_peek none).1
  | next =>
    rw [serve_next, next_eq] at h ⊢
    split at h
    next => cases h
    next running =>
      rw [advance_fst] at h
      rw [if_neg running]
      obtain ⟨rfl, none⟩ := eq_of_final?_item h
      exact (final_of_peek none).2

theorem Final.pull (h : t.Final answer) :
    answerOf t.pull.1 = answer ∧ lexemeOf t.pull.1 = none ∧ t.pull.2 = t := by
  unfold Tokenizer.pull
  cases h with
  | failed hf =>
    rw [hf]
    exact ⟨rfl, rfl, rfl⟩
  | ended hf he =>
    rw [hf]
    dsimp only
    rw [if_pos he]
    exact ⟨rfl, rfl, rfl⟩

theorem Final.advance (h : t.Final answer) : t.advance = (answer, t.withCurrent none) := by
  obtain ⟨same, nothing, stays⟩ := h.pull
  rw [advance_eq_pull h.peeked, same, nothing, stays]

theorem Final.peek (h : t.Final answer) : t.peek = (answer, t) := by
  obtain ⟨same, nothing, stays⟩ := h.pull
  rw [peek_eq_pull h.peeked, same, nothing, stays, ← h.peeked]

theorem Final.next (h : t.Final answer) :
    t.next = (none, t) ∨ t.next = (none, t.withCurrent none) := by
  rw [next_eq, h.advance]
  split
  next => exact .inl rfl
  next running =>
    cases h with
    | failed hf => simp [hasFailed, hf] at running
    | ended => exact .inr rfl

/-- Where nothing more is read, no request changes that. -/
theorem Final.serve (h : t.Final answer) (request : Request) :
    (t.serve request).1 = request.repeated answer ∧ (t.serve request).2.Final answer ∧
      (t.serve request).2.cursor = t.cursor := by
  cases request with
  | advance =>
    rw [serve_advance, h.advance]
    exact ⟨rfl, h.withCurrent none, rfl⟩
  | peek =>
    rw [serve_peek, h.peek]
    exact ⟨rfl, h, rfl⟩
  | next =>
    rw [serve_next]
    rcases h.next with same | same
    · rw [same]
      exact ⟨rfl, h, rfl⟩
    · rw [same]
      exact ⟨rfl, h.withCurrent none, rfl⟩

theorem session_cons (t : Tokenizer) (request : Request) (requests : List Request) :
    t.session (request :: requests) =
      ((t.serve request).1, (t.serve request).2.sight) ::
        (t.serve request).2.session requests := rfl

theorem Final.serveAll (h : t.Final answer) (later : List Request) :
    (t.session later).map (·.1) = later.map (·.repeated answer) ∧
      (t.serveAll later).Final answer ∧ (t.serveAll later).cursor = t.cursor := by
  induction later generalizing t with
  | nil => exact ⟨rfl, h, rfl⟩
  | cons request later ih =>
    obtain ⟨reply, final, stays⟩ := h.serve request
    obtain ⟨replies, final', stays'⟩ := ih final
    refine ⟨?_, final', stays'.trans stays⟩
    rw [session_cons, List.map_cons, List.map_cons, reply, replies]

/-- What one reply of a session says for good holds at its end. -/
theorem final_of_session {requests : List Request}
    (h : ∃ shown ∈ t.session requests, shown.1.final? = some answer) :
    (t.serveAll requests).Final (again answer) := by
  induction requests generalizing t with
  | nil =>
    obtain ⟨shown, hs, _⟩ := h
    cases hs
  | cons request requests ih =>
    obtain ⟨shown, hs, ha⟩ := h
    rw [session_cons] at hs
    rcases List.mem_cons.mp hs with rfl | hs
    · exact ((final_of_serve ha).serveAll requests).2.1
    · exact ih ⟨shown, hs, ha⟩

theorem Pulls.apart {u : Tokenizer} {found : Except LexError (Option Lexeme)} (h : Pulls t found u)
    (ha : t.hasFailed = true → t.ended = false) : u.hasFailed = true → u.ended = false := by
  cases h with
  | failedBefore => exact ha
  | endedBefore => exact ha
  | fails _ _ _ going => exact fun _ => going
  | ends _ sound => simp [hasFailed, sound]
  | reads => exact ha

theorem Pulls.lexemeOf_eq_none {u : Tokenizer} {found : Except LexError (Option Lexeme)}
    (h : Pulls t found u) (stopped : u.ended = true ∨ u.hasFailed = true) :
    lexemeOf found = none := by
  cases h with
  | failedBefore => rfl
  | endedBefore => rfl
  | fails => rfl
  | ends => rfl
  | reads _ _ sound going => simp [hasFailed, sound, going] at stopped

theorem Orderly.advance (h : t.Orderly) : t.advance.2.Orderly := by
  cases hp : t.peeked with
  | some lexeme =>
    rw [advance_of_peeked hp]
    exact ⟨rfl, h.apart, fun _ => rfl⟩
  | none =>
    have read := t.pulls
    rw [advance_eq_pull hp]
    refine ⟨?_, read.apart h.apart, fun _ => read.keeps.1.trans hp⟩
    simp only [Tokenizer.withCurrent, Option.isSome_map]

theorem Orderly.peek (h : t.Orderly) : t.peek.2.Orderly := by
  cases hp : t.peeked with
  | some lexeme =>
    rw [peek_of_peeked hp]
    exact h
  | none =>
    have read := t.pulls
    obtain ⟨_, token, span⟩ := read.keeps
    have together := h.span
    rw [← token, ← span] at together
    rw [peek_eq_pull hp]
    exact ⟨together, read.apart h.apart, read.lexemeOf_eq_none⟩

theorem Orderly.serve (h : t.Orderly) (request : Request) : (t.serve request).2.Orderly := by
  cases request with
  | advance => exact h.advance
  | peek => exact h.peek
  | next =>
    rw [serve_next, next_eq]
    split
    next => exact h
    next => exact h.advance

theorem Orderly.serveAll (h : t.Orderly) (requests : List Request) :
    (t.serveAll requests).Orderly := by
  induction requests generalizing t with
  | nil => exact h
  | cons request requests ih => exact ih (h.serve request)

theorem orderly_ofReader (reader : Reader) (capacity : Nat) : (ofReader reader capacity).Orderly :=
  ⟨rfl, fun _ => rfl, fun _ => rfl⟩

theorem Orderly.isExhausted_of_failed (h : t.Orderly) (failed : t.hasFailed = true) :
    t.isExhausted = false := by
  simp [isExhausted, h.apart failed]

theorem Final.hasFailed {error : LexError} (h : t.Final (.error error)) : t.hasFailed = true := by
  cases h with
  | failed hf => simp [Tokenizer.hasFailed, hf]

theorem Final.isExhausted (h : t.Final (.ok none)) :
    t.hasFailed = false ∧ t.isExhausted = true := by
  cases h with
  | ended hf he hp => simp [Tokenizer.hasFailed, Tokenizer.isExhausted, hf, he, hp]

/-- The end of the input and a failure exclude each other, and both are final: each later request
gets the same answer, where errors tell the same, and the reader is left alone. -/
theorem end_and_failure_final (steps : List ReadStep) (capacity : Nat) (earlier : List Request) :
    let start := ofReader (.ofSteps steps) capacity
    let t := start.serveAll earlier
    t.tokenSpan.isSome = t.currentToken.isSome ∧
      ¬ (t.ended = true ∧ t.hasFailed = true) ∧
      (t.ended = true ∨ t.hasFailed = true → t.peeked = none) ∧
      (∀ error, (∃ shown ∈ start.session earlier, shown.1.final? = some (.error error)) →
        ∃ kept : LexError, kept.Agrees error ∧
          ∀ later, (t.session later).map (·.1) = later.map (·.repeated (.error kept)) ∧
            (t.serveAll later).hasFailed = true ∧ (t.serveAll later).isExhausted = false ∧
            (t.serveAll later).cursor.buffer.reader = t.cursor.buffer.reader) ∧
      ((∃ shown ∈ start.session earlier, shown.1.final? = some (.ok none)) →
        ∀ later, (t.session later).map (·.1) = later.map (·.repeated (.ok none)) ∧
          (t.serveAll later).hasFailed = false ∧ (t.serveAll later).isExhausted = true ∧
          (t.serveAll later).cursor.buffer.reader = t.cursor.buffer.reader) := by
  intro start t
  have orderly : t.Orderly := (orderly_ofReader _ _).serveAll earlier
  refine ⟨orderly.span, ?_, orderly.peeked, ?_, ?_⟩
  · rintro ⟨ended, failed⟩
    rw [orderly.apart failed] at ended
    cases ended
  · intro error reported
    refine ⟨_, Failure.agrees_toError_record error, fun later => ?_⟩
    obtain ⟨replies, final, stays⟩ := (final_of_session reported).serveAll later
    have going := (orderly.serveAll later).isExhausted_of_failed final.hasFailed
    exact ⟨replies, final.hasFailed, going, congrArg (·.buffer.reader) stays⟩
  · intro reported later
    obtain ⟨replies, final, stays⟩ := (final_of_session reported).serveAll later
    obtain ⟨sound, ended⟩ := final.isExhausted
    exact ⟨replies, sound, ended, congrArg (·.buffer.reader) stays⟩

end Tokenizer

end JackTokens
