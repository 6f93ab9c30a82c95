import JackTokens.Proofs.Finality
import Mathlib.Data.List.Forall2

namespace JackTokens

/-- The same answer, or errors that tell the same. -/
inductive Answer.Agrees : Answer → Answer → Prop
  | same {answer} : Agrees answer answer
  | errors {error other} : LexError.Agrees error other → Agrees (.error error) (.error other)

/-- The same reply, or one to the same request with an answer that agrees. -/
inductive Reply.Agrees : Reply → Reply → Prop
  | item {item} : Agrees (.item item) (.item item)
  | token {answer other} : Answer.Agrees answer other → Agrees (.token answer) (.token other)

namespace Tokenizer

variable {t u : Tokenizer}

/-- What a session shows of the requests that take a token: the reply, then the token and its
span. -/
def takings (t : Tokenizer) (requests : List Request) :
    List (Reply × Option Token × Option Span) :=
  ((requests.zip (t.session requests)).filter (·.1 ≠ .peek)).map fun shown =>
    (shown.2.1, shown.2.2.token, shown.2.2.span)

/-- The same tokens and spans, with replies that agree. -/
def TakingsAgree : List (Reply × Option Token × Option Span) →
    List (Reply × Option Token × Option Span) → Prop :=
  List.Forall₂ fun taken other => taken.1.Agrees other.1 ∧ taken.2 = other.2

theorem again_agrees (answer : Answer) : Answer.Agrees (again answer) answer := by
  cases answer with
  | error error => exact .errors (Failure.agrees_toError_record error)
  | ok => exact .same

/-- An answer that a look has got is given once more. -/
theorem advance_peek (t : Tokenizer) : t.peek.2.advance = (again t.peek.1, t.advance.2) := by
  rcases t.peek_cases with ⟨lexeme, held, found, _, taken⟩ | ⟨final, taken⟩
  · rw [advance_of_peeked held, taken, found]
    rfl
  · rw [final.advance, taken]

theorem peek_peek (t : Tokenizer) : t.peek.2.peek = (again t.peek.1, t.peek.2) := by
  rcases t.peek_cases with ⟨lexeme, held, found, _, _⟩ | ⟨final, _⟩
  · rw [peek_of_peeked held, found]
    rfl
  · rw [final.peek]

theorem again_again (answer : Answer) : again (again answer) = again answer := by
  cases answer with
  | error error => simp [again]
  | ok => rfl

theorem peek_keeps (t : Tokenizer) :
    t.peek.2.currentToken = t.currentToken ∧ t.peek.2.tokenSpan = t.tokenSpan := by
  cases hp : t.peeked with
  | some lexeme =>
    rw [peek_of_peeked hp]
    exact ⟨rfl, rfl⟩
  | none =>
    rw [peek_eq_pull hp]
    exact t.pulls.keeps.2

theorem isExhausted_of_peek (h : t.peek.1 = .ok none) : t.peek.2.isExhausted = true := by
  rcases t.peek_cases with ⟨lexeme, _, found, _⟩ | ⟨final, _⟩
  · rw [found] at h
    cases h
  · rw [h] at final
    exact final.isExhausted.2

/-- Any number of looks leaves the answer to the next request for a token as it was, or has it
given again. -/
theorem advance_after_looks (t : Tokenizer) (looks : Nat) :
    (t.serveAll (List.replicate looks .peek)).advance.1 = t.peek.1 ∨
      (t.serveAll (List.replicate looks .peek)).advance.1 = again t.peek.1 := by
  induction looks generalizing t with
  | zero => exact .inl t.advance_fst
  | succ looks ih =>
    have rest := ih t.peek.2
    rw [peek_peek, again_again, or_self] at rest
    exact .inr rest

theorem takings_peek (t : Tokenizer) (requests : List Request) :
    t.takings (.peek :: requests) = t.peek.2.takings requests := by
  simp [takings, session_cons, serve_peek]

theorem takings_advance (t : Tokenizer) (requests : List Request) :
    t.takings (.advance :: requests) =
      (.token t.advance.1, t.advance.2.currentToken, t.advance.2.tokenSpan) ::
        t.advance.2.takings requests := by
  simp [takings, session_cons, serve_advance, sight]

/-- A tokenizer that has looked ahead goes on like one that has not. -/
theorem takings_agree (h : t = u ∨ t = u.peek.2) {requests : List Request}
    (hn : .next ∉ requests) :
    TakingsAgree (t.takings requests) (u.takings (requests.filter (· ≠ .peek))) := by
  induction requests generalizing t u with
  | nil => exact .nil
  | cons request requests ih =>
    have later : .next ∉ requests := fun hm => hn (List.mem_cons_of_mem request hm)
    cases request with
    | advance =>
      have taken : Answer.Agrees t.advance.1 u.advance.1 ∧ t.advance.2 = u.advance.2 := by
        rcases h with rfl | rfl
        · exact ⟨.same, rfl⟩
        · rw [u.advance_peek, u.advance_fst]
          exact ⟨again_agrees _, rfl⟩
      rw [takings_advance, taken.2]
      have rest := ih (t := u.advance.2) (.inl rfl) later
      have first : (u.takings ((.advance :: requests).filter (· ≠ .peek))) = _ :=
        u.takings_advance (requests.filter (· ≠ .peek))
      rw [first]
      exact .cons ⟨.token taken.1, rfl⟩ rest
    | peek =>
      have looked : t.peek.2 = u.peek.2 := by
        rcases h with rfl | rfl
        · rfl
        · rw [u.peek_peek]
      rw [takings_peek, looked]
      exact ih (.inr rfl) later
    | next => exact absurd List.mem_cons_self hn

theorem hasFailed_iff : t.hasFailed = true ↔ ∃ failure, t.failure = some failure :=
  Option.isSome_iff_exists

theorem advance_failure (t : Tokenizer) : t.advance.2.failure = t.peek.2.failure := by
  rcases t.peek_cases with ⟨lexeme, _, _, _, taken⟩ | ⟨_, taken⟩
  · rw [taken]
    rfl
  · rw [taken]
    rfl

theorem peek_of_failure (running : t.hasFailed = false) {failure : Failure}
    (hf : t.peek.2.failure = some failure) : ∃ error, t.peek.1 = .error error := by
  rcases t.peek_cases with ⟨lexeme, _, _, same, _⟩ | ⟨final, _⟩
  · rw [hasFailed, ← same, hf] at running
    cases running
  · rcases ht : t.peek.1 with error | token?
    · exact ⟨error, rfl⟩
    · rw [ht] at final
      cases final with
      | ended none =>
        rw [none] at hf
        cases hf

/-- No request fails in silence. -/
theorem final?_of_failure {request : Request} {failure : Failure}
    (running : t.hasFailed = false) (hf : (t.serve request).2.failure = some failure) :
    ∃ error, (t.serve request).1.final? = some (.error error) := by
  cases request with
  | advance =>
    rw [serve_advance, advance_failure] at hf
    obtain ⟨error, found⟩ := peek_of_failure running hf
    rw [serve_advance, advance_fst, found]
    exact ⟨error, rfl⟩
  | peek =>
    obtain ⟨error, found⟩ := peek_of_failure running hf
    rw [serve_peek, found]
    exact ⟨error, rfl⟩
  | next =>
    rw [serve_next, next_eq, running, if_neg Bool.false_ne_true, advance_failure] at hf
    obtain ⟨error, found⟩ := peek_of_failure running hf
    rw [serve_next, next_eq, running, if_neg Bool.false_ne_true, advance_fst, found]
    exact ⟨error, rfl⟩

theorem exists_report {requests : List Request} (running : t.hasFailed = false)
    (hf : (t.serveAll requests).hasFailed = true) :
    ∃ shown ∈ t.session requests, ∃ error, shown.1.final? = some (.error error) := by
  induction requests generalizing t with
  | nil =>
    have failed : t.hasFailed = true := hf
    rw [running] at failed
    cases failed
  | cons request requests ih =>
    rw [session_cons]
    cases now : (t.serve request).2.hasFailed with
    | true =>
      obtain ⟨failure, known⟩ := hasFailed_iff.mp now
      exact ⟨_, List.mem_cons_self, final?_of_failure running known⟩
    | false =>
      obtain ⟨shown, hs, report⟩ := ih now hf
      exact ⟨shown, List.mem_cons_of_mem _ hs, report⟩

/-- Looking ahead changes nothing but what is seen by looking: all other requests are answered as
if there had been no looks. -/
theorem lookahead_transparent (steps : List ReadStep) (capacity : Nat) (requests : List Request) :
    let start := ofReader (.ofSteps steps) capacity
    let t := start.serveAll requests
    (.next ∉ requests →
        TakingsAgree (start.takings requests)
          (start.takings (requests.filter (· ≠ .peek)))) ∧
      (∀ looks, Answer.Agrees (t.serveAll (List.replicate looks .peek)).advance.1 t.peek.1) ∧
      (t.peek.2.currentToken = t.currentToken ∧ t.peek.2.tokenSpan = t.tokenSpan) ∧
      (t.peek.1 = .ok none → t.peek.2.isExhausted = true) ∧
      ((∃ shown ∈ start.session requests, ∃ error, shown.1.final? = some (.error error)) →
        t.next = (none, t)) ∧
      ((¬ ∃ shown ∈ start.session requests, ∃ error, shown.1.final? = some (.error error)) →
        t.next = (itemOf t.advance.1, t.advance.2)) := by
  intro start t
  refine ⟨takings_agree (.inl rfl), ?_, t.peek_keeps, isExhausted_of_peek, ?_, ?_⟩
  · intro looks
    rcases t.advance_after_looks looks with same | repeated
    · rw [same]
      exact .same
    · rw [repeated]
      exact again_agrees _
  · rintro ⟨shown, hs, error, report⟩
    have final := final_of_session ⟨shown, hs, report⟩
    rw [next_eq, final.hasFailed, if_pos rfl]
  · intro silent
    cases hf : t.hasFailed with
    | true => exact absurd (exists_report rfl hf) silent
    | false => rw [next_eq, hf, if_neg Bool.false_ne_true]

/-- The reader fails within the second word, which one of the looks comes upon first. -/
theorem lookahead_transparent_cut_word :
    Request.next ∉ [Request.peek, .advance, .peek, .peek, .advance] ∧
      TakingsAgree
        ((ofReader (.ofSteps [.data [0x61, 0x20, 0x62], .fail ⟨.wouldBlock, "busy"⟩]) 0).takings
          [.peek, .advance, .peek, .peek, .advance])
        ((ofReader (.ofSteps [.data [0x61, 0x20, 0x62], .fail ⟨.wouldBlock, "busy"⟩]) 0).takings
          [.advance, .advance]) := by
  have absent : Request.next ∉ [Request.peek, .advance, .peek, .peek, .advance] := by decide
  exact ⟨absent, (lookahead_transparent _ 0 _).1 absent⟩

end Tokenizer

end JackTokens
