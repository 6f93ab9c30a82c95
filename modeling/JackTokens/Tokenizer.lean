import JackTokens.Lexeme

namespace JackTokens

/-- Reads the tokens of an input one by one. -/
structure Tokenizer where
  cursor : Cursor
  /-- The token taken last, `none` before the first, at the end of the input and after a failure. -/
  currentToken : Option Token
  /-- The span of the token taken last. -/
  tokenSpan : Option Span
  /-- The token after it, if it has been looked at. -/
  peeked : Option Lexeme
  /-- The end of the input has been met. -/
  ended : Bool
  /-- The first error, which is given again from then on. -/
  failure : Option Failure

namespace Tokenizer

def ofReader (reader : Reader) (capacity : Nat) : Tokenizer :=
  ⟨.ofReader reader capacity, none, none, none, false, none⟩

def ofText (text : String) : Tokenizer :=
  ofReader (.ofBytes text.toUTF8.toList) defaultCapacity

/-- The token taken last with its span. -/
def current (t : Tokenizer) : Option Lexeme :=
  match t.currentToken, t.tokenSpan with
  | some token, some span => some ⟨token, span⟩
  | _, _ => none

def withCurrent (t : Tokenizer) (lexeme : Option Lexeme) : Tokenizer :=
  { t with currentToken := lexeme.map (·.token), tokenSpan := lexeme.map (·.span) }

/-- The input has ended and no token is left. -/
def isExhausted (t : Tokenizer) : Bool :=
  t.ended && t.peeked.isNone

def hasFailed (t : Tokenizer) : Bool :=
  t.failure.isSome

/-- The place of the character read last. -/
def position (t : Tokenizer) : Position :=
  t.cursor.position

/-- Reads one token further. At the end of the input and after a failure nothing is read, and the
answer is the same again. -/
def pull (t : Tokenizer) : Except LexError (Option Lexeme) × Tokenizer :=
  match t.failure with
  | some failure => (.error failure.toError, t)
  | none =>
    if t.ended then (.ok none, t)
    else
      match t.cursor.readLexeme with
      | (.error error, cursor) =>
        (.error error, { t with cursor, failure := some (.record error) })
      | (.ok none, cursor) => (.ok none, { t with cursor, ended := true })
      | (.ok (some lexeme), cursor) => (.ok (some lexeme), { t with cursor })

/-- Takes the next token, `none` at the end of the input. -/
def advance (t : Tokenizer) : Except LexError (Option Token) × Tokenizer :=
  match t.peeked with
  | some lexeme => (.ok (some lexeme.token), { t with peeked := none }.withCurrent (some lexeme))
  | none =>
    match (t.withCurrent none).pull with
    | (.error error, t) => (.error error, t)
    | (.ok lexeme, t) => (.ok (lexeme.map (·.token)), t.withCurrent lexeme)

/-- Looks at the next token and leaves it. -/
def peek (t : Tokenizer) : Except LexError (Option Token) × Tokenizer :=
  match t.peeked with
  | some lexeme => (.ok (some lexeme.token), t)
  | none =>
    match t.pull with
    | (.error error, t) => (.error error, t)
    | (.ok lexeme, t) => (.ok (lexeme.map (·.token)), { t with peeked := lexeme })

/-- Takes the next token, as one item of a sequence that ends with the input or its first error. -/
def next (t : Tokenizer) : Option (Except LexError Token) × Tokenizer :=
  if t.hasFailed then (none, t)
  else
    match t.advance with
    | (.error error, t) => (some (.error error), t)
    | (.ok none, t) => (none, t)
    | (.ok (some token), t) => (some (.ok token), t)

/-- Bounds the tokens to come. -/
def pending (t : Tokenizer) : Nat :=
  t.cursor.remaining + t.peeked.toList.length

@[simp] theorem current_withCurrent (t : Tokenizer) (lexeme : Option Lexeme) :
    (t.withCurrent lexeme).current = lexeme := by
  cases lexeme with
  | none => rfl
  | some lexeme => rfl

@[simp] theorem cursor_withCurrent (t : Tokenizer) (lexeme : Option Lexeme) :
    (t.withCurrent lexeme).cursor = t.cursor := rfl

@[simp] theorem peeked_withCurrent (t : Tokenizer) (lexeme : Option Lexeme) :
    (t.withCurrent lexeme).peeked = t.peeked := rfl

@[simp] theorem ended_withCurrent (t : Tokenizer) (lexeme : Option Lexeme) :
    (t.withCurrent lexeme).ended = t.ended := rfl

@[simp] theorem failure_withCurrent (t : Tokenizer) (lexeme : Option Lexeme) :
    (t.withCurrent lexeme).failure = t.failure := rfl

theorem pending_lt_of_pull {t pulled : Tokenizer} {lexeme : Lexeme} (h : t.peeked = none)
    (hl : t.pull = (.ok (some lexeme), pulled)) : pulled.pending < t.pending := by
  unfold pull at hl
  split at hl
  next => cases hl
  next =>
    split at hl
    next => cases hl
    next =>
      split at hl
      next => cases hl
      next => cases hl
      next hr =>
        cases hl
        have bound := Cursor.remaining_lt_of_readLexeme hr
        simpa [pending, h] using bound

theorem pending_lt_of_advance {t taken : Tokenizer} {token : Token}
    (h : t.advance = (.ok (some token), taken)) : taken.pending < t.pending := by
  unfold advance at h
  split at h
  next lexeme hp =>
    cases h
    simp [pending, hp]
  next hp =>
    split at h
    next => cases h
    next lexeme pulled hl =>
      simp only [Prod.mk.injEq, Except.ok.injEq] at h
      obtain ⟨ht, rfl⟩ := h
      obtain ⟨first, rfl, _⟩ := Option.map_eq_some_iff.mp ht
      have less := pending_lt_of_pull (t := t.withCurrent none) hp hl
      simpa [pending] using less

/-- The tokens up to the end of the input or the first error. -/
structure Drained where
  lexemes : List Lexeme
  error? : Option LexError
  tokenizer : Tokenizer

/-- Takes tokens until none is left. `taken` has those before, the latest first. -/
def drainMore (t : Tokenizer) (taken : List Lexeme) : Drained :=
  match _h : t.advance with
  | (.error error, t) => ⟨taken.reverse, some error, t⟩
  | (.ok none, t) => ⟨taken.reverse, none, t⟩
  | (.ok (some _), t) => drainMore t (t.current.toList ++ taken)
termination_by t.pending
decreasing_by exact pending_lt_of_advance _h

def drain (t : Tokenizer) : Drained :=
  t.drainMore []

def Drained.tokens (drained : Drained) : List Token :=
  drained.lexemes.map (·.token)

/-- All items that are left of the sequence that `next` gives. -/
def rest (t : Tokenizer) : List (Except LexError Token) × Tokenizer :=
  if t.hasFailed then ([], t)
  else
    let drained := t.drain
    (drained.tokens.map .ok ++ drained.error?.toList.map .error, drained.tokenizer)

end Tokenizer

/-- The tokens of a text, or the error at which they end. -/
def tokensOf (text : String) : Except LexError (List Token) :=
  let drained := (Tokenizer.ofText text).drain
  match drained.error? with
  | some error => .error error
  | none => .ok drained.tokens

end JackTokens
