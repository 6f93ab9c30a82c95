import JackTokens.CharacterClass
import JackTokens.LexError
import JackTokens.Token
import Mathlib.Data.List.TakeWhile

namespace JackTokens

/-- `p` does not hold of the first character of `cs`, if there is one. -/
def Stops (p : Char → Bool) (cs : List Char) : Prop :=
  ∀ c ∈ cs.head?, p c = false

/-- The characters inside of a block comment: the sequence that ends it does not occur. -/
def NoClose (body : List Char) : Prop :=
  ¬ ['*', '/'] <:+: body

/-- Text between tokens: blanks, line comments with their line feed, and block comments up to the
first asterisk and slash. -/
inductive IsGap : List Char → Prop
  | nil : IsGap []
  | blank {c gap} : isBlank c = true → IsGap gap → IsGap (c :: gap)
  | line {body gap} : '\n' ∉ body → IsGap gap → IsGap ('/' :: '/' :: (body ++ '\n' :: gap))
  | block {body gap} : NoClose body → IsGap gap → IsGap ('/' :: '*' :: (body ++ '*' :: '/' :: gap))

/-- Text after the last token: the end of the text may end a line comment, too. -/
inductive IsLastGap : List Char → Prop
  | closed {gap} : IsGap gap → IsLastGap gap
  | line {gap body} : IsGap gap → '\n' ∉ body → IsLastGap (gap ++ '/' :: '/' :: body)

/-- The words of Jack: `[A-Za-z_][A-Za-z0-9_]*`. -/
def IsWord (cs : List Char) : Prop :=
  ∃ first more, cs = first :: more ∧ isWordStart first = true ∧ ∀ c ∈ more, isWordPart c = true

def IsContent (cs : List Char) : Prop :=
  ∀ c ∈ cs, c ≠ '"' ∧ c ≠ '\n'

def IsDigits (cs : List Char) : Prop :=
  cs ≠ [] ∧ ∀ c ∈ cs, isDecimalDigit c = true

/-- `word` spells a token, and reading on in `after` would not make it longer. -/
inductive Spelled : Token → List Char → List Char → Prop
  | keyword {after} (k : Keyword) :
      Stops isWordPart after → Spelled (.keyword k) k.spelling.toList after
  | identifier {name : String} {after} :
      IsWord name.toList → (∀ k : Keyword, k.spelling ≠ name) → Stops isWordPart after →
      Spelled (.identifier name) name.toList after
  | string {content : String} {after} :
      IsContent content.toList →
      Spelled (.stringConstant content) ('"' :: (content.toList ++ ['"'])) after
  | integer {value : UInt32} {digits after} :
      IsDigits digits → decimalValue digits = value.toNat → Stops isDecimalDigit after →
      Spelled (.integerConstant value) digits after
  | symbol {after} (s : Symbol) :
      (s = .slash → Stops (fun c => c == '/' || c == '*') after) →
      Spelled (.symbol s) [s.char] after

/-- No token and no gap begins `rest`, for the reason `fault`. -/
inductive Faulty : List Char → LexFault → Prop
  | comment {body} : NoClose body → Faulty ('/' :: '*' :: body) .unterminatedComment
  | string {content rest} :
      IsContent content → (∀ c ∈ rest.head?, c = '\n') →
      Faulty ('"' :: (content ++ rest)) .unterminatedString
  | number {digits rest} :
      IsDigits digits → Stops isDecimalDigit rest → UInt32.size ≤ decimalValue digits →
      Faulty (digits ++ rest) (.outOfRange (String.ofList digits))
  | character {c rest} :
      isBlank c = false → isWordStart c = false → c ≠ '"' → isDecimalDigit c = false →
      (∀ s : Symbol, s.char ≠ c) → Faulty (c :: rest) (.unrecognized c)

theorem stops_nil (p : Char → Bool) : Stops p [] := by
  intro c hc
  simp at hc

theorem stops_cons {p : Char → Bool} {c : Char} {cs : List Char} :
    Stops p (c :: cs) ↔ p c = false := by
  simp [Stops]

theorem Stops.mono {p q : Char → Bool} {cs : List Char} (h : Stops q cs)
    (le : ∀ c, q c = false → p c = false) : Stops p cs :=
  fun c hc => le c (h c hc)

theorem Stops.append {p : Char → Bool} {front : List Char} (h : Stops p front)
    (filled : front ≠ []) (back : List Char) : Stops p (front ++ back) := by
  cases front with
  | nil => exact absurd rfl filled
  | cons c front => exact stops_cons.mpr (stops_cons.mp h)

theorem stops_append {p : Char → Bool} {front back : List Char} (h : Stops p front)
    (hb : Stops p back) : Stops p (front ++ back) := by
  by_cases empty : front = []
  · rw [empty]
    exact hb
  · exact h.append empty back

theorem noClose_nil : NoClose [] := by
  intro h
  simpa using h.length_le

theorem noClose_cons {c : Char} {body : List Char} :
    NoClose (c :: body) ↔ (c = '*' → body.head? ≠ some '/') ∧ NoClose body := by
  unfold NoClose
  rw [List.infix_cons_iff, not_or]
  refine and_congr_left fun _ => ?_
  rw [List.cons_prefix_cons]
  constructor
  · intro h star first
    obtain ⟨more, rfl⟩ := List.head?_eq_some_iff.mp first
    exact h ⟨star.symm, by simp⟩
  · rintro h ⟨star, more, rfl⟩
    exact h star.symm rfl

/-- A text is split where `p` stops to hold. -/
theorem exists_span (p : Char → Bool) (cs : List Char) :
    ∃ front back, cs = front ++ back ∧ (∀ c ∈ front, p c = true) ∧ Stops p back := by
  refine ⟨cs.takeWhile p, cs.dropWhile p, List.takeWhile_append_dropWhile.symm,
    fun c hc => List.mem_takeWhile_imp hc, ?_⟩
  intro c hc
  have stopped := List.head?_dropWhile_not p cs
  rw [hc] at stopped
  simpa using stopped

theorem span_unique {p : Char → Bool} {front back other left : List Char}
    (hf : ∀ c ∈ front, p c = true) (hb : Stops p back) (ho : ∀ c ∈ other, p c = true)
    (hl : Stops p left) (same : front ++ back = other ++ left) : front = other ∧ back = left := by
  induction front generalizing other with
  | nil =>
    cases other with
    | nil => exact ⟨rfl, same⟩
    | cons d other =>
      have stopped := hb d (by simpa using congrArg List.head? same)
      have goes := ho d (by simp)
      simp [stopped] at goes
  | cons c front ih =>
    cases other with
    | nil =>
      have stopped := hl c (by simpa using congrArg List.head? same.symm)
      have goes := hf c (by simp)
      simp [stopped] at goes
    | cons d other =>
      obtain ⟨rfl, more⟩ := List.cons.inj same
      obtain ⟨rfl, rest⟩ := ih (fun x hx => hf x (List.mem_cons_of_mem c hx))
        (fun x hx => ho x (List.mem_cons_of_mem c hx)) more
      exact ⟨rfl, rest⟩

theorem not_lineFeed_iff {body : List Char} :
    '\n' ∉ body ↔ ∀ c ∈ body, (c != '\n') = true := by
  constructor
  · intro h c hc
    simp only [bne_iff_ne]
    rintro rfl
    exact h hc
  · intro h hc
    simpa using h _ hc

theorem stops_lineFeed (cs : List Char) : Stops (· != '\n') ('\n' :: cs) :=
  stops_cons.mpr rfl

/-- A text is split at the first asterisk and slash. -/
theorem exists_close (cs : List Char) :
    NoClose cs ∨ ∃ body after, cs = body ++ '*' :: '/' :: after ∧ NoClose body := by
  induction cs with
  | nil => exact .inl noClose_nil
  | cons c cs ih =>
    by_cases closes : c = '*' ∧ cs.head? = some '/'
    · obtain ⟨rfl, first⟩ := closes
      obtain ⟨after, rfl⟩ := List.head?_eq_some_iff.mp first
      exact .inr ⟨[], after, rfl, noClose_nil⟩
    have open_ : c = '*' → cs.head? ≠ some '/' := fun star first => closes ⟨star, first⟩
    rcases ih with none | ⟨body, after, rfl, none⟩
    · exact .inl (noClose_cons.mpr ⟨open_, none⟩)
    · refine .inr ⟨c :: body, after, rfl, noClose_cons.mpr ⟨?_, none⟩⟩
      intro star first
      obtain ⟨more, rfl⟩ := List.head?_eq_some_iff.mp first
      exact open_ star rfl

theorem IsGap.append {gap more : List Char} (h : IsGap gap) (hm : IsGap more) :
    IsGap (gap ++ more) := by
  induction h with
  | nil => exact hm
  | blank hb _ ih => exact .blank hb ih
  | line hb _ ih => simpa using IsGap.line hb ih
  | block hb _ ih => simpa using IsGap.block hb ih

theorem IsLastGap.append {gap more : List Char} (h : IsGap gap) (hm : IsLastGap more) :
    IsLastGap (gap ++ more) := by
  cases hm with
  | closed hm => exact .closed (h.append hm)
  | line hm hb =>
    rw [← List.append_assoc]
    exact .line (h.append hm) hb

/-- A block comment ends at one place only. -/
theorem NoClose.unique {body other after left : List Char} (h : NoClose body) (ho : NoClose other)
    (same : body ++ '*' :: '/' :: after = other ++ '*' :: '/' :: left) : after = left := by
  induction body generalizing other with
  | nil =>
    cases other with
    | nil => simpa using same
    | cons c other =>
      obtain ⟨rfl, more⟩ := List.cons.inj same
      cases other with
      | nil => simp at more
      | cons d other =>
        obtain ⟨rfl, _⟩ := List.cons.inj more
        exact absurd rfl ((noClose_cons.mp ho).1 rfl)
  | cons c body ih =>
    cases other with
    | nil =>
      obtain ⟨rfl, more⟩ := List.cons.inj same
      cases body with
      | nil => simp at more
      | cons d body =>
        obtain ⟨rfl, _⟩ := List.cons.inj more
        exact absurd rfl ((noClose_cons.mp h).1 rfl)
    | cons d other =>
      exact ih (noClose_cons.mp h).2 (noClose_cons.mp ho).2 (List.cons.inj same).2

theorem IsGap.of_blank {c : Char} {cs : List Char} (h : IsGap (c :: cs)) (hc : isBlank c = true) :
    IsGap cs := by
  cases h with
  | blank _ h => exact h
  | line => exact absurd hc (by decide)
  | block => exact absurd hc (by decide)

/-- A slash begins a gap if it opens a comment that is closed. -/
theorem IsGap.of_slash {cs : List Char} (h : IsGap ('/' :: cs)) :
    (∃ body more, cs = '/' :: (body ++ '\n' :: more) ∧ '\n' ∉ body ∧ IsGap more) ∨
      ∃ body more, cs = '*' :: (body ++ '*' :: '/' :: more) ∧ NoClose body ∧ IsGap more := by
  cases h with
  | blank hb _ => exact absurd hb (by decide)
  | line hb hm => exact .inl ⟨_, _, rfl, hb, hm⟩
  | block hb hm => exact .inr ⟨_, _, rfl, hb, hm⟩

/-- What a gap leaves of a longer one is a gap. -/
theorem IsGap.of_append {gap more : List Char} (h : IsGap gap) (hm : IsGap (gap ++ more)) :
    IsGap more := by
  induction h with
  | nil => exact hm
  | blank hb _ ih => exact ih (hm.of_blank hb)
  | @line body gap hb _ ih =>
    rw [List.cons_append] at hm
    rcases hm.of_slash with ⟨other, left, same, ho, hl⟩ | ⟨other, left, same, _⟩
    · have parts : body ++ '\n' :: (gap ++ more) = other ++ '\n' :: left := by simpa using same
      obtain ⟨_, after⟩ := span_unique (not_lineFeed_iff.mp hb) (stops_lineFeed _)
        (not_lineFeed_iff.mp ho) (stops_lineFeed _) parts
      rw [(List.cons.inj after).2] at ih
      exact ih hl
    · simp at same
  | @block body gap hb _ ih =>
    rw [List.cons_append] at hm
    rcases hm.of_slash with ⟨other, left, same, _⟩ | ⟨other, left, same, ho, hl⟩
    · simp at same
    · have parts : body ++ '*' :: '/' :: (gap ++ more) = other ++ '*' :: '/' :: left := by
        simpa using same
      rw [hb.unique ho parts] at ih
      exact ih hl

theorem IsLastGap.of_append {gap more : List Char} (h : IsGap gap)
    (hm : IsLastGap (gap ++ more)) : IsLastGap more := by
  generalize whole : gap ++ more = cs at hm
  cases hm with
  | closed hm =>
    rw [← whole] at hm
    exact .closed (h.of_append hm)
  | @line other body ho hb =>
    rcases List.append_eq_append_iff.mp whole with ⟨left, rfl, rfl⟩ | ⟨left, rfl, comment⟩
    · exact .line (h.of_append ho) hb
    · -- A gap that goes beyond the opening of the comment would end it.
      have hl := ho.of_append h
      cases left with
      | nil =>
        rw [List.nil_append] at comment
        rw [← comment]
        exact .line .nil hb
      | cons c left =>
        obtain ⟨rfl, comment⟩ := List.cons.inj comment
        rcases hl.of_slash with ⟨start, after, rfl, _⟩ | ⟨start, after, rfl, _⟩
        · have ended : body = start ++ '\n' :: (after ++ more) := by simpa using comment
          exact absurd (by simp [ended]) hb
        · simp at comment

end JackTokens
