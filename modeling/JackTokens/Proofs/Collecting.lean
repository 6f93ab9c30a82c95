import JackTokens.Proofs.Continuation
import JackTokens.Proofs.Foresight

namespace JackTokens

/-- What a loop of looks and steps comes to. -/
structure Collected where
  /-- The characters that were seen and stepped onto. -/
  text : List Char
  /-- What the last look has shown, or the failure that ended the loop. -/
  ending : Except ReadError (Option Char)
  cursor : Cursor

namespace Cursor

/-- Looks at the next character and, as long as `p` holds of it, adds it to `text` and steps on. The
answer to the step is not used. -/
def collectMore (cursor : Cursor) (p : Char → Bool) (text : List Char) : Collected :=
  match _h : cursor.peek with
  | (.error cause, ahead) => ⟨text, .error cause, ahead⟩
  | (.ok none, ahead) => ⟨text, .ok none, ahead⟩
  | (.ok (some c), ahead) =>
    if p c then
      match _h2 : ahead.next with
      | (.error cause, behind) => ⟨text, .error cause, behind⟩
      | (.ok _, behind) => collectMore behind p (text ++ [c])
    else ⟨text, .ok (some c), ahead⟩
termination_by cursor.remaining
decreasing_by
  -- The step uses up bytes because it gives the character that was seen.
  have total := cursor.peek_remaining
  cases eq_of_seen _h _h2
  rw [_h] at total
  rw [← total]
  exact remaining_lt_of_next _h2

def collectWhile (cursor : Cursor) (p : Char → Bool) : Collected :=
  cursor.collectMore p []

/-- The character may stand in a string constant. -/
def isQuotable (c : Char) : Bool :=
  c != '"' && c != '\n'

/-- The word that begins with `first`, put together from what the looks show. -/
def collectWord (cursor : Cursor) (first : Char) : Except LexError Token × Cursor :=
  let word := cursor.collectWhile isWordPart
  match word.ending with
  | .error cause => (.error (.unreadable cause), word.cursor)
  | .ok _ => (.ok (.ofWord (String.ofList (first :: word.text))), word.cursor)

/-- The integer constant that begins with `first`, put together from what the looks show. -/
def collectInteger (cursor : Cursor) (first : Char) (start : Position) :
    Except LexError Token × Cursor :=
  let number := cursor.collectWhile isDecimalDigit
  match number.ending with
  | .error cause => (.error (.unreadable cause), number.cursor)
  | .ok _ =>
    let digits := first :: number.text
    if decimalValue digits < UInt32.size then
      (.ok (.integerConstant (decimalValue digits).toUInt32), number.cursor)
    else (.error (.malformed start (.outOfRange (String.ofList digits))), number.cursor)

/-- The string constant opened at `start`, put together from what the looks show. The closing quote
is seen by the look that ends the content, and stepped onto without another one. -/
def collectString (cursor : Cursor) (start : Position) : Except LexError Token × Cursor :=
  let content := cursor.collectWhile isQuotable
  match content.ending with
  | .error cause => (.error (.unreadable cause), content.cursor)
  | .ok c? =>
    if c? = some '"' then
      match content.cursor.next with
      | (.error cause, behind) => (.error (.unreadable cause), behind)
      | (.ok _, behind) => (.ok (.stringConstant (String.ofList content.text)), behind)
    else (.error (.malformed start .unterminatedString), content.cursor)

variable {cursor : Cursor} {p : Char → Bool}

/-- The text grows by what is used up, also up to a failure. -/
theorem collectMore_consumes (wf : cursor.buffer.WellFormed) (text : List Char) :
    ∃ more, (cursor.collectMore p text).text = text ++ more ∧
      cursor.Consumes more (cursor.collectMore p text).cursor := by
  fun_induction collectMore cursor p text with
  | case1 cursor text cause ahead hp =>
    exact ⟨[], (List.append_nil text).symm, Consumes.peek wf hp⟩
  | case2 cursor text ahead hp => exact ⟨[], (List.append_nil text).symm, Consumes.peek wf hp⟩
  | case3 cursor text c ahead hp _ cause behind hn => cases eq_of_seen hp hn
  | case4 cursor text c ahead hp _ c? behind hn ih =>
    have looked := Consumes.peek wf hp
    cases eq_of_seen hp hn
    have stepped := looked.trans (Consumes.next looked.wellFormed hn)
    obtain ⟨more, whole, rest⟩ := ih stepped.wellFormed
    refine ⟨c :: more, ?_, stepped.trans rest⟩
    rw [whole, List.append_assoc, List.singleton_append]
  | case5 cursor text c ahead hp _ =>
    exact ⟨[], (List.append_nil text).symm, Consumes.peek wf hp⟩

theorem collectWhile_consumes (wf : cursor.buffer.WellFormed) (p : Char → Bool) :
    cursor.Consumes (cursor.collectWhile p).text (cursor.collectWhile p).cursor := by
  obtain ⟨more, whole, consumed⟩ := collectMore_consumes (p := p) wf []
  rw [List.nil_append] at whole
  rw [collectWhile, whole]
  exact consumed

/-- What ended the loop without a failure is still ahead. -/
theorem foresees_of_ending {text : List Char} {c? : Option Char}
    (h : (cursor.collectMore p text).ending = .ok c?) :
    (cursor.collectMore p text).cursor.Foresees (.ok c?) := by
  fun_induction collectMore cursor p text with
  | case1 => cases h
  | case2 cursor text ahead hp =>
    cases h
    exact (foresees_of_peek hp (settled_ok _)).1
  | case3 => cases h
  | case4 cursor text c ahead hp _ c? behind hn ih => exact ih h
  | case5 cursor text c ahead hp _ =>
    cases h
    exact (foresees_of_peek hp (settled_ok _)).1

/-- Keeping what the looks have shown and keeping what the steps give comes to the same. -/
theorem readMore_eq_collectMore (cursor : Cursor) (p : Char → Bool) (text : List Char) :
    cursor.readMore p text.reverse =
      ((cursor.collectMore p text).ending.map fun _ => (cursor.collectMore p text).text,
        (cursor.collectMore p text).cursor) := by
  fun_induction collectMore cursor p text with
  | case1 cursor text cause ahead hp =>
    rw [readMore_eq, nextIf_eq, hp]
    rfl
  | case2 cursor text ahead hp =>
    rw [readMore_eq, nextIf_eq, hp]
    simp only [andThen, List.reverse_reverse, Except.map]
  | case3 cursor text c ahead hp _ cause behind hn => cases eq_of_seen hp hn
  | case4 cursor text c ahead hp met c? behind hn ih =>
    cases eq_of_seen hp hn
    rw [List.reverse_append, List.reverse_singleton, List.singleton_append] at ih
    rw [readMore_eq, nextIf_eq, hp]
    simp only [andThen, met, if_true, hn]
    exact ih
  | case5 cursor text c ahead hp other =>
    rw [readMore_eq, nextIf_eq, hp]
    simp only [andThen, other, Bool.false_eq_true, if_false, List.reverse_reverse, Except.map]

theorem readWhile_eq_collectWhile (cursor : Cursor) (p : Char → Bool) :
    cursor.readWhile p =
      ((cursor.collectWhile p).ending.map fun _ => (cursor.collectWhile p).text,
        (cursor.collectWhile p).cursor) :=
  cursor.readMore_eq_collectMore p []

theorem readWord_eq_collectWord (cursor : Cursor) (first : Char) :
    cursor.readWord first = cursor.collectWord first := by
  rw [readWord_eq, readWhile_eq_collectWhile, collectWord]
  rcases (cursor.collectWhile isWordPart).ending with _ | _
  · rfl
  · rfl

theorem readInteger_eq_collectInteger (cursor : Cursor) (first : Char) (start : Position) :
    cursor.readInteger first start = cursor.collectInteger first start := by
  rw [readInteger_eq, readWhile_eq_collectWhile, collectInteger]
  rcases (cursor.collectWhile isDecimalDigit).ending with _ | _
  · rfl
  · rfl

theorem readString_eq_collectString (cursor : Cursor) (start : Position) :
    cursor.readString start = cursor.collectString start := by
  rw [readString_eq, collectString, show (fun c => c != '"' && c != '\n') = isQuotable from rfl,
    readWhile_eq_collectWhile]
  have ahead := @foresees_of_ending cursor isQuotable []
  rw [← collectWhile] at ahead
  generalize cursor.collectWhile isQuotable = content at ahead ⊢
  obtain ⟨text, cause | c?, behind⟩ := content
  · rfl
  · -- The look for the closing quote shows again what has ended the content.
    have foreseen := ahead rfl
    by_cases quote : c? = some '"'
    · subst quote
      have given := foreseen.next_fst
      simp only [andThen, Except.map, foreseen.nextIf_expected, if_true]
      rcases hn : behind.next with ⟨answer, after⟩
      rw [hn] at given
      cases given
      rfl
    · simp only [andThen, Except.map, foreseen.nextIf_other quote, quote, if_false]

/-- A closing quote that has been seen is used up behind the content. -/
theorem readString_of_quote (wf : cursor.buffer.WellFormed) (start : Position)
    (h : (cursor.collectWhile isQuotable).ending = .ok (some '"')) :
    ∃ behind, cursor.readString start =
        (.ok (.stringConstant (String.ofList (cursor.collectWhile isQuotable).text)), behind) ∧
      cursor.Consumes ((cursor.collectWhile isQuotable).text ++ ['"']) behind := by
  have content := collectWhile_consumes wf isQuotable
  have given := (foresees_of_ending h).next_fst
  rw [← collectWhile] at given
  rcases hn : (cursor.collectWhile isQuotable).cursor.next with ⟨answer, behind⟩
  rw [hn] at given
  cases given
  refine ⟨behind, ?_, content.trans (Consumes.next content.wellFormed hn)⟩
  rw [readString_eq_collectString, collectString]
  simp only [h, if_true, hn]

theorem wellFormed_serveAll (steps : List ReadStep) (capacity : Nat)
    (requests : List CursorRequest) :
    ((ofReader (.ofSteps steps) capacity).serveAll requests).buffer.WellFormed :=
  ((accounted_ofReader _ _).serveAll (placed_ofReader _ _) requests).1.wellFormed

/-- A look that gives an answer settles what is next, also after failures: looks and steps give it
again without a call of the reader, whatever that would give. So asking for a character fails only
as a look does, uses up the character if it is met, and else changes no later answer, but that the
device reports a failure once. What the loops collect from looks is what their steps use up, also
when they fail, and the tokens are made of it. -/
theorem peek_settles_next (steps : List ReadStep) (capacity : Nat)
    (requests : List CursorRequest) :
    let cursor := (ofReader (.ofSteps steps) capacity).serveAll requests
    (∀ c?, cursor.peek.1 = .ok c? → cursor.peek.2.Foresees (.ok c?)) ∧
      (∀ expected, cursor.Meets expected (cursor.serve (.nextIf expected)).1
        (cursor.serve (.nextIf expected)).2) ∧
      (∀ p, cursor.Consumes (cursor.collectWhile p).text (cursor.collectWhile p).cursor) ∧
      (∀ first, cursor.readWord first = cursor.collectWord first) ∧
      (∀ first start, cursor.readInteger first start = cursor.collectInteger first start) ∧
      ∀ start, cursor.readString start = cursor.collectString start ∧
        ((cursor.collectWhile isQuotable).ending = .ok (some '"') →
          ∃ behind, cursor.readString start =
              (.ok (.stringConstant (String.ofList (cursor.collectWhile isQuotable).text)),
                behind) ∧
            cursor.Consumes ((cursor.collectWhile isQuotable).text ++ ['"']) behind) := by
  intro cursor
  have wf : cursor.buffer.WellFormed := wellFormed_serveAll steps capacity requests
  refine ⟨?_, meets wf, collectWhile_consumes wf, cursor.readWord_eq_collectWord,
    cursor.readInteger_eq_collectInteger, ?_⟩
  · intro c? seen
    exact (foresees_of_peek (Prod.ext seen rfl) (settled_ok c?)).1
  · intro start
    exact ⟨cursor.readString_eq_collectString start, readString_of_quote wf start⟩

end Cursor

end JackTokens
