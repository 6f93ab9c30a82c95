import JackTokens.Proofs.Rendering
import JackTokens.Proofs.SourceLines
import JackTokens.Proofs.Tiling

namespace JackTokens

/-- `fault` is about `word`, which is found between `before` and `after`. -/
inductive Offends : LexFault → List Char → List Char → List Char → Prop
  | string {before content rest} :
      IsContent content → (∀ c ∈ rest.head?, c = '\n') →
      Offends .unterminatedString before ['"'] (content ++ rest)
  | comment {before body} :
      NoClose body → Offends .unterminatedComment before ['/'] ('*' :: body)
  | character {c before after} :
      isBlank c = false → Offends (.unrecognized c) before [c] after
  /-- The digits are all that stand there: there is none before them and none behind them. -/
  | number {digits before after} :
      IsDigits digits → Stops isDecimalDigit before.reverse → Stops isDecimalDigit after →
      UInt32.size ≤ decimalValue digits →
      Offends (.outOfRange (String.ofList digits)) before digits after

theorem Offends.oneLine_message {before word after : List Char} {fault : LexFault}
    (h : Offends fault before word after) : OneLine fault.message := by
  have opens : OneLine "unrecognized character '" := by decide
  have constant : OneLine "integer constant " := by decide
  cases h with
  | string => decide
  | comment => decide
  | @character c => exact (opens.append (oneLine_shownChar c)).append (by decide)
  | number hd => exact (constant.append (oneLine_digits hd.2)).append (by decide)

theorem IsGap.ends {gap : List Char} (h : IsGap gap) : Stops isDecimalDigit gap.reverse := by
  induction h with
  | nil => exact stops_nil _
  | @blank c gap hb _ ih =>
    rw [List.reverse_cons]
    apply stops_append ih
    apply stops_cons.mpr
    by_contra digit
    have solid := not_blank_of_digit (by simpa using digit)
    rw [hb] at solid
    cases solid
  | @line body gap _ _ ih =>
    have split : ('/' :: '/' :: (body ++ '\n' :: gap)).reverse =
        gap.reverse ++ '\n' :: ('/' :: '/' :: body).reverse := by simp
    rw [split]
    exact stops_append ih (stops_cons.mpr rfl)
  | @block body gap _ _ ih =>
    have split : ('/' :: '*' :: (body ++ '*' :: '/' :: gap)).reverse =
        gap.reverse ++ '/' :: ('/' :: '*' :: (body ++ ['*'])).reverse := by simp
    rw [split]
    exact stops_append ih (stops_cons.mpr rfl)

theorem Spelled.ends {token : Token} {word more : List Char} {x : Char}
    (h : Spelled token word (x :: more)) (hx : isDecimalDigit x = true) :
    Stops isDecimalDigit word.reverse := by
  have part : isWordPart x = true := by
    have digit : x.isDigit = true := hx
    simp [isWordPart, Char.isAlphanum, digit]
  cases h with
  | keyword k hs => exact absurd (part.symm.trans (stops_cons.mp hs)) (by decide)
  | identifier _ _ hs => exact absurd (part.symm.trans (stops_cons.mp hs)) (by decide)
  | @string content =>
    rw [List.reverse_cons, List.reverse_append]
    exact stops_cons.mpr rfl
  | integer _ _ hs => exact absurd (hx.symm.trans (stops_cons.mp hs)) (by decide)
  | symbol s =>
    apply stops_cons.mpr
    cases s
    all_goals rfl

/-- No digit comes before a fault that a digit begins. -/
theorem Tiles.ends {place : Position} {front gap more : List Char} {x : Char}
    {lexemes : List Lexeme} (h : Tiles place front lexemes (gap ++ x :: more)) (hg : IsGap gap)
    (hx : isDecimalDigit x = true) : Stops isDecimalDigit (front ++ gap).reverse := by
  generalize behind : gap ++ x :: more = rest at h
  induction h with
  | nil => exact hg.ends
  | @cons place blank token word front lexemes rest _ hs _ ih =>
    have whole : (blank ++ (word ++ front) ++ gap).reverse =
        (front ++ gap).reverse ++ (word.reverse ++ blank.reverse) := by simp
    rw [whole]
    -- The word ends right before the digit only if nothing is behind the word.
    by_cases empty : front ++ gap = []
    · obtain ⟨rfl, rfl⟩ := List.append_eq_nil_iff.mp empty
      subst behind
      obtain ⟨first, others, same, _⟩ := hs.first
      have filled : word.reverse ≠ [] := by simp [same]
      exact (hs.ends hx).append filled _
    · have filled : (front ++ gap).reverse ≠ [] := mt List.reverse_eq_nil_iff.mp empty
      exact (ih behind).append filled _

namespace Offends

variable {fault : LexFault} {before word after : List Char}

theorem length_eq (h : Offends fault before word after) : fault.length = (encode word).length := by
  cases h with
  | string => rfl
  | comment => rfl
  | @character c =>
    rw [encode_cons, List.length_append, String.length_utf8EncodeChar]
    rfl
  | number =>
    have bytes := length_encode (String.ofList word)
    rw [String.toList_ofList] at bytes
    exact bytes.symm

theorem ne_nil (h : Offends fault before word after) : word ≠ [] := by
  cases h with
  | string => exact List.cons_ne_nil _ _
  | comment => exact List.cons_ne_nil _ _
  | character => exact List.cons_ne_nil _ _
  | number hd => exact hd.1

theorem plain (h : Offends fault before word after) : ∀ c ∈ word, c ≠ '\n' ∧ c ≠ '\r' := by
  intro c hc
  cases h with
  | string =>
    obtain rfl := List.mem_singleton.mp hc
    decide
  | comment =>
    obtain rfl := List.mem_singleton.mp hc
    decide
  | character solid =>
    obtain rfl := List.mem_singleton.mp hc
    refine ⟨?_, ?_⟩
    · rintro rfl
      exact absurd solid (by decide)
    · rintro rfl
      exact absurd solid (by decide)
  | number hd =>
    have digit := hd.2 c hc
    exact ⟨ne_of_class digit rfl, ne_of_class digit rfl⟩

end Offends

theorem Faulty.offends {rest before : List Char} {fault : LexFault} (h : Faulty rest fault)
    (alone : ∀ x more, rest = x :: more → isDecimalDigit x = true →
      Stops isDecimalDigit before.reverse) :
    ∃ word after, rest = word ++ after ∧ Offends fault before word after := by
  cases h with
  | @comment body hb => exact ⟨['/'], '*' :: body, rfl, .comment hb⟩
  | @string content rest hc hr => exact ⟨['"'], content ++ rest, rfl, .string hc hr⟩
  | @number digits rest hd hs large =>
    obtain ⟨x, more, same, hx, _⟩ := hd.first
    have before := alone x (more ++ rest) (by simp [same]) hx
    exact ⟨digits, rest, rfl, .number hd before hs large⟩
  | @character c rest hb => exact ⟨[c], rest, rfl, .character hb⟩

/-- The report quotes the line with the text at fault, as long as the number of that line is told
right, and the caret stands as far behind the number as the column says. -/
theorem Offends.render_lines {text : String} {fault : LexFault} {position : Position}
    {above left word right below : List Char}
    (h : Offends fault (above ++ left) word (right ++ below))
    (whole : text.toList = above ++ (left ++ (word ++ (right ++ below))))
    (line : IsLine above (left ++ (word ++ right)) below)
    (number : position.line.toNat = above.count '\n' + 1) :
    ∃ heading pointer bar number under,
      ((LexError.malformed position fault).diagnostic.render (some text)).toList.splitOn '\n' =
        [heading, pointer, bar, number ++ (left ++ (word ++ right)), under ++ ['^']] ∧
      number = (decimal (above.count '\n' + 1) ++ " | ").toList ∧
      under.length = number.length + (position.column.toNat - 1) := by
  have filled : left ++ (word ++ right) ≠ [] := by simp [h.ne_nil]
  have split : text.toList = above ++ ((left ++ (word ++ right)) ++ below) := by simp [whole]
  have quoted := line.line?_eq split filled
  rw [← number] at quoted
  have single := oneLine_ofList.mpr line.single
  have origin : OneLine "<input>" := by decide
  have lines := Diagnostic.render_splitOn
    (d := (LexError.malformed position fault).diagnostic) rfl quoted
    rfl h.oneLine_message origin single
  rw [String.toList_ofList] at lines
  refine ⟨_, _, _, _, _, lines, ?_, ?_⟩
  · rw [number]
  · simp [Diagnostic.spaces, String.length_toList]
    omega

namespace Tokenizer

end Tokenizer

end JackTokens
