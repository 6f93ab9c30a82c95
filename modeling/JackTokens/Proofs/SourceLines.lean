import JackTokens.Lines
import JackTokens.Proofs.Recognition

namespace JackTokens

/-- Whole lines, each with its line feed. -/
inductive IsLines : List Char → Prop
  | nil : IsLines []
  | cons {line rest} : '\n' ∉ line → IsLines rest → IsLines (line ++ '\n' :: rest)

/-- `shown` is a line: whole lines are `above` it, and the end of the line is what `below` begins
with, a line feed with or without a carriage return, or the end of the text. -/
structure IsLine (above shown below : List Char) : Prop where
  starts : IsLines above
  single : '\n' ∉ shown
  ends : below = [] ∨ (∃ more, below = '\n' :: more ∧ shown.getLast? ≠ some '\r') ∨
    ∃ more, below = '\r' :: '\n' :: more

theorem linesOf_feed {line : List Char} (h : '\n' ∉ line) (rest : List Char) :
    linesOf (line ++ '\n' :: rest) = dropReturn line :: linesOf rest := by
  have inside := not_lineFeed_iff.mp h
  have behind : (line ++ '\n' :: rest).dropWhile (· != '\n') = '\n' :: rest := by
    rw [List.dropWhile_append_of_pos inside]
    rfl
  have before : (line ++ '\n' :: rest).takeWhile (· != '\n') = line := by
    rw [List.takeWhile_append_of_pos inside]
    simp
  rw [linesOf]
  split
  next none =>
    rw [behind] at none
    cases none
  next feed left cut =>
    rw [behind] at cut
    cases cut
    rw [before]

theorem linesOf_last {line : List Char} (h : '\n' ∉ line) (filled : line ≠ []) :
    linesOf line = [line] := by
  have none : line.dropWhile (· != '\n') = [] :=
    List.dropWhile_eq_nil_iff.mpr (not_lineFeed_iff.mp h)
  rw [linesOf]
  split
  next =>
    have solid : line.isEmpty = false := by simpa using filled
    rw [solid]
    rfl
  next cut =>
    rw [none] at cut
    cases cut

theorem IsLines.linesOf_append {above : List Char} (h : IsLines above) (below : List Char) :
    linesOf (above ++ below) = linesOf above ++ linesOf below := by
  induction h with
  | nil =>
    have empty : linesOf [] = [] := by
      rw [linesOf]
      rfl
    rw [empty]
    rfl
  | @cons line rest hl _ ih =>
    have split : line ++ '\n' :: rest ++ below = line ++ '\n' :: (rest ++ below) := by simp
    rw [split, linesOf_feed hl, linesOf_feed hl, ih]
    rfl

theorem IsLines.length_linesOf {above : List Char} (h : IsLines above) :
    (linesOf above).length = above.count '\n' := by
  induction h with
  | nil =>
    rw [linesOf]
    rfl
  | @cons line rest hl _ ih =>
    have none : line.count '\n' = 0 := List.count_eq_zero.mpr hl
    rw [linesOf_feed hl, List.length_cons, ih, List.count_append, none, List.count_cons_self]
    omega

/-- Any text is whole lines and the beginning of the next one. -/
theorem exists_lines (cs : List Char) :
    ∃ above left, cs = above ++ left ∧ IsLines above ∧ '\n' ∉ left := by
  induction cs with
  | nil => exact ⟨[], [], rfl, .nil, by simp⟩
  | cons c cs ih =>
    obtain ⟨above, left, rfl, ha, hl⟩ := ih
    by_cases feed : c = '\n'
    · subst feed
      have empty : '\n' ∉ ([] : List Char) := by simp
      exact ⟨[] ++ '\n' :: above, left, rfl, .cons empty ha, hl⟩
    · have other : ∀ {line : List Char}, '\n' ∉ line → '\n' ∉ c :: line := by
        intro line h inside
        rcases List.mem_cons.mp inside with same | inside
        · exact feed same.symm
        · exact h inside
      cases ha with
      | nil => exact ⟨[], c :: left, rfl, .nil, other hl⟩
      | @cons line rest hline hr =>
        exact ⟨(c :: line) ++ '\n' :: rest, left, rfl, .cons (other hline) hr, hl⟩

theorem lineBehind_append (above : List Char) {left : List Char} (h : '\n' ∉ left) :
    lineBehind (above ++ left) = above.count '\n' + 1 := by
  have none : left.count '\n' = 0 := List.count_eq_zero.mpr h
  rw [lineBehind, List.count_append, none, Nat.add_zero]

theorem IsLines.eq_nil_or_feed {above : List Char} (h : IsLines above) :
    above = [] ∨ ∃ front, above = front ++ ['\n'] := by
  induction h with
  | nil => exact .inl rfl
  | @cons line rest _ _ ih =>
    rcases ih with rfl | ⟨front, rfl⟩
    · exact .inr ⟨line, rfl⟩
    · exact .inr ⟨line ++ '\n' :: front, by simp⟩

/-- Behind whole lines a new one begins. -/
theorem IsLines.columnBehind_append {above left : List Char} (ha : IsLines above)
    (hl : '\n' ∉ left) : columnBehind (above ++ left) = left.length + 1 := by
  have inside := not_lineFeed_iff.mp hl
  have stopped : above.reverse.takeWhile (· != '\n') = [] := by
    rcases ha.eq_nil_or_feed with rfl | ⟨front, rfl⟩
    · rfl
    · rw [List.reverse_append]
      rfl
  rw [columnBehind, List.reverse_append, List.takeWhile_append_of_pos (by simpa using inside),
    stopped, List.append_nil, List.length_reverse]

section

variable {above shown below : List Char}

/-- The line behind whole lines has the next number. -/
theorem IsLine.line?_eq {text : String} (h : IsLine above shown below)
    (whole : text.toList = above ++ (shown ++ below)) (filled : shown ≠ []) :
    line? text (above.count '\n' + 1) = some (String.ofList shown) := by
  have first : ∃ others, linesOf (shown ++ below) = shown :: others := by
    rcases h.ends with rfl | ⟨more, rfl, last⟩ | ⟨more, rfl⟩
    · rw [List.append_nil]
      exact ⟨[], linesOf_last h.single filled⟩
    · rw [linesOf_feed h.single, dropReturn, if_neg last]
      exact ⟨_, rfl⟩
    · have single : '\n' ∉ shown ++ ['\r'] := by
        have := h.single
        simpa using this
      have split : shown ++ '\r' :: '\n' :: more = (shown ++ ['\r']) ++ '\n' :: more := by simp
      rw [split, linesOf_feed single, dropReturn, if_pos (by simp), List.dropLast_concat]
      exact ⟨_, rfl⟩
  obtain ⟨others, lines⟩ := first
  have here : (linesOf text.toList)[above.count '\n']? = some shown := by
    rw [whole, h.starts.linesOf_append, lines, ← h.starts.length_linesOf]
    simp
  rw [line?, if_neg (Nat.succ_ne_zero _), Nat.add_sub_cancel, here]
  rfl

/-- A word without line ends in it stands in one line. -/
theorem exists_line (before : List Char) {word : List Char} (after : List Char) (filled : word ≠ [])
    (plain : ∀ c ∈ word, c ≠ '\n' ∧ c ≠ '\r') :
    ∃ above left right below, before = above ++ left ∧ after = right ++ below ∧ '\n' ∉ left ∧
      IsLine above (left ++ (word ++ right)) below := by
  obtain ⟨above, left, rfl, ha, hl⟩ := exists_lines before
  obtain ⟨tail, back, rfl, inside, stopped⟩ := exists_span (· != '\n') after
  have ht := not_lineFeed_iff.mpr inside
  have single : '\n' ∉ left ++ (word ++ tail) := by
    intro feed
    rcases List.mem_append.mp feed with feed | feed
    · exact hl feed
    rcases List.mem_append.mp feed with feed | feed
    · exact (plain _ feed).1 rfl
    · exact ht feed
  cases back with
  | nil => exact ⟨above, left, tail, [], rfl, rfl, hl, ha, single, .inl rfl⟩
  | cons c back =>
    obtain rfl : c = '\n' := by simpa using stops_cons.mp stopped
    by_cases returns : tail.getLast? = some '\r'
    · obtain ⟨right, rfl⟩ := List.getLast?_eq_some_iff.mp returns
      have split : left ++ (word ++ (right ++ ['\r'])) = left ++ (word ++ right) ++ ['\r'] := by
        simp
      rw [split] at single
      have shorter : '\n' ∉ left ++ (word ++ right) :=
        fun feed => single (List.mem_append_left _ feed)
      refine ⟨above, left, right, '\r' :: '\n' :: back, rfl, by simp, hl, ha, shorter, ?_⟩
      exact .inr (.inr ⟨back, rfl⟩)
    · refine ⟨above, left, tail, '\n' :: back, rfl, rfl, hl, ha, single,
        .inr (.inl ⟨back, rfl, ?_⟩)⟩
      intro last
      cases tail with
      | nil =>
        -- The last character of the line is that of the word.
        obtain ⟨x, hx⟩ := Option.ne_none_iff_exists'.mp (mt List.getLast?_eq_none_iff.mp filled)
        have same : x = '\r' := by simpa [List.getLast?_append, hx] using last
        exact (plain x (List.mem_of_getLast? hx)).2 same
      | cons d tail =>
        have same : (d :: tail).getLast? = some '\r' := by
          simpa [List.getLast?_append] using last
        exact returns same

end

end JackTokens
