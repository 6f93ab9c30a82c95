import JackTokens.Proofs.Joining
import JackTokens.Proofs.SourceLines

namespace JackTokens

/-- The text with a carriage return before each of its line feeds. -/
def addReturns (cs : List Char) : List Char :=
  cs.flatMap fun c => if c = '\n' then ['\r', '\n'] else [c]

/-- The line feeds among the first `offset` bytes of a text. -/
def lineFeedsBefore (text : String) (offset : Nat) : Nat :=
  (text.toUTF8.toList.take offset).count 0x0A

/-- The place in `text` once a carriage return is before each line feed: only the offset grows. -/
def Position.withReturns (p : Position) (text : String) : Position :=
  { p with offset := p.offset + lineFeedsBefore text p.offset }

def Lexeme.withReturns (lexeme : Lexeme) (text : String) : Lexeme :=
  { lexeme with span.start := lexeme.span.start.withReturns text }

def LexError.withReturns (text : String) : LexError → LexError
  | unreadable cause => unreadable cause
  | malformed position fault => malformed (position.withReturns text) fault

theorem addReturns_cons {c : Char} (h : c ≠ '\n') (cs : List Char) :
    addReturns (c :: cs) = c :: addReturns cs := by
  simp [addReturns, h]

theorem addReturns_lineFeed (cs : List Char) :
    addReturns ('\n' :: cs) = '\r' :: '\n' :: addReturns cs := rfl

theorem addReturns_append (cs ds : List Char) :
    addReturns (cs ++ ds) = addReturns cs ++ addReturns ds :=
  List.flatMap_append

theorem addReturns_single {cs : List Char} (h : '\n' ∉ cs) : addReturns cs = cs := by
  induction cs with
  | nil => rfl
  | cons c cs ih =>
    have other : c ≠ '\n' := fun same => h (by simp [same])
    rw [addReturns_cons other, ih fun feed => h (List.mem_cons_of_mem c feed)]

/-- Among the bytes of a text, those of a line feed belong to line feeds only. -/
theorem count_encode_lineFeed (cs : List Char) : (encode cs).count 0x0A = cs.count '\n' := by
  induction cs with
  | nil => rfl
  | cons c cs ih =>
    rw [encode_cons, List.count_append, ih]
    by_cases feed : c = '\n'
    · subst feed
      rw [List.count_cons_self, Nat.add_comm]
      rfl
    · have other : c.val.toNat ≠ 10 := fun same => feed (Char.ext (UInt32.toNat_inj.mp same))
      have none : (0x0A : UInt8) ∉ String.utf8EncodeChar c := by
        unfold String.utf8EncodeChar
        dsimp only
        repeat' split
        all_goals
          simp only [List.mem_cons, List.not_mem_nil, or_false, not_or, ← UInt8.toNat_inj,
            UInt8.toNat_ofNat', UInt8.reduceToNat]
          omega
      rw [List.count_eq_zero.mpr none, List.count_cons_of_ne feed, Nat.zero_add]

theorem Position.after_addReturns (p : Position) (cs : List Char) :
    p.after (addReturns cs) = (p.after cs).moved (cs.count '\n') 0 := by
  rw [moved_zero]
  induction cs generalizing p with
  | nil => rfl
  | cons c cs ih =>
    by_cases feed : c = '\n'
    · subst feed
      -- The carriage return adds a byte, and its column is lost at the line feed.
      have step : (p.advance '\r').advance '\n' = (p.advance '\n').moved 1 0 := by
        rw [moved_zero]
        exact congrArg (mk · _ _) (Nat.add_right_comm _ _ _)
      show ((p.advance '\r').advance '\n').after (addReturns cs) = _
      rw [ih, step, after_moved, moved_zero, List.count_cons_self, Nat.add_comm (cs.count '\n'),
        ← Nat.add_assoc]
      rfl
    · rw [addReturns_cons feed, List.count_cons_of_ne feed]
      exact ih (p.advance c)

/-- A place in a text is where the text before it leads. -/
theorem Position.withReturns_after {text : String} {before after : List Char}
    (whole : text.toList = before ++ after) :
    (start.after before).withReturns text = start.after (addReturns before) := by
  have offset : (start.after before).offset = (encode before).length := by
    rw [offset_after]
    exact Nat.zero_add _
  have feeds : lineFeedsBefore text (encode before).length = before.count '\n' := by
    rw [lineFeedsBefore, toList_toUTF8, whole, encode_append, List.take_left,
      count_encode_lineFeed]
  rw [after_addReturns, moved_zero, withReturns, offset, feeds, ← offset]

section

variable {cs : List Char}

theorem Stops.withReturns {p : Char → Bool} (h : Stops p cs) (back : p '\r' = false) :
    Stops p (addReturns cs) := by
  cases cs with
  | nil => exact stops_nil p
  | cons c cs =>
    by_cases feed : c = '\n'
    · subst feed
      exact stops_cons.mpr back
    · rw [addReturns_cons feed]
      exact stops_cons.mpr (stops_cons.mp h)

/-- A carriage return never stands within the sequence that ends a comment, nor makes one up. -/
theorem NoClose.withReturns (h : NoClose cs) : NoClose (addReturns cs) := by
  induction cs with
  | nil => exact h
  | cons c cs ih =>
    obtain ⟨open_, rest⟩ := noClose_cons.mp h
    have inner := ih rest
    by_cases feed : c = '\n'
    · subst feed
      refine noClose_cons.mpr ⟨fun star => ?_, noClose_cons.mpr ⟨fun star => ?_, inner⟩⟩
      · exact absurd star (by decide)
      · exact absurd star (by decide)
    · rw [addReturns_cons feed]
      refine noClose_cons.mpr ⟨fun star => ?_, inner⟩
      have solid : Stops (· == '/') cs := by
        intro d hd
        have other := open_ star
        rw [Option.mem_def.mp hd] at other
        simpa using other
      intro slash
      have stopped := solid.withReturns rfl '/' slash
      exact absurd stopped (by decide)

theorem IsGap.withReturns (h : IsGap cs) : IsGap (addReturns cs) := by
  induction h with
  | nil => exact .nil
  | @blank c gap hb _ ih =>
    by_cases feed : c = '\n'
    · subst feed
      exact .blank rfl (.blank rfl ih)
    · rw [addReturns_cons feed]
      exact .blank hb ih
  | @line body gap hb _ ih =>
    have inside : '\n' ∉ body ++ ['\r'] := by simpa using hb
    have comment := IsGap.line inside ih
    rw [addReturns_cons (by decide), addReturns_cons (by decide), addReturns_append,
      addReturns_single hb, addReturns_lineFeed]
    simpa using comment
  | @block body gap hb _ ih =>
    rw [addReturns_cons (by decide), addReturns_cons (by decide), addReturns_append,
      addReturns_cons (by decide), addReturns_cons (by decide)]
    exact .block hb.withReturns ih

theorem IsLastGap.withReturns (h : IsLastGap cs) : IsLastGap (addReturns cs) := by
  cases h with
  | closed h => exact .closed h.withReturns
  | line h hb =>
    rw [addReturns_append, addReturns_cons (by decide), addReturns_cons (by decide),
      addReturns_single hb]
    exact .line h.withReturns hb

end

theorem Spelled.single {token : Token} {word after : List Char} (h : Spelled token word after) :
    '\n' ∉ word := by
  intro feed
  cases h with
  | keyword k => exact (isWord_spelling k).single feed
  | identifier hw => exact hw.single feed
  | string hc =>
    simp at feed
    exact (hc _ feed).2 rfl
  | integer hd => exact absurd (hd.2 _ feed) (by decide)
  | symbol s =>
    have same : s.char = '\n' := (List.mem_singleton.mp feed).symm
    cases s
    all_goals exact absurd same (by decide)

theorem Spelled.withReturns {token : Token} {word after : List Char}
    (h : Spelled token word after) : Spelled token word (addReturns after) := by
  cases h with
  | keyword k hs => exact .keyword k (hs.withReturns rfl)
  | identifier hw free hs => exact .identifier hw free (hs.withReturns rfl)
  | string hc => exact .string hc
  | integer hd value hs => exact .integer hd value (hs.withReturns rfl)
  | symbol s hs => exact .symbol s fun slash => Stops.withReturns (hs slash) rfl

theorem Faulty.withReturns {rest : List Char} {fault : LexFault} (h : Faulty rest fault) :
    Faulty (addReturns rest) fault := by
  cases h with
  | comment hb =>
    rw [addReturns_cons (by decide), addReturns_cons (by decide)]
    exact .comment hb.withReturns
  | @string content rest hc hr =>
    have single : '\n' ∉ content := fun feed => (hc _ feed).2 rfl
    rw [addReturns_cons (by decide), addReturns_append, addReturns_single single]
    cases rest with
    | nil => exact .string hc hr
    | cons c rest =>
      obtain rfl : c = '\n' := hr c rfl
      -- The carriage return is one more character of the string that does not end.
      have longer : IsContent (content ++ ['\r']) := by
        intro d hd
        rcases List.mem_append.mp hd with hd | hd
        · exact hc d hd
        · obtain rfl := List.mem_singleton.mp hd
          decide
      have faulty : Faulty ('"' :: (content ++ ['\r'] ++ '\n' :: addReturns rest))
          .unterminatedString := .string longer (by simp)
      simpa [addReturns_lineFeed] using faulty
  | @number digits rest hd hs large =>
    have single : '\n' ∉ digits := fun feed => absurd (hd.2 _ feed) (by decide)
    rw [addReturns_append, addReturns_single single]
    exact .number hd (hs.withReturns rfl) large
  | @character c rest solid word quote digit free =>
    have other : c ≠ '\n' := by
      rintro rfl
      exact absurd solid (by decide)
    rw [addReturns_cons other]
    exact .character solid word quote digit free

/-- A tiling of a text goes over the carriage returns that are added to it: all of them are within
gaps. -/
theorem Tiles.withReturns {text : String} {seen front rest : List Char} {place : Position}
    {lexemes : List Lexeme} (h : Tiles place front lexemes rest)
    (whole : text.toList = seen ++ (front ++ rest)) (here : place = Position.start.after seen) :
    Tiles (Position.start.after (addReturns seen)) (addReturns front)
      (lexemes.map (·.withReturns text)) (addReturns rest) := by
  induction h generalizing seen with
  | nil => exact .nil
  | @cons place gap token word front lexemes rest hg hs _ ih =>
    subst here
    have further : text.toList = (seen ++ (gap ++ word)) ++ (front ++ rest) := by simp [whole]
    have before : text.toList = (seen ++ gap) ++ (word ++ (front ++ rest)) := by simp [whole]
    have tiled := ih further (Position.after_append _ _ _).symm
    have first := hs.withReturns
    rw [addReturns_append] at first
    have same : addReturns word = word := addReturns_single hs.single
    rw [addReturns_append seen, addReturns_append gap, same, Position.after_append] at tiled
    have start := Position.withReturns_after before
    rw [addReturns_append, Position.after_append, Position.after_append] at start
    have shifted := Tiles.cons hg.withReturns first tiled
    rw [← start] at shifted
    rw [addReturns_append, addReturns_append, same]
    exact shifted

theorem IsLines.linesOf_addReturns {above : List Char} (h : IsLines above)
    (plain : '\r' ∉ above) :
    IsLines (addReturns above) ∧ linesOf (addReturns above) = linesOf above := by
  induction h with
  | nil => exact ⟨.nil, rfl⟩
  | @cons line rest hl _ ih =>
    obtain ⟨whole, lines⟩ := ih fun back => plain (by simp [back])
    have bare : '\r' ∉ line := fun back => plain (by simp [back])
    have single : '\n' ∉ line ++ ['\r'] := by simpa using hl
    have split : addReturns (line ++ '\n' :: rest) =
        (line ++ ['\r']) ++ '\n' :: addReturns rest := by
      rw [addReturns_append, addReturns_single hl, addReturns_lineFeed]
      simp
    have last : line.getLast? ≠ some '\r' := fun back => bare (List.mem_of_getLast? back)
    rw [split, linesOf_feed single, linesOf_feed hl, lines, dropReturn, if_pos (by simp),
      dropReturn, if_neg last, List.dropLast_concat]
    exact ⟨.cons single whole, rfl⟩

/-- The lines of a text are the same with both kinds of line ends. -/
theorem linesOf_addReturns {cs : List Char} (plain : '\r' ∉ cs) :
    linesOf (addReturns cs) = linesOf cs := by
  obtain ⟨above, left, rfl, ha, hl⟩ := exists_lines cs
  obtain ⟨whole, lines⟩ := ha.linesOf_addReturns fun back => plain (by simp [back])
  rw [addReturns_append, addReturns_single hl, whole.linesOf_append, ha.linesOf_append, lines]

theorem LexError.render_withReturns {text : String} (plain : '\r' ∉ text.toList)
    (error : LexError) :
    (error.withReturns text).diagnostic.render (some (String.ofList (addReturns text.toList))) =
      error.diagnostic.render (some text) := by
  cases error with
  | unreadable => rfl
  | malformed position fault =>
    have quoted : line? (String.ofList (addReturns text.toList)) position.line.toNat =
        line? text position.line.toNat := by
      rw [line?, line?, String.toList_ofList, linesOf_addReturns plain]
    have shown : Diagnostic.excerpt (String.ofList (addReturns text.toList))
        (position.withReturns text) = Diagnostic.excerpt text position := by
      unfold Diagnostic.excerpt
      dsimp only [Position.withReturns]
      rw [quoted]
    show Diagnostic.render { Diagnostic.error fault.message with
      span? := some ⟨position.withReturns text, fault.length⟩ } _ = _
    simp only [Diagnostic.render, Diagnostic.location, shown]
    rfl

namespace Tokenizer

end Tokenizer

end JackTokens
