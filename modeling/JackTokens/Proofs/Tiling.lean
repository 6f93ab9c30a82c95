import JackTokens.Proofs.Draining
import JackTokens.Proofs.Recognition

namespace JackTokens

/-- From `place` on, `front` is made up of gaps and the words of `lexemes`; `rest` is behind it. -/
inductive Tiles : Position → List Char → List Lexeme → List Char → Prop
  | nil {place rest} : Tiles place [] [] rest
  | cons {place gap token word front lexemes rest} :
      IsGap gap → Spelled token word (front ++ rest) →
      Tiles (place.after (gap ++ word)) front lexemes rest →
      Tiles place (gap ++ (word ++ front))
        (⟨token, ⟨place.after gap, (encode word).length⟩⟩ :: lexemes) rest

/-- Where the last token ends, 0 if there is none. -/
def lastStop (lexemes : List Lexeme) : Nat :=
  (lexemes.getLast?.map (·.span.stop)).getD 0

theorem Spelled.encode_pos {token : Token} {word after : List Char}
    (h : Spelled token word after) : 0 < (encode word).length := by
  obtain ⟨x, more, rfl, _⟩ := h.first
  have size := x.utf8Size_pos
  rw [encode_cons, List.length_append, String.length_utf8EncodeChar]
  omega

/-- A word is a keyword if it is reserved, and an identifier if it is not. -/
theorem Spelled.reserved {token : Token} {word after : List Char} (h : Spelled token word after)
    (hk : token.kind = .keyword ∨ token.kind = .identifier) :
    IsWord word ∧ (token.kind = .keyword ↔ ∃ k : Keyword, k.spelling.toList = word) := by
  cases h with
  | keyword k => exact ⟨isWord_spelling k, fun _ => ⟨k, rfl⟩, fun _ => rfl⟩
  | identifier hw free =>
    refine ⟨hw, fun same => by simp [Token.kind] at same, ?_⟩
    rintro ⟨k, same⟩
    exact absurd (String.toList_inj.mp same) (free k)
  | string => simp [Token.kind] at hk
  | integer => simp [Token.kind] at hk
  | symbol => simp [Token.kind] at hk

/-- A word is found in the text at the place of its token. -/
theorem Tiles.spelled {place : Position} {front rest : List Char} {lexemes : List Lexeme}
    (h : Tiles place front lexemes rest) {lexeme : Lexeme} (hl : lexeme ∈ lexemes) :
    ∃ before word after, front ++ rest = before ++ (word ++ after) ∧
      lexeme.span = ⟨place.after before, (encode word).length⟩ ∧
      Spelled lexeme.token word after := by
  induction h with
  | nil => simp at hl
  | @cons place gap token word front lexemes rest hg hs _ ih =>
    rcases List.mem_cons.mp hl with rfl | hl
    · exact ⟨gap, word, front ++ rest, by simp, rfl, hs⟩
    · obtain ⟨before, other, after, whole, span, spelled⟩ := ih hl
      refine ⟨gap ++ word ++ before, other, after, ?_, ?_, spelled⟩
      · simp only [List.append_assoc, whole]
      · rw [span, Position.after_append place (gap ++ word)]

theorem Tiles.offset_le {place : Position} {front rest : List Char} {lexemes : List Lexeme}
    (h : Tiles place front lexemes rest) {lexeme : Lexeme} (hl : lexeme ∈ lexemes) :
    place.offset ≤ lexeme.span.start.offset := by
  obtain ⟨before, word, after, _, span, _⟩ := h.spelled hl
  simp only [span, Position.offset_after]
  omega

theorem Tiles.pairwise {place : Position} {front rest : List Char} {lexemes : List Lexeme}
    (h : Tiles place front lexemes rest) :
    lexemes.Pairwise fun a b => a.span.stop ≤ b.span.start.offset := by
  induction h with
  | nil => exact List.Pairwise.nil
  | @cons place gap token word front lexemes rest _ _ ht ih =>
    refine List.pairwise_cons.mpr ⟨?_, ih⟩
    intro lexeme hl
    have bound := ht.offset_le hl
    rw [Position.offset_after, encode_append, List.length_append] at bound
    simp only [Span.stop, Position.offset_after]
    omega

/-- The last token ends where the tiled text does. -/
theorem Tiles.stop {place : Position} {front rest : List Char} {lexemes : List Lexeme}
    (h : Tiles place front lexemes rest) :
    (lexemes.getLast?.map (·.span.stop)).getD place.offset = (place.after front).offset := by
  induction h with
  | nil => rfl
  | @cons place gap token word front lexemes rest _ _ _ ih =>
    have start : ((place.after gap).offset + (encode word).length) =
        (place.after (gap ++ word)).offset := by
      simp only [Position.offset_after, encode_append, List.length_append]
      omega
    rw [← List.append_assoc, Position.after_append, ← ih, List.getLast?_cons]
    cases lexemes.getLast? with
    | none => exact start
    | some last => rfl

theorem Tiles.lastStop_eq {front rest : List Char} {lexemes : List Lexeme}
    (h : Tiles .start front lexemes rest) : lastStop lexemes = (encode front).length := by
  have stop := h.stop
  rw [Position.offset_after] at stop
  simpa [lastStop, Position.start] using stop

/-- Any text is tiled up to its end, or up to a fault. -/
theorem exists_tiles (place : Position) (cs : List Char) :
    ∃ front lexemes rest, cs = front ++ rest ∧ Tiles place front lexemes rest ∧
      (IsLastGap rest ∨
        ∃ gap after fault, rest = gap ++ after ∧ IsGap gap ∧ Faulty after fault) := by
  -- Each token takes a character at least, so what is behind it is shorter.
  induction hn : cs.length using Nat.strongRecOn generalizing place cs with
  | ind n ih =>
    rcases exists_gap cs with last | ⟨gap, rest, rfl, hg, token | fault⟩
    · exact ⟨[], [], cs, rfl, .nil, .inl last⟩
    · obtain ⟨token, word, after, rfl, hs⟩ := token
      have shorter : after.length < n := by
        obtain ⟨x, more, rfl, _⟩ := hs.first
        simp only [List.length_append, List.length_cons] at hn
        omega
      obtain ⟨front, lexemes, rest, rfl, ht, ends⟩ :=
        ih _ shorter (place.after (gap ++ word)) after rfl
      exact ⟨gap ++ (word ++ front), _, rest, by simp, .cons hg hs ht, ends⟩
    · obtain ⟨fault, hf⟩ := fault
      exact ⟨[], [], gap ++ rest, rfl, .nil, .inr ⟨gap, rest, fault, rfl, hg, hf⟩⟩

namespace Tokenizer

/-- The tokens of `cs` are still to be taken, from `place` on. -/
structure Ahead (t : Tokenizer) (place : Position) (cs : List Char) : Prop where
  cursor : t.cursor.Ahead place cs
  running : t.Running

theorem ahead_ofText (text : String) : (ofText text).Ahead .start text.toList := by
  refine ⟨?_, running_ofReader _ _⟩
  have ahead := Cursor.ahead_ofReader text.toList defaultCapacity
  rw [← toList_toUTF8] at ahead
  exact ahead

variable {t : Tokenizer} {place : Position} {cs : List Char}

theorem Ahead.advance_spelled {gap word after : List Char} {token : Token}
    (h : t.Ahead place (gap ++ (word ++ after))) (hg : IsGap gap)
    (hs : Spelled token word after) :
    ∃ u, t.advance = (.ok (some token), u) ∧ u.Ahead (place.after (gap ++ word)) after ∧
      u.current = some ⟨token, ⟨place.after gap, (encode word).length⟩⟩ := by
  obtain ⟨d, hd, ahead⟩ := h.cursor.readLexeme_spelled hg hs
  rw [h.running.advance_eq, hd]
  exact ⟨_, rfl, ⟨ahead, h.running.step d (some _)⟩, current_withCurrent _ _⟩

theorem Ahead.advance_faulty {gap rest : List Char} {fault : LexFault}
    (h : t.Ahead place (gap ++ rest)) (hg : IsGap gap) (hf : Faulty rest fault) :
    ∃ u, t.advance = (.error (.malformed (place.after gap) fault), u) ∧
      u.isExhausted = false ∧ u.hasFailed = true := by
  obtain ⟨d, hd⟩ := h.cursor.readLexeme_faulty hg hf
  rw [h.running.advance_eq, hd]
  refine ⟨_, rfl, ?_, rfl⟩
  simp [isExhausted, h.running.ended]

theorem Ahead.advance_last (h : t.Ahead place cs) (hg : IsLastGap cs) :
    ∃ u, t.advance = (.ok none, u) ∧ u.isExhausted = true ∧ u.position = place.after cs := by
  obtain ⟨d, hd, here⟩ := h.cursor.readLexeme_last hg
  rw [h.running.advance_eq, hd]
  refine ⟨_, rfl, ?_, here⟩
  simp [isExhausted, h.running.peeked]

theorem Ahead.drainMore_tiles {front rest : List Char} {lexemes : List Lexeme}
    (h : t.Ahead place (front ++ rest)) (ht : Tiles place front lexemes rest)
    (taken : List Lexeme) :
    ∃ u : Tokenizer, t.drainMore taken = u.drainMore (lexemes.reverse ++ taken) ∧
      u.Ahead (place.after front) rest := by
  -- Induction on the tiling: `taken` grows by the token of each step.
  induction ht generalizing t taken with
  | nil => exact ⟨t, rfl, h⟩
  | @cons place gap token word front lexemes rest hg hs _ ih =>
    simp only [List.append_assoc] at h
    obtain ⟨u, hu, ahead, current⟩ := h.advance_spelled hg hs
    obtain ⟨v, hv, behind⟩ := ih ahead (u.current.toList ++ taken)
    refine ⟨v, ?_, ?_⟩
    · rw [drainMore_eq, hu]
      dsimp only
      rw [hv, current, List.reverse_cons, List.append_assoc]
      rfl
    · rw [← List.append_assoc, Position.after_append]
      exact behind

theorem drain_last {text : String} {front rest : List Char} {lexemes : List Lexeme}
    (whole : text.toList = front ++ rest) (ht : Tiles .start front lexemes rest)
    (hg : IsLastGap rest) :
    ∃ u, (ofText text).drain = ⟨lexemes, none, u⟩ ∧ u.isExhausted = true ∧
      u.position = Position.start.after text.toList := by
  have h := ahead_ofText text
  rw [whole] at h
  obtain ⟨u, hu, ahead⟩ := h.drainMore_tiles ht []
  obtain ⟨v, hv, ended, here⟩ := ahead.advance_last hg
  refine ⟨v, ?_, ended, ?_⟩
  · rw [drain, hu, drainMore_eq, hv]
    simp
  · rw [here, whole, Position.after_append]

theorem drain_faulty {text : String} {front gap rest : List Char} {lexemes : List Lexeme}
    {fault : LexFault} (whole : text.toList = front ++ (gap ++ rest))
    (ht : Tiles .start front lexemes (gap ++ rest)) (hg : IsGap gap) (hf : Faulty rest fault) :
    ∃ u, (ofText text).drain =
        ⟨lexemes, some (.malformed (Position.start.after (front ++ gap)) fault), u⟩ ∧
      u.isExhausted = false ∧ u.hasFailed = true := by
  have h := ahead_ofText text
  rw [whole] at h
  obtain ⟨u, hu, ahead⟩ := h.drainMore_tiles ht []
  obtain ⟨v, hv, failed⟩ := ahead.advance_faulty hg hf
  rw [Position.after_append]
  refine ⟨v, ?_, failed⟩
  rw [drain, hu, drainMore_eq, hv]
  simp

theorem isGap_replicate {c : Char} (h : isBlank c = true) (n : Nat) :
    IsGap (List.replicate n c) := by
  induction n with
  | zero => exact .nil
  | succ n ih => exact .blank h ih

/-- The text with nothing but a gap before a character that begins no token. -/
theorem drain_behind_gap {gap : List Char} (hg : IsGap gap) :
    (ofText (String.ofList (gap ++ ['#']))).drain.error? =
      some (.malformed (Position.start.after gap) (.unrecognized '#')) := by
  have free : ∀ s : Symbol, s.char ≠ '#' := by
    intro s
    cases s
    all_goals decide
  have faulty : Faulty ['#'] (.unrecognized '#') :=
    .character (by decide) (by decide) (by decide) (by decide) free
  have whole : (String.ofList (gap ++ ['#'])).toList = [] ++ (gap ++ ['#']) := String.toList_ofList
  obtain ⟨u, hu, _⟩ := drain_faulty whole .nil hg faulty
  rw [hu, List.nil_append]

/-- Draining a text follows its tiling, to the end of the text or to its first fault. -/
theorem exists_drain (text : String) :
    ∃ front lexemes gap rest, text.toList = front ++ (gap ++ rest) ∧
      Tiles .start front lexemes (gap ++ rest) ∧
      ((∃ u, (ofText text).drain = ⟨lexemes, none, u⟩ ∧ rest = [] ∧ IsLastGap gap ∧
          u.isExhausted = true ∧ u.position = Position.start.after text.toList) ∨
        ∃ u fault, (ofText text).drain =
            ⟨lexemes, some (.malformed (Position.start.after (front ++ gap)) fault), u⟩ ∧
          IsGap gap ∧ Faulty rest fault ∧ u.isExhausted = false ∧ u.hasFailed = true) := by
  obtain ⟨front, lexemes, left, whole, ht, last | faulty⟩ := exists_tiles .start text.toList
  · obtain ⟨u, hu, ended, here⟩ := drain_last whole ht last
    refine ⟨front, lexemes, left, [], ?_, ?_, .inl ⟨u, hu, rfl, last, ended, here⟩⟩
    · rw [List.append_nil, whole]
    · rw [List.append_nil]
      exact ht
  · obtain ⟨gap, rest, fault, rfl, hg, hf⟩ := faulty
    obtain ⟨u, hu, failed⟩ := drain_faulty whole ht hg hf
    exact ⟨front, lexemes, gap, rest, whole, ht, .inr ⟨u, fault, hu, hg, hf, failed⟩⟩

/-- Tokens and gaps make up the text: each token is found in its span as the longest word there, and
what lies before, between and after the tokens is blanks and comments. -/
theorem lexemes_tile_text (text : String) :
    ∃ front rest, text.toList = front ++ rest ∧
      Tiles .start front (ofText text).drain.lexemes rest ∧
      ((ofText text).drain.error? = none → IsLastGap rest) ∧
      ((ofText text).drain.lexemes.Pairwise fun a b => a.span.stop ≤ b.span.start.offset) ∧
      ∀ lexeme ∈ (ofText text).drain.lexemes, 0 < lexeme.span.length ∧
        ∃ before word after, text.toList = before ++ (word ++ after) ∧
          lexeme.span = ⟨Position.start.after before, (encode word).length⟩ ∧
          (text.toUTF8.toList.drop lexeme.span.start.offset).take lexeme.span.length =
            encode word ∧
          Spelled lexeme.token word after ∧
          (lexeme.token.kind = .keyword ∨ lexeme.token.kind = .identifier →
            IsWord word ∧
              (lexeme.token.kind = .keyword ↔ ∃ k : Keyword, k.spelling.toList = word)) := by
  obtain ⟨front, lexemes, gap, rest, whole, ht, ends⟩ := exists_drain text
  have drained : (ofText text).drain.lexemes = lexemes ∧
      ((ofText text).drain.error? = none → IsLastGap (gap ++ rest)) := by
    rcases ends with ⟨u, hu, rfl, last, _⟩ | ⟨u, fault, hu, _⟩
    · refine ⟨by rw [hu], fun _ => ?_⟩
      rw [List.append_nil]
      exact last
    · refine ⟨by rw [hu], fun none => ?_⟩
      rw [hu] at none
      simp at none
  obtain ⟨rfl, last⟩ := drained
  refine ⟨front, gap ++ rest, whole, ht, last, ht.pairwise, ?_⟩
  intro lexeme hl
  obtain ⟨before, word, after, same, span, spelled⟩ := ht.spelled hl
  have bytes : text.toUTF8.toList = encode before ++ (encode word ++ encode after) := by
    rw [toList_toUTF8, whole, same, encode_append, encode_append]
  have start : lexeme.span.start.offset = (encode before).length := by
    rw [span, Position.offset_after]
    exact Nat.zero_add _
  have length : lexeme.span.length = (encode word).length := by rw [span]
  refine ⟨?_, before, word, after, whole.trans same, span, ?_, spelled, spelled.reserved⟩
  · rw [length]
    exact spelled.encode_pos
  · rw [start, length, bytes, List.drop_left, List.take_left]

end Tokenizer

end JackTokens
