import JackTokens.Proofs.Places
import JackTokens.Proofs.Reading

namespace JackTokens

theorem Token.ofWord_spelling (k : Keyword) : ofWord k.spelling = keyword k := by
  rw [ofWord, Keyword.ofSpelling?_spelling]

theorem Token.ofWord_free {name : String} (h : ∀ k : Keyword, k.spelling ≠ name) :
    ofWord name = identifier name := by
  have none : Keyword.ofSpelling? name = none := by
    refine List.find?_eq_none.mpr fun k _ => ?_
    simpa using h k
  rw [ofWord, none]

theorem Span.between_after (p : Position) (cs : List Char) :
    between p (p.after cs) = ⟨p, (encode cs).length⟩ := by
  rw [between, Position.offset_after, Nat.add_sub_cancel_left]

theorem Symbol.ofChar?_none {c : Char} (h : ∀ s : Symbol, s.char ≠ c) : ofChar? c = none := by
  refine List.find?_eq_none.mpr fun s _ => ?_
  simpa using h s

namespace Cursor

variable {c : Cursor} {place : Position} {cs : List Char}

theorem Ahead.readToken_word {x : Char} {more after : List Char}
    (h : c.Ahead place (more ++ after)) (hx : isWordStart x = true)
    (hm : ∀ d ∈ more, isWordPart d = true) (hs : Stops isWordPart after) :
    ∃ d, c.readToken x = (.ok (.ofWord (String.ofList (x :: more))), d) ∧
      d.Ahead (place.after more) after := by
  obtain ⟨d, hd, rest⟩ := h.readWhile hm hs
  refine ⟨d, ?_, rest⟩
  rw [readToken, if_pos hx, readWord_eq, hd]
  rfl

/-- The content of a string constant is read up to the quote or line feed behind it. -/
theorem Ahead.readToken_quote {content : List Char} (h : c.Ahead place (content ++ cs))
    (hc : IsContent content) (hs : ∀ x ∈ cs.head?, x = '"' ∨ x = '\n') :
    ∃ d : Cursor, c.readToken '"' =
        andThen (d.nextIf (· == '"')) .unreadable (fun quote? after =>
          match quote? with
          | none => (.error (.malformed c.position .unterminatedString), after)
          | some _ => (.ok (.stringConstant (String.ofList content)), after)) ∧
      d.Ahead (place.after content) cs := by
  have inside : ∀ x ∈ content, (x != '"' && x != '\n') = true := by
    intro x hx
    simpa using hc x hx
  have stopped : Stops (fun x => x != '"' && x != '\n') cs := by
    intro x hx
    rcases hs x hx with rfl | rfl
    · rfl
    · rfl
  obtain ⟨d, hd, rest⟩ := h.readWhile inside stopped
  have quote : isWordStart '"' = false := rfl
  refine ⟨d, ?_, rest⟩
  rw [readToken, quote, if_neg Bool.false_ne_true, if_pos rfl, readString_eq, hd]
  rfl

theorem Ahead.readToken_digits {x : Char} {more after : List Char}
    (h : c.Ahead place (more ++ after)) (hx : isDecimalDigit x = true)
    (hm : ∀ d ∈ more, isDecimalDigit d = true) (hs : Stops isDecimalDigit after) :
    ∃ d, c.readToken x =
        (if decimalValue (x :: more) < UInt32.size then
          .ok (.integerConstant (decimalValue (x :: more)).toUInt32)
        else .error (.malformed c.position (.outOfRange (String.ofList (x :: more)))), d) ∧
      d.Ahead (place.after more) after := by
  obtain ⟨d, hd, rest⟩ := h.readWhile hm hs
  have word := not_wordStart_of_digit hx
  have quote : x ≠ '"' := ne_of_class hx rfl
  refine ⟨d, ?_, rest⟩
  rw [readToken, word, if_neg Bool.false_ne_true, if_neg quote, if_pos hx, readInteger_eq, hd]
  simp only [andThen]
  split
  · rfl
  · rfl

theorem readToken_symbol (c : Cursor) (s : Symbol) : c.readToken s.char = (.ok (.symbol s), c) := by
  have word : isWordStart s.char = false := by cases s <;> rfl
  have quote : s.char ≠ '"' := by cases s <;> decide
  have digit : isDecimalDigit s.char = false := by cases s <;> rfl
  rw [readToken, word, if_neg Bool.false_ne_true, if_neg quote, digit,
    if_neg Bool.false_ne_true, readSymbol, Symbol.ofChar?_char]

theorem Ahead.readToken_spelled {token : Token} {x : Char} {more after : List Char}
    (h : c.Ahead place (more ++ after)) (hs : Spelled token (x :: more) after) :
    ∃ d, c.readToken x = (.ok token, d) ∧ d.Ahead (place.after more) after := by
  generalize whole : x :: more = word at hs
  cases hs with
  | keyword k stopped =>
    obtain ⟨first, rest, same, hf, hr⟩ := isWord_spelling k
    obtain ⟨rfl, rfl⟩ := List.cons.inj (whole.trans same)
    obtain ⟨d, hd, ahead⟩ := h.readToken_word hf hr stopped
    refine ⟨d, ?_, ahead⟩
    rw [hd, whole, String.ofList_toList, Token.ofWord_spelling]
  | identifier hw free stopped =>
    obtain ⟨first, rest, same, hf, hr⟩ := hw
    obtain ⟨rfl, rfl⟩ := List.cons.inj (whole.trans same)
    obtain ⟨d, hd, ahead⟩ := h.readToken_word hf hr stopped
    refine ⟨d, ?_, ahead⟩
    rw [hd, whole, String.ofList_toList, Token.ofWord_free free]
  | @string content _ hc =>
    obtain ⟨rfl, rfl⟩ := List.cons.inj whole
    rw [List.append_assoc] at h
    obtain ⟨b, hb, ahead⟩ := h.readToken_quote hc (by simp)
    obtain ⟨d, hd, rest⟩ := Ahead.nextIf_cons (p := (· == '"')) ahead rfl
    refine ⟨d, ?_, ?_⟩
    · rw [hb, hd]
      simp only [andThen, String.ofList_toList]
    · rw [Position.after_append]
      exact rest
  | @integer value digits _ hd value_eq stopped =>
    obtain ⟨first, rest, rfl, hf, hr⟩ := hd.first
    obtain ⟨rfl, rfl⟩ := List.cons.inj whole
    obtain ⟨d, hd, ahead⟩ := h.readToken_digits hf hr stopped
    refine ⟨d, ?_, ahead⟩
    rw [hd, value_eq, if_pos value.toNat_lt_size]
    simp
  | symbol s =>
    obtain ⟨rfl, rfl⟩ := List.cons.inj whole
    exact ⟨c, c.readToken_symbol s, h⟩

/-- Apart from an open comment, a fault is found while its token is read. -/
theorem Ahead.readToken_faulty {x : Char} {fault : LexFault} (h : c.Ahead place cs)
    (hf : Faulty (x :: cs) fault) (hc : fault ≠ .unterminatedComment) :
    ∃ d, c.readToken x = (.error (.malformed c.position fault), d) := by
  generalize whole : x :: cs = rest at hf
  cases hf with
  | comment => exact absurd rfl hc
  | @string content rest inside hs =>
    obtain ⟨rfl, rfl⟩ := List.cons.inj whole
    obtain ⟨b, hb, ahead⟩ := h.readToken_quote inside fun x hx => .inr (hs x hx)
    have open_ : Stops (· == '"') rest := by
      intro x hx
      rw [hs x hx]
      rfl
    obtain ⟨d, hd, _⟩ := ahead.nextIf_stops open_
    refine ⟨d, ?_⟩
    rw [hb, hd]
    rfl
  | number digits stopped large =>
    obtain ⟨first, more, rfl, hx, hm⟩ := digits.first
    obtain ⟨rfl, rfl⟩ := List.cons.inj whole
    obtain ⟨d, hd, _⟩ := h.readToken_digits hx hm stopped
    refine ⟨d, ?_⟩
    rw [hd, if_neg (Nat.not_lt.mpr large)]
  | character _ word quote digit free =>
    obtain ⟨rfl, rfl⟩ := List.cons.inj whole
    refine ⟨c, ?_⟩
    rw [readToken, word, if_neg Bool.false_ne_true, if_neg quote, digit,
      if_neg Bool.false_ne_true, readSymbol, Symbol.ofChar?_none free]

theorem Ahead.readLexeme_spelled {gap word after : List Char} {token : Token}
    (h : c.Ahead place (gap ++ (word ++ after))) (hg : IsGap gap)
    (hs : Spelled token word after) :
    ∃ d, c.readLexeme = (.ok (some ⟨token, ⟨place.after gap, (encode word).length⟩⟩), d) ∧
      d.Ahead (place.after (gap ++ word)) after := by
  obtain ⟨x, more, rfl, solid, slash⟩ := hs.first
  obtain ⟨a, hc, ahead⟩ := h.skipGap_gap hg
  obtain ⟨b, ha, ahead, here⟩ := Ahead.skipGap_stops ahead solid slash
  obtain ⟨d, hd, rest⟩ := ahead.readToken_spelled hs
  have behind : d.nextPosition = (place.after gap).after (x :: more) := rest.nextPosition
  refine ⟨d, ?_, ?_⟩
  · rw [readLexeme_eq, hc, ha]
    simp only [andThen, hd, here, behind, Span.between_after]
  · rw [Position.after_append]
    exact rest

theorem Ahead.readLexeme_faulty {gap rest : List Char} {fault : LexFault}
    (h : c.Ahead place (gap ++ rest)) (hg : IsGap gap) (hf : Faulty rest fault) :
    ∃ d, c.readLexeme = (.error (.malformed (place.after gap) fault), d) := by
  obtain ⟨a, hc, ahead⟩ := h.skipGap_gap hg
  -- An open comment is found within the gap, any other fault behind it.
  by_cases comment : fault = .unterminatedComment
  · subst comment
    cases hf with
    | comment hb =>
      obtain ⟨d, hd⟩ := ahead.skipGap_open hb
      refine ⟨d, ?_⟩
      rw [readLexeme_eq, hc, hd]
      rfl
  · obtain ⟨x, more, rfl, solid, slash⟩ := hf.first comment
    obtain ⟨b, ha, ahead, here⟩ := ahead.skipGap_stops solid slash
    obtain ⟨d, hd⟩ := ahead.readToken_faulty hf comment
    refine ⟨d, ?_⟩
    rw [readLexeme_eq, hc, ha]
    simp only [andThen, hd, here, id]

theorem Ahead.readLexeme_last (h : c.Ahead place cs) (hg : IsLastGap cs) :
    ∃ d, c.readLexeme = (.ok none, d) ∧ d.position = place.after cs := by
  obtain ⟨d, hd, here⟩ := h.skipGap_last hg
  refine ⟨d, ?_, here⟩
  rw [readLexeme_eq, hd]
  rfl

end Cursor

/-- A text has one fault at most: reading it finds one. -/
theorem Faulty.unique {rest : List Char} {fault other : LexFault} (h : Faulty rest fault)
    (ho : Faulty rest other) : fault = other := by
  have ahead : (Cursor.ofReader (.ofBytes (encode rest)) 0).Ahead .start ([] ++ rest) :=
    Cursor.ahead_ofReader rest 0
  obtain ⟨d, hd⟩ := ahead.readLexeme_faulty .nil h
  obtain ⟨e, he⟩ := ahead.readLexeme_faulty .nil ho
  have same := (Prod.mk.inj (hd.symm.trans he)).1
  simpa using same

end JackTokens
