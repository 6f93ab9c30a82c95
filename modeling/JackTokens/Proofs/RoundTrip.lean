import JackTokens.Proofs.Tiling

namespace JackTokens

theorem isDigits_decimal (n : Nat) : IsDigits (decimal n).toList := by
  rw [decimal, String.toList_ofList]
  exact ⟨Nat.toDigits_ne_nil, fun c hc => Nat.isDigit_of_mem_toDigits (by decide) (by decide) hc⟩

theorem Symbol.not_wordPart (s : Symbol) :
    isWordPart s.char = false ∧ isDecimalDigit s.char = false := by
  cases s
  all_goals exact ⟨rfl, rfl⟩

namespace Token

/-- A source can spell the token. -/
def Writable : Token → Prop
  | identifier name => IsWord name.toList ∧ ∀ k : Keyword, k.spelling ≠ name
  | stringConstant content => IsContent content.toList
  | _ => True

/-- With nothing between them, the two tokens would be read as something else. -/
def Merges (t u : Token) : Prop :=
  ((t.kind = .keyword ∨ t.kind = .identifier) ∧
      (u.kind = .keyword ∨ u.kind = .identifier ∨ u.kind = .integerConstant)) ∨
    (t.kind = .integerConstant ∧ u.kind = .integerConstant) ∨
    (t = symbol .slash ∧ (u = symbol .slash ∨ u = symbol .star))

/-- The character would be read together with the token before it. -/
def continues : Token → Char → Bool
  | keyword _, c => isWordPart c
  | identifier _, c => isWordPart c
  | integerConstant _, c => isDecimalDigit c
  | symbol s, c => s == .slash && (c == '/' || c == '*')
  | stringConstant _, _ => false

theorem spelled_spelling {t : Token} {after : List Char} (hw : t.Writable)
    (hs : Stops t.continues after) : Spelled t t.spelling.toList after := by
  cases t with
  | keyword k => exact .keyword k hs
  | identifier name => exact .identifier hw.1 hw.2 hs
  | integerConstant value =>
    exact .integer (isDigits_decimal value.toNat) (decimalValue_decimal value.toNat) hs
  | stringConstant content =>
    have quoted : (stringConstant content).spelling.toList = '"' :: (content.toList ++ ['"']) := by
      simp [spelling, String.toList_append]
    rw [quoted]
    exact .string hw
  | symbol s =>
    have single : (symbol s).spelling.toList = [s.char] := by
      simp [spelling, text]
    rw [single]
    refine .symbol s fun slash => ?_
    intro c hc
    have stopped := hs c hc
    rw [slash] at stopped
    exact stopped

/-- The first character of a gap is not read together with the token before it. -/
theorem continues_gap {t : Token} {c : Char} {gap : List Char} (hg : IsGap (c :: gap))
    (hs : t = symbol .slash → c ≠ '/') : t.continues c = false := by
  have first : (isBlank c = true ∨ c = '/') := by
    rcases hg.first with blank | ⟨slash, _⟩
    · exact .inl blank
    · exact .inr slash
  have parts : isWordPart c = false ∧ isDecimalDigit c = false ∧ c ≠ '*' := by
    rcases first with blank | rfl
    · rcases isBlank_iff.mp blank with rfl | rfl | rfl | rfl
      all_goals exact ⟨rfl, rfl, by simp⟩
    · exact ⟨rfl, rfl, by simp⟩
  obtain ⟨word, digit, star⟩ := parts
  cases t with
  | keyword => exact word
  | identifier => exact word
  | integerConstant => exact digit
  | stringConstant => rfl
  | symbol s =>
    by_cases slash : s = .slash
    · simp [continues, hs (congrArg symbol slash), star]
    · simp [continues, slash]

theorem spelling_head {t : Token} {c : Char} (hw : t.Writable)
    (hc : c ∈ t.spelling.toList.head?) :
    ((t.kind = .keyword ∨ t.kind = .identifier) ∧ isWordStart c = true) ∨
      (t.kind = .integerConstant ∧ isDecimalDigit c = true) ∨
      (t.kind = .stringConstant ∧ c = '"') ∨ ∃ s, t = symbol s ∧ c = s.char := by
  have named : ∀ {cs : List Char}, IsWord cs → c ∈ cs.head? → isWordStart c = true := by
    rintro _ ⟨first, more, rfl, hf, _⟩ hc
    rw [← Option.some.inj hc]
    exact hf
  cases t with
  | keyword k => exact .inl ⟨.inl rfl, named (isWord_spelling k) hc⟩
  | identifier name => exact .inl ⟨.inr rfl, named hw.1 hc⟩
  | integerConstant value =>
    obtain ⟨first, more, digits, hf, _⟩ := (isDigits_decimal value.toNat).first
    have same : first = c := by
      simpa [spelling, text, digits] using hc
    exact .inr (.inl ⟨rfl, same ▸ hf⟩)
  | stringConstant content =>
    have same : '"' = c := by
      simpa [spelling, String.toList_append] using hc
    exact .inr (.inr (.inl ⟨rfl, same.symm⟩))
  | symbol s =>
    have same : s.char = c := by
      simpa [spelling, text] using hc
    exact .inr (.inr (.inr ⟨s, rfl, same.symm⟩))

/-- Nor is the first character of a token that does not merge with the one before it. -/
theorem continues_spelling {t u : Token} (hu : u.Writable) (h : ¬ Merges t u) :
    Stops t.continues u.spelling.toList := by
  intro c hc
  have first := spelling_head hu hc
  have named : t.kind = .keyword ∨ t.kind = .identifier → isWordPart c = false := by
    intro ht
    rcases first with ⟨hk, _⟩ | ⟨hk, _⟩ | ⟨_, rfl⟩ | ⟨s, rfl, rfl⟩
    · exact absurd (.inl ⟨ht, hk.elim .inl fun hk => .inr (.inl hk)⟩) h
    · exact absurd (.inl ⟨ht, .inr (.inr hk)⟩) h
    · rfl
    · exact s.not_wordPart.1
  cases t with
  | keyword k => exact named (.inl rfl)
  | identifier name => exact named (.inr rfl)
  | integerConstant value =>
    rcases first with ⟨_, hf⟩ | ⟨hk, _⟩ | ⟨_, rfl⟩ | ⟨s, rfl, rfl⟩
    · exact not_digit_of_wordStart hf
    · exact absurd (.inr (.inl ⟨rfl, hk⟩)) h
    · rfl
    · exact s.not_wordPart.2
  | stringConstant content => rfl
  | symbol other =>
    by_cases slash : other = .slash
    · subst slash
      have apart : c ≠ '/' ∧ c ≠ '*' := by
        rcases first with ⟨_, hf⟩ | ⟨_, hf⟩ | ⟨_, rfl⟩ | ⟨s, rfl, rfl⟩
        · exact ⟨ne_of_class hf rfl, ne_of_class hf rfl⟩
        · exact ⟨ne_of_class hf rfl, ne_of_class hf rfl⟩
        · simp
        · have noSlash : s ≠ .slash := fun same => h (.inr (.inr ⟨rfl, .inl (by rw [same])⟩))
          have noStar : s ≠ .star := fun same => h (.inr (.inr ⟨rfl, .inr (by rw [same])⟩))
          cases s
          all_goals simp_all [Symbol.char]
      simp [continues, apart.1, apart.2]
    · simp [continues, slash]

end Token

/-- Tokens, each with the gap behind it, that may be written one after the other. -/
inductive Fitting : List (Token × String) → Prop
  | nil : Fitting []
  | cons {token gap pieces} :
      token.Writable → IsGap gap.toList →
      (token = .symbol .slash → gap.toList.head? ≠ some '/') →
      (gap = "" → ∀ next ∈ pieces.head?, ¬ token.Merges next.1) →
      Fitting pieces → Fitting ((token, gap) :: pieces)

def written : List (Token × String) → String
  | [] => ""
  | (token, gap) :: pieces => token.spelling ++ gap ++ written pieces

/-- What is written behind a token does not go on with it. -/
theorem stops_written {token : Token} {gap : String} {pieces : List (Token × String)}
    (h : Fitting ((token, gap) :: pieces)) :
    Stops token.continues (gap ++ written pieces).toList := by
  cases h with
  | cons _ hg hs hm hp =>
    rw [String.toList_append]
    -- Without a gap the next token decides, with one its first character.
    cases shape : gap.toList with
    | nil =>
      have empty : gap = "" := String.toList_eq_nil_iff.mp shape
      cases hp with
      | nil => exact stops_nil _
      | @cons next after pieces hw =>
        have stopped := Token.continues_spelling hw (hm empty (next, after) rfl)
        obtain ⟨x, more, same, _⟩ := (Token.spelled_spelling hw (stops_nil _)).first
        rw [same] at stopped
        simp only [written, String.toList_append, same, List.nil_append, List.cons_append]
        exact stops_cons.mpr (stops_cons.mp stopped)
    | cons c more =>
      rw [shape] at hg hs
      refine stops_cons.mpr (Token.continues_gap hg fun slash same => ?_)
      exact hs slash (congrArg some same)

/-- Fitting tokens tile the text that they are written as. -/
theorem exists_tiles_written {pieces : List (Token × String)} (h : Fitting pieces)
    (place : Position) {first : String} (hf : IsGap first.toList) :
    ∃ front lexemes last, (first ++ written pieces).toList = front ++ last ∧
      Tiles place front lexemes last ∧ IsGap last ∧
      lexemes.map (·.token) = pieces.map (·.1) := by
  induction h generalizing place first with
  | nil => exact ⟨[], [], first.toList, by simp [written], .nil, hf, rfl⟩
  | @cons token gap pieces hw hg hs hm hp ih =>
    have stopped := stops_written (.cons hw hg hs hm hp)
    obtain ⟨front, lexemes, last, whole, ht, hl, tokens⟩ :=
      ih (place.after (first.toList ++ token.spelling.toList)) hg
    rw [whole] at stopped
    refine ⟨_, _, last, ?_, .cons hf (Token.spelled_spelling hw stopped) ht, hl, ?_⟩
    · simp only [written, String.toList_append, List.append_assoc] at whole ⊢
      rw [whole]
    · rw [List.map_cons, tokens, List.map_cons]

/-- Printing tokens and reading them again gives them back, whatever gaps are put around them. -/
theorem tokensOf_written {first : String} {pieces : List (Token × String)}
    (hf : IsGap first.toList) (h : Fitting pieces) :
    tokensOf (first ++ written pieces) = .ok (pieces.map (·.1)) ∧
      (Tokenizer.ofText (first ++ written pieces)).drain.tokenizer.isExhausted = true := by
  obtain ⟨front, lexemes, last, whole, ht, hl, tokens⟩ := exists_tiles_written h .start hf
  obtain ⟨u, hu, ended, _⟩ := Tokenizer.drain_last whole ht (.closed hl)
  refine ⟨?_, by rw [hu, ended]⟩
  rw [tokensOf, hu]
  exact congrArg Except.ok tokens

/-- A quotient of a number and a text, with comments around it. -/
theorem tokensOf_written_quotient :
    IsGap "// a\n".toList ∧
      Fitting [(.keyword .let_, " "), (.identifier "x", ""), (.symbol .equals, "/**/"),
        (.integerConstant 7, ""), (.symbol .slash, " "), (.stringConstant "//", "")] ∧
      tokensOf ("// a\n" ++ written [(.keyword .let_, " "), (.identifier "x", ""),
          (.symbol .equals, "/**/"), (.integerConstant 7, ""), (.symbol .slash, " "),
          (.stringConstant "//", "")]) =
        .ok [.keyword .let_, .identifier "x", .symbol .equals, .integerConstant 7, .symbol .slash,
          .stringConstant "//"] := by
  have first : IsGap "// a\n".toList := @IsGap.line [' ', 'a'] [] (by decide) .nil
  have space : IsGap " ".toList := .blank rfl .nil
  have comment : IsGap "/**/".toList := @IsGap.block [] [] noClose_nil .nil
  have word : IsWord "x".toList := ⟨'x', [], rfl, rfl, by simp⟩
  have free : ∀ k : Keyword, k.spelling ≠ "x" := by
    intro k
    cases k
    all_goals decide
  have content : IsContent "//".toList := by
    intro c hc
    have slash : c = '/' := by simpa using hc
    rw [slash]
    decide
  have fits : Fitting [(.keyword .let_, " "), (.identifier "x", ""), (.symbol .equals, "/**/"),
      (.integerConstant 7, ""), (.symbol .slash, " "), (.stringConstant "//", "")] := by
    refine .cons trivial space (by simp) (by simp) ?_
    refine .cons ⟨word, free⟩ .nil (by simp) (by simp [Token.Merges, Token.kind]) ?_
    refine .cons trivial comment (by simp) (by simp) ?_
    refine .cons trivial .nil (by simp) (by simp [Token.Merges, Token.kind]) ?_
    refine .cons trivial space (by simp) (by simp) ?_
    exact .cons content .nil (by simp) (by simp) .nil
  exact ⟨first, fits, (tokensOf_written first fits).1⟩

end JackTokens
