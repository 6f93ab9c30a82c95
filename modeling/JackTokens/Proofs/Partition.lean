import JackTokens.Proofs.Grammar

namespace JackTokens

/-- A token begins the text, or a fault does. -/
def Begins (rest : List Char) : Prop :=
  (∃ token word after, rest = word ++ after ∧ Spelled token word after) ∨
    ∃ fault, Faulty rest fault

/-- No gap begins the text. -/
def Solid (rest : List Char) : Prop :=
  ∀ gap more, rest = gap ++ more → IsLastGap gap → gap = []

/-- `gap` is all that can be passed over before `rest`; the end of the text ends a line comment. -/
structure LongestGap (gap rest : List Char) : Prop where
  passed : IsGap gap ∨ rest = [] ∧ IsLastGap gap
  longest : ∀ other left, gap ++ rest = other ++ left →
    IsGap other ∨ left = [] ∧ IsLastGap other → other.length ≤ gap.length

theorem isBlank_iff {c : Char} :
    isBlank c = true ↔ c = ' ' ∨ c = '\t' ∨ c = '\r' ∨ c = '\n' := by
  simp [isBlank, or_assoc]

theorem isDecimalDigit_iff {c : Char} :
    isDecimalDigit c = true ↔ 48 ≤ c.toNat ∧ c.toNat ≤ 57 := by
  rw [isDecimalDigit, Char.isDigit_iff_toNat]
  exact Iff.rfl

theorem isWordStart_iff {c : Char} :
    isWordStart c = true ↔
      (65 ≤ c.toNat ∧ c.toNat ≤ 90) ∨ (97 ≤ c.toNat ∧ c.toNat ≤ 122) ∨ c = '_' := by
  have ranges : isWordStart c =
      ((decide (c.val ≥ 65 ∧ c.val ≤ 90) || (decide (c.val ≥ 97) && decide (c.val ≤ 122))) ||
        c == '_') := rfl
  simp [ranges, UInt32.le_iff_toNat_le, or_assoc]

/-- A character is told from another one by a class that has only the first. -/
theorem ne_of_class {p : Char → Bool} {c d : Char} (hc : p c = true) (hd : p d = false) :
    c ≠ d := by
  intro same
  rw [same, hd] at hc
  exact Bool.false_ne_true hc

theorem not_blank_of_class {p : Char → Bool} {c : Char} (hc : p c = true)
    (space : p ' ' = false) (tab : p '\t' = false) (back : p '\r' = false)
    (feed : p '\n' = false) : isBlank c = false := by
  by_contra hb
  rcases isBlank_iff.mp (by simpa using hb) with same | same | same | same
  · exact ne_of_class hc space same
  · exact ne_of_class hc tab same
  · exact ne_of_class hc back same
  · exact ne_of_class hc feed same

theorem not_blank_of_wordStart {c : Char} (h : isWordStart c = true) : isBlank c = false :=
  not_blank_of_class h rfl rfl rfl rfl

theorem not_blank_of_digit {c : Char} (h : isDecimalDigit c = true) : isBlank c = false :=
  not_blank_of_class h rfl rfl rfl rfl

theorem not_wordStart_of_digit {c : Char} (h : isDecimalDigit c = true) :
    isWordStart c = false := by
  have digit := isDecimalDigit_iff.mp h
  by_contra hw
  rcases isWordStart_iff.mp (by simpa using hw) with upper | lower | same
  · omega
  · omega
  · exact ne_of_class h rfl same

theorem not_digit_of_wordStart {c : Char} (h : isWordStart c = true) :
    isDecimalDigit c = false := by
  by_contra hd
  have word := not_wordStart_of_digit (by simpa using hd)
  rw [word] at h
  exact Bool.false_ne_true h

theorem IsDigits.first {digits : List Char} (h : IsDigits digits) :
    ∃ x more, digits = x :: more ∧ isDecimalDigit x = true ∧
      ∀ d ∈ more, isDecimalDigit d = true := by
  obtain ⟨some, all⟩ := h
  cases digits with
  | nil => exact absurd rfl some
  | cons x more => exact ⟨x, more, rfl, all x (by simp), fun d hd => all d (by simp [hd])⟩

theorem isWord_spelling (k : Keyword) : IsWord k.spelling.toList := by
  cases k
  all_goals exact ⟨_, _, rfl, rfl, List.all_eq_true.mp rfl⟩

theorem IsWord.single {cs : List Char} (h : IsWord cs) : '\n' ∉ cs := by
  obtain ⟨first, more, rfl, hf, hm⟩ := h
  intro feed
  rcases List.mem_cons.mp feed with same | feed
  · exact absurd (same ▸ hf) (by decide)
  · exact absurd (hm _ feed) (by decide)

theorem not_blank_symbol (s : Symbol) : isBlank s.char = false := by
  cases s
  all_goals rfl

/-- A gap begins with a blank, or with a slash that opens a comment. -/
theorem IsGap.first {c : Char} {cs : List Char} (h : IsGap (c :: cs)) :
    isBlank c = true ∨
      c = '/' ∧ (cs.head? = some '/' ∨ ∃ body, cs = '*' :: body ∧ ¬ NoClose body) := by
  cases h with
  | blank hb _ => exact .inl hb
  | line => exact .inr ⟨rfl, .inl rfl⟩
  | @block body gap =>
    refine .inr ⟨rfl, .inr ⟨_, rfl, ?_⟩⟩
    intro open_
    exact open_ ⟨body, gap, by simp⟩

theorem IsLastGap.first {c : Char} {cs : List Char} (h : IsLastGap (c :: cs)) :
    isBlank c = true ∨
      c = '/' ∧ (cs.head? = some '/' ∨ ∃ body, cs = '*' :: body ∧ ¬ NoClose body) := by
  generalize whole : c :: cs = gap at h
  cases h with
  | closed h =>
    rw [← whole] at h
    exact h.first
  | @line gap comment h _ =>
    cases gap with
    | nil =>
      obtain ⟨rfl, rfl⟩ := List.cons.inj whole
      exact .inr ⟨rfl, .inl rfl⟩
    | cons d gap =>
      obtain ⟨rfl, rfl⟩ := List.cons.inj whole
      rcases h.first with hb | ⟨slash, opens | ⟨body, rfl, ends⟩⟩
      · exact .inl hb
      · exact .inr ⟨slash, .inl (by simp [opens])⟩
      · refine .inr ⟨slash, .inr ⟨_, rfl, ?_⟩⟩
        intro open_
        exact ends fun inside => open_ (inside.trans (List.prefix_append _ _).isInfix)

theorem solid_cons {c : Char} {cs : List Char} (hb : isBlank c = false)
    (hs : c = '/' → cs.head? ≠ some '/' ∧ ∀ body, cs = '*' :: body → NoClose body) :
    Solid (c :: cs) := by
  intro gap more whole h
  cases gap with
  | nil => rfl
  | cons d gap =>
    obtain ⟨rfl, rfl⟩ := List.cons.inj whole
    rcases h.first with blank | ⟨slash, opens | ⟨body, rfl, ends⟩⟩
    · simp [hb] at blank
    · exact absurd (by simp [opens]) (hs slash).1
    · refine absurd ?_ ends
      intro inside
      exact (hs slash).2 _ rfl (inside.trans (List.prefix_append _ _).isInfix)

/-- A slash that opens no comment is as solid as any other character. -/
theorem solid_of_stops {c : Char} {cs : List Char} (hb : isBlank c = false)
    (hs : c = '/' → Stops (fun d => d == '/' || d == '*') cs) : Solid (c :: cs) := by
  refine solid_cons hb fun slash => ⟨?_, ?_⟩
  · intro opens
    exact absurd (hs slash '/' opens) (by decide)
  · rintro body rfl
    exact absurd (hs slash '*' rfl) (by decide)

/-- The first character of a word is neither blank nor does it open a comment. -/
theorem Spelled.first {token : Token} {word after : List Char} (h : Spelled token word after) :
    ∃ x more, word = x :: more ∧ isBlank x = false ∧
      (x = '/' → Stops (fun d => d == '/' || d == '*') (more ++ after)) := by
  have named : ∀ {cs : List Char}, IsWord cs → ∃ x more, cs = x :: more ∧ isBlank x = false ∧
      (x = '/' → Stops (fun d => d == '/' || d == '*') (more ++ after)) := by
    rintro _ ⟨x, more, rfl, hx, _⟩
    refine ⟨x, more, rfl, not_blank_of_wordStart hx, fun slash => ?_⟩
    exact absurd slash (ne_of_class hx rfl)
  cases h with
  | keyword k => exact named (isWord_spelling k)
  | identifier hw => exact named hw
  | string => exact ⟨_, _, rfl, rfl, fun slash => absurd slash (by decide)⟩
  | integer hd =>
    obtain ⟨x, more, rfl, hx, _⟩ := hd.first
    refine ⟨x, more, rfl, not_blank_of_digit hx, fun slash => ?_⟩
    exact absurd slash (ne_of_class hx rfl)
  | symbol s hs =>
    refine ⟨s.char, [], rfl, not_blank_symbol s, fun slash => hs ?_⟩
    cases s
    all_goals first
      | rfl
      | exact absurd slash (by decide)

theorem Faulty.first {rest : List Char} {fault : LexFault} (h : Faulty rest fault)
    (hc : fault ≠ .unterminatedComment) :
    ∃ x more, rest = x :: more ∧ isBlank x = false ∧
      (x = '/' → Stops (fun d => d == '/' || d == '*') more) := by
  cases h with
  | comment => exact absurd rfl hc
  | string => exact ⟨_, _, rfl, rfl, fun slash => absurd slash (by decide)⟩
  | number hd =>
    obtain ⟨x, more, rfl, hx, _⟩ := hd.first
    refine ⟨x, _, rfl, not_blank_of_digit hx, fun slash => ?_⟩
    exact absurd slash (ne_of_class hx rfl)
  | character hb _ _ _ hs => exact ⟨_, _, rfl, hb, fun slash => absurd slash.symm (hs .slash)⟩

theorem not_faulty_nil (fault : LexFault) : ¬ Faulty [] fault := by
  intro h
  generalize empty : [] = rest at h
  cases h with
  | comment => simp at empty
  | string => simp at empty
  | number hd =>
    obtain ⟨x, more, rfl, _⟩ := hd.first
    simp at empty
  | character => simp at empty

theorem Faulty.solid {rest : List Char} {fault : LexFault} (h : Faulty rest fault) :
    Solid rest := by
  by_cases comment : fault = .unterminatedComment
  · subst comment
    cases h with
    | comment h =>
      refine solid_cons rfl fun _ => ⟨by simp, ?_⟩
      intro body same
      rw [← (List.cons.inj same).2]
      exact h
  · obtain ⟨x, more, rfl, hb, hs⟩ := h.first comment
    exact solid_of_stops hb hs

/-- A gap before a text that no gap begins is the longest one. -/
theorem longestGap_of_solid {gap rest : List Char} (h : IsGap gap) (hs : Solid rest) :
    LongestGap gap rest := by
  refine ⟨.inl h, ?_⟩
  intro other left whole ho
  rcases List.append_eq_append_iff.mp whole with ⟨more, rfl, same⟩ | ⟨more, rfl, _⟩
  · have begun : IsLastGap (gap ++ more) := by
      rcases ho with ho | ⟨_, ho⟩
      · exact .closed ho
      · exact ho
    rw [hs more left same (begun.of_append h), List.append_nil]
  · simp

theorem longestGap_of_last {gap : List Char} (h : IsLastGap gap) : LongestGap gap [] := by
  refine ⟨.inr ⟨rfl, h⟩, ?_⟩
  intro other left whole _
  have lengths := congrArg List.length whole
  simp only [List.length_append, List.length_nil] at lengths
  omega

theorem begins_of_wordStart {c : Char} (cs : List Char) (h : isWordStart c = true) :
    Begins (c :: cs) := by
  obtain ⟨more, after, rfl, parts, stopped⟩ := exists_span isWordPart cs
  have letters : (String.ofList (c :: more)).toList = c :: more := String.toList_ofList
  by_cases reserved : ∃ k : Keyword, k.spelling = String.ofList (c :: more)
  · obtain ⟨k, hk⟩ := reserved
    refine .inl ⟨.keyword k, k.spelling.toList, after, ?_, .keyword k stopped⟩
    rw [hk, letters, List.cons_append]
  · have word : IsWord (String.ofList (c :: more)).toList := by
      rw [letters]
      exact ⟨c, more, rfl, h, parts⟩
    have free : ∀ k : Keyword, k.spelling ≠ String.ofList (c :: more) :=
      fun k hk => reserved ⟨k, hk⟩
    refine .inl ⟨.identifier (String.ofList (c :: more)), (String.ofList (c :: more)).toList,
      after, ?_, .identifier word free stopped⟩
    rw [letters, List.cons_append]

theorem begins_of_quote (cs : List Char) : Begins ('"' :: cs) := by
  obtain ⟨inside, after, rfl, all, stopped⟩ := exists_span (fun c => c != '"' && c != '\n') cs
  have content : IsContent inside := fun c hc => by simpa using all c hc
  have letters : (String.ofList inside).toList = inside := String.toList_ofList
  by_cases closed : after.head? = some '"'
  · obtain ⟨behind, rfl⟩ := List.head?_eq_some_iff.mp closed
    refine .inl ⟨_, _, behind, ?_, .string (letters.symm ▸ content)⟩
    rw [letters]
    simp
  · refine .inr ⟨_, .string content ?_⟩
    intro c hc
    have ended := stopped c hc
    by_contra hn
    have quote : c = '"' := by simpa [hn] using ended
    exact closed (quote ▸ hc)

theorem begins_of_digit {c : Char} (cs : List Char) (h : isDecimalDigit c = true) :
    Begins (c :: cs) := by
  obtain ⟨more, after, rfl, parts, stopped⟩ := exists_span isDecimalDigit cs
  have digits : IsDigits (c :: more) := by
    refine ⟨by simp, ?_⟩
    intro d hd
    rcases List.mem_cons.mp hd with rfl | hd
    · exact h
    · exact parts d hd
  by_cases fits : decimalValue (c :: more) < UInt32.size
  · refine .inl ⟨.integerConstant (decimalValue (c :: more)).toUInt32, c :: more, after, rfl, ?_⟩
    refine .integer digits ?_ stopped
    exact (UInt32.toNat_ofNat_of_lt' fits).symm
  · exact .inr ⟨_, .number digits stopped (Nat.le_of_not_lt fits)⟩

/-- What is neither blank nor opens a comment begins a token or is at fault. -/
theorem begins_of_stops {c : Char} {cs : List Char} (hb : isBlank c = false)
    (hs : c = '/' → Stops (fun d => d == '/' || d == '*') cs) : Begins (c :: cs) := by
  by_cases word : isWordStart c = true
  · exact begins_of_wordStart cs word
  by_cases quote : c = '"'
  · exact quote ▸ begins_of_quote cs
  by_cases digit : isDecimalDigit c = true
  · exact begins_of_digit cs digit
  by_cases symbol : ∃ s : Symbol, s.char = c
  · obtain ⟨s, rfl⟩ := symbol
    refine .inl ⟨.symbol s, [s.char], cs, rfl, .symbol s fun slash => hs ?_⟩
    rw [slash]
    rfl
  · refine .inr ⟨_, .character hb (by simpa using word) quote (by simpa using digit) ?_⟩
    intro s same
    exact symbol ⟨s, same⟩

/-- All of a text is a gap, or a gap is followed by a token or a fault. -/
theorem exists_gap (cs : List Char) :
    IsLastGap cs ∨ ∃ gap rest, cs = gap ++ rest ∧ IsGap gap ∧ Begins rest := by
  have passed : ∀ {piece after : List Char}, IsGap piece →
      (IsLastGap after ∨ ∃ gap rest, after = gap ++ rest ∧ IsGap gap ∧ Begins rest) →
      IsLastGap (piece ++ after) ∨
        ∃ gap rest, piece ++ after = gap ++ rest ∧ IsGap gap ∧ Begins rest := by
    intro piece after hp h
    rcases h with h | ⟨gap, rest, rfl, h, hr⟩
    · exact .inl (h.append hp)
    · exact .inr ⟨piece ++ gap, rest, by simp, hp.append h, hr⟩
  induction hn : cs.length using Nat.strongRecOn generalizing cs with
  | ind n ih =>
    cases cs with
    | nil => exact .inl (.closed .nil)
    | cons c cs =>
      by_cases hb : isBlank c = true
      · have shorter : cs.length < n := by simp [← hn]
        exact passed (.blank hb .nil) (ih _ shorter cs rfl)
      have solid : isBlank c = false := by simpa using hb
      by_cases line : c = '/' ∧ cs.head? = some '/'
      · obtain ⟨rfl, opens⟩ := line
        obtain ⟨text, rfl⟩ := List.head?_eq_some_iff.mp opens
        obtain ⟨body, after, rfl, inside, stopped⟩ := exists_span (· != '\n') text
        have open_ := not_lineFeed_iff.mpr inside
        cases after with
        | nil => exact .inl (by simpa using IsLastGap.line .nil open_)
        | cons d after =>
          obtain rfl : d = '\n' := by simpa using stops_cons.mp stopped
          have shorter : after.length < n := by
            simp only [List.length_cons, List.length_append] at hn
            omega
          simpa using passed (.line open_ .nil) (ih _ shorter after rfl)
      by_cases block : c = '/' ∧ cs.head? = some '*'
      · obtain ⟨rfl, opens⟩ := block
        obtain ⟨text, rfl⟩ := List.head?_eq_some_iff.mp opens
        rcases exists_close text with open_ | ⟨body, after, rfl, open_⟩
        · exact .inr ⟨[], _, rfl, .nil, .inr ⟨_, .comment open_⟩⟩
        · have shorter : after.length < n := by
            simp only [List.length_cons, List.length_append] at hn
            omega
          simpa using passed (.block open_ .nil) (ih _ shorter after rfl)
      refine .inr ⟨[], c :: cs, rfl, .nil, begins_of_stops solid ?_⟩
      intro slash d hd
      have noLine : d ≠ '/' := fun same => line ⟨slash, same ▸ hd⟩
      have noBlock : d ≠ '*' := fun same => block ⟨slash, same ▸ hd⟩
      simp [noLine, noBlock]

end JackTokens
