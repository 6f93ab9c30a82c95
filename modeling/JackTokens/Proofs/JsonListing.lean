import JackTokens.JsonDocument
import JackTokens.Proofs.Listings
import JackTokens.Proofs.RoundTrip
import JackTokens.Proofs.TextReading

namespace JackTokens

theorem jsonChar_plain {c : Char} (h : Json.isPlain c = true) : jsonChar c = [c] := by
  simp only [Json.isPlain, Bool.and_eq_true, decide_eq_true_eq, bne_iff_ne] at h
  obtain ⟨⟨visible, quote⟩, backslash⟩ := h
  have control : ∀ d : Char, d < ' ' → c ≠ d := by
    rintro d hd rfl
    exact absurd visible (Char.not_le.mpr hd)
  rw [jsonChar, if_neg quote, if_neg backslash, if_neg (control _ (by decide)),
    if_neg (control _ (by decide)), if_neg (control _ (by decide)),
    if_neg (control _ (by decide)), if_neg (control _ (by decide)),
    if_neg (Char.not_lt.mpr visible)]

theorem toDigits_first {n : Nat} (h : n ≠ 0) :
    ∃ first more, Nat.toDigits 10 n = first :: more ∧ first ≠ '0' := by
  induction n using Nat.strongRecOn with
  | ind n ih =>
    rw [Nat.toDigits_eq_if (by decide)]
    by_cases small : n < 10
    · have digits : ∀ k < 10, k ≠ 0 → k.digitChar ≠ '0' := by decide
      rw [if_pos small]
      exact ⟨n.digitChar, [], rfl, digits n small h⟩
    · obtain ⟨first, more, same, lead⟩ := ih (n / 10) (by omega) (by omega)
      rw [if_neg small, same]
      exact ⟨first, more ++ [(n % 10).digitChar], rfl, lead⟩

namespace Json

open TextParser

variable {α : Type} {p : TextParser α} {a : α} {s space rest : List Char} {found : Json}
  {depth : Nat}

theorem reads_codeUnit {k : Nat} (h : k < 256) (rest : List Char) :
    Reads codeUnit ['0', '0', (k / 16).digitChar, (k % 16).digitChar] k rest := by
  have digit : ∀ d < 16, Toml.isHexDigit d.digitChar = true ∧ Toml.digitValue d.digitChar = d := by
    decide
  have zero : Toml.isHexDigit '0' = true ∧ Toml.digitValue '0' = 0 := digit 0 (by omega)
  have high := digit (k / 16) (by omega)
  have low := digit (k % 16) (by omega)
  have value : Toml.numeral 16 ['0', '0', (k / 16).digitChar, (k % 16).digitChar] = k := by
    simp only [Toml.numeral, List.foldl_cons, List.foldl_nil, zero.2, high.2, low.2]
    omega
  have digits : ∀ c ∈ ['0', '0', (k / 16).digitChar, (k % 16).digitChar],
      Toml.isHexDigit c = true := by
    simp [zero.1, high.1, low.1]
  refine (reads_exactlyOf digits rfl rest).last ?_
  rw [value]
  exact reads_pure k rest

theorem reads_codePoint {c : Char} (h : c < ' ') (rest : List Char) :
    Reads codePoint ['0', '0', (c.toNat / 16).digitChar, (c.toNat % 16).digitChar] c rest := by
  have small : c.toNat < 32 := h
  refine (reads_codeUnit (by omega) rest).last ?_
  have inPlane : (decide (c.toNat < 0xd800) || decide (0xe000 ≤ c.toNat)) = true := by
    simp
    omega
  rw [if_pos inPlane, Char.ofNat_toNat]
  exact reads_pure c rest

theorem reads_character (c : Char) (rest : List Char) : Reads character (jsonChar c) c rest := by
  by_cases plain : isPlain c = true
  · rw [jsonChar_plain plain]
    exact (reads_one plain rest).orElse _
  by_cases named : c = '"' ∨ c = '\\' ∨ c = '\x08' ∨ c = '\t' ∨ c = '\n' ∨ c = '\x0c' ∨ c = '\r'
  · rcases named with rfl | rfl | rfl | rfl | rfl | rfl | rfl
    all_goals rfl
  -- A control without a letter of its own: its code is escaped.
  simp only [not_or] at named
  have control : c < ' ' := by simpa [isPlain, named] using plain
  have escape : jsonChar c =
      ['\\'] ++ (['u'] ++ ['0', '0', (c.toNat / 16).digitChar, (c.toNat % 16).digitChar]) := by
    simp [jsonChar, named, control]
  have refused : one isPlain (jsonChar c ++ rest) = none := by
    rw [escape]
    exact one_none (stops_cons.mpr rfl)
  rw [escape] at refused ⊢
  refine Reads.orElse_right ?_ refused
  refine (reads_exactly _ _).bind (Reads.bind (reads_one rfl _) ?_)
  exact reads_codePoint control rest

theorem character_quote (cs : List Char) : character ('"' :: cs) = none := rfl

theorem jsonString_toList (text : String) :
    (jsonString text).toList = ['"'] ++ (jsonChars text.toList ++ ['"']) := by
  simp [jsonString]

theorem reads_quoted (text : String) (rest : List Char) :
    Reads quoted (jsonString text).toList text rest := by
  have filled : ∀ c, jsonChar c ≠ [] := by
    intro c
    unfold jsonChar
    repeat' split
    all_goals exact List.cons_ne_nil _ _
  have content : Reads (many character) (jsonChars text.toList) text.toList (['"'] ++ rest) :=
    reads_many reads_character filled (character_quote rest) text.toList
  rw [jsonString_toList]
  refine (reads_exactly _ _).bind (content.bind ((reads_exactly _ _).last ?_))
  rw [String.ofList_toList]
  exact reads_pure text rest

theorem reads_wholeDigits (n : Nat) {rest : List Char} (h : Stops isDecimalDigit rest) :
    Reads wholeDigits (decimal n).toList (decimal n).toList rest := by
  by_cases zero : n = 0
  · subst zero
    have read : Reads (one (· == '0')) ['0'] '0' rest := reads_one rfl rest
    exact (read.last (reads_pure ['0'] rest)).orElse _
  · obtain ⟨filled, digits⟩ := isDigits_decimal n
    obtain ⟨first, more, same, lead⟩ := toDigits_first zero
    have front : one (· == '0') ((decimal n).toList ++ rest) = none := by
      rw [decimal, String.toList_ofList, same]
      exact one_none (stops_cons.mpr (beq_false_of_ne lead))
    exact Reads.orElse_right (reads_someOf digits filled h) (bind_none front _)

theorem stops_decimal {p : Char → Bool} (h : ∀ c, isDecimalDigit c = true → p c = false)
    (n : Nat) (rest : List Char) : Stops p ((decimal n).toList ++ rest) := by
  obtain ⟨first, more, same, digit, _⟩ := (isDigits_decimal n).first
  rw [same]
  exact stops_cons.mpr (h first digit)

/-- What can follow in a number after some of its digits. -/
def inNumeral (c : Char) : Bool :=
  isDecimalDigit c || c == '.' || c == 'e' || c == 'E'

theorem inNumeral_false {c : Char} (h : inNumeral c = false) :
    isDecimalDigit c = false ∧ (c == '.') = false ∧ (c == 'e' || c == 'E') = false := by
  simp only [inNumeral, Bool.or_eq_false_iff] at h ⊢
  exact ⟨h.1.1.1, h.1.1.2, h.1.2, h.2⟩

theorem reads_numeral (n : Nat) {rest : List Char} (h : Stops inNumeral rest) :
    Reads numeral (decimal n).toList n rest := by
  have minus : one (· == '-') ((decimal n).toList ++ rest) = none :=
    one_none (stops_decimal (fun _ digit => beq_false_of_ne (ne_of_class digit rfl)) n rest)
  have whole : Reads wholeDigits (decimal n).toList (decimal n).toList rest :=
    reads_wholeDigits n (h.mono fun _ hc => (inNumeral_false hc).1)
  have places : fraction rest = none :=
    bind_none (exactly_none (h.mono fun _ hc => (inNumeral_false hc).2.1)) _
  have shift : exponent rest = none :=
    bind_none (one_none (h.mono fun _ hc => (inNumeral_false hc).2.2)) _
  have size :
      (decimalValue ((decimal n).toList ++ []) : Rat) * 10 ^ ((0 : Int) - (0 : Nat)) = n := by
    rw [List.append_nil, decimalValue_decimal, Int.natCast_zero, Int.sub_self, Rat.zpow_zero,
      Rat.mul_one]
  refine Reads.bind (s := []) (reads_optional_none minus) (whole.last ?_)
  refine Reads.bind (s := []) (reads_optional_none places) ?_
  refine Reads.bind (s := []) (reads_optional_none shift) ?_
  show Reads (pure _) [] _ rest
  dsimp only [Option.getD_none, List.length_nil]
  rw [if_neg (by decide), size]
  exact reads_pure _ rest

/-- What a scalar does not begin with. -/
def isOpening (c : Char) : Bool :=
  isBlank c || c == '[' || c == '{'

theorem isOpening_false {c : Char} (h : isOpening c = false) :
    isBlank c = false ∧ (c == '[') = false ∧ (c == '{') = false := by
  simp only [isOpening, Bool.or_eq_false_iff] at h
  exact ⟨h.1.1, h.1.2, h.2⟩

theorem reads_scalar (h : Reads scalar s found rest) (opening : Stops isOpening (s ++ rest)) :
    Reads (value (depth + 1)) s found rest := by
  have list : between '[' ']' (entry (value depth)) (s ++ rest) = none :=
    bind_none (exactly_none (opening.mono fun _ hc => (isOpening_false hc).2.1)) _
  have record : between '{' '}' (member (value depth)) (s ++ rest) = none :=
    bind_none (exactly_none (opening.mono fun _ hc => (isOpening_false hc).2.2)) _
  exact Reads.orElse_right (Reads.orElse_right h (bind_none record _)) (bind_none list _)

theorem stops_jsonString {p : Char → Bool} (h : p '"' = false) (text : String) (rest : List Char) :
    Stops p ((jsonString text).toList ++ rest) := by
  rw [jsonString_toList]
  exact stops_cons.mpr h

theorem reads_string (text : String) (rest : List Char) :
    Reads (value (depth + 1)) (jsonString text).toList (string text) rest := by
  have read := (reads_quoted text rest).returning string
  exact reads_scalar (read.orElse _) (stops_jsonString rfl text rest)

theorem reads_number (n : Nat) {rest : List Char} (h : Stops inNumeral rest) :
    Reads (value (depth + 1)) (decimal n).toList (number n) rest := by
  have quote : quoted ((decimal n).toList ++ rest) = none := by
    refine bind_none (exactly_none (stops_decimal ?_ n rest)) _
    exact fun _ digit => beq_false_of_ne (ne_of_class digit rfl)
  have read := (reads_numeral n h).returning number
  refine reads_scalar (Reads.orElse_right (read.orElse _) (bind_none quote _)) ?_
  refine stops_decimal (fun c digit => ?_) n rest
  have list : c ≠ '[' := ne_of_class digit rfl
  have record : c ≠ '{' := ne_of_class digit rfl
  simp [isOpening, not_blank_of_digit digit, list, record]

theorem reads_datum (token : Token) (rest : List Char) :
    Reads (value (depth + 1)) token.jsonValue.toList token.datum ('\n' :: rest) := by
  cases token with
  | integerConstant value => exact reads_number value.toNat (stops_cons.mpr rfl)
  | keyword k => exact reads_string _ _
  | symbol s => exact reads_string _ _
  | identifier name => exact reads_string _ _
  | stringConstant content => exact reads_string _ _

theorem stops_jsonValue (token : Token) (rest : List Char) :
    Stops isBlank (token.jsonValue.toList ++ rest) := by
  cases token with
  | integerConstant value => exact stops_decimal (fun _ => not_blank_of_digit) _ rest
  | keyword k => exact stops_jsonString rfl _ rest
  | symbol s => exact stops_jsonString rfl _ rest
  | identifier name => exact stops_jsonString rfl _ rest
  | stringConstant content => exact stops_jsonString rfl _ rest

theorem reads_blanks (blank : space.all isBlank = true) (solid : Stops isBlank rest) :
    Reads blanks space () rest :=
  (reads_allOf (List.all_eq_true.mp blank) solid).last (reads_pure () rest)

theorem reads_mark (blank : space.all isBlank = true) {c : Char} (solid : isBlank c = false)
    (rest : List Char) : Reads (mark c) (space ++ [c]) () rest :=
  (reads_blanks blank (stops_cons.mpr solid)).bind (reads_exactly [c] rest)

theorem reads_bareMark {c : Char} (solid : isBlank c = false) (rest : List Char) :
    Reads (mark c) [c] () rest := by
  have blank : [].all isBlank = true := rfl
  exact reads_mark blank solid rest

theorem mark_none (blank : space.all isBlank = true) {c d : Char} (solid : isBlank d = false)
    (other : d ≠ c) : mark c (space ++ d :: rest) = none := by
  have skipped : Reads blanks space () (d :: rest) := reads_blanks blank (stops_cons.mpr solid)
  unfold Reads at skipped
  rw [mark, bind_apply, skipped]
  exact exactly_none (stops_cons.mpr (beq_false_of_ne other))

theorem reads_entry {p : TextParser Json} (blank : space.all isBlank = true)
    (solid : Stops isBlank (s ++ rest)) (h : Reads p s found rest) :
    Reads (entry p) (space ++ s) found rest :=
  (reads_blanks blank solid).bind h

/-- A member of an object as it stands in an entry of a listing. -/
def memberLine (name : String) (shown : List Char) : List Char :=
  ['\n', ' ', ' ', ' ', ' '] ++ ((jsonString name).toList ++ ([':'] ++ ([' '] ++ shown)))

theorem reads_member {p : TextParser Json} (name : String) (solid : Stops isBlank (s ++ rest))
    (h : Reads p s found rest) : Reads (member p) (memberLine name s) (name, found) rest := by
  have colon : Reads (mark ':') [':'] () ([' '] ++ s ++ rest) := reads_bareMark rfl _
  have shown : Reads (entry p) ([' '] ++ s) found rest := reads_entry rfl solid h
  refine (reads_blanks rfl ?_).bind ((reads_quoted name _).bind (colon.bind ?_))
  · rw [List.append_assoc]
    exact stops_jsonString rfl name _
  · exact shown.last (reads_pure (name, found) rest)

theorem reads_comma (h : Reads p s a rest) :
    Reads (mark ',' >>= fun _ => p) ([','] ++ s) a rest :=
  (reads_bareMark rfl _).bind h

theorem comma_none (blank : space.all isBlank = true) {closing : Char}
    (solid : isBlank closing = false) (other : closing ≠ ',') :
    (mark ',' >>= fun _ => p) (space ++ closing :: rest) = none :=
  bind_none (mark_none blank solid other) _

theorem reads_between {opening closing : Char} {more : List Char} {as : List α}
    (first : Reads p s a (more ++ (space ++ closing :: rest)))
    (repeats : Repeats (mark ',' >>= fun _ => p) more as (space ++ closing :: rest))
    (blank : space.all isBlank = true) (solid : isBlank closing = false) :
    Reads (between opening closing p) ([opening] ++ (s ++ more ++ (space ++ [closing]))) (a :: as)
      rest := by
  have closed : Reads (mark closing) (space ++ [closing]) () rest := reads_mark blank solid rest
  have split : space ++ closing :: rest = space ++ [closing] ++ rest := by simp
  rw [split] at first repeats
  have items := reads_optional (reads_separated first repeats)
  exact (reads_exactly _ _).bind (items.bind (closed.last (reads_pure (a :: as) rest)))

theorem reads_between_nil {opening closing : Char} (refused : p (closing :: rest) = none)
    (solid : isBlank closing = false) :
    Reads (between opening closing p) [opening, closing] [] rest := by
  have items : separated p (mark ',') (closing :: rest) = none := bind_none refused _
  have closed : Reads (mark closing) [closing] () rest := reads_bareMark solid rest
  refine Reads.bind (s := [opening]) (reads_exactly _ _) ?_
  exact Reads.bind (s := []) (reads_optional_none items) (closed.last (reads_pure [] rest))

theorem jsonEntry_toList (token : Token) : '\n' :: token.jsonEntry.toList =
    ['\n', ' ', ' '] ++ (['{'] ++ ((memberLine "kind" (jsonString token.kind.name).toList ++
      ([','] ++ memberLine "value" token.jsonValue.toList)) ++ (['\n', ' ', ' '] ++ ['}']))) := by
  have kind : jsonString "kind" = "\"kind\"" := rfl
  have value : jsonString "value" = "\"value\"" := rfl
  unfold Token.jsonEntry memberLine
  rw [kind, value]
  simp

/-- The lines of a token are read as the object that shows it, whatever comes after them. -/
theorem reads_object (token : Token) (rest : List Char) :
    Reads (entry (value (depth + 2))) ('\n' :: token.jsonEntry.toList) token.toJson rest := by
  have kind (after : List Char) : Reads (member (value (depth + 1)))
      (memberLine "kind" (jsonString token.kind.name).toList)
      ("kind", string token.kind.name) after :=
    reads_member "kind" (stops_jsonString rfl _ after) (reads_string _ after)
  have datum : Reads (member (value (depth + 1))) (memberLine "value" token.jsonValue.toList)
      ("value", token.datum) (['\n', ' ', ' '] ++ '}' :: rest) :=
    reads_member "value" (stops_jsonValue token _) (reads_datum token _)
  have second : Repeats (mark ',' >>= fun _ => member (value (depth + 1)))
      ([','] ++ memberLine "value" token.jsonValue.toList) [("value", token.datum)]
      (['\n', ' ', ' '] ++ '}' :: rest) :=
    .single (reads_comma datum) (List.cons_ne_nil _ _) (comma_none rfl rfl (by decide))
  have record : Reads (between '{' '}' (member (value (depth + 1))))
      (['{'] ++ (memberLine "kind" (jsonString token.kind.name).toList ++
        ([','] ++ memberLine "value" token.jsonValue.toList) ++ (['\n', ' ', ' '] ++ ['}'])))
      [("kind", string token.kind.name), ("value", token.datum)] rest :=
    reads_between (kind _) second rfl rfl
  rw [jsonEntry_toList]
  refine reads_entry rfl (stops_cons.mpr rfl) ?_
  refine Reads.orElse_right ((record.returning object).orElse _) (bind_none ?_ _)
  exact bind_none (exactly_none (stops_cons.mpr rfl)) _

theorem value_closing (depth : Nat) (cs : List Char) : value depth (']' :: cs) = none := by
  cases depth with
  | zero => rfl
  | succ depth => rfl

theorem intercalate_toList (separator first : String) (more : List String) :
    (separator.intercalate (first :: more)).toList =
      first.toList ++ more.flatMap fun next => separator.toList ++ next.toList := by
  induction more generalizing first with
  | nil => rw [String.intercalate_singleton, List.flatMap_nil, List.append_nil]
  | cons next more ih =>
    rw [String.intercalate_cons_cons, String.toList_append, String.toList_append, ih]
    simp only [List.flatMap_cons, List.append_assoc]

theorem jsonArray_cons (first : String) (more : List String) :
    (jsonArray (first :: more)).toList =
      ['['] ++ (('\n' :: first.toList) ++ more.flatMap (fun next => [','] ++ '\n' :: next.toList) ++
        (['\n'] ++ [']'])) := by
  have filled : (first :: more).isEmpty = false := rfl
  have separator : ",\n".toList = [',', '\n'] := by decide
  rw [jsonArray, filled, if_neg Bool.false_ne_true, String.toList_append, String.toList_append,
    intercalate_toList, separator]
  simp

theorem exists_jsonArray (entries : List String) :
    ∃ second more, (jsonArray entries).toList = '[' :: second :: more := by
  cases entries with
  | nil => exact ⟨']', [], rfl⟩
  | cons first more =>
    rw [jsonArray_cons]
    exact ⟨'\n', _, rfl⟩

theorem reads_array (tokens : List Token) (rest : List Char) :
    Reads (value (depth + 3)) (jsonArray (tokens.map Token.jsonEntry)).toList
      (array (tokens.map Token.toJson)) rest := by
  have list : Reads (between '[' ']' (entry (value (depth + 2))))
      (jsonArray (tokens.map Token.jsonEntry)).toList (tokens.map Token.toJson) rest := by
    cases tokens with
    | nil =>
      have refused : entry (value (depth + 2)) (']' :: rest) = none := value_closing _ rest
      exact reads_between_nil refused rfl
    | cons token tokens =>
      have more : Repeats (mark ',' >>= fun _ => entry (value (depth + 2)))
          (tokens.flatMap fun other => [','] ++ '\n' :: other.jsonEntry.toList)
          (tokens.map Token.toJson) (['\n'] ++ ']' :: rest) :=
        repeats_flatMap (fun other _ after => reads_comma (reads_object other after))
          (fun _ => List.cons_ne_nil _ _) (comma_none rfl rfl (by decide))
      rw [List.map_cons, jsonArray_cons, List.flatMap_map]
      exact reads_between (reads_object token _) more rfl rfl
  exact (list.returning array).orElse _

theorem reads_document (tokens : List Token) :
    Reads document (listing .json tokens).toList (array (tokens.map Token.toJson)) [] := by
  obtain ⟨second, more, front⟩ := exists_jsonArray (tokens.map Token.jsonEntry)
  have text : (listing .json tokens).toList =
      (jsonArray (tokens.map Token.jsonEntry)).toList ++ ['\n'] := by
    rw [listing_json, String.toList_append]
    simp
  -- The array is around the objects and these around their members: three levels are enough.
  obtain ⟨depth, long⟩ : ∃ depth, ((listing .json tokens).toList ++ []).length = depth + 3 := by
    refine ⟨more.length, ?_⟩
    rw [text, front]
    simp
  have solid :
      Stops isBlank ((jsonArray (tokens.map Token.jsonEntry)).toList ++ (['\n'] ++ [])) := by
    rw [front]
    exact stops_cons.mpr rfl
  have blank : [].all isBlank = true := rfl
  have list : Reads (entry (value (depth + 3)))
      (jsonArray (tokens.map Token.jsonEntry)).toList (array (tokens.map Token.toJson))
      (['\n'] ++ []) :=
    reads_entry blank solid (reads_array tokens _)
  have feed : Reads blanks ['\n'] () [] := reads_blanks rfl (stops_nil _)
  unfold Reads document
  rw [long, text]
  exact list.bind (feed.last (reads_finish.last (reads_pure _ [])))

theorem parse?_listing (tokens : List Token) :
    parse? (listing .json tokens) = some (array (tokens.map Token.toJson)) :=
  (reads_document tokens).whole

theorem ofDatum?_datum (token : Token) : ofDatum? token.kind token.datum = some token := by
  cases token with
  | integerConstant value =>
    have size : ((value.toNat : Rat)).num.toNat = value.toNat := by
      rw [Rat.num_natCast, Int.toNat_natCast]
    have whole : (value.toNat : Rat).num.toNat < UInt32.size ∧
        ((value.toNat : Rat).num.toNat : Rat) = (value.toNat : Rat) := by
      rw [size]
      exact ⟨value.toNat_lt_size, rfl⟩
    show (if _ then _ else _) = _
    rw [if_pos whole, size]
    simp
  | keyword k => exact Token.ofText?_text (.keyword k)
  | symbol s => exact Token.ofText?_text (.symbol s)
  | identifier name => rfl
  | stringConstant content => rfl

theorem token?_toJson (token : Token) : token? token.toJson = some token := by
  have kind : token.toJson.member? "kind" = some (string token.kind.name) := rfl
  have datum : token.toJson.member? "value" = some token.datum := rfl
  simp only [token?, kind, datum, TokenKind.ofName?_name, Option.bind_eq_bind, Option.bind_some]
  exact ofDatum?_datum token

theorem tokens?_array (tokens : List Token) :
    (array (tokens.map Token.toJson)).tokens? = some tokens := by
  show (tokens.map Token.toJson).mapM token? = _
  induction tokens with
  | nil => rfl
  | cons token tokens ih =>
    rw [List.map_cons, List.mapM_cons, token?_toJson, ih]
    rfl

end Json

/-- A JSON listing can be read back: in JSON it is an array with an object for each token, and the
objects tell what the tokens are. -/
theorem json_listing_lossless (tokens : List Token) :
    ∃ document, (Sink.empty none).writeListing .json tokens = (.ok (), ⟨none, document.toUTF8⟩) ∧
      Json.parse? document = some (.array (tokens.map fun token =>
        .object [("kind", .string token.kind.name), ("value", token.datum)])) ∧
      (Json.parse? document).bind Json.tokens? = some tokens := by
  have written := Sink.writeListing_unbounded .empty .json tokens
  have read := Json.parse?_listing tokens
  rw [ByteArray.empty_append] at written
  refine ⟨listing .json tokens, written, read, ?_⟩
  rw [read]
  exact Json.tokens?_array tokens

end JackTokens
