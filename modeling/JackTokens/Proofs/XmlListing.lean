import JackTokens.XmlDocument
import JackTokens.Proofs.Listings
import JackTokens.Proofs.TextReading

namespace JackTokens

/-- What may follow an ampersand in a text that is escaped. -/
def entityNames : List String :=
  ["lt;", "gt;", "amp;", "quot;"]

theorem xmlChar_plain {c : Char} (h : Xml.isPlain c = true) : xmlChar c = [c] := by
  simp only [Xml.isPlain, Bool.and_eq_true, bne_iff_ne] at h
  simp [xmlChar, h]

/-- A character stands for itself or for an entity. -/
theorem xmlChar_cases (c : Char) :
    (Xml.isPlain c = true ∧ xmlChar c = [c]) ∨
      ∃ name ∈ entityNames, xmlChar c = '&' :: name.toList := by
  by_cases less : c = '<'
  · subst less
    exact .inr ⟨"lt;", by decide, rfl⟩
  by_cases greater : c = '>'
  · subst greater
    exact .inr ⟨"gt;", by decide, rfl⟩
  by_cases ampersand : c = '&'
  · subst ampersand
    exact .inr ⟨"amp;", by decide, rfl⟩
  by_cases quote : c = '"'
  · subst quote
    exact .inr ⟨"quot;", by decide, rfl⟩
  have plain : Xml.isPlain c = true := by simp [Xml.isPlain, less, greater, ampersand, quote]
  exact .inl ⟨plain, xmlChar_plain plain⟩

theorem isPlain_entityName {name : String} (h : name ∈ entityNames) :
    ∀ c ∈ name.toList, Xml.isPlain c = true := by
  have all : entityNames.all (fun name => name.toList.all Xml.isPlain) = true := by decide
  exact List.all_eq_true.mp (List.all_eq_true.mp all name h)

/-- No markup is left in an escaped text. -/
theorem mem_xmlChars {cs : List Char} {c : Char} (h : c ∈ xmlChars cs) :
    Xml.isPlain c = true ∨ c = '&' := by
  obtain ⟨d, _, hc⟩ := List.mem_flatMap.mp h
  rcases xmlChar_cases d with ⟨plain, single⟩ | ⟨name, known, escaped⟩
  · rw [single] at hc
    exact .inl (List.mem_singleton.mp hc ▸ plain)
  · rw [escaped] at hc
    rcases List.mem_cons.mp hc with same | hc
    · exact .inr same
    · exact .inl (isPlain_entityName known c hc)

/-- An ampersand in an escaped text begins an entity. -/
theorem entity_of_ampersand {cs before after : List Char}
    (h : xmlChars cs = before ++ '&' :: after) : ∃ name ∈ entityNames, name.toList <+: after := by
  induction cs generalizing before with
  | nil => simp [xmlChars] at h
  | cons c cs ih =>
    have split : xmlChar c ++ xmlChars cs = before ++ '&' :: after := h
    -- The ampersand is in what comes of the first character, or behind it.
    rcases List.append_eq_append_iff.mp split with ⟨left, rfl, later⟩ | ⟨left, first, later⟩
    · exact ih later
    · cases left with
      | nil => exact @ih [] later.symm
      | cons d left =>
        obtain ⟨rfl, behind⟩ := List.cons.inj later
        rcases xmlChar_cases c with ⟨plain, single⟩ | ⟨name, known, escaped⟩
        · rw [single] at first
          have inside : '&' ∈ [c] := by simp [first]
          rw [← List.mem_singleton.mp inside] at plain
          exact absurd plain (by decide)
        · cases before with
          | nil =>
            rw [escaped] at first
            obtain ⟨_, rfl⟩ := List.cons.inj first
            exact ⟨name, known, behind ▸ List.prefix_append _ _⟩
          | cons e before =>
            rw [escaped] at first
            obtain ⟨_, same⟩ := List.cons.inj first
            have inside : '&' ∈ name.toList := by simp [same]
            exact absurd (isPlain_entityName known _ inside) (by decide)

namespace Xml

open TextParser

theorem reads_character (c : Char) (rest : List Char) : Reads character (xmlChar c) c rest := by
  by_cases plain : isPlain c = true
  · rw [xmlChar_plain plain]
    exact (reads_one plain rest).orElse _
  · have reserved : c = '<' ∨ c = '>' ∨ c = '&' ∨ c = '"' := by
      simpa [isPlain, ← or_iff_not_imp_left] using plain
    rcases reserved with rfl | rfl | rfl | rfl
    all_goals rfl

/-- A text ends where markup begins. -/
theorem character_markup (cs : List Char) : character ('<' :: cs) = none := rfl

theorem character_nil : character [] = none := rfl

theorem reads_characters (cs : List Char) {rest : List Char} (h : character rest = none) :
    Reads (many character) (xmlChars cs) cs rest := by
  have filled : ∀ c, xmlChar c ≠ [] := by
    intro c
    rcases xmlChar_cases c with ⟨_, single⟩ | ⟨_, _, escaped⟩
    · rw [single]
      exact List.cons_ne_nil _ _
    · rw [escaped]
      exact List.cons_ne_nil _ _
  exact reads_many reads_character filled h cs

theorem unescape?_xmlText (text : String) : unescape? (xmlText text) = some text := by
  have content : Reads (many character) (xmlChars text.toList) text.toList [] :=
    reads_characters _ character_nil
  have read : Reads plainText (xmlChars text.toList) text [] := by
    refine content.last (reads_finish.last ?_)
    rw [String.ofList_toList]
    exact reads_pure text []
  rw [unescape?, xmlText, String.toList_ofList]
  exact read.whole

theorem elementToken?_eq (token : Token) :
    elementToken? token.kind.name.toList (token.text.toList ++ [' ']) = some token := by
  simp [elementToken?, TokenKind.ofName?_name, Token.ofText?_text]

/-- The line of a token is read as that token, whatever comes after it. -/
theorem reads_element (token : Token) (rest : List Char) :
    Reads element token.xmlLine.toList token rest := by
  have line : token.xmlLine.toList =
      ['<'] ++ (token.kind.name.toList ++ (['>', ' '] ++
        (xmlChars (token.text.toList ++ [' ']) ++
          (['<', '/'] ++ (token.kind.name.toList ++ ['>', '\n']))))) := by
    simp [Token.xmlLine, xmlText, xmlChars, xmlChar]
  have tag : token.kind.name.toList.all Char.isAlpha = true := by
    cases token.kind
    all_goals decide
  have filled : token.kind.name.toList ≠ [] := by
    cases token.kind
    all_goals decide
  rw [line]
  have closed : Stops Char.isAlpha (['>', ' '] ++ (xmlChars (token.text.toList ++ [' ']) ++
      (['<', '/'] ++ (token.kind.name.toList ++ ['>', '\n']))) ++ rest) := stops_cons.mpr rfl
  refine (reads_exactly _ _).bind ((reads_someOf (List.all_eq_true.mp tag) filled closed).bind ?_)
  refine (reads_exactly _ _).bind ((reads_characters _ (character_markup _)).bind ?_)
  refine (reads_exactly _ _).bind ((reads_exactly _ _).bind ((reads_exactly _ _).last ?_))
  exact reads_lift (elementToken?_eq token) rest

theorem element_closing (cs : List Char) : element ('<' :: '/' :: cs) = none := rfl

theorem reads_document (tokens : List Token) :
    Reads document (listing .xml tokens).toList tokens [] := by
  have split : (listing .xml tokens).toList =
      "<tokens>\n".toList ++ (tokens.flatMap (·.xmlLine.toList) ++ "</tokens>\n".toList) := by
    simp [listing, listingPieces, String.toList_join, List.flatMap_map]
  have filled : ∀ token : Token, token.xmlLine.toList ≠ [] := by
    intro token
    simp [Token.xmlLine]
  have closing : element ("</tokens>\n".toList ++ []) = none := element_closing _
  have lines := reads_many reads_element filled closing tokens
  rw [split]
  refine (reads_exactly _ _).bind (lines.bind ?_)
  exact (reads_exactly _ _).last (reads_finish.last (reads_pure tokens []))

theorem tokens?_listing (tokens : List Token) : tokens? (listing .xml tokens) = some tokens :=
  (reads_document tokens).whole

end Xml

/-- An XML listing can be read back, whatever the texts of the tokens are: they are escaped, so that
no markup stands in them, and the escaping can be undone. -/
theorem xml_listing_lossless :
    (∀ tokens, ∃ document,
      (Sink.empty none).writeListing .xml tokens = (.ok (), ⟨none, document.toUTF8⟩) ∧
        Xml.tokens? document = some tokens) ∧
    Function.Injective (listing .xml) ∧
    (∀ text, Xml.unescape? (xmlText text) = some text) ∧
    (∀ text, ∀ c ∈ (xmlText text).toList, c ≠ '<' ∧ c ≠ '>' ∧ c ≠ '"') ∧
    ∀ text before after, (xmlText text).toList = before ++ '&' :: after →
      ∃ name ∈ ["lt;", "gt;", "amp;", "quot;"], name.toList <+: after := by
  refine ⟨?_, ?_, Xml.unescape?_xmlText, ?_, ?_⟩
  · intro tokens
    refine ⟨listing .xml tokens, ?_, Xml.tokens?_listing tokens⟩
    have written := Sink.writeListing_unbounded .empty .xml tokens
    rw [ByteArray.empty_append] at written
    exact written
  · intro tokens others same
    have read := Xml.tokens?_listing tokens
    rw [same, Xml.tokens?_listing others] at read
    exact (Option.some.inj read).symm
  · intro text c hc
    rw [xmlText, String.toList_ofList] at hc
    rcases mem_xmlChars hc with plain | rfl
    · simp only [Xml.isPlain, Bool.and_eq_true, bne_iff_ne] at plain
      exact ⟨plain.1.1.1, plain.1.1.2, plain.2⟩
    · decide
  · intro text before after found
    rw [xmlText, String.toList_ofList] at found
    exact entity_of_ampersand found

end JackTokens
