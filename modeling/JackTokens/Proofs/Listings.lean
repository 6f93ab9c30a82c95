import JackTokens.Sink
import JackTokens.Proofs.Rendering
import JackTokens.Proofs.Tiling

namespace JackTokens

/-- The text of a token stands on one line: no constant and no word goes over the end of one. -/
theorem Spelled.oneLine {token : Token} {word after : List Char} (h : Spelled token word after) :
    OneLine token.text := by
  cases h with
  | keyword k => exact (isWord_spelling k).single
  | identifier hw => exact hw.single
  | string hc =>
    intro feed
    exact (hc _ feed).2 rfl
  | integer => exact oneLine_decimal _
  | symbol s =>
    cases s
    all_goals decide

theorem oneLine_of_tokensOf {text : String} {tokens : List Token} (h : tokensOf text = .ok tokens)
    {token : Token} (ht : token ∈ tokens) : OneLine token.text := by
  obtain ⟨front, lexemes, gap, rest, _, tiles, ends⟩ := Tokenizer.exists_drain text
  rcases ends with ⟨u, hu, _⟩ | ⟨u, fault, hu, _⟩
  · rw [tokensOf, hu] at h
    cases h
    obtain ⟨lexeme, hl, rfl⟩ := List.mem_map.mp ht
    obtain ⟨_, _, _, _, _, spelled⟩ := tiles.spelled hl
    exact spelled.oneLine
  · rw [tokensOf, hu] at h
    cases h

theorem Token.count_textLine {token : Token} (h : OneLine token.text) :
    token.textLine.toList.count '\n' = 1 := by
  have kind : token.kind.name.toList.count '\n' = 0 := by
    cases token.kind
    all_goals rfl
  have text : token.text.toList.count '\n' = 0 := List.count_eq_zero.mpr h
  simp [textLine, kind, text]

/-- A listing in plain text has a line for each token. -/
theorem count_textListing {tokens : List Token} (h : ∀ token ∈ tokens, OneLine token.text) :
    (listing .text tokens).toList.count '\n' = tokens.length := by
  induction tokens with
  | nil => rfl
  | cons token tokens ih =>
    have first := Token.count_textLine (h token List.mem_cons_self)
    have rest := ih fun other ho => h other (List.mem_cons_of_mem token ho)
    have split : listing .text (token :: tokens) = token.textLine ++ listing .text tokens :=
      String.join_cons
    rw [split, String.toList_append, List.count_append, first, rest, List.length_cons]
    omega

theorem listing_json (tokens : List Token) :
    listing .json tokens = jsonArray (tokens.map Token.jsonEntry) ++ "\n" := by
  simp [listing, listingPieces, String.join_cons]

namespace Sink

/-- A sink without a bound takes all that is written. -/
theorem write_unbounded (before : ByteArray) (text : String) :
    (⟨none, before⟩ : Sink).write text = (.ok (), ⟨none, before ++ text.toUTF8⟩) := by
  have size : ¬ text.toUTF8.size < text.utf8ByteSize := Nat.lt_irrefl _
  exact Prod.ext (if_neg size) rfl

theorem writeAll_unbounded (before : ByteArray) (pieces : List String) :
    (⟨none, before⟩ : Sink).writeAll pieces =
      (.ok (), ⟨none, before ++ (String.join pieces).toUTF8⟩) := by
  induction pieces generalizing before with
  | nil =>
    have empty : before ++ (String.join []).toUTF8 = before := ByteArray.append_empty
    rw [empty]
    rfl
  | cons piece pieces ih =>
    have join : (String.join (piece :: pieces)).toUTF8 =
        piece.toUTF8 ++ (String.join pieces).toUTF8 := by
      rw [String.join_cons]
      rfl
    rw [writeAll, write_unbounded]
    dsimp only
    rw [ih, join, ByteArray.append_assoc]

theorem writeListing_unbounded (before : ByteArray) (format : Format) (tokens : List Token) :
    (⟨none, before⟩ : Sink).writeListing format tokens =
      (.ok (), ⟨none, before ++ (listing format tokens).toUTF8⟩) := by
  cases format with
  | text => simp only [writeListing, writeAll_unbounded, listing]
  | xml => simp only [writeListing, writeAll_unbounded, listing]
  | json =>
    have both : (listing .json tokens).toUTF8 =
        (jsonArray (tokens.map Token.jsonEntry)).toUTF8 ++ "\n".toUTF8 := by
      rw [listing_json]
      rfl
    simp only [writeListing, writeJson, write_unbounded]
    rw [both, ByteArray.append_assoc]

end Sink

end JackTokens
