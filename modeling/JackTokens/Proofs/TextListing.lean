import JackTokens.PlainDocument
import JackTokens.Proofs.Listings

namespace JackTokens

namespace Plain

/-- The line of a token, without the line feed that ends it. -/
def line (token : Token) : List Char :=
  token.kind.name.toList ++ '\t' :: token.text.toList

theorem textLine_toList (token : Token) : token.textLine.toList = line token ++ ['\n'] := by
  simp [Token.textLine, line]

theorem lineFeed_not_mem_line {token : Token} (h : OneLine token.text) : '\n' ∉ line token := by
  have kind : '\n' ∉ token.kind.name.toList := by
    cases token.kind
    all_goals decide
  intro feed
  rcases List.mem_append.mp feed with feed | feed
  · exact kind feed
  · rcases List.mem_cons.mp feed with tab | feed
    · exact absurd tab (by decide)
    · exact h feed

/-- No kind has a tab in its name, so the first tab of a line is the one that was written. -/
theorem record_line (token : Token) : record (line token) = (token.kind.name, token.text) := by
  have plain : token.kind.name.toList.all (· != '\t') = true := by
    cases token.kind
    all_goals decide
  have named := List.all_eq_true.mp plain
  unfold record line
  rw [List.takeWhile_append_of_pos named, List.dropWhile_append_of_pos named]
  simp

theorem token?_record (token : Token) : token? (token.kind.name, token.text) = some token := by
  simp [token?, TokenKind.ofName?_name, Token.ofText?_text]

/-- The lines of a listing end where they were ended, if no token has a line feed in its text. -/
theorem splitOn_listing {tokens : List Token} (h : ∀ token ∈ tokens, OneLine token.text) :
    (listing .text tokens).toList.splitOn '\n' = tokens.map line ++ [[]] := by
  induction tokens with
  | nil => rfl
  | cons token tokens ih =>
    have first := lineFeed_not_mem_line (h token List.mem_cons_self)
    have rest := ih fun other ho => h other (List.mem_cons_of_mem token ho)
    have split : (listing .text (token :: tokens)).toList =
        line token ++ '\n' :: (listing .text tokens).toList := by
      have join : listing .text (token :: tokens) = token.textLine ++ listing .text tokens :=
        String.join_cons
      rw [join, String.toList_append, textLine_toList, List.append_assoc]
      rfl
    rw [split, List.splitOn_append_cons_self_of_not_mem first, rest]
    rfl

theorem mapM_lines (tokens : List Token) :
    (tokens.map line).mapM (fun line => token? (record line)) = some tokens := by
  induction tokens with
  | nil => rfl
  | cons token tokens ih =>
    rw [List.map_cons, List.mapM_cons, record_line, token?_record, ih]
    rfl

end Plain

/-- A plain listing of the tokens of a text can be read back, although nothing in it is escaped: no
token that is read from a text goes over the end of a line. There is an ended line for each token,
and the first tab in it separates the kind from the text. -/
theorem text_listing_lossless {text : String} {tokens : List Token}
    (h : tokensOf text = .ok tokens) :
    ∃ document lines,
      (Sink.empty none).writeListing .text tokens = (.ok (), ⟨none, document.toUTF8⟩) ∧
      document.toList.splitOn '\n' = lines ++ [[]] ∧ lines.length = tokens.length ∧
      lines.map Plain.record = tokens.map (fun token => (token.kind.name, token.text)) ∧
      Plain.tokens? document = some tokens := by
  have written := Sink.writeListing_unbounded .empty .text tokens
  have split := Plain.splitOn_listing fun _ ht => oneLine_of_tokensOf h ht
  rw [ByteArray.empty_append] at written
  refine ⟨listing .text tokens, tokens.map Plain.line, written, split, List.length_map _, ?_, ?_⟩
  · rw [List.map_map]
    exact List.map_congr_left fun token _ => Plain.record_line token
  · rw [Plain.tokens?, split, List.dropLast_concat]
    exact Plain.mapM_lines tokens

/-- Two string constants, one of which looks like a record of its own, and one of which is empty. -/
theorem text_listing_lossless_strings :
    tokensOf "\"keyword\tlet\r\" \"\"" =
        .ok [.stringConstant "keyword\tlet\r", .stringConstant ""] ∧
      ∃ document lines,
        (Sink.empty none).writeListing .text
            [.stringConstant "keyword\tlet\r", .stringConstant ""] =
          (.ok (), ⟨none, document.toUTF8⟩) ∧
        document.toList.splitOn '\n' = lines ++ [[]] ∧ lines.length = 2 ∧
        lines.map Plain.record = [("stringConstant", "keyword\tlet\r"), ("stringConstant", "")] ∧
        Plain.tokens? document =
          some [.stringConstant "keyword\tlet\r", .stringConstant ""] := by
  have tabbed : IsContent "keyword\tlet\r".toList := by simp [IsContent]
  have empty : IsContent "".toList := by simp [IsContent]
  have space : IsGap [' '] := .blank rfl .nil
  have last (place : Position) := @Tiles.cons place [' '] _ _ [] [] [] space (.string empty) .nil
  have tiles := @Tiles.cons .start [] _ _ _ _ [] .nil (.string tabbed) (last _)
  obtain ⟨u, hu, _⟩ :=
    @Tokenizer.drain_last "\"keyword\tlet\r\" \"\"" _ [] _ rfl tiles (.closed .nil)
  have lexed : tokensOf "\"keyword\tlet\r\" \"\"" =
      .ok [.stringConstant "keyword\tlet\r", .stringConstant ""] := by
    rw [tokensOf, hu]
    rfl
  exact ⟨lexed, text_listing_lossless lexed⟩

end JackTokens
