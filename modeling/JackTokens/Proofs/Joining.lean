import JackTokens.Proofs.Tiling

namespace JackTokens

/-- The place so many bytes and lines further on, in the same column. Lines are counted modulo
`2 ^ 32`. -/
def Position.moved (p : Position) (bytes lines : Nat) : Position :=
  ⟨p.offset + bytes, p.line + .ofNat lines, p.column⟩

def Lexeme.moved (lexeme : Lexeme) (bytes lines : Nat) : Lexeme :=
  ⟨lexeme.token, lexeme.span.start.moved bytes lines, lexeme.span.length⟩

def LexError.moved (bytes lines : Nat) : LexError → LexError
  | unreadable cause => unreadable cause
  | malformed position fault => malformed (position.moved bytes lines) fault

namespace Position

theorem moved_zero (p : Position) (bytes : Nat) :
    p.moved bytes 0 = ⟨p.offset + bytes, p.line, p.column⟩ :=
  congrArg (mk _ · _) (UInt32.add_zero p.line)

theorem advance_moved (p : Position) (bytes lines : Nat) (c : Char) :
    (p.moved bytes lines).advance c = (p.advance c).moved bytes lines := by
  unfold advance moved
  by_cases feed : c = '\n'
  · simp only [if_pos feed, mk.injEq, and_true]
    refine ⟨Nat.add_right_comm _ _ _, ?_⟩
    rw [UInt32.add_assoc, UInt32.add_comm (.ofNat lines), ← UInt32.add_assoc]
  · simp only [if_neg feed, mk.injEq, and_true]
    exact Nat.add_right_comm _ _ _

theorem after_moved (p : Position) (bytes lines : Nat) (cs : List Char) :
    (p.moved bytes lines).after cs = (p.after cs).moved bytes lines := by
  induction cs generalizing p with
  | nil => rfl
  | cons c cs ih =>
    have step := p.advance_moved bytes lines c
    have rest := ih (p.advance c)
    rw [← step] at rest
    exact rest

/-- Behind a line feed a text goes on as one of its own, so many bytes and lines further on. -/
theorem after_lineFeed (cs more : List Char) :
    start.after (cs ++ '\n' :: more) =
      (start.after more).moved ((encode cs).length + 1) (cs.count '\n' + 1) := by
  have feed : start.after (cs ++ ['\n']) =
      start.moved ((encode cs).length + 1) (cs.count '\n' + 1) := by
    have line : (start.after cs).line + 1 = 1 + .ofNat (cs.count '\n' + 1) := by
      rw [line_after, UInt32.ofNat_add, UInt32.add_assoc]
      rfl
    rw [after_append]
    show (start.after cs).advance '\n' = _
    rw [advance, if_pos rfl, offset_after, line, Nat.add_assoc]
    rfl
  have split : cs ++ '\n' :: more = (cs ++ ['\n']) ++ more := by simp
  rw [split, after_append, feed, after_moved]

end Position

theorem Spelled.lineFeed {token : Token} {word after : List Char} (h : Spelled token word after)
    (more : List Char) : Spelled token word (after ++ '\n' :: more) := by
  have stopped {p : Char → Bool} (hs : Stops p after) (feed : p '\n' = false) :
      Stops p (after ++ '\n' :: more) := stops_append hs (stops_cons.mpr feed)
  cases h with
  | keyword k hs => exact .keyword k (stopped hs rfl)
  | identifier hw free hs => exact .identifier hw free (stopped hs rfl)
  | string hc => exact .string hc
  | integer hd value hs => exact .integer hd value (stopped hs rfl)
  | symbol s hs => exact .symbol s fun slash => stopped (hs slash) rfl

theorem IsLastGap.lineFeed {gap : List Char} (h : IsLastGap gap) : IsGap (gap ++ ['\n']) := by
  have feed : IsGap ['\n'] := .blank rfl .nil
  cases h with
  | closed hg => exact hg.append feed
  | @line gap body hg hb =>
    have comment : IsGap ('/' :: '/' :: (body ++ '\n' :: [])) := .line hb .nil
    have whole := hg.append comment
    simpa using whole

section

variable {place : Position} {front rest : List Char} {lexemes : List Lexeme}

theorem Tiles.lineFeed (h : Tiles place front lexemes rest) (more : List Char) :
    Tiles place front lexemes (rest ++ '\n' :: more) := by
  induction h with
  | nil => exact .nil
  | @cons place gap token word front lexemes rest hg hs _ ih =>
    refine .cons hg ?_ ih
    rw [← List.append_assoc]
    exact hs.lineFeed more

theorem Tiles.moved (h : Tiles place front lexemes rest) (bytes lines : Nat) :
    Tiles (place.moved bytes lines) front (lexemes.map (·.moved bytes lines)) rest := by
  induction h with
  | nil => exact .nil
  | @cons place gap token word front lexemes rest hg hs _ ih =>
    rw [← Position.after_moved] at ih
    have tiled := Tiles.cons hg hs ih
    rw [Position.after_moved] at tiled
    exact tiled

theorem Tiles.append {more : List Char} {others : List Lexeme}
    (h : Tiles place front lexemes (more ++ rest))
    (hm : Tiles (place.after front) more others rest) :
    Tiles place (front ++ more) (lexemes ++ others) rest := by
  generalize behind : more ++ rest = back at h
  induction h with
  | nil => exact hm
  | @cons place gap token word front lexemes back hg hs _ ih =>
    subst behind
    rw [← List.append_assoc, Position.after_append] at hm
    have tiled := ih hm rfl
    rw [← List.append_assoc] at hs
    have whole := Tiles.cons hg hs tiled
    simpa using whole

theorem Tiles.pass {gap : List Char} (hg : IsGap gap)
    (h : Tiles (place.after gap) front lexemes rest) :
    ∃ tiled left, tiled ++ left = gap ++ front ∧ IsGap left ∧
      Tiles place tiled lexemes (left ++ rest) := by
  cases h with
  | nil =>
    -- Without a token the gap stays before what is left.
    exact ⟨[], gap, by simp, hg, .nil⟩
  | @cons _ blank token word front lexemes _ hb hs ht =>
    rw [← Position.after_append, ← List.append_assoc] at ht
    have whole := Tiles.cons (hg.append hb) hs ht
    rw [Position.after_append] at whole
    refine ⟨_, [], ?_, .nil, whole⟩
    simp

/-- Two tilings with a gap between them make up one. -/
theorem Tiles.join {gap more : List Char} {others : List Lexeme} (hg : IsGap gap)
    (h : Tiles place front lexemes (gap ++ (more ++ rest)))
    (hm : Tiles (place.after (front ++ gap)) more others rest) :
    ∃ tiled left, tiled ++ left = front ++ (gap ++ more) ∧ IsGap left ∧
      Tiles place tiled (lexemes ++ others) (left ++ rest) := by
  rw [Position.after_append] at hm
  obtain ⟨second, left, same, hl, ht⟩ := hm.pass hg
  have behind : gap ++ (more ++ rest) = second ++ (left ++ rest) := by
    rw [← List.append_assoc, ← same, List.append_assoc]
  rw [behind] at h
  refine ⟨front ++ second, left, ?_, hl, h.append ht⟩
  rw [List.append_assoc, same]

end

/-- The tiling of a text that ends well goes on, behind a line feed, with that of any other text. -/
theorem Tiles.joined {front gap more rest : List Char} {lexemes others : List Lexeme}
    (h : Tiles .start front lexemes gap) (hg : IsLastGap gap)
    (hm : Tiles .start more others rest) :
    let bytes := (encode (front ++ gap)).length + 1
    let lines := (front ++ gap).count '\n' + 1
    ∃ tiled left, tiled ++ left = (front ++ gap) ++ '\n' :: more ∧ IsGap left ∧
      Tiles .start tiled (lexemes ++ others.map (·.moved bytes lines)) (left ++ rest) := by
  intro bytes lines
  have begun : Tiles .start front lexemes ((gap ++ ['\n']) ++ (more ++ rest)) := by
    have tiled := h.lineFeed (more ++ rest)
    simpa using tiled
  have behind : Position.start.after (front ++ (gap ++ ['\n'])) =
      Position.start.moved bytes lines := by
    have feed := Position.after_lineFeed (front ++ gap) []
    rw [List.append_assoc] at feed
    exact feed
  have goes := hm.moved bytes lines
  rw [← behind] at goes
  obtain ⟨tiled, left, same, hl, ht⟩ := Tiles.join hg.lineFeed begun goes
  refine ⟨tiled, left, ?_, hl, ht⟩
  rw [same]
  simp

namespace Tokenizer

end Tokenizer

end JackTokens
