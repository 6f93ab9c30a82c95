import JackTokens.LexError
import JackTokens.CharacterClass

namespace JackTokens

/-- The text has no line feed in it. -/
def OneLine (text : String) : Prop :=
  '\n' ∉ text.toList

instance (text : String) : Decidable (OneLine text) :=
  inferInstanceAs (Decidable ('\n' ∉ text.toList))

theorem OneLine.append {s t : String} (hs : OneLine s) (ht : OneLine t) : OneLine (s ++ t) := by
  unfold OneLine
  rw [String.toList_append]
  intro feed
  rcases List.mem_append.mp feed with feed | feed
  · exact hs feed
  · exact ht feed

theorem oneLine_ofList {cs : List Char} : OneLine (String.ofList cs) ↔ '\n' ∉ cs := by
  unfold OneLine
  rw [String.toList_ofList]

theorem oneLine_digits {digits : List Char} (h : ∀ c ∈ digits, isDecimalDigit c = true) :
    OneLine (String.ofList digits) := by
  apply oneLine_ofList.mpr
  intro feed
  exact absurd (h _ feed) (by decide)

theorem oneLine_decimal (n : Nat) : OneLine (decimal n) := by
  apply oneLine_digits
  intro c hc
  exact Nat.isDigit_of_mem_toDigits (by omega) (by omega) hc

theorem lineFeed_not_mem_hexadecimal (n : Nat) : '\n' ∉ Nat.toDigits 16 n := by
  induction n using Nat.strongRecOn with
  | ind n ih =>
    have digits : ∀ k < 16, '\n' ∉ [k.digitChar] := by decide
    rw [Nat.toDigits_eq_if (by omega)]
    by_cases small : n < 16
    · rw [if_pos small]
      exact digits n small
    · rw [if_neg small]
      intro feed
      rcases List.mem_append.mp feed with feed | feed
      · exact ih (n / 16) (by omega) feed
      · exact digits (n % 16) (Nat.mod_lt n (by omega)) feed

theorem oneLine_shownChar (c : Char) : OneLine (shownChar c) := by
  by_cases feed : c = '\n'
  · subst feed
    decide
  have escaped : OneLine (String.ofList ['\\', c]) :=
    oneLine_ofList.mpr (by simpa using Ne.symm feed)
  have visible : OneLine (String.singleton c) := by
    unfold OneLine
    rw [String.toList_singleton]
    simpa using Ne.symm feed
  have digits : OneLine (String.ofList (Nat.toDigits 16 c.toNat)) :=
    oneLine_ofList.mpr (lineFeed_not_mem_hexadecimal c.toNat)
  have hidden : OneLine (codePointText c) :=
    OneLine.append (OneLine.append (by decide) digits) (by decide)
  unfold shownChar
  repeat' split
  · decide
  · decide
  · decide
  · exact escaped
  · exact visible
  · exact hidden

theorem Position.oneLine_text (p : Position) : OneLine p.text :=
  ((oneLine_decimal p.line.toNat).append (by decide)).append (oneLine_decimal p.column.toNat)

theorem oneLine_spaces (n : Nat) : OneLine (Diagnostic.spaces n) := by
  apply oneLine_ofList.mpr
  simp

namespace Diagnostic

variable {d : Diagnostic} {source shown : String} {span : Span}

/-- A report that shows a line of the source has five lines, if its message has one. -/
theorem render_splitOn (hs : d.span? = some span)
    (hl : line? source span.start.line.toNat = some shown)
    (none : d.notes = []) (message : OneLine d.message)
    (origin : OneLine (d.origin?.getD "<input>")) (single : OneLine shown) :
    (d.render (some source)).toList.splitOn '\n' =
      [(d.level.text ++ ": " ++ d.message).toList,
        (" --> " ++ d.origin?.getD "<input>" ++ ":" ++ span.text).toList,
        (spaces (decimal span.start.line.toNat).length ++ " |").toList,
        (decimal span.start.line.toNat ++ " | ").toList ++ shown.toList,
        (spaces (decimal span.start.line.toNat).length ++ " | " ++
          spaces (span.start.column.toNat - 1)).toList ++ ['^']] := by
  have report : (d.render (some source)).toList =
      (d.level.text ++ ": " ++ d.message).toList ++ '\n' ::
        ((" --> " ++ d.origin?.getD "<input>" ++ ":" ++ span.text).toList ++ '\n' ::
          ((spaces (decimal span.start.line.toNat).length ++ " |").toList ++ '\n' ::
            ((decimal span.start.line.toNat ++ " | ").toList ++ shown.toList ++ '\n' ::
              ((spaces (decimal span.start.line.toNat).length ++ " | " ++
                spaces (span.start.column.toNat - 1)).toList ++ ['^'])))) := by
    simp [render, location, noteLines, excerpt, hs, hl, none, String.join]
  have level : OneLine d.level.text := by
    cases d.level
    all_goals decide
  have heading : OneLine (d.level.text ++ ": " ++ d.message) :=
    (level.append (by decide)).append message
  have arrow : OneLine " --> " := by decide
  have pointer : OneLine (" --> " ++ d.origin?.getD "<input>" ++ ":" ++ span.text) :=
    ((arrow.append origin).append (by decide)).append span.start.oneLine_text
  have gutter := oneLine_spaces (decimal span.start.line.toNat).length
  have bar : OneLine (spaces (decimal span.start.line.toNat).length ++ " |") :=
    gutter.append (by decide)
  have number : OneLine (decimal span.start.line.toNat ++ " | ") :=
    (oneLine_decimal span.start.line.toNat).append (by decide)
  have quoted := number.append single
  rw [OneLine, String.toList_append] at quoted
  have under : OneLine (spaces (decimal span.start.line.toNat).length ++ " | " ++
      spaces (span.start.column.toNat - 1)) :=
    (gutter.append (by decide)).append (oneLine_spaces _)
  have caret : '\n' ∉ (spaces (decimal span.start.line.toNat).length ++ " | " ++
      spaces (span.start.column.toNat - 1)).toList ++ ['^'] := by
    intro feed
    rcases List.mem_append.mp feed with feed | feed
    · exact under feed
    · exact absurd feed (by decide)
  rw [report, List.splitOn_append_cons_self_of_not_mem heading,
    List.splitOn_append_cons_self_of_not_mem pointer,
    List.splitOn_append_cons_self_of_not_mem bar,
    List.splitOn_append_cons_self_of_not_mem quoted, List.splitOn_eq_singleton caret]

end Diagnostic

end JackTokens
