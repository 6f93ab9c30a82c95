import JackTokens.ExtendingRanges
import JackTokens.HiddenRanges

namespace JackTokens

def inRanges (ranges : List (Nat × Nat)) (n : Nat) : Bool :=
  ranges.any fun range => range.1 ≤ n && n ≤ range.2

/-- A character that can be read when it stands alone. -/
def isVisible (c : Char) : Bool :=
  !inRanges extendingRanges c.toNat && !inRanges hiddenRanges c.toNat

/-- `c` in hexadecimal between braces. -/
def codePointText (c : Char) : String :=
  "\\u\x7b" ++ String.ofList (Nat.toDigits 16 c.toNat) ++ "\x7d"

/-- `c` as messages show it. Quotes and the backslash have a backslash before them, as have the
letters for the commonest controls; any other character that cannot be seen gives its code point. -/
def shownChar (c : Char) : String :=
  if c = '\x00' then "\\0"
  else if c = '\t' then "\\t"
  else if c = '\r' then "\\r"
  else if c = '\n' then "\\n"
  else if c = '\'' || c = '"' || c = '\\' then String.ofList ['\\', c]
  else if isVisible c then String.singleton c
  else codePointText c

end JackTokens
