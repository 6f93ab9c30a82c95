import JackTokens.Decimal
import JackTokens.TextParser
import JackTokens.TomlValue

namespace JackTokens

namespace Toml

open TextParser

def newline : TextParser Unit :=
  exactly ['\n'] <|> exactly ['\r', '\n']

def isSpace (c : Char) : Bool :=
  c == ' ' || c == '\t'

def isPrintable (c : Char) : Bool :=
  c == '\t' || (' ' ≤ c && c != '\x7f')

def isBasicChar (c : Char) : Bool :=
  isPrintable c && c != '"' && c != '\\'

def isLiteralChar (c : Char) : Bool :=
  isPrintable c && c != '\''

def isHexDigit (c : Char) : Bool :=
  c.isDigit || ('a' ≤ c && c ≤ 'f') || ('A' ≤ c && c ≤ 'F')

def digitValue (c : Char) : Nat :=
  if c.isDigit then c.toNat - '0'.toNat
  else if 'a' ≤ c then c.toNat - 'a'.toNat + 10
  else c.toNat - 'A'.toNat + 10

def numeral (base : Nat) (digits : List Char) : Nat :=
  digits.foldl (fun value c => value * base + digitValue c) 0

def scalar (digits : List Char) : TextParser Char := fun cs =>
  let code := numeral 16 digits
  if code.isValidChar then some (Char.ofNat code, cs) else none

def escaped : TextParser Char := do
  match ← one fun _ => true with
  | 'b' => return '\x08'
  | 't' => return '\t'
  | 'n' => return '\n'
  | 'f' => return '\x0c'
  | 'r' => return '\r'
  | '"' => return '"'
  | '\\' => return '\\'
  | 'u' => scalar (← exactlyOf isHexDigit 4)
  | 'U' => scalar (← exactlyOf isHexDigit 8)
  | _ => failure

def escape : TextParser (List Char) := do
  exactly ['\\']
  return [← escaped]

def basicString : TextParser String := do
  exactly ['"']
  let parts ← many (someOf isBasicChar <|> escape)
  exactly ['"']
  return String.ofList parts.flatten

def literalString : TextParser String := do
  exactly ['\'']
  let content ← allOf isLiteralChar
  exactly ['\'']
  return String.ofList content

def lineBreak : TextParser (List Char) := do
  newline
  return ['\n']

/-- A backslash at the end of a line, which drops the line end and all blanks after it. -/
def lineJoin : TextParser (List Char) := do
  exactly ['\\']
  let _ ← allOf isSpace
  newline
  let _ ← many ((do let _ ← someOf isSpace) <|> newline)
  return []

/-- One or two quotes that do not end the string. -/
def innerQuotes (quote : Char) : TextParser (List Char) := fun cs =>
  match cs.takeWhile (· == quote) with
  | [a] => some ([a], cs.dropWhile (· == quote))
  | [a, b] => some ([a, b], cs.dropWhile (· == quote))
  | _ => none

/-- The three quotes at the end of a string, and one or two more before them. -/
def closingQuotes (quote : Char) : TextParser (List Char) := do
  exactly [quote, quote, quote]
  let extra ← optional (exactly [quote])
  let more ← optional (exactly [quote])
  return List.replicate (extra.toList.length + more.toList.length) quote

def longString (quote : Char) (part : TextParser (List Char)) : TextParser String := do
  exactly [quote, quote, quote]
  let _ ← optional newline
  let parts ← many (part <|> innerQuotes quote)
  let last ← closingQuotes quote
  return String.ofList (parts.flatten ++ last)

def longBasicString : TextParser String :=
  longString '"' (someOf isBasicChar <|> lineJoin <|> escape <|> lineBreak)

def longLiteralString : TextParser String :=
  longString '\'' (someOf isLiteralChar <|> lineBreak)

def string : TextParser TomlValue := do
  let text ← longBasicString <|> basicString <|> longLiteralString <|> literalString
  return .string text

def isSign (c : Char) : Bool :=
  c == '+' || c == '-'

/-- Digits, with single underscores between them. -/
def digitRun (isDigit : Char → Bool) : TextParser (List Char) := do
  let first ← one isDigit
  let more ← many (one isDigit <|> (do
    let _ ← one (· == '_')
    one isDigit))
  return first :: more

def plainDigits : TextParser (List Char) := do
  if (← ahead) = some '0' then
    let zero ← one fun _ => true
    return [zero]
  else digitRun Char.isDigit

def bounded (value : Int) : TextParser TomlValue := fun cs =>
  if -9223372036854775808 ≤ value && value ≤ 9223372036854775807 then
    some (.integer value, cs)
  else none

def based (mark : Char) (base : Nat) (isDigit : Char → Bool) : TextParser TomlValue := do
  exactly ['0', mark]
  bounded (numeral base (← digitRun isDigit))

def signed (sign : Option Char) (value : Int) : Int :=
  if sign = some '-' then -value else value

def decimalInteger : TextParser TomlValue := do
  let sign ← optional (one isSign)
  let digits ← plainDigits
  bounded (signed sign (numeral 10 digits))

def integer : TextParser TomlValue :=
  based 'x' 16 isHexDigit <|> based 'o' 8 (fun c => '0' ≤ c && c ≤ '7') <|>
    based 'b' 2 (fun c => c == '0' || c == '1') <|> decimalInteger

/-- From here on a decimal is nearest to infinity among the floats. -/
def infinityBound : Nat :=
  Nat.pow 2 1024 - Nat.pow 2 970

/-- `digits` scaled by a power of ten reads as an infinite float. -/
def overflows (digits : List Char) (exponent : Int) : Bool :=
  let value := numeral 10 digits
  let places : Int := (Nat.toDigits 10 value).length + exponent
  if value = 0 || places < 308 then false
  else if places > 310 then true
  else if 0 ≤ exponent then infinityBound ≤ value * Nat.pow 10 exponent.toNat
  else infinityBound * Nat.pow 10 (-exponent).toNat ≤ value

def fraction : TextParser (List Char) := do
  exactly ['.']
  digitRun Char.isDigit

def exponent : TextParser Int := do
  let _ ← one fun c => c == 'e' || c == 'E'
  let sign ← optional (one isSign)
  return signed sign (numeral 10 (← digitRun Char.isDigit))

/-- The fraction and the exponent of a float, which has one of them at least. -/
def floatTail : TextParser (List Char × Int) :=
  (do
    let places ← fraction
    return (places, (← optional exponent).getD 0)) <|>
  (do return ([], ← exponent))

/-- A float with digits. One that reads as positive infinity is refused. -/
def finiteFloat : TextParser TomlValue := do
  let sign ← optional (one isSign)
  let whole ← plainDigits
  let (places, exponent) ← floatTail
  if sign != some '-' && overflows (whole ++ places) (exponent - places.length) then failure
  return .float

def specialFloat : TextParser TomlValue := do
  let _ ← optional (one isSign)
  exactly ['i', 'n', 'f'] <|> exactly ['n', 'a', 'n']
  return .float

def float : TextParser TomlValue :=
  finiteFloat <|> specialFloat

def field (n low high : Nat) : TextParser Nat := do
  let value := numeral 10 (← exactlyOf Char.isDigit n)
  if low ≤ value && value ≤ high then return value else failure

def isLeapYear (year : Nat) : Bool :=
  year % 4 == 0 && (year % 100 != 0 || year % 400 == 0)

def daysIn (year month : Nat) : Nat :=
  if month = 2 then (if isLeapYear year then 29 else 28)
  else if month = 4 || month = 6 || month = 9 || month = 11 then 30
  else 31

def date : TextParser Unit := do
  let year ← field 4 0 9999
  exactly ['-']
  let month ← field 2 1 12
  exactly ['-']
  let _ ← field 2 1 (daysIn year month)

def time : TextParser Unit := do
  let _ ← field 2 0 23
  exactly [':']
  let _ ← field 2 0 59
  exactly [':']
  let _ ← field 2 0 60
  let _ ← optional (do
    exactly ['.']
    someOf Char.isDigit)

def timeOffset : TextParser Unit :=
  (do let _ ← one fun c => c == 'Z' || c == 'z') <|>
  (do
    let _ ← one isSign
    let _ ← field 2 0 23
    exactly [':']
    let _ ← field 2 0 59)

def timeOfDate : TextParser Unit := do
  let _ ← one fun c => c == 'T' || c == 't' || c == ' '
  time
  let _ ← optional timeOffset

/-- A date, a time, or a date with a time, which may have an offset. -/
def moment : TextParser TomlValue := do
  (do
    date
    let _ ← optional timeOfDate) <|> time
  return .moment

def boolean : TextParser TomlValue :=
  (do
    exactly ['t', 'r', 'u', 'e']
    return .boolean true) <|>
  (do
    exactly ['f', 'a', 'l', 's', 'e']
    return .boolean false)

def simpleValue : TextParser TomlValue :=
  string <|> boolean <|> moment <|> float <|> integer

end Toml

end JackTokens
