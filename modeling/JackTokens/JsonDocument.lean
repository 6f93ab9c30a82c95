import JackTokens.CharacterClass
import JackTokens.TokenText
import JackTokens.TomlScalar

namespace JackTokens

/-- A value in JSON. A number is what its digits denote. -/
inductive Json where
  | null
  | boolean (value : Bool)
  | number (value : Rat)
  | string (text : String)
  | array (items : List Json)
  | object (members : List (String × Json))

namespace Json

open TextParser

/-- Blanks may stand before every mark, every value and every name. -/
def blanks : TextParser Unit := do
  let _ ← allOf isBlank

def mark (c : Char) : TextParser Unit := do
  blanks
  exactly [c]

/-- A unit of UTF-16, in four digits. -/
def codeUnit : TextParser Nat := do
  return Toml.numeral 16 (← exactlyOf Toml.isHexDigit 4)

/-- The character of a code point. One beyond 16 bits is a pair of surrogates, which have escapes
of their own. -/
def codePoint : TextParser Char := do
  let unit ← codeUnit
  if unit < 0xd800 || 0xe000 ≤ unit then return Char.ofNat unit
  exactly ['\\', 'u']
  let low ← codeUnit
  if unit < 0xdc00 && 0xdc00 ≤ low && low < 0xe000 then
    return Char.ofNat (0x10000 + (unit - 0xd800) * 0x400 + (low - 0xdc00))
  failure

def escaped : TextParser Char := do
  exactly ['\\']
  match ← one fun _ => true with
  | '"' => return '"'
  | '\\' => return '\\'
  | '/' => return '/'
  | 'b' => return '\x08'
  | 'f' => return '\x0c'
  | 'n' => return '\n'
  | 'r' => return '\r'
  | 't' => return '\t'
  | 'u' => codePoint
  | _ => failure

/-- Characters that stand for themselves in a string. -/
def isPlain (c : Char) : Bool :=
  ' ' ≤ c && c != '"' && c != '\\'

def character : TextParser Char :=
  one isPlain <|> escaped

def quoted : TextParser String := do
  exactly ['"']
  let content ← many character
  exactly ['"']
  return String.ofList content

/-- Decimal digits without leading zeros. -/
def wholeDigits : TextParser (List Char) :=
  (do
    let zero ← one (· == '0')
    return [zero]) <|>
  someOf isDecimalDigit

def fraction : TextParser (List Char) := do
  exactly ['.']
  someOf isDecimalDigit

def exponent : TextParser Int := do
  let _ ← one fun c => c == 'e' || c == 'E'
  let sign ← optional (one Toml.isSign)
  return Toml.signed sign (decimalValue (← someOf isDecimalDigit))

def numeral : TextParser Rat := do
  let minus ← optional (one (· == '-'))
  let whole ← wholeDigits
  let places := (← optional fraction).getD []
  let shift := (← optional exponent).getD 0
  let size : Rat := decimalValue (whole ++ places) * 10 ^ (shift - places.length)
  return if minus.isSome then -size else size

/-- Items with commas between them, or none, in brackets. -/
def between {α : Type} (opening closing : Char) (item : TextParser α) : TextParser (List α) := do
  exactly [opening]
  let items ← optional (separated item (mark ','))
  mark closing
  return items.getD []

def entry (value : TextParser Json) : TextParser Json := do
  blanks
  value

def member (value : TextParser Json) : TextParser (String × Json) := do
  blanks
  let name ← quoted
  mark ':'
  return (name, ← entry value)

def word (letters : String) (value : Json) : TextParser Json := do
  exactly letters.toList
  return value

def scalar : TextParser Json :=
  (do return string (← quoted)) <|> (do return number (← numeral)) <|>
    word "true" (boolean true) <|> word "false" (boolean false) <|> word "null" null

/-- A value in which brackets stand less than `depth` deep. -/
def value : Nat → TextParser Json
  | 0 => failure
  | depth + 1 =>
    (do return array (← between '[' ']' (entry (value depth)))) <|>
    (do return object (← between '{' '}' (member (value depth)))) <|>
    scalar

/-- A text with one value, where brackets stand less deep than the text is long. -/
def document : TextParser Json := fun cs =>
  (do
    let found ← entry (value cs.length)
    blanks
    finish
    return found : TextParser Json) cs

def parse? (text : String) : Option Json :=
  (document text.toList).map (·.1)

def member? (name : String) : Json → Option Json
  | object members => members.lookup name
  | _ => none

/-- The token of this kind with this value: a number for an integer constant, a string for any
other kind. -/
def ofDatum? (kind : TokenKind) (datum : Json) : Option Token :=
  match kind, datum with
  | .integerConstant, number value =>
    let size := value.num.toNat
    if size < UInt32.size ∧ size = value then some (.integerConstant size.toUInt32) else none
  | .integerConstant, _ => none
  | kind, string text => Token.ofText? kind text
  | _, _ => none

def token? (json : Json) : Option Token := do
  let string name ← json.member? "kind" | none
  let kind ← TokenKind.ofName? name
  ofDatum? kind (← json.member? "value")

/-- The tokens that an array of objects shows. -/
def tokens? : Json → Option (List Token)
  | array items => items.mapM token?
  | _ => none

end Json

namespace Token

/-- The value of a token: a number for an integer constant, a string for any other. -/
def datum : Token → Json
  | integerConstant value => .number value.toNat
  | token => .string token.text

/-- The object that a JSON listing shows for a token. -/
def toJson (token : Token) : Json :=
  .object [("kind", .string token.kind.name), ("value", token.datum)]

end Token

end JackTokens
