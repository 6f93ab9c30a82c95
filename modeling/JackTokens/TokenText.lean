import JackTokens.Token

namespace JackTokens

namespace TokenKind

def all : List TokenKind :=
  [keyword, symbol, identifier, integerConstant, stringConstant]

/-- The kind that `word` names, letter case included. -/
def ofName? (word : String) : Option TokenKind :=
  all.find? fun kind => kind.name == word

theorem ofName?_name (kind : TokenKind) : ofName? kind.name = some kind := by
  cases kind <;> decide

end TokenKind

namespace Token

/-- The token that a listing shows as `kind` and `text`. A number is without leading zeros. -/
def ofText? (kind : TokenKind) (text : String) : Option Token :=
  match kind with
  | .keyword => (Keyword.ofSpelling? text).map keyword
  | .symbol =>
    match text.toList with
    | [c] => (Symbol.ofChar? c).map symbol
    | _ => none
  | .identifier => some (identifier text)
  | .integerConstant =>
    let value := decimalValue text.toList
    if value < UInt32.size ∧ decimal value = text then some (integerConstant value.toUInt32)
    else none
  | .stringConstant => some (stringConstant text)

theorem ofText?_text (token : Token) : ofText? token.kind token.text = some token := by
  cases token with
  | keyword k =>
    show (Keyword.ofSpelling? k.spelling).map keyword = _
    rw [Keyword.ofSpelling?_spelling]
    rfl
  | symbol s =>
    have single : (symbol s).text.toList = [s.char] := String.toList_singleton s.char
    simp only [ofText?, kind, single, Symbol.ofChar?_char]
    rfl
  | identifier name => rfl
  | integerConstant value =>
    have same := decimalValue_decimal value.toNat
    simp only [ofText?, kind, text, same, and_true]
    rw [if_pos value.toNat_lt_size]
    simp
  | stringConstant content => rfl

end Token

end JackTokens
