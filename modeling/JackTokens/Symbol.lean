namespace JackTokens

/-- The symbols of Jack, one character each. -/
inductive Symbol where
  | leftBrace
  | rightBrace
  | leftParen
  | rightParen
  | leftBracket
  | rightBracket
  | dot
  | comma
  | semicolon
  | plus
  | minus
  | star
  | slash
  | ampersand
  | bar
  | less
  | greater
  | equals
  | tilde
deriving DecidableEq

namespace Symbol

def all : List Symbol :=
  [leftBrace, rightBrace, leftParen, rightParen, leftBracket, rightBracket, dot, comma, semicolon,
    plus, minus, star, slash, ampersand, bar, less, greater, equals, tilde]

def char : Symbol → Char
  | leftBrace => '{'
  | rightBrace => '}'
  | leftParen => '('
  | rightParen => ')'
  | leftBracket => '['
  | rightBracket => ']'
  | dot => '.'
  | comma => ','
  | semicolon => ';'
  | plus => '+'
  | minus => '-'
  | star => '*'
  | slash => '/'
  | ampersand => '&'
  | bar => '|'
  | less => '<'
  | greater => '>'
  | equals => '='
  | tilde => '~'

def ofChar? (c : Char) : Option Symbol :=
  all.find? fun symbol => symbol.char == c

theorem ofChar?_char (symbol : Symbol) : ofChar? symbol.char = some symbol := by
  cases symbol <;> decide

end Symbol

end JackTokens
