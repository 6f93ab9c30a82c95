import JackTokens.Decimal
import JackTokens.Keyword
import JackTokens.Symbol

namespace JackTokens

inductive TokenKind where
  | keyword
  | symbol
  | identifier
  | integerConstant
  | stringConstant
deriving DecidableEq

def TokenKind.name : TokenKind → String
  | .keyword => "keyword"
  | .symbol => "symbol"
  | .identifier => "identifier"
  | .integerConstant => "integerConstant"
  | .stringConstant => "stringConstant"

/-- A token of Jack. A string constant has its content without the quotes. -/
inductive Token where
  | keyword (keyword : Keyword)
  | symbol (symbol : Symbol)
  | identifier (name : String)
  | integerConstant (value : UInt32)
  | stringConstant (content : String)
deriving DecidableEq

namespace Token

def kind : Token → TokenKind
  | keyword _ => .keyword
  | symbol _ => .symbol
  | identifier _ => .identifier
  | integerConstant _ => .integerConstant
  | stringConstant _ => .stringConstant

/-- The token as listings show it: a string constant without its quotes. -/
def text : Token → String
  | keyword k => k.spelling
  | symbol s => String.singleton s.char
  | identifier name => name
  | integerConstant value => decimal value.toNat
  | stringConstant content => content

/-- The token as sources spell it. -/
def spelling : Token → String
  | stringConstant content => "\"" ++ content ++ "\""
  | token => token.text

/-- The token that a word is. -/
def ofWord (word : String) : Token :=
  match Keyword.ofSpelling? word with
  | some k => keyword k
  | none => identifier word

end Token

end JackTokens
