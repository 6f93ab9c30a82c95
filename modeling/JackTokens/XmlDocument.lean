import JackTokens.TextParser
import JackTokens.TokenText

namespace JackTokens

namespace Xml

open TextParser

def entity : TextParser Char := do
  exactly ['&']
  let name ← someOf Char.isAlpha
  exactly [';']
  match name with
  | ['l', 't'] => return '<'
  | ['g', 't'] => return '>'
  | ['a', 'm', 'p'] => return '&'
  | ['q', 'u', 'o', 't'] => return '"'
  | _ => failure

/-- Characters that stand for themselves in a text. -/
def isPlain (c : Char) : Bool :=
  c != '<' && c != '>' && c != '&' && c != '"'

def character : TextParser Char :=
  one isPlain <|> entity

/-- The text with its entities replaced by what they stand for. -/
def plainText : TextParser String := do
  let content ← many character
  finish
  return String.ofList content

/-- The token in an element with this tag and content. The text stands between two spaces, of which
`content` has the second. -/
def elementToken? (tag content : List Char) : Option Token := do
  let kind ← TokenKind.ofName? (String.ofList tag)
  if content.getLast? = some ' ' then Token.ofText? kind (String.ofList content.dropLast) else none

/-- A line with an element for a token. -/
def element : TextParser Token := do
  exactly ['<']
  let tag ← someOf Char.isAlpha
  exactly ['>', ' ']
  let content ← many character
  exactly ['<', '/']
  exactly tag
  exactly ['>', '\n']
  StateT.lift (elementToken? tag content)

def document : TextParser (List Token) := do
  exactly "<tokens>\n".toList
  let tokens ← many element
  exactly "</tokens>\n".toList
  finish
  return tokens

/-- What `text` is once it is no longer escaped, `none` if it holds markup. -/
def unescape? (text : String) : Option String :=
  (plainText text.toList).map (·.1)

def tokens? (listing : String) : Option (List Token) :=
  (document listing.toList).map (·.1)

end Xml

end JackTokens
