import JackTokens.JsonText
import JackTokens.Token
import JackTokens.XmlText

namespace JackTokens

inductive Format where
  | text
  | xml
  | json
deriving DecidableEq

namespace Format

def name : Format → String
  | text => "text"
  | xml => "xml"
  | json => "json"

def ofName? (word : String) : Option Format :=
  [text, xml, json].find? fun format => format.name == word

end Format

namespace Token

def textLine (token : Token) : String :=
  token.kind.name ++ "\t" ++ token.text ++ "\n"

/-- A line with an element named for the kind, and the text between two spaces. -/
def xmlLine (token : Token) : String :=
  "<" ++ token.kind.name ++ "> " ++ xmlText token.text ++ " </" ++ token.kind.name ++ ">\n"

/-- The value of a token in JSON: a number for an integer constant, a string for any other. -/
def jsonValue : Token → String
  | integerConstant value => decimal value.toNat
  | token => jsonString token.text

def jsonCompact (token : Token) : String :=
  "\x7b\"kind\":" ++ jsonString token.kind.name ++ ",\"value\":" ++ token.jsonValue ++ "\x7d"

/-- A token as a JSON object that is an entry of an indented array. -/
def jsonEntry (token : Token) : String :=
  "  \x7b\n    \"kind\": " ++ jsonString token.kind.name ++
  ",\n    \"value\": " ++ token.jsonValue ++ "\n  \x7d"

end Token

def jsonArray (entries : List String) : String :=
  if entries.isEmpty then "[]" else "[\n" ++ ",\n".intercalate entries ++ "\n]"

/-- The pieces that a listing of `tokens` is written in. The JSON array is one piece, and the line
feed after it another. -/
def listingPieces (format : Format) (tokens : List Token) : List String :=
  match format with
  | .text => tokens.map Token.textLine
  | .xml => ["<tokens>\n"] ++ tokens.map Token.xmlLine ++ ["</tokens>\n"]
  | .json => [jsonArray (tokens.map Token.jsonEntry), "\n"]

def listing (format : Format) (tokens : List Token) : String :=
  String.join (listingPieces format tokens)

end JackTokens
