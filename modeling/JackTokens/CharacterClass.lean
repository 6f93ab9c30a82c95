namespace JackTokens

/-- Letters of ASCII and the underscore begin a word. -/
def isWordStart (c : Char) : Bool :=
  c.isAlpha || c == '_'

/-- Letters and digits of ASCII and the underscore continue a word. -/
def isWordPart (c : Char) : Bool :=
  c.isAlphanum || c == '_'

def isDecimalDigit (c : Char) : Bool :=
  c.isDigit

def isBlank (c : Char) : Bool :=
  c == ' ' || c == '\t' || c == '\r' || c == '\n'

end JackTokens
