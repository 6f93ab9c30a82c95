import JackTokens.TokenText

namespace JackTokens

namespace Plain

/-- What stands before the first tab of a line, and what stands behind it. -/
def record (line : List Char) : String × String :=
  (String.ofList (line.takeWhile (· != '\t')),
    String.ofList ((line.dropWhile (· != '\t')).drop 1))

def token? (entry : String × String) : Option Token := do
  let kind ← TokenKind.ofName? entry.1
  Token.ofText? kind entry.2

/-- The tokens of a listing with a line for each. A last line that is not ended is not read. -/
def tokens? (listing : String) : Option (List Token) :=
  (listing.toList.splitOn '\n').dropLast.mapM fun line => token? (record line)

end Plain

end JackTokens
