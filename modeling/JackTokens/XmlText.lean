namespace JackTokens

/-- A character as it stands in the text of an XML document. -/
def xmlChar (c : Char) : List Char :=
  if c = '<' then ['&', 'l', 't', ';']
  else if c = '>' then ['&', 'g', 't', ';']
  else if c = '&' then ['&', 'a', 'm', 'p', ';']
  else if c = '"' then ['&', 'q', 'u', 'o', 't', ';']
  else [c]

def xmlChars (cs : List Char) : List Char :=
  cs.flatMap xmlChar

def xmlText (text : String) : String :=
  String.ofList (xmlChars text.toList)

end JackTokens
