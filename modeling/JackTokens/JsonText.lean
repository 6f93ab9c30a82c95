namespace JackTokens

/-- A character as it stands in a JSON string. Quotes, backslashes and controls are escaped, with
the short form if there is one. -/
def jsonChar (c : Char) : List Char :=
  if c = '"' then ['\\', '"']
  else if c = '\\' then ['\\', '\\']
  else if c = '\x08' then ['\\', 'b']
  else if c = '\t' then ['\\', 't']
  else if c = '\n' then ['\\', 'n']
  else if c = '\x0c' then ['\\', 'f']
  else if c = '\r' then ['\\', 'r']
  else if c < ' ' then
    ['\\', 'u', '0', '0', Nat.digitChar (c.toNat / 16), Nat.digitChar (c.toNat % 16)]
  else [c]

def jsonChars (cs : List Char) : List Char :=
  cs.flatMap jsonChar

def jsonString (text : String) : String :=
  "\"" ++ String.ofList (jsonChars text.toList) ++ "\""

end JackTokens
