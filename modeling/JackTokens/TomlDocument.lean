import JackTokens.TomlScalar

namespace JackTokens

namespace Toml

open TextParser

def spaces : TextParser Unit := do
  let _ ← allOf isSpace

def comment : TextParser Unit := do
  exactly ['#']
  let _ ← allOf isPrintable

def lineEnd : TextParser Unit := do
  spaces
  let _ ← optional comment
  newline <|> finish

def blanks : TextParser Unit := do
  let _ ← many ((do let _ ← someOf isSpace) <|> newline <|> comment)

def isBareKeyChar (c : Char) : Bool :=
  c.isAlphanum || c == '_' || c == '-'

def simpleKey : TextParser String :=
  basicString <|> literalString <|> String.ofList <$> someOf isBareKeyChar

/-- More than this many values within each other, or keys in a row, are refused. -/
def maxDepth : Nat :=
  79

/-- The keys of a dotted key: those on the way, and the last. -/
def key : TextParser (List String × String) := do
  let keys ← separated (do
    spaces
    let part ← simpleKey
    spaces
    return part) (exactly ['.'])
  match keys.getLast? with
  | some last => if keys.length ≤ maxDepth then return (keys.dropLast, last) else failure
  | none => failure

def assignment (value : TextParser TomlValue) : TextParser (List String × String × TomlValue) := do
  let (path, last) ← key
  exactly ['=']
  spaces
  return (path, last, ← value)

/-- Values between brackets, on any number of lines. A comma may follow the last. -/
def array (value : TextParser TomlValue) : TextParser TomlValue := do
  exactly ['[']
  let items ← optional (separated (do
    blanks
    let item ← value
    blanks
    return item) (exactly [',']))
  if items.isSome then
    let _ ← optional (exactly [','])
  blanks
  exactly [']']
  return .array (items.getD [])

def collect (assignments : List (List String × String × TomlValue)) : Option TomlEntries :=
  assignments.foldlM (fun entries (path, last, value) =>
    TomlEntries.add path last value .inline entries) []

/-- Assignments between braces, on one line. -/
def inlineTable (value : TextParser TomlValue) : TextParser TomlValue := do
  exactly ['\x7b']
  let assignments ← optional (separated (do
    let found ← assignment value
    spaces
    return found) (exactly [',']))
  spaces
  exactly ['\x7d']
  match collect (assignments.getD []) with
  | some entries => return .table .inline entries
  | none => failure

/-- A value, in which others stand within each other `depth` times at most. -/
def value : Nat → TextParser TomlValue
  | 0 => simpleValue
  | depth + 1 => array (value depth) <|> inlineTable (value depth) <|> simpleValue

inductive Statement where
  | header (path : List String) (last : String)
  | element (path : List String) (last : String)
  | assign (path : List String) (last : String) (value : TomlValue)

def header : TextParser Statement := do
  exactly ['[']
  let (path, last) ← key
  exactly [']']
  return .header path last

def element : TextParser Statement := do
  exactly ['[', '[']
  let (path, last) ← key
  exactly [']', ']']
  return .element path last

def assign : TextParser Statement := do
  let (path, last, value) ← assignment (value maxDepth)
  return .assign path last value

/-- A line with a statement, a comment or nothing. -/
def line : TextParser (Option Statement) := do
  spaces
  if (← ahead).isNone then failure
  let statement ← optional (element <|> header <|> assign)
  lineEnd
  return statement

/-- The lines of a document. A byte order mark may come first. -/
def document : TextParser (List Statement) := do
  let _ ← optional (exactly ['\ufeff'])
  let lines ← many line
  spaces
  finish
  return lines.filterMap id

/-- The top level of a document, and the path of the table that its next lines belong to. -/
structure Draft where
  entries : TomlEntries
  path : List String

def Draft.accept (draft : Draft) : Statement → Option Draft
  | .header path last => do
    let entries ← TomlEntries.change false (fun _ => TomlEntries.addHeader last) path .header
      draft.entries
    return ⟨entries, path ++ [last]⟩
  | .element path last => do
    let entries ← TomlEntries.change false (fun _ => TomlEntries.addElement last) path .header
      draft.entries
    return ⟨entries, path ++ [last]⟩
  | .assign path last value => do
    let entries ← TomlEntries.change false (TomlEntries.add path last value) draft.path .header
      draft.entries
    return ⟨entries, draft.path⟩

/-- The top level of a TOML document, `none` if it is not one. -/
def parse (text : String) : Option TomlEntries := do
  let (statements, _) ← document text.toList
  let draft ← statements.foldlM Draft.accept ⟨[], []⟩
  return draft.entries

end Toml

end JackTokens
