namespace JackTokens

/-- How a TOML table came about, which decides what may still be added to it. -/
inductive TableOrigin where
  /-- By a header of its own; the top level counts as such. -/
  | header
  /-- As a parent of a table with a header. -/
  | implied
  /-- As a parent of a dotted key. -/
  | dotted
  /-- Between braces. -/
  | inline
deriving DecidableEq

/-- A TOML value. Of floats and of dates and times only the presence is kept. -/
inductive TomlValue where
  | string (text : String)
  | integer (value : Int)
  | float
  | boolean (value : Bool)
  | moment
  | array (items : List TomlValue)
  | table (origin : TableOrigin) (entries : List (String × TomlValue))
  /-- An array of tables, each with a header of its own. -/
  | tables (earlier : List (List (String × TomlValue))) (last : List (String × TomlValue))

/-- The keys and values of a table, in the order of their first appearance. -/
abbrev TomlEntries := List (String × TomlValue)

namespace TomlEntries

def put (entries : TomlEntries) (key : String) (value : TomlValue) : TomlEntries :=
  if entries.any (fun entry => entry.1 == key) then
    entries.map fun entry => if entry.1 == key then (key, value) else entry
  else entries ++ [(key, value)]

/-- Changes the table at `path`. Tables on the way that are missing come about as parents of a
dotted key if `dotted`, else as parents of a header. A dotted key does not reach into a table that
has a header, and nothing reaches into one between braces. An array stands for its last table. -/
def change (dotted : Bool) (leaf : TableOrigin → TomlEntries → Option TomlEntries) :
    List String → TableOrigin → TomlEntries → Option TomlEntries
  | [], origin, entries => leaf origin entries
  | key :: path, _, entries =>
    match List.lookup key entries with
    | none => do
      let origin : TableOrigin := if dotted then .dotted else .implied
      let inner ← change dotted leaf path origin []
      return put entries key (.table origin inner)
    | some (.table origin inner) =>
      if origin = .inline || (dotted && origin = .header) then none
      else do
        let inner ← change dotted leaf path origin inner
        return put entries key (.table origin inner)
    | some (.tables earlier last) => do
      let last ← change dotted leaf path .header last
      return put entries key (.tables earlier last)
    | some _ => none

/-- Adds `value` at the dotted key `path` followed by `key`. The key must be new, and a table that
`path` leads to must have come about by dotted keys. -/
def add (path : List String) (key : String) (value : TomlValue) :
    TableOrigin → TomlEntries → Option TomlEntries :=
  change true (fun origin entries =>
    if (origin == .dotted) == path.isEmpty then none
    else if (List.lookup key entries).isSome then none
    else some (entries ++ [(key, value)])) path

/-- Gives the table `key` a header: it is new or was only implied so far. -/
def addHeader (key : String) (entries : TomlEntries) : Option TomlEntries :=
  match List.lookup key entries with
  | none => some (put entries key (.table .header []))
  | some (.table .implied inner) => some (put entries key (.table .header inner))
  | some _ => none

def addElement (key : String) (entries : TomlEntries) : Option TomlEntries :=
  match List.lookup key entries with
  | none => some (put entries key (.tables [] []))
  | some (.tables earlier last) => some (put entries key (.tables (earlier ++ [last]) []))
  | some _ => none

end TomlEntries

end JackTokens
