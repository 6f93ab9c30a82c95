import JackTokens.CommandError
import JackTokens.FileSystem
import JackTokens.Listing
import JackTokens.TomlDocument

namespace JackTokens

structure Settings where
  format : Format
  bufferCapacity : Nat
deriving DecidableEq

namespace Settings

def default : Settings :=
  ⟨.text, defaultCapacity⟩

def isHollow : TomlValue → Bool
  | .array items => items.isEmpty
  | .table _ entries => entries.isEmpty
  | _ => false

/-- A format by its name: a string, or a table whose only key it is, without contents. -/
def formatOf : TomlValue → Option Format
  | .string name => Format.ofName? name
  | .table _ [(name, value)] => if isHollow value then Format.ofName? name else none
  | _ => none

def capacityOf : TomlValue → Option Nat
  | .integer (.ofNat n) => some n
  | _ => none

/-- The value at `key` as `decode` reads it, `fallback` if the key is missing. -/
def setting {α : Type} (entries : TomlEntries) (key : String) (fallback : α)
    (decode : TomlValue → Option α) : Option α :=
  match List.lookup key entries with
  | none => some fallback
  | some value => decode value

/-- The buffer capacity among the settings of the tokenizer. They are a table, or an array with the
values in order; a date has no key that is a setting. -/
def tokenizerCapacityOf : TomlValue → Option Nat
  | .table _ entries => setting entries "buffer_capacity" defaultCapacity capacityOf
  | .array [] => some defaultCapacity
  | .array (value :: _) => capacityOf value
  | .moment => some defaultCapacity
  | _ => none

/-- The settings in a TOML document. Keys that are no settings do not count. -/
def ofToml? (entries : TomlEntries) : Option Settings := do
  let format ← setting entries "format" .text formatOf
  let capacity ← setting entries "tokenizer" defaultCapacity tokenizerCapacityOf
  return ⟨format, capacity⟩

def parse? (text : String) : Option Settings :=
  (Toml.parse text).bind ofToml?

/-- The settings in the file at `path`, which must be there. -/
def load (files : FileSystem) (path : String) : Except CommandError Settings :=
  if files.present path then
    match files.readText path with
    | .error error => .error (.device error)
    | .ok text =>
      match parse? text with
      | none => .error (.settings "Failed to parse configuration")
      | some settings => .ok settings
  else .error (.settings ("Configuration file not found: " ++ path))

def fileName : String :=
  "jackt.toml"

/-- Where settings are looked for: the working directory, then below the home directory and the
directory for settings, as far as these are known. -/
def searchPaths (home? configDirectory? : Option String) : List String :=
  [fileName] ++
  home?.toList.map (· ++ "/.config/jackt/" ++ fileName) ++
  configDirectory?.toList.map (· ++ "/jackt/" ++ fileName)

/-- The settings in the first file that is there, the default ones if none is. -/
def search (files : FileSystem) (paths : List String) : Except CommandError Settings :=
  match paths.find? files.present with
  | some path => load files path
  | none => .ok default

end Settings

end JackTokens
