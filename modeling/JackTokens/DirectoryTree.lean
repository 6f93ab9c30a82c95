import JackTokens.FileSystem

namespace JackTokens

/-- A file, or a directory with its entries by name. -/
inductive DirectoryTree where
  | file (bytes : List UInt8)
  | directory (entries : List (String × DirectoryTree))

namespace DirectoryTree

def empty : DirectoryTree :=
  directory []

def entry? (name : String) : DirectoryTree → Option DirectoryTree
  | file _ => none
  | directory entries => entries.lookup name

def put (here : DirectoryTree) (name : String) (tree : DirectoryTree) : DirectoryTree :=
  match here with
  | file _ => directory [(name, tree)]
  | directory entries => directory ((name, tree) :: entries.filter fun entry => entry.1 != name)

/-- Puts `leaf` at the place that the names lead to. Directories on the way are made as needed. -/
def insert (leaf : DirectoryTree) : List String → DirectoryTree → DirectoryTree
  | [], _ => leaf
  | name :: names, here => here.put name (insert leaf names ((here.entry? name).getD empty))

/-- Follows names from `here`, where `above` has the directories that lead to it, the nearest first.
An empty name and a dot stay, two dots go up. Beyond the top all directories are empty. -/
def walk (above : List DirectoryTree) (here : DirectoryTree) :
    List String → Except DeviceError DirectoryTree
  | [] => .ok here
  | name :: names =>
    match here with
    | file _ => .error .notDirectory
    | directory entries =>
      if name = "" || name = "." then walk above here names
      else if name = ".." then
        match above with
        | [] => walk [] empty names
        | parent :: above => walk above parent names
      else
        match entries.lookup name with
        | none => .error .noSuchFile
        | some tree => walk (here :: above) tree names

/-- What stands at `path`, seen from `tree` as the working directory. -/
def find (tree : DirectoryTree) (path : String) : Except DeviceError DirectoryTree :=
  if path = "" then .error .noSuchFile
  else if path.startsWith "/" then walk [] empty (path.splitOn "/")
  else walk [] tree (path.splitOn "/")

def addFile (tree : DirectoryTree) (path : String) (bytes : List UInt8) : DirectoryTree :=
  insert (file bytes) (path.splitOn "/") tree

def addDirectory (tree : DirectoryTree) (path : String) : DirectoryTree :=
  insert empty (path.splitOn "/") tree

/-- A file gives its bytes. A directory can be opened, but reading from it fails. -/
def reader : DirectoryTree → Reader
  | file bytes => .ofBytes bytes
  | directory _ => .ofSteps [.fail .directory]

def files (tree : DirectoryTree) : FileSystem where
  present path := (tree.find path).toOption.isSome
  openFile path :=
    match tree.find path with
    | .error error => .error error
    | .ok found => .ok found.reader

end DirectoryTree

end JackTokens
