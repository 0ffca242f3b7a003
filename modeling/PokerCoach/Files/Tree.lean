import PokerCoach.Basic

/-!
# Files

What is found at the paths of a computer.
-/

namespace PokerCoach

def joinPath (directory name : String) : String :=
  if name.toList.head? = some '/' then name
  else if directory.isEmpty then name
  else if directory.toList.getLast? = some '/' then directory ++ name
  else directory ++ "/" ++ name

def maxNameSize : Nat := 255

def nameTooLong : String := "File name too long (os error 36)"

inductive FileText where
  | missing
  | unreadable (cause : String)
  | text (s : String)

abbrev Files := String → FileText

def Files.read (files : Files) (path : String) : Except Error String :=
  match files path with
  | .missing => .error (.storage path "No such file or directory (os error 2)")
  | .unreadable cause => .error (.storage path cause)
  | .text s => .ok s

/-! ### File trees

Files and directories by the names on the way to them. A path is followed name by name, and each
name but the last has to lead to a directory, also where the next one leads up again. -/

/-- The names on the way from the root to a file or a directory. -/
abbrev Place := List String

inductive FileNode where
  | directory
  | file (text : String)
  deriving DecidableEq, Repr

/-- Files, and directories besides those on the way to a file. -/
structure FileTree where
  files : List (Place × String) := []
  directories : List Place := []

inductive PathFault where
  | missing
  | notDirectory
  | nameTooLong
  deriving DecidableEq, Repr

namespace FileTree

/-- The names of a path. An empty one, as between two slashes, leads nowhere else, like a point. -/
def names (path : String) : Place :=
  (path.toList.splitOn '/').map fun name => if name.isEmpty then "." else String.ofList name

def place (path : String) : Place :=
  (names path).filter (· != ".")

def ofPaths (texts : List (String × String)) (directories : List String) : FileTree where
  files := texts.map fun (path, text) => (place path, text)
  directories := directories.map place

/-- What is at a place; the root is always there. -/
def node? (tree : FileTree) (place : Place) : Option FileNode :=
  match tree.files.lookup place with
  | some text => some (.file text)
  | none =>
      if place.isEmpty || (tree.files.map Prod.fst ++ tree.directories).any place.isPrefixOf then
        some .directory
      else none

/-- One name further. Nothing is above the root but the root. -/
def enter (tree : FileTree) (place : Place) (name : String) : Except PathFault Place :=
  match tree.node? place with
  | none => .error .missing
  | some (.file _) => .error .notDirectory
  | some .directory =>
      if name = "." then .ok place
      else if name = ".." then .ok place.dropLast
      else if maxNameSize < name.utf8ByteSize then .error .nameTooLong
      else if (tree.node? (place ++ [name])).isSome then .ok (place ++ [name])
      else .error .missing

/-- Only a directory is entered. -/
theorem node?_of_enter {tree : FileTree} {place next : Place} {name : String}
    (h : tree.enter place name = .ok next) : tree.node? place = some .directory := by
  rw [enter] at h
  split at h
  · simp at h
  · simp at h
  · assumption

/-- Where a path leads from a working directory. The empty path leads nowhere. -/
def follow (tree : FileTree) (directory path : String) : Except PathFault Place :=
  if path.isEmpty then .error .missing
  else
    (names path).foldlM tree.enter (if path.toList.head? = some '/' then [] else place directory)

def toFiles (tree : FileTree) (directory : String) : Files := fun path =>
  match tree.follow directory path with
  | .error .missing => .missing
  | .error .notDirectory => .unreadable "Not a directory (os error 20)"
  | .error .nameTooLong => .unreadable nameTooLong
  | .ok place =>
      match tree.node? place with
      | some (.file text) => .text text
      | some .directory => .unreadable "Is a directory (os error 21)"
      | none => .missing

/-- The path from the root of what a path leads to. -/
def resolve (tree : FileTree) (directory path : String) : Option String :=
  (tree.follow directory path).toOption.map fun place => "/" ++ "/".intercalate place

end FileTree

end PokerCoach
