import Signet.Configuration.Basic

/-!
# File trees

The configuration stands in a file that is found by its path. A path is followed name by name, from
the root or from the directory that the program was started in, and every name must be looked up in
a directory: also the empty one behind a last slash, and those that mean the directory itself or the
one above.
-/

namespace Signet

/-- The names that lead from the root to a file or a directory. -/
abbrev Location := List String

inductive FileNode
  | directory
  | file (content : Octets)

structure FileTree where
  /-- The directory that the program was started in. -/
  start : Location
  /-- Directories; those that lead to another or to a file need not be named. -/
  directories : List Location := []
  files : List (Location × Octets)

namespace FileTree

def isDirectory (tree : FileTree) (location : Location) : Bool :=
  let homes : List Location := tree.files.map (·.1.dropLast)
  (tree.start :: tree.directories ++ homes).any location.isPrefixOf

def node? (tree : FileTree) (location : Location) : Option FileNode :=
  match tree.files.lookup location with
  | some content => some (.file content)
  | none => if tree.isDirectory location then some .directory else none

def follow (tree : FileTree) (location : Location) (name : String) : Except FileFault Location :=
  match tree.node? location with
  | none => .error .missing
  | some (.file _) => .error .notDirectory
  | some .directory =>
    if name = "" ∨ name = "." then .ok location
    else if name = ".." then .ok location.dropLast
    else if 255 < name.utf8ByteSize then .error .nameTooLong
    else
      match tree.node? (location ++ [name]) with
      | none => .error .missing
      | some _ => .ok (location ++ [name])

def locate (tree : FileTree) (path : String) : Except FileFault Location :=
  let start := if path.toList.head? = some '/' then [] else tree.start
  (path.splitOn "/").foldlM tree.follow start

def read (tree : FileTree) (path : String) : Except FileFault Octets :=
  if path.toList.contains '\x00' then .error (.other "file name contained an unexpected NUL byte")
  else if path.isEmpty then .error .missing
  else if 4095 < path.utf8ByteSize then .error .nameTooLong
  else
    match tree.locate path with
    | .error fault => .error fault
    | .ok location =>
      match tree.node? location with
      | none => .error .missing
      | some .directory => .error .directory
      | some (.file content) => .ok content

end FileTree

end Signet
