import DefLang.Command.Input

/-! # A working directory in memory

Paths are resolved component by component against a tree of files and
directories. This lets the command run without a file system: its answer then
depends on nothing but its arguments and the tree.
-/
namespace DefLang.Command

/-- A file with its bytes, or a directory with its named entries. -/
inductive Entry where
  | file (content : ByteArray)
  | directory (entries : List (String × Entry))

/-- The entries of a directory, by name. Of several entries with one name the
first counts. -/
abbrev Directory := List (String × Entry)

namespace Directory

/-- The directory of a name in another, which is empty if there is none. -/
def subdirectory (directory : Directory) (name : String) : Directory :=
  match directory.lookup name with
  | some (.directory entries) => entries
  | _ => []

/-- Changes the directory that some names lead to. Directories that are missing
on the way are made. -/
def modifyAt (change : Directory → Directory) : List String → Directory → Directory
  | [], directory => change directory
  | name :: rest, directory =>
      (name, .directory (modifyAt change rest (directory.subdirectory name))) :: directory

/-- The parts of a text between its slashes. There is one more of them than there
are slashes. -/
def splitSlashes : List Char → List (List Char)
  | [] => [[]]
  | character :: rest =>
      if character = '/' then [] :: splitSlashes rest
      else
        match splitSlashes rest with
        | [] => [[character]]
        | part :: parts => (character :: part) :: parts

/-- The components of a path. -/
def components (path : String) : List String :=
  (splitSlashes path.toList).map String.ofList

/-- The names in a path, without those that stay in place. -/
def names (path : String) : List String :=
  (components path).filter fun name => name ≠ "" ∧ name ≠ "."

/-- Makes the directory at a path, if there is none yet. -/
def addDirectory (directory : Directory) (path : String) : Directory :=
  modifyAt id (names path) directory

/-- Puts a file at a path, in a directory that is made if there is none yet. -/
def addFile (directory : Directory) (path : String) (content : ByteArray) : Directory :=
  match (names path).getLast? with
  | none => directory
  | some name => modifyAt ((name, .file content) :: ·) (names path).dropLast directory

/-- How many bytes a name in a path may have. -/
def maxNameBytes : Nat := 255

/-- How many bytes a whole path may have. -/
def maxPathBytes : Nat := 4095

/-- Follows path components from a directory, given the directories around it
from the nearest on. Around the outermost one nothing is visible. -/
def resolve (around : List Directory) (here : Directory) :
    List String → Except ReadError ByteArray
  | [] => .error .isDirectory
  | component :: rest =>
      if component = "" ∨ component = "." then
        resolve around here rest
      else if component = ".." then
        match around with
        | [] => resolve [] [] rest
        | parent :: outer => resolve outer parent rest
      else if maxNameBytes < component.utf8ByteSize then
        .error .nameTooLong
      else
        match here.lookup component with
        | none => .error .notFound
        | some (.directory entries) => resolve (here :: around) entries rest
        | some (.file content) => if rest = [] then .ok content else .error .notDirectory

/-- The bytes at a path relative to a directory. A path that starts at the root
leaves the directory, and the empty path leads nowhere. -/
def read (directory : Directory) (path : String) : Except ReadError ByteArray :=
  if path = "" then .error .notFound
  else if maxPathBytes < path.utf8ByteSize then .error .nameTooLong
  else if path.toList.head? = some '/' then resolve [] [] (components path)
  else resolve [] directory (components path)

/-- The sources of a command that runs in a directory. -/
def sources (directory : Directory) (standardInput : ByteArray) : Sources Id where
  standardInput := .ok standardInput
  file := directory.read

end Directory

end DefLang.Command
