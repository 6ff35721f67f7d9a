/-! # Reading the input of the command

The bytes of a source come from a file or from standard input. Reading them may
fail for a reason that the system gives, and they may fail to be UTF-8 text.
-/
namespace DefLang.Command

/-- Why a source cannot be read. -/
inductive ReadError where
  /-- The system refused, with a description and an error number. -/
  | system (description : String) (number : Nat)
  /-- Something else went wrong. -/
  | other (description : String)
  /-- The bytes are not UTF-8. -/
  | notText
deriving DecidableEq, Repr

namespace ReadError

/-- There is nothing at a path. -/
def notFound : ReadError := .system "No such file or directory" 2

/-- A path goes on below a file. -/
def notDirectory : ReadError := .system "Not a directory" 20

/-- A path leads to a directory. -/
def isDirectory : ReadError := .system "Is a directory" 21

/-- A path or one of its names is longer than allowed. -/
def nameTooLong : ReadError := .system "File name too long" 36

/-- The error of the system with a number. The errors that a path can lead to have
descriptions of their own, whatever the call that failed says of them. -/
def ofNumber (number : Nat) (description : String) : ReadError :=
  match number with
  | 2 => notFound
  | 5 => .system "Input/output error" 5
  | 13 => .system "Permission denied" 13
  | 20 => notDirectory
  | 21 => isDirectory
  | 24 => .system "Too many open files" 24
  | 36 => nameTooLong
  | 40 => .system "Too many levels of symbolic links" 40
  | _ => .system description number

/-- The wording of a read error. -/
def message : ReadError → String
  | .system description number => description ++ " (os error " ++ Nat.repr number ++ ")"
  | .other description => description
  | .notText => "stream did not contain valid UTF-8"

end ReadError

/-- The text that some bytes encode. -/
def decode (bytes : ByteArray) : Except ReadError String :=
  match String.fromUTF8? bytes with
  | some text => .ok text
  | none => .error .notText

/-- Where the command finds its input. -/
structure Sources (m : Type → Type) where
  standardInput : m (Except ReadError ByteArray)
  file : String → m (Except ReadError ByteArray)

/-- The bytes at a path, where a lone hyphen stands for standard input. -/
def Sources.read {m : Type → Type} (sources : Sources m) (path : String) :
    m (Except ReadError ByteArray) :=
  if path = "-" then sources.standardInput else sources.file path

end DefLang.Command
