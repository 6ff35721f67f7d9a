import DefLang.Text.Offset

/-! # Snippets

A snippet shows a place in a source text: the line that holds it, and a caret
under its column. Lines and columns are counted from one, and columns in
characters.
-/
namespace DefLang

/-- A place in a source, with the line around it. -/
structure Snippet where
  line : Nat
  column : Nat
  text : String
deriving DecidableEq, Repr

namespace Snippet

/-- The end of a text after its last line feed. -/
def lastLine (text : List Char) : List Char :=
  (text.reverse.takeWhile (· ≠ '\n')).reverse

/-- The start of a text up to its first line feed. -/
def firstLine (text : List Char) : List Char := text.takeWhile (· ≠ '\n')

/-- Removes the carriage returns at the end of a line. -/
def trimReturns (line : List Char) : List Char :=
  (line.reverse.dropWhile (· = '\r')).reverse

/-- The place between two parts of a source. -/
def between (before after : List Char) : Snippet where
  line := before.count '\n' + 1
  column := (lastLine before).length + 1
  text := String.ofList (trimReturns (lastLine before ++ firstLine after))

/-- The place at a byte offset, which counts as the end when it lies beyond it.
An offset inside a character names no place. -/
def at? (source : String) (offset : Nat) : Option Snippet :=
  let text := source.toList
  match Text.splitAt? text (min offset (Text.byteLength text)) with
  | some (before, after) => some (between before after)
  | none => none

/-- The line and column before the shown line. -/
def position (snippet : Snippet) : String :=
  Nat.repr snippet.line ++ ":" ++ Nat.repr snippet.column ++ ": "

/-- The quoted line, and below it a caret under the column. -/
def render (snippet : Snippet) : String :=
  let indent := snippet.position.length + snippet.column
  snippet.position ++ "'" ++ snippet.text ++ "'\n" ++
    String.ofList (List.replicate indent ' ') ++ "^"

end Snippet

end DefLang
