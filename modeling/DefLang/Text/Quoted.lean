import DefLang.Text.Visible

/-! # Quoted text

A text is quoted between double quotes, with every character that would be
misread replaced by an escape. The quote and the backslash stand after a
backslash, four controls are named by a letter or digit, and every other
character that cannot be shown is written by its code point.
-/
namespace DefLang.Text

/-- The code point of a character between braces, in hexadecimal digits
without leading zeros. -/
def escapeCodePoint (character : Char) : List Char :=
  '\\' :: 'u' :: '\x7b' :: (Nat.toDigits 16 character.toNat ++ ['\x7d'])

/-- How one character is written inside quotes. -/
def escape (character : Char) : List Char :=
  if character = '\x22' then ['\\', '\x22']
  else if character = '\\' then ['\\', '\\']
  else if character = '\t' then ['\\', 't']
  else if character = '\r' then ['\\', 'r']
  else if character = '\n' then ['\\', 'n']
  else if character = '\x00' then ['\\', '0']
  else if isVisible character then [character]
  else escapeCodePoint character

/-- A text between double quotes, with its characters escaped. -/
def quote (text : String) : String :=
  String.ofList ('\x22' :: (text.toList.flatMap escape ++ ['\x22']))

end DefLang.Text
