import RightOfWay.Text.Hidden

/-!
# Quoted text in messages

A message that repeats a piece of input puts it between quotes, so that the reader sees where it
ends.  `quote` does this for a text and `quoteChar` for a single character.  The quote in use, the
backslash and the usual controls are written with a backslash, and characters that would not show by
their code point, as in `\u{301}`.
-/

set_option autoImplicit false

namespace RightOfWay.Text

/-- The code point of the character in lower-case hexadecimal, without leading zeros. -/
def hexDigits (c : Char) : List Char := Nat.toDigits 16 c.toNat

/-- One character as it stands between two of the given quotes. -/
def escape (mark c : Char) : List Char :=
  if c = mark ∨ c = '\\' then ['\\', c]
  else if c = '\n' then ['\\', 'n']
  else if c = '\t' then ['\\', 't']
  else if c = '\r' then ['\\', 'r']
  else if c = '\x00' then ['\\', '0']
  else if isHidden c then ['\\', 'u', '\x7b'] ++ hexDigits c ++ ['\x7d']
  else [c]

/-- The text between double quotes. -/
def quote (s : String) : String :=
  String.ofList ('"' :: s.toList.flatMap (escape '"') ++ ['"'])

/-- The character between single quotes. -/
def quoteChar (c : Char) : String :=
  String.ofList ('\'' :: escape '\'' c ++ ['\''])

end RightOfWay.Text
