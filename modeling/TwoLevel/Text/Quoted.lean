import TwoLevel.Text.Visible

/-
  This file defines the quoted form in which a text that could
  not be read is reported: between double quotes, with every
  character that would be lost or misread escaped.

  Key definitions include:
    * `escaped`
    * `quoted`
-/

namespace TwoLevel

namespace Text

------------------------------------------------------------
-- Escapes
------------------------------------------------------------

/- The code point in lower-case hexadecimal, not padded. -/
def hexadecimal
    (c : Char) : List Char :=
  Nat.toDigits 16 c.toNat

/-
  The quote and the backslash are escaped by a backslash, the
  null character and the common line controls by a letter,
  and what is not visible by its code point.
-/
def escaped
    (c : Char) : List Char :=
  if c = '"' then ['\\', '"']
  else if c = '\\' then ['\\', '\\']
  else if c = '\x00' then ['\\', '0']
  else if c = '\t' then ['\\', 't']
  else if c = '\n' then ['\\', 'n']
  else if c = '\r' then ['\\', 'r']
  else if isVisible c then [c]
  else ['\\', 'u', '\x7b'] ++ hexadecimal c ++ ['\x7d']

------------------------------------------------------------
-- Quoted Form
------------------------------------------------------------

/- A text between double quotes. -/
def quoted
    (s : String) : String :=
  String.ofList ('"' :: s.toList.flatMap escaped ++ ['"'])

end Text

end TwoLevel
