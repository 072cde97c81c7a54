import Storyboard.Text.Printable

/-! # Quoted texts

    How a text is written inside a message: between double quotes, with a
    backslash before quotes and backslashes, short escapes for the usual
    controls, and a code point in braces for whatever has no glyph. -/

namespace Storyboard.Text

/-- The digits of `n` in base sixteen, in lower case, without leading zeros. -/
def hexDigits (n : Nat) : List Char := Nat.toDigits 16 n

/-- One character inside a quoted text. -/
def quoteChar (c : Char) : List Char :=
  if c = '"' then ['\\', '"']
  else if c = '\\' then ['\\', '\\']
  else if c = '\n' then ['\\', 'n']
  else if c = '\r' then ['\\', 'r']
  else if c = '\t' then ['\\', 't']
  else if c.toNat = 0 then ['\\', '0']
  else if isPrintable c then [c]
  else ['\\', 'u', '\x7b'] ++ hexDigits c.toNat ++ ['\x7d']

/-- `s` between double quotes. -/
def quoted (s : String) : String :=
  String.ofList ('"' :: s.toList.flatMap quoteChar ++ ['"'])

end Storyboard.Text
