import FluentRegex.Text.Printable

/-!
Showing an arbitrary text in a message: between double quotes, with the quote and the backslash
escaped and every character that is not printable written by name or number.
-/

namespace FluentRegex.Text

/-- One character inside a visible text. NUL, tab, line feed and carriage return have names; other
unprintable characters are given by their code point in lower-case hexadecimal. -/
def visibleChar (c : Char) : Text :=
  if c = '"' then ['\\', '"']
  else if c = '\\' then ['\\', '\\']
  else if c = '\n' then ['\\', 'n']
  else if c = '\t' then ['\\', 't']
  else if c = '\r' then ['\\', 'r']
  else if c = '\x00' then ['\\', '0']
  else if isPrintable c then [c]
  else "\\u".toList ++ ['{'] ++ Nat.toDigits 16 c.toNat ++ ['}']

/-- The text between double quotes, fit for a message. -/
def visible (t : Text) : Text :=
  ['"'] ++ t.flatMap visibleChar ++ ['"']

end FluentRegex.Text
