import Bhasha.Text.Printable

/-!
# Quoted text

Inside a list or a record a text is shown between double quotes.  The quote and the backslash
are escaped, the usual controls have short names, and every other character that is
unprintable or an extender is spelled by its code point.
-/

namespace Bhasha.Text

/-- The spelling of a character by its code point, in lower-case hexadecimal. -/
def codePointEscape (c : Char) : List Char :=
  ['\\', 'u', '{'] ++ Nat.toDigits 16 c.toNat ++ ['}']

/-- A character as it stands between double quotes. -/
def quotedChar (c : Char) : List Char :=
  match c with
  | '"' => ['\\', '"']
  | '\\' => ['\\', '\\']
  | '\n' => ['\\', 'n']
  | '\r' => ['\\', 'r']
  | '\t' => ['\\', 't']
  | '\x00' => ['\\', '0']
  | c => if isExtender c || !isPrintable c then codePointEscape c else [c]

/-- A text between double quotes. -/
def quoted (text : List Char) : List Char :=
  '"' :: text.flatMap quotedChar ++ ['"']

end Bhasha.Text
