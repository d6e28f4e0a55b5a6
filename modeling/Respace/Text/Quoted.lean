import Respace.Text.Printable

/-! The quoted spelling of a text, which messages use to show a value.

    The quote is `'`, or `"` when the text holds `'` and no `"`. The quote and the backslash are written
    after a backslash; a character that does not print is written by its code point in hexadecimal. -/

namespace Respace.Text

/-- The lower-case hexadecimal spelling of `n`, with zeros in front up to `width` digits. -/
def hex (width n : Nat) : List Char :=
  let digits := Nat.toDigits 16 n
  List.replicate (width - digits.length) '0' ++ digits

/-- A character by its code point, in the shortest of the three escapes that can hold it. -/
def codePoint (c : Char) : List Char :=
  if c.toNat ≤ 0xff then '\\' :: 'x' :: hex 2 c.toNat
  else if c.toNat ≤ 0xffff then '\\' :: 'u' :: hex 4 c.toNat
  else '\\' :: 'U' :: hex 8 c.toNat

/-- The quote that a text is written in. -/
def quoteOf (s : List Char) : Char := if s.contains '\'' && !s.contains '"' then '"' else '\''

/-- One character between quotes `q`. -/
def quotedChar (q c : Char) : List Char :=
  if c == q || c == '\\' then ['\\', c]
  else if c == '\t' then ['\\', 't']
  else if c == '\n' then ['\\', 'n']
  else if c == '\r' then ['\\', 'r']
  else if isPrintable c then [c]
  else codePoint c

/-- The quoted spelling of a text. -/
def quoted (s : List Char) : List Char :=
  let q := quoteOf s
  q :: s.flatMap (quotedChar q) ++ [q]

/-- A text with every character outside ASCII written by its code point. -/
def inAscii (s : List Char) : List Char := s.flatMap fun c => if c.toNat < 128 then [c] else codePoint c

end Respace.Text

namespace Respace

def quote (s : String) : String := String.ofList (Text.quoted s.toList)

end Respace
