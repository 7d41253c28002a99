import SolidGeometry.Text.Printable

namespace SolidGeometry.Text

/-- The quotation mark that spares the text the most escapes. -/
def quoteFor (text : List Char) : Char :=
  if text.contains '\'' && !text.contains '"' then '"' else '\''

/-- The hexadecimal digits of a number, with zeros in front up to the given width. -/
def hexadecimal (width n : Nat) : List Char :=
  let digits := Nat.toDigits 16 n
  List.replicate (width - digits.length) '0' ++ digits

/-- An unprintable character by its code point, in the shortest of three widths that holds it. -/
def escapeCode (c : Char) : List Char :=
  let n := c.toNat
  if n ≤ 0xff then '\\' :: 'x' :: hexadecimal 2 n
  else if n ≤ 0xffff then '\\' :: 'u' :: hexadecimal 4 n
  else '\\' :: 'U' :: hexadecimal 8 n

def quoteChar (mark c : Char) : List Char :=
  if c = mark || c = '\\' then ['\\', c]
  else if c = '\n' then ['\\', 'n']
  else if c = '\r' then ['\\', 'r']
  else if c = '\t' then ['\\', 't']
  else if isPrintable c then [c]
  else escapeCode c

/-- The text between quotation marks, with its escapes. -/
def quoted (text : String) : String :=
  let chars := text.toList
  let mark := quoteFor chars
  String.ofList (mark :: chars.flatMap (quoteChar mark) ++ [mark])

end SolidGeometry.Text
