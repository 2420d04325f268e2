import Parsing.Text.Hexadecimal
import Parsing.Text.Printable

/-!
# Quoted texts

How messages show a text: between single quotes, or between double quotes when the text holds a
single quote and no double one.  The quote in use and the backslash are preceded by a backslash,
line feed, carriage return and tab are written by their letters, and a character that is not
printable by the shortest of the escapes of two, four or eight hexadecimal digits that fits.
-/

namespace Parsing.Text

/-- The quote that encloses a text. -/
def enclosingQuote (text : List Char) : Char :=
  if text.contains '\'' && !text.contains '"' then '"' else '\''

/-- What stands for a character between two of the given quotes. -/
def escapeWithin (quote c : Char) : List Char :=
  if c = quote ∨ c = '\\' then ['\\', c]
  else if c = '\n' then ['\\', 'n']
  else if c = '\r' then ['\\', 'r']
  else if c = '\t' then ['\\', 't']
  else if isPrintable c then [c]
  else if c.toNat < 0x100 then '\\' :: 'x' :: hexadecimal 2 c.toNat
  else if c.toNat < 0x10000 then '\\' :: 'u' :: hexadecimal 4 c.toNat
  else '\\' :: 'U' :: hexadecimal 8 c.toNat

/-- A text as messages show it. -/
def quoted (text : String) : String :=
  let quote := enclosingQuote text.toList
  String.ofList (quote :: text.toList.flatMap (escapeWithin quote) ++ [quote])

/-- A character as messages show it. -/
def quotedChar (c : Char) : String := quoted (String.singleton c)

end Parsing.Text
