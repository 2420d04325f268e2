import Parsing.Decimal.Integer
import Parsing.Decimal.Notation
import Parsing.Json.Value
import Parsing.Text.Hexadecimal

/-!
# Printing JSON documents

Documents are written with one item to a line, four spaces to a level; empty arrays and objects
take no lines of their own.  Only printable ASCII is written: quotes, backslashes and the usual
control characters by their short escapes, and every other character by the escapes of its
16-bit units.  A document with an integer that has too many digits is not written at all.
-/

namespace Parsing.Json

open Parsing.Text Parsing.Decimal

/-- What stands for a 16-bit unit. -/
def unitEscape (unit : Nat) : List Char := '\\' :: 'u' :: hexadecimal 4 unit

/-- What stands for a character in a string. -/
def escapeChar (c : Char) : List Char :=
  if c = '"' then ['\\', '"']
  else if c = '\\' then ['\\', '\\']
  else if c = '\n' then ['\\', 'n']
  else if c = '\r' then ['\\', 'r']
  else if c = '\t' then ['\\', 't']
  else if c = '\x0c' then ['\\', 'f']
  else if c = '\x08' then ['\\', 'b']
  else if 0x20 ≤ c.toNat ∧ c.toNat ≤ 0x7E then [c]
  else if c.toNat < 0x10000 then unitEscape c.toNat
  else
    unitEscape (0xD800 + (c.toNat - 0x10000) / 0x400)
      ++ unitEscape (0xDC00 + (c.toNat - 0x10000) % 0x400)

/-- A string between quotes. -/
def printString (s : String) : List Char := '"' :: s.toList.flatMap escapeChar ++ ['"']

/-- How documents write the numbers without digits. -/
def numberNames : SpecialNames where
  infinity := "Infinity"
  notANumber := "NaN"

/-- The end of a line and the indentation of the next. -/
def newline (depth : Nat) : List Char := '\n' :: List.replicate (4 * depth) ' '

section

variable (limit : DigitLimit)

/-- An integer in decimal. -/
def printInt (n : Int) : Except TooManyDigits (List Char) := writeInt limit id n

mutual

/-- A value at a depth of nesting, in front of the text that follows it. -/
def printAt (depth : Nat) : Json → List Char → Except TooManyDigits (List Char)
  | .null, rest => .ok ("null".toList ++ rest)
  | .bool true, rest => .ok ("true".toList ++ rest)
  | .bool false, rest => .ok ("false".toList ++ rest)
  | .int n, rest => do return (← printInt limit n) ++ rest
  | .float x, rest => .ok ((writtenFloat numberNames x).toList ++ rest)
  | .string s, rest => .ok (printString s ++ rest)
  | .array [], rest => .ok ('[' :: ']' :: rest)
  | .array (item :: items), rest => do
    let behind ← printItems (depth + 1) items (newline depth ++ ']' :: rest)
    return '[' :: newline (depth + 1) ++ (← printAt (depth + 1) item behind)
  | .object [], rest => .ok ('{' :: '}' :: rest)
  | .object ((key, value) :: entries), rest => do
    let behind ← printEntries (depth + 1) entries (newline depth ++ '}' :: rest)
    return '{' :: newline (depth + 1) ++ printString key ++ ':' :: ' '
      :: (← printAt (depth + 1) value behind)

/-- The items behind the first, each behind a comma and on a line of its own. -/
def printItems (depth : Nat) : List Json → List Char → Except TooManyDigits (List Char)
  | [], rest => .ok rest
  | item :: items, rest => do
    let behind ← printItems depth items rest
    return ',' :: newline depth ++ (← printAt depth item behind)

/-- The entries behind the first, each behind a comma and on a line of its own. -/
def printEntries (depth : Nat) :
    List (String × Json) → List Char → Except TooManyDigits (List Char)
  | [], rest => .ok rest
  | (key, value) :: entries, rest => do
    let behind ← printEntries depth entries rest
    return ',' :: newline depth ++ printString key ++ ':' :: ' '
      :: (← printAt depth value behind)

end

/-- A document. -/
def print (value : Json) : Except TooManyDigits (List Char) := printAt limit 0 value []

end

end Parsing.Json
