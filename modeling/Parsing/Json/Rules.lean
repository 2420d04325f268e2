import Parsing.Decimal.Reading
import Parsing.Grammar
import Parsing.Json.Value
import Parsing.Parser.Character
import Parsing.Parser.Choice
import Parsing.Parser.Separated
import Parsing.Parser.Sequence

/-!
# The grammar of JSON

Parsers for the parts of a JSON document.  Each token takes the white space behind it.  Values
nest, so that a value inside an array or an object is deferred to the rule for values; the
parsers that need it take the name of that rule, and those that keep its parser in a cell of their
own text take the cell.

How the integer of a numeral is read is a parameter of the rules, since integers with too many
digits raise an exception (`readInt`), and which one it is depends on where documents are read.
-/

namespace Parsing.Json.Rules

open Parsing.Decimal
open Parsing.Parser hiding pure

variable {ε : Type} {ρ : Type → Type} {α : Type}

/-- A token: the white space behind `p` belongs to it. -/
def lexeme (p : Parser ε ρ α) : Parser ε ρ α := p.keepLeft spaces

/-- The token with the given spelling. -/
def symbol (spelling : String) : Parser ε ρ String := lexeme (.string spelling)

/-- The token of the null value. -/
def nullValue : Parser ε ρ Json := (symbol "null").keepRight (pure .null)

/-- The token of truth. -/
def trueValue : Parser ε ρ Json := (symbol "true").keepRight (pure (.bool true))

/-- The token of falsehood. -/
def falseValue : Parser ε ρ Json := (symbol "false").keepRight (pure (.bool false))

/-- The letters that may stand behind a backslash, with the characters they mean. -/
def escapes : List (Char × Char) :=
  [('n', '\n'), ('r', '\r'), ('t', '\t'), ('b', '\x08'), ('f', '\x0c'), ('/', '/'), ('\\', '\\'),
   ('"', '"')]

/-- The character that a letter behind a backslash means. -/
def unescape (letter : Char) : Char := (escapes.lookup letter).getD letter

/-- An escaped character. -/
def escape : Parser ε ρ Char :=
  (char '\\').keepRight ((oneOf (escapes.map Prod.fst)).map unescape)

/-- The token of a string. -/
def stringLiteral : Parser ε ρ String :=
  lexeme
    (between (char '"') (char '"') ((many ((noneOf ['"', '\\']).alt escape)).map String.ofList))

/-- Digits, one or more. -/
def digits : Parser ε ρ String := (many1 digit).map String.ofList

/-- The part of a number behind the point, if there is one. -/
def fraction : Parser ε ρ String := option "" ((char '.').map String.singleton ++ digits)

/-- The power of ten of a number, if there is one. -/
def exponent : Parser ε ρ String :=
  option ""
    ((oneOf ['e', 'E']).map String.singleton
      ++ option "" ((oneOf ['+', '-']).map String.singleton) ++ digits)

/-- The value of a numeral; integers are read with `toInt`. -/
def ofNumeral (toInt : List Char → Except ε Int) (numeral : String) : Except ε Json :=
  if numeral.toList.any (fun c => c == '.' || c == 'e' || c == 'E') then
    .ok (.float (floatOfNumeral numeral.toList))
  else (toInt numeral.toList).map .int

/-- The token of a number. -/
def number (toInt : List Char → Except ε Int) : Parser ε ρ Json :=
  (lexeme (option "" (.string "-") ++ digits ++ fraction ++ exponent)).mapM (ofNumeral toInt)

/-- The token of a string, as a value. -/
def stringValue : Parser ε ρ Json := stringLiteral.map .string

/-- An array, with its items deferred to the rule `value`. -/
def array (value : ρ Json) (cell : Cell) : Parser ε ρ Json :=
  (between (symbol "[") (symbol "]") (sepBy (deferred cell value) (symbol ","))).map .array

/-- An entry of an object. -/
def entry (value : ρ Json) : Parser ε ρ (String × Json) :=
  stringLiteral.bind fun key =>
    fresh fun frame =>
      (symbol ":").keepRight ((deferred ⟨frame, 0⟩ value).map fun v => (key, v))

/-- An object, with its values deferred to the rule `value`. -/
def object (value : ρ Json) : Parser ε ρ Json :=
  (between (symbol "\x7b") (symbol "\x7d") (sepBy (entry value) (symbol ","))).map fun entries =>
    .object (mergeEntries entries)

/-- A value, with the values inside it deferred to the rule `value`. -/
def element (toInt : List Char → Except ε Int) (value : ρ Json) (cell : Cell) : Parser ε ρ Json :=
  choice
    [nullValue, trueValue, falseValue, stringValue, number toInt, object value, array value cell]

/-- A whole document. -/
def document (toInt : List Char → Except ε Int) (value : ρ Json) (cell : Cell) :
    Parser ε ρ Json :=
  spaces.keepRight ((element toInt value cell).keepLeft eof)

end Parsing.Json.Rules

namespace Parsing.Json

open Parsing.Decimal

/-- The rules of the grammar. -/
inductive Rule : Type → Type where
  | value : Rule Json

variable (limit : DigitLimit)

/-- The grammar of JSON, with a limit on the digits of integers. -/
def grammar : Grammar TooManyDigits Rule where
  build
    | .value, frame => .ok (Rules.element (readInt limit id) .value ⟨frame, 0⟩)

/-- The parser of JSON documents. -/
def parser : Parser TooManyDigits Rule Json := Rules.document (readInt limit id) .value ⟨0, 0⟩

/-- Reads a document.  Values nest at most as deep as the text is long, and no loop goes round
more often than there are characters. -/
def read (text : Array Char) : Outcome TooManyDigits Json × Session :=
  (grammar limit).runText (text.size + 2) (parser limit) text .start

end Parsing.Json
