import Parsing.Script.Value
import Parsing.Text.Blank
import Parsing.Text.Numeral

/-!
# Terms

A term describes a parser of values as data: atoms, what wraps one parser or joins two, and the
forms that take an expression or bind a variable.
-/

namespace Parsing.Script

/-- A class of characters. -/
inductive CharClass where
  | letter
  | alphaNumeric
  | blank
  | any
  | none
  | equal (spelling : String)
  | range (low high : String)
  | among (characters : String)
  | except (others : CharClass)

/-- Whether a character belongs to a class. -/
def CharClass.accepts : CharClass → Char → Bool
  | .letter, c => Text.isLetter c
  | .alphaNumeric, c => Text.isAlphaNumeric c
  | .blank, c => Text.isBlank c
  | .any, _ => true
  | .none, _ => false
  | .equal spelling, c => spelling.toList == [c]
  | .range low high, c => low ≤ String.singleton c && String.singleton c ≤ high
  | .among characters, c => characters.toList.contains c
  | .except others, c => !others.accepts c

/-- Parsers without parts. -/
inductive Atom where
  | anyChar | digit | letter | alphaNum | space | spaces | eof | position | empty

/-- Parsers made of one other. -/
inductive Wrapper where
  | attempt | lookAhead | many | skipMany | many1 | skipMany1 | optionMaybe | optional
  | notFollowedBy | lexeme

/-- Parsers made of two others. -/
inductive Joint where
  | sepBy | sepBy1 | endBy | sepEndBy | sepEndBy1 | manyTill | chainl1 | chainr1
  | apply | keepRight | keepLeft | pair | plus | alt

/-- Parsers of parts of JSON documents. -/
inductive JsonPart where
  | null | true | false | escape | stringLiteral | digits | fraction | exponent | number
  | value | array | object | document

/-- A parser as data. -/
inductive Term where
  | atom (atom : Atom)
  | wrap (wrapper : Wrapper) (p : Term)
  | join (joint : Joint) (p q : Term)
  | satisfy (accepted : CharClass)
  | char (spelling : Expr)
  | string (text : Expr)
  | symbol (text : String)
  | oneOf (spellings : List String)
  | noneOf (spellings : List String)
  | pure (value : Expr)
  | fail (message : Expr) (suggestions : List Suggestion)
  | map (p : Term) (function : Expr)
  | bind (p : Term) (name : String) (next : Term)
  | append (p q : Term) (function : Expr)
  | label (p : Term) (name : Expr)
  | suggest (p : Term) (suggestion : Suggestion)
  | choice (alternatives : List Term)
  | count (times : Expr) (p : Term)
  | between (opening closing p : Term)
  | option (default : Expr) (p : Term)
  | chainl (p operator : Term) (default : Expr)
  | chainr (p operator : Term) (default : Expr)
  | tailRec (initial : Expr) (name : String) (step : Term)
  | cond (test : Expr) (yes no : Term)
  | trace (name : String)
  | traced (name : String) (p : Term)
  | lazy (label : String) (p : Term)
  | named (name : String)
  | visit (name : String) (p : Term)
  | skip (value : Expr) (distance : Int)
  | failAt (distance : Int) (error : ParseError)
  | json (part : JsonPart)

end Parsing.Script
