import Parsing.Decimal.Integer
import Parsing.Decimal.Notation
import Parsing.Json.Value
import Parsing.Outcome

/-!
# Values of scripts

Scripts describe parsers as data.  Their callbacks are expressions over dynamic values; this
module has the expressions, the values and the exceptions that computing with them raises, and
says how values are shown and compared.
-/

namespace Parsing.Script

open Parsing.Text Parsing.Decimal

/-- The operations that expressions can name. -/
inductive Operation where
  | id | add | sub | mul | div | mod | pow | maximum | minimum | eq | lt | not | len | int | str
  | repr | join | get | append | rev | maxlist | pair | left | right | raise
  deriving DecidableEq

/-- An expression. -/
inductive Expr where
  | none
  | bool (value : Bool)
  | int (value : Int)
  | str (value : String)
  | list (items : List Expr)
  | tuple (items : List Expr)
  | loop (state : Expr)
  | done (result : Expr)
  | var (name : String)
  | lambda (params : List String) (body : Expr)
  | operation (operation : Operation)
  | call (function : Expr) (args : List Expr)
  | cond (test yes no : Expr)

/-- A value.  A closure is a function with the variables in scope where it was written. -/
inductive Value where
  | none
  | bool (value : Bool)
  | int (value : Int)
  | float (value : Float)
  | str (value : String)
  | list (items : List Value)
  | tuple (items : List Value)
  | table (entries : List (String × Value))
  | loop (state : Value)
  | done (result : Value)
  | closure (params : List String) (body : Expr) (scope : List (String × Value))
  | operation (operation : Operation)

/-- The variables in scope, the innermost first. -/
abbrev Scope := List (String × Value)

/-- The exceptions that computing with values raises. -/
inductive Exception where
  /-- An operation does not apply to its arguments, or to so many of them. -/
  | mismatch
  | divisionByZero
  /-- An integer too large for the kind of number that has to hold it. -/
  | tooLarge
  /-- A place that a list does not have. -/
  | outOfBounds
  /-- A name or key that is not there. -/
  | missingKey
  /-- A value that an operation cannot take. -/
  | invalidValue (message : String)
  /-- Raised by a script. -/
  | failed (message : String)
  /-- Calls nest too deep. -/
  | tooDeep
  deriving DecidableEq

/-- The exception of an integer with more digits than are converted. -/
def Exception.tooManyDigits (e : TooManyDigits) : Exception := .invalidValue e.message

namespace Value

mutual

/-- A JSON value as a value of scripts. -/
def ofJson : Json → Value
  | .null => .none
  | .bool value => .bool value
  | .int value => .int value
  | .float value => .float value
  | .string value => .str value
  | .array items => .list (ofItems items)
  | .object entries => .table (ofEntries entries)

/-- The items of an array as values of scripts. -/
def ofItems : List Json → List Value
  | [] => []
  | item :: items => ofJson item :: ofItems items

/-- The entries of an object as values of scripts. -/
def ofEntries : List (String × Json) → List (String × Value)
  | [] => []
  | (key, value) :: entries => (key, ofJson value) :: ofEntries entries

end

/-- How messages write the numbers without digits. -/
def numberNames : SpecialNames where
  infinity := "inf"
  notANumber := "nan"

mutual

/-- A value as messages show it, unless an integer in it has too many digits. -/
def written : Value → Except Exception String
  | .none => .ok "None"
  | .bool true => .ok "True"
  | .bool false => .ok "False"
  | .int value => (writeInt .standard .tooManyDigits value).map String.ofList
  | .float value => .ok (writtenFloat numberNames value)
  | .str value => .ok (quoted value)
  | .list items => (writtenItems items).map writtenSequence
  | .tuple items => (writtenItems items).map writtenTuple
  | .table entries => (writtenEntries entries).map writtenTable
  | .loop state => do return writtenRecord "Loop" [("state", ← written state)]
  | .done result => do return writtenRecord "Done" [("result", ← written result)]
  | .closure .. | .operation .. => .ok "<function>"

/-- Each of several values as messages show it. -/
def writtenItems : List Value → Except Exception (List String)
  | [] => .ok []
  | item :: items => do return (← written item) :: (← writtenItems items)

/-- Each entry of a table as messages show it. -/
def writtenEntries : List (String × Value) → Except Exception (List (String × String))
  | [] => .ok []
  | (key, value) :: entries => do return (quoted key, ← written value) :: (← writtenEntries entries)

end

/-- A value put into a running text: strings stand for themselves. -/
def text : Value → Except Exception String
  | .str value => .ok value
  | value => value.written

/-- Whether a value counts as true: all do but none, false, zero and what is empty. -/
def holds : Value → Bool
  | .none => false
  | .bool value => value
  | .int value => value != 0
  | .float value => value != 0
  | .str value => !value.isEmpty
  | .list items | .tuple items => !items.isEmpty
  | .table entries => !entries.isEmpty
  | _ => true

/-- The integer that a number is, if it is a whole one; truth values count as one and zero. -/
def whole? : Value → Option Int
  | .int value => some value
  | .bool value => some value.toInt
  | .float value => wholeOfFloat? value
  | _ => Option.none

/-- Whether two values are the same number.  The values are compared exactly. -/
def sameNumber : Value → Value → Bool
  | .float x, .float y => x == y
  | a, b => a.whole?.isSome && a.whole? == b.whole?

/-- Whether two values are both numbers that differ from themselves. -/
def bothNaN : Value → Value → Bool
  | .float x, .float y => x.isNaN && y.isNaN
  | _, _ => false

mutual

/-- Equality of values: numbers by their value, tables without regard to order.  Operations are
equal to themselves, closures to nothing.  As a part of a larger value, even what differs from
itself equals itself. -/
def equal : Value → Value → Bool
  | .none, .none => true
  | .str a, .str b => a == b
  | .list as, .list bs => equalItems as bs
  | .tuple as, .tuple bs => equalItems as bs
  | .table as, .table bs => as.length == bs.length && equalEntries as bs
  | .loop a, .loop b => bothNaN a b || equal a b
  | .done a, .done b => bothNaN a b || equal a b
  | .operation a, .operation b => a == b
  | a, b => sameNumber a b

/-- Equality of values one by one. -/
def equalItems : List Value → List Value → Bool
  | [], [] => true
  | a :: as, b :: bs => (bothNaN a b || equal a b) && equalItems as bs
  | _, _ => false

/-- Whether a table has all the given entries. -/
def equalEntries : List (String × Value) → List (String × Value) → Bool
  | [], _ => true
  | (key, a) :: as, bs =>
    (match bs.lookup key with
      | some b => bothNaN a b || equal a b
      | Option.none => false)
      && equalEntries as bs

end

end Value

/-- A value as the answer of a loop's step. -/
def stepOfValue : Value → Except Exception (Step Value Value)
  | .loop state => .ok (.loop state)
  | .done result => .ok (.done result)
  | value => value.written.map .stray

end Parsing.Script
