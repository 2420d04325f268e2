import Parsing.Script.Power
import Parsing.Script.Value

/-!
# Operations on values

What each operation does with its arguments.  An operation applied to values that it is not for,
or to the wrong number of them, raises an exception.
-/

namespace Parsing.Script

open Parsing.Decimal

namespace Value

/-- The sum of two integers, or two texts, lists or tuples one after the other. -/
def add : Value → Value → Except Exception Value
  | .int m, .int n => .ok (.int (m + n))
  | .str a, .str b => .ok (.str (a ++ b))
  | .list a, .list b => .ok (.list (a ++ b))
  | .tuple a, .tuple b => .ok (.tuple (a ++ b))
  | _, _ => .error .mismatch

/-- A number as a floating-point number. -/
def toFloat : Value → Except Exception Float
  | .float value => .ok value
  | value =>
    match value.whole? with
    | some n =>
      let nearest := Float.ofInt n
      if nearest.isInf then .error .tooLarge else .ok nearest
    | Option.none => .error .mismatch

/-- The sum of two numbers of any kind, or of values that can be added otherwise.  Truth values
count as one and zero. -/
def plus : Value → Value → Except Exception Value
  | .float x, b => b.toFloat.map fun y => .float (x + y)
  | a, .float y => a.toFloat.map fun x => .float (x + y)
  | a, b =>
    match a.whole?, b.whole? with
    | some m, some n => .ok (.int (m + n))
    | _, _ => a.add b

/-- A text written `n` times, not at all if `n` is negative.  Both `n` and the length of the result
have to be 64-bit integers. -/
def repeated (s : String) (n : Int) : Except Exception Value :=
  if n < -Int.pow 2 63 ∨ Int.pow 2 63 ≤ n ∨ Int.pow 2 63 ≤ s.length * n then .error .tooLarge
  else if s.isEmpty then .ok (.str "")
  else .ok (.str (String.join (List.replicate n.toNat s)))

/-- The product of two integers, or a text written so many times. -/
def mul : Value → Value → Except Exception Value
  | .int m, .int n => .ok (.int (m * n))
  | .str s, .int n => repeated s n
  | _, _ => .error .mismatch

/-- Applies a function on integers. -/
def onInts (f : Int → Int → Except Exception Int) : Value → Value → Except Exception Value
  | .int m, .int n => (f m n).map .int
  | _, _ => .error .mismatch

/-- The order of two integers or two texts. -/
def less : Value → Value → Except Exception Value
  | .int m, .int n => .ok (.bool (decide (m < n)))
  | .str a, .str b => .ok (.bool (decide (a < b)))
  | _, _ => .error .mismatch

/-- How many characters a text has, or parts a list or tuple. -/
def length : Value → Except Exception Value
  | .str s => .ok (.int s.length)
  | .list items | .tuple items => .ok (.int items.length)
  | _ => .error .mismatch

/-- The integer that a text writes in decimal, with or without a sign. -/
def toInt : Value → Except Exception Value
  | .str s =>
    let digits := match s.toList with
      | '+' :: rest | '-' :: rest => rest
      | rest => rest
    if digits ≠ [] ∧ digits.all Char.isDigit then
      (readInt .standard .tooManyDigits s.toList).map .int
    else .error (.invalidValue ("bad int: " ++ s))
  | _ => .error .mismatch

/-- A text, or an integer in decimal. -/
def toText : Value → Except Exception Value
  | value@(.str _) | value@(.int _) => value.text.map .str
  | _ => .error .mismatch

/-- The texts of a list one after the other. -/
def join : List Value → Except Exception String
  | [] => .ok ""
  | .str s :: rest => (join rest).map (s ++ ·)
  | _ => .error .mismatch

/-- The part of a list or tuple at a place. -/
def get (items : List Value) (place : Int) : Except Exception Value :=
  if place < 0 then .error .outOfBounds
  else
    match items[place.toNat]? with
    | some item => .ok item
    | Option.none => .error .outOfBounds

/-- The greatest of a list of integers, if there is one. -/
def greatest : List Value → Except Exception (Option Int)
  | [] => .ok Option.none
  | .int n :: items => (greatest items).map fun m => some (m.elim n (max n))
  | _ => .error .mismatch

end Value

namespace Operation

/-- Applies an operation to its arguments. -/
def apply : Operation → List Value → Except Exception Value
  | .id, [a] => .ok a
  | .add, [a, b] => a.add b
  | .sub, [a, b] => Value.onInts (fun m n => .ok (m - n)) a b
  | .mul, [a, b] => a.mul b
  | .div, [a, b] =>
    Value.onInts (fun m n => if n = 0 then .error .divisionByZero else .ok (m.fdiv n)) a b
  | .mod, [a, b] =>
    Value.onInts (fun m n => if n = 0 then .error .divisionByZero else .ok (m.fmod n)) a b
  | .pow, [a, b] =>
    Value.onInts
      (fun m n =>
        if n < 0 then .error (.invalidValue "negative exponent") else .ok (power m n.toNat))
      a b
  | .maximum, [a, b] => Value.onInts (fun m n => .ok (max m n)) a b
  | .minimum, [a, b] => Value.onInts (fun m n => .ok (min m n)) a b
  | .eq, [a, b] => .ok (.bool (a.equal b))
  | .lt, [a, b] => a.less b
  | .not, [.bool b] => .ok (.bool (!b))
  | .len, [a] => a.length
  | .int, [a] => a.toInt
  | .str, [a] => a.toText
  | .repr, [a] => a.written.map .str
  | .join, [.list items] => (Value.join items).map .str
  | .get, [.list items, .int place] | .get, [.tuple items, .int place] => Value.get items place
  | .append, [.list items, a] => .ok (.list (items ++ [a]))
  | .rev, [.list items] => .ok (.list items.reverse)
  | .maxlist, [.list items, default] =>
    (Value.greatest items).map fun n => n.elim default .int
  | .pair, [a, b] => .ok (.tuple [a, b])
  | .left, [a, _] => .ok a
  | .right, [_, b] => .ok b
  | .raise, [.str kind, .str message] =>
    .error <| match kind with
      | "ValueError" => .invalidValue message
      | "RuntimeError" => .failed message
      | "KeyError" => .missingKey
      | _ => .mismatch
  | _, _ => .error .mismatch

end Operation

end Parsing.Script
