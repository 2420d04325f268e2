import Parsing.Decimal.Binary
import Parsing.Decimal.Reading

/-!
# Shortest decimals

The decimal with the fewest digits that reads back as a given floating-point number, and of
those the nearest to it.  All arithmetic is exact: a positive floating-point number is
`significand * 2 ^ exponent`, and a decimal reads back as it when it lies between the points
halfway to its neighbours; those points themselves read back as it when the significand is even.
-/

namespace Parsing.Decimal

/-- A decimal: digits and a power of ten, `digits * 10 ^ exponent`. -/
structure Scientific where
  digits : Nat
  exponent : Int
  deriving DecidableEq

/-- Compares a decimal with `n * 2 ^ e`. -/
def Scientific.compareWith (d : Scientific) (n : Nat) (e : Int) : Ordering :=
  compare (d.digits * Nat.pow 10 d.exponent.toNat * Nat.pow 2 (-e).toNat)
    (n * Nat.pow 2 e.toNat * Nat.pow 10 (-d.exponent).toNat)

namespace Binary

/-- Whether a decimal reads back as the number. -/
def readsBack (x : Binary) (d : Scientific) : Bool :=
  let low := 4 * x.significand - (if x.narrowBelow then 1 else 2)
  let high := 4 * x.significand + 2
  let closed := x.significand % 2 == 0
  let above := d.compareWith low (x.exponent - 2)
  let below := d.compareWith high (x.exponent - 2)
  (above == .gt || (closed && above == .eq)) && (below == .lt || (closed && below == .eq))

/-- The exact value as a decimal. -/
def exactly (x : Binary) : Scientific :=
  if 0 ≤ x.exponent then ⟨x.significand * Nat.pow 2 x.exponent.toNat, 0⟩
  else ⟨x.significand * Nat.pow 5 x.exponent.natAbs, x.exponent⟩

/-- The nearest decimal with the given exponent that reads back as the number; of two that are
equally near the one whose last digit is even. -/
def nearest? (x : Binary) (exponent : Int) : Option Scientific :=
  let num := x.significand * Nat.pow 2 x.exponent.toNat * Nat.pow 10 (-exponent).toNat
  let den := Nat.pow 2 (-x.exponent).toNat * Nat.pow 10 exponent.toNat
  let below : Scientific := ⟨num / den, exponent⟩
  let above : Scientific := ⟨num / den + 1, exponent⟩
  match x.readsBack below, x.readsBack above with
  | true, true =>
    match compare (2 * (num % den)) den with
    | .lt => some below
    | .gt => some above
    | .eq => some (if below.digits % 2 = 0 then below else above)
  | true, false => some below
  | false, true => some above
  | false, false => none

/-- The shortest decimal that reads back as the number, among those of at most `more` digits
beyond the first `taken`; without one, the exact value. -/
def shortestFrom (x : Binary) (scale : Int) : (taken more : Nat) → Scientific
  | _, 0 => x.exactly
  | taken, more + 1 =>
    match x.nearest? (scale - taken - 1) with
    | some d => d
    | none => shortestFrom x scale (taken + 1) more

/-- The shortest decimal that reads back as the number.  Seventeen digits are always enough. -/
def shortest (x : Binary) : Scientific :=
  let exact := x.exactly
  x.shortestFrom (digitCount exact.digits + exact.exponent) 0 17

end Binary

end Parsing.Decimal
