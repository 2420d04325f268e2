/-!
# Floating-point numbers as binary fractions

A finite floating-point number has an exact value, `significand * 2 ^ exponent` with a sign.  What
is written, and whether it equals an integer, is decided on that value, without rounding.
-/

namespace Parsing.Decimal

/-- A positive finite floating-point number, `significand * 2 ^ exponent`. -/
structure Binary where
  significand : Nat
  exponent : Int
  /-- The neighbour below is half as far away as the neighbour above. -/
  narrowBelow : Bool

/-- The magnitude of the finite floating-point number with the given bits. -/
def Binary.ofBits (bits : UInt64) : Binary :=
  let biased := ((bits >>> 52) &&& 0x7FF).toNat
  let fraction := (bits &&& 0xFFFFFFFFFFFFF).toNat
  if biased = 0 then ⟨fraction, -1074, false⟩
  else ⟨Nat.pow 2 52 + fraction, (biased : Int) - 1075, fraction = 0 ∧ biased > 1⟩

/-- The natural number that a magnitude is, if it is a whole one. -/
def Binary.whole? (x : Binary) : Option Nat :=
  if 0 ≤ x.exponent then some (x.significand * Nat.pow 2 x.exponent.toNat)
  else
    let unit := Nat.pow 2 x.exponent.natAbs
    if x.significand % unit = 0 then some (x.significand / unit) else none

/-- The integer that a floating-point number is, if it is a whole one. -/
def wholeOfFloat? (x : Float) : Option Int :=
  if x.isFinite then
    (Binary.ofBits x.toBits).whole?.map fun n => if x < 0 then -(n : Int) else n
  else none

end Parsing.Decimal
