import Parsing.Decimal.Integer

/-!
# Reading fractional numbers

The values of numerals with a point or a power of ten: an optional minus sign, digits, a part behind
the point and an exponent.  They are read as the nearest floating-point number, however many digits
they have; a number too large for that is infinite, and one too small is zero.
-/

namespace Parsing.Decimal

/-- The parts of the numeral of a fractional number. -/
structure Numeral where
  negative : Bool
  whole : List Char
  fraction : List Char
  exponent : Int

/-- Splits a numeral into its parts; those that are missing are empty or zero. -/
def Numeral.ofChars (numeral : List Char) : Numeral :=
  let (negative, unsigned) :=
    match numeral with
    | '-' :: rest => (true, rest)
    | rest => (false, rest)
  let whole := unsigned.takeWhile Char.isDigit
  let (fraction, rest) :=
    match unsigned.dropWhile Char.isDigit with
    | '.' :: rest => (rest.takeWhile Char.isDigit, rest.dropWhile Char.isDigit)
    | rest => ([], rest)
  ⟨negative, whole, fraction, intOfNumeral (rest.drop 1)⟩

/-- The floating-point number nearest to `mantissa * 10 ^ exponent`.  Above `10 ^ 309` that is
infinity and below `10 ^ -330` zero, without computing the power. -/
def floatOfScientific (mantissa : Nat) (exponent : Int) : Float :=
  let magnitude := digitCount mantissa + exponent
  if mantissa = 0 ∨ magnitude < -330 then 0.0
  else if magnitude > 310 then Float.ofBits 0x7FF0000000000000
  else Float.ofScientific mantissa (exponent < 0) exponent.natAbs

/-- The floating-point number of a numeral. -/
def floatOfNumeral (numeral : List Char) : Float :=
  let parts := Numeral.ofChars numeral
  let magnitude :=
    floatOfScientific (natOfDigits (parts.whole ++ parts.fraction))
      (parts.exponent - parts.fraction.length)
  if parts.negative then -magnitude else magnitude

end Parsing.Decimal
