import Parsing.Decimal.Shortest

/-!
# Notation of floating-point numbers

Floating-point numbers are written with the fewest digits that read back: positionally, with at
least one digit on both sides of the point, as long as the highest digit stands for a power of
ten from `10 ^ -4` to `10 ^ 15`; otherwise with one digit before the point and an exponent of at
least two digits and a sign.
-/

namespace Parsing.Decimal

/-- How the numbers without digits are written. -/
structure SpecialNames where
  infinity : String
  notANumber : String

/-- Writes out digits, of which the highest stands for `10 ^ leading`. -/
def layout (digits : List Char) (leading : Int) : List Char :=
  if leading < -4 ∨ 16 ≤ leading then
    let mantissa := match digits with
      | d :: [] => [d]
      | d :: ds => d :: '.' :: ds
      | [] => []
    let sign := if leading < 0 then '-' else '+'
    let exponent := Nat.toDigits 10 leading.natAbs
    mantissa ++ 'e' :: sign :: (List.replicate (2 - exponent.length) '0' ++ exponent)
  else if leading < 0 then
    '0' :: '.' :: (List.replicate (leading.natAbs - 1) '0' ++ digits)
  else
    let whole := leading.toNat + 1
    if digits.length ≤ whole then
      digits ++ List.replicate (whole - digits.length) '0' ++ ['.', '0']
    else digits.take whole ++ '.' :: digits.drop whole

/-- Writes a decimal out, without zeros at its end. -/
def Scientific.write (d : Scientific) : List Char :=
  let digits := Nat.toDigits 10 d.digits
  let significant := (digits.reverse.dropWhile (· == '0')).reverse
  layout significant (digits.length + d.exponent - 1)

/-- A floating-point number as messages and documents show it. -/
def writtenFloat (names : SpecialNames) (x : Float) : String :=
  let bits := x.toBits
  let sign := if bits >>> 63 == 1 then "-" else ""
  let magnitude := bits &&& 0x7FFFFFFFFFFFFFFF
  if magnitude == 0 then sign ++ "0.0"
  else if magnitude == 0x7FF0000000000000 then sign ++ names.infinity
  else if magnitude > 0x7FF0000000000000 then names.notANumber
  else sign ++ String.ofList (Binary.ofBits bits).shortest.write

end Parsing.Decimal
