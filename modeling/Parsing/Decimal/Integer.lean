/-!
# Integers and their digits

Integers are exact, but they are read from decimal digits and written in decimal digits only if
these are not too many: the conversions slow down with the number of digits, and so a limit is put
on it.  What counts is how many digits there are, leading zeros among them; the sign does not.  A
limit can be lifted, and where none has been set it is at 4300 digits.  It is never so low as to
get in the way of numbers of everyday size.

Numbers with too many digits are an exception, whichever way they were to be converted
(`TooManyDigits`).  The caller says what the exception is to it.
-/

namespace Parsing.Decimal

/-! ### The limit -/

/-- How many digits an integer may have that is read or written: any number of them, or no more
than `most?`, which is not below 640. -/
structure DigitLimit where
  most? : Option Nat
  large : ∀ most ∈ most?, 640 ≤ most

/-- An integer with more digits than are converted. -/
structure TooManyDigits where
  /-- How many there may be. -/
  most : Nat
  /-- How many there were, where they were to be read. -/
  found? : Option Nat
  deriving DecidableEq

/-- The text of the exception. -/
def TooManyDigits.message (e : TooManyDigits) : String :=
  let found := match e.found? with
    | some digits => ": value has " ++ toString digits ++ " digits"
    | none => ""
  "Exceeds the limit (" ++ toString e.most ++ " digits) for integer string conversion" ++ found
    ++ "; use sys.set_int_max_str_digits() to increase the limit"

namespace DigitLimit

/-- Integers of any size are converted. -/
def unlimited : DigitLimit := ⟨none, nofun⟩

/-- The limit where none has been set. -/
def standard : DigitLimit := ⟨some 4300, by simp⟩

/-- The limit, if so many digits are beyond it. -/
def exceeded? (limit : DigitLimit) (digits : Nat) : Option Nat := limit.most?.filter (· < digits)

/-- So many digits are converted. -/
def Allows (limit : DigitLimit) (digits : Nat) : Prop := ∀ most ∈ limit.most?, digits ≤ most

variable {limit : DigitLimit} {digits : Nat}

theorem exceeded?_eq_none_iff : limit.exceeded? digits = none ↔ limit.Allows digits := by
  simp [exceeded?, Allows, Option.filter_eq_none_iff]

instance (limit : DigitLimit) (digits : Nat) : Decidable (limit.Allows digits) :=
  decidable_of_iff _ exceeded?_eq_none_iff

theorem allows_unlimited (digits : Nat) : unlimited.Allows digits := nofun

/-- Fewer digits are converted as well. -/
theorem Allows.mono (h : limit.Allows digits) {fewer : Nat} (hf : fewer ≤ digits) :
    limit.Allows fewer := fun most hm => Nat.le_trans hf (h most hm)

/-- Every limit leaves numbers of up to 640 digits alone. -/
theorem allows_of_le (h : digits ≤ 640) : limit.Allows digits :=
  fun most hm => Nat.le_trans h (limit.large most hm)

end DigitLimit

/-! ### Reading -/

/-- The value of a decimal digit. -/
def digitValue (c : Char) : Nat := c.toNat - '0'.toNat

/-- The number that a list of digits writes, the highest first. -/
def natOfDigits (digits : List Char) : Nat :=
  digits.foldl (fun n c => 10 * n + digitValue c) 0

/-- The integer of a numeral: digits with an optional sign in front. -/
def intOfNumeral : List Char → Int
  | '-' :: digits => -(natOfDigits digits : Int)
  | '+' :: digits => natOfDigits digits
  | digits => natOfDigits digits

variable {ε : Type}

/-- Reads the integer of a numeral, unless it has too many digits. -/
def readInt (limit : DigitLimit) (refuse : TooManyDigits → ε) (numeral : List Char) :
    Except ε Int :=
  let digits := numeral.countP Char.isDigit
  match limit.exceeded? digits with
  | some most => .error (refuse ⟨most, some digits⟩)
  | none => .ok (intOfNumeral numeral)

/-! ### Writing -/

/-- The number of decimal digits of a number, at least one. -/
def digitCount (n : Nat) : Nat := (Nat.toDigits 10 n).length

/-- The digits of an integer, behind a sign if it is negative. -/
def numeralOfInt : Int → List Char
  | .ofNat n => Nat.toDigits 10 n
  | .negSucc n => '-' :: Nat.toDigits 10 (n + 1)

/-- Writes an integer, unless it has too many digits. -/
def writeInt (limit : DigitLimit) (refuse : TooManyDigits → ε) (n : Int) : Except ε (List Char) :=
  match limit.exceeded? (digitCount n.natAbs) with
  | some most => .error (refuse ⟨most, none⟩)
  | none => .ok (numeralOfInt n)

/-- An integer is written unless it has too many digits. -/
theorem writeInt_eq_ok_iff {limit : DigitLimit} {refuse : TooManyDigits → ε} {n : Int}
    {w : List Char} : writeInt limit refuse n = .ok w ↔
      limit.Allows (digitCount n.natAbs) ∧ numeralOfInt n = w := by
  rw [writeInt, ← DigitLimit.exceeded?_eq_none_iff]
  cases limit.exceeded? (digitCount n.natAbs) with
  | none => simp
  | some most => simp

end Parsing.Decimal
