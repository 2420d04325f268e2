/-!
# Powers of integers

`power m n` is `m ^ n`.  It is found on magnitudes, and those of zero and one without multiplying,
so that an exponent of any size is allowed for them.
-/

namespace Parsing.Script

/-- A power of a natural number; those of zero and one are found without multiplying. -/
def natPower (k n : Nat) : Nat :=
  if k ≤ 1 then if n = 0 then 1 else k else k.pow n

theorem natPower_eq_pow (k n : Nat) : natPower k n = k.pow n := by
  match k with
  | 0 => cases n <;> simp [natPower]
  | 1 => simp [natPower]
  | k + 2 => simp [natPower]

/-- A power of an integer, found on magnitudes. -/
def power (m : Int) (n : Nat) : Int :=
  if m < 0 ∧ n % 2 = 1 then -(natPower m.natAbs n : Int) else natPower m.natAbs n

/-- A power of a negative integer is negative exactly when the exponent is odd. -/
theorem neg_natCast_pow (k n : Nat) :
    (-(k : Int)).pow n = if n % 2 = 1 then -(k.pow n : Int) else (k.pow n : Int) := by
  induction n with
  | zero => exact Int.pow_zero _
  | succ n ih =>
    have step : (-(k : Int)).pow (n + 1) = (-(k : Int)).pow n * -k := Int.pow_succ _ n
    have cast : (k.pow (n + 1) : Int) = k.pow n * k := Int.natCast_mul (k.pow n) k
    rw [step, ih, cast]
    by_cases h : n % 2 = 1
    · rw [if_pos h, if_neg (by omega), Int.neg_mul_neg]
    · rw [if_neg h, if_pos (by omega), Int.mul_neg]

theorem power_eq_pow (m : Int) (n : Nat) : power m n = m.pow n := by
  rw [power, natPower_eq_pow]
  obtain ⟨k, rfl | rfl⟩ := m.eq_nat_or_neg
  · rw [if_neg (by omega), Int.natAbs_natCast]
    exact Int.natCast_pow k n
  · rw [neg_natCast_pow, Int.natAbs_neg, Int.natAbs_natCast]
    match k with
    | 0 => cases n <;> simp
    | k + 1 =>
      have negative : -((k + 1 : Nat) : Int) < 0 := by omega
      by_cases h : n % 2 = 1
      · rw [if_pos ⟨negative, h⟩, if_pos h]
      · rw [if_neg (h ·.2), if_neg h]

end Parsing.Script
