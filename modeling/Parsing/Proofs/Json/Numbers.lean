import Parsing.Proofs.Json.Tokens
import Parsing.Proofs.Meaning

/-!
# Scanning numbers

The parser of a number glues together what its parts have read: parts that may be missing, with
repetitions inside.  A scanner of numbers needs none of that.  It takes a sign, all the digits
there are, a fraction if there is a point and an exponent if there is its letter, and it never goes
back (`Scan.number`).  It fails where digits are missing.

**The parser does what the scanner does, at every place of every text** (`run_number`): it fails
after as many characters, and it succeeds with the value that the parts of the numeral make
(`Scan.Parts.value`), although it looks at the characters of the whole numeral only.  An integer
with more digits than are read has no value, and there it raises the exception.  So a numeral that
has been scanned is not always one that succeeds: the limit is met by 4301 ones (`number_overlong`).
-/

namespace Parsing.Json

open Behaviour (Recognises)
open Parsing.Decimal Parsing.Text Syntax

variable {ε : Type} {ρ : Type → Type}

/-- Takes something from the front of the characters, and says what is left; or says how many
characters it had read when it failed. -/
abbrev Scan (α : Type) := List Char → Except Nat (α × List Char)

namespace Scan

/-- The parts of a numeral. -/
structure Parts where
  sign : List Char
  whole : List Char
  fraction : List Char
  exponent : List Char
  deriving DecidableEq

/-- The characters of a numeral. -/
def Parts.chars (t : Parts) : List Char := t.sign ++ t.whole ++ t.fraction ++ t.exponent

/-- The value of a numeral: an integer if it has neither a fraction nor an exponent, unless there
are too many digits. -/
def Parts.value (limit : DigitLimit) (t : Parts) : Except TooManyDigits Json :=
  if t.fraction = [] ∧ t.exponent = [] then
    match limit.exceeded? t.whole.length with
    | some most => .error ⟨most, some t.whole.length⟩
    | none => .ok (.int (if t.sign = [] then natOfDigits t.whole else -natOfDigits t.whole))
  else .ok (.float (floatOfNumeral t.chars))

/-- All the digits in front, of which there has to be one. -/
def digits : Scan (List Char) := fun r =>
  if r.takeWhile Char.isDigit = [] then .error 0
  else .ok (r.takeWhile Char.isDigit, r.dropWhile Char.isDigit)

/-- What is scanned behind characters that have been taken. -/
def behind (u : List Char) : Except Nat (List Char × List Char) → Except Nat (List Char × List Char)
  | .error n => .error (u.length + n)
  | .ok (w, r) => .ok (u ++ w, r)

/-- A minus sign, if there is one. -/
def minus : List Char → List Char × List Char
  | '-' :: r => (['-'], r)
  | r => ([], r)

/-- A sign, if there is one. -/
def sign : List Char → List Char × List Char
  | '+' :: r => (['+'], r)
  | '-' :: r => (['-'], r)
  | r => ([], r)

/-- A point and digits, if there is a point. -/
def fraction : Scan (List Char)
  | '.' :: r => behind ['.'] (digits r)
  | r => .ok ([], r)

/-- The letter of an exponent, perhaps a sign, and digits, if there is the letter. -/
def exponent : Scan (List Char)
  | x :: r =>
    if x = 'e' ∨ x = 'E' then behind (x :: (sign r).1) (digits (sign r).2) else .ok ([], x :: r)
  | [] => .ok ([], [])

/-- The numeral in front. -/
def number : Scan Parts := fun r =>
  let (sign, r) := minus r
  match digits r with
  | .error n => .error (sign.length + n)
  | .ok (whole, r) =>
    match fraction r with
    | .error n => .error ((sign ++ whole).length + n)
    | .ok (fraction, r) =>
      match exponent r with
      | .error n => .error ((sign ++ whole ++ fraction).length + n)
      | .ok (exponent, r) => .ok (⟨sign, whole, fraction, exponent⟩, r)

/-! ### What is scanned -/

section

variable {r r' w : List Char} {n : Nat} {t : Parts}

/-- What is left behind a maximal run does not go on with it. -/
theorem avoids_dropWhile (accepts : Char → Bool) (r : List Char) :
    Avoids accepts (r.dropWhile accepts) := by
  intro x hx
  have first := List.head?_dropWhile_not accepts r
  rwa [Option.mem_def.mp hx] at first

/-- A maximal run is empty if there is nothing to begin it. -/
theorem takeWhile_eq_nil_iff_avoids {accepts : Char → Bool} :
    r.takeWhile accepts = [] ↔ Avoids accepts r := by
  cases r with
  | nil => exact iff_of_true rfl nofun
  | cons x r =>
      rw [Avoids.cons_iff, List.takeWhile_cons]
      cases accepts x with
      | true | false => simp

/-- Digits are taken as long as there are any. -/
theorem digits_eq_ok (h : digits r = .ok (w, r')) :
    r = w ++ r' ∧ Digits w ∧ Avoids Char.isDigit r' := by
  unfold digits at h
  split at h
  · cases h
  · next some =>
    cases h
    exact ⟨List.takeWhile_append_dropWhile.symm,
      ⟨some, fun x hx => List.all_eq_true.mp List.all_takeWhile x hx⟩, avoids_dropWhile _ r⟩

/-- Digits are missing only at the very beginning, where there is none. -/
theorem digits_eq_error_iff : digits r = .error n ↔ n = 0 ∧ Avoids Char.isDigit r := by
  rw [← takeWhile_eq_nil_iff_avoids, digits]
  split
  · next none => simp only [Except.error.injEq, none, and_true, eq_comm]
  · next some => simp [some]

/-- A numeral fails before anything has been read only where its digits do. -/
theorem number_eq_error_zero_iff_digits :
    number r = .error 0 ↔ (minus r).1 = [] ∧ digits (minus r).2 = .error 0 := by
  simp only [number]
  cases hd : digits (minus r).2 with
  | error n => simp [Nat.add_eq_zero_iff]
  | ok a =>
      obtain ⟨w, r₁⟩ := a
      have some : w ≠ [] := (digits_eq_ok hd).2.1.1
      simp only
      cases fraction r₁ with
      | error n => simp [some]
      | ok b =>
          obtain ⟨f, r₂⟩ := b
          simp only
          cases exponent r₂ with
          | error n => simp [some]
          | ok e => simp

/-- That is so where neither a minus sign nor a digit is in front. -/
theorem number_eq_error_zero_iff :
    number r = .error 0 ↔ Avoids (fun x => x == '-' || x.isDigit) r := by
  rw [number_eq_error_zero_iff_digits]
  cases r with
  | nil => exact iff_of_true ⟨rfl, rfl⟩ nofun
  | cons x r =>
      by_cases hx : x = '-'
      · subst hx
        simp [minus, Avoids.cons_iff]
      · simp [minus, hx, digits_eq_error_iff, Avoids.cons_iff]

end

/-! ### Scans put together -/

/-- One scan behind another. -/
def chain (f h : Scan (List Char)) : Scan (List Char) := fun r =>
  match f r with
  | .error n => .error n
  | .ok (u, r) => behind u (h r)

/-- Nothing, where a scan fails that has read nothing. -/
def orNothing (f : Scan (List Char)) : Scan (List Char) := fun r =>
  match f r with
  | .error 0 => .ok ([], r)
  | answer => answer

/-- One character of a class. -/
def one (accepts : Char → Bool) : Scan (List Char)
  | x :: r => if accepts x then .ok ([x], r) else .error 0
  | [] => .error 0

section

variable {f h : Scan (List Char)} {r r' u : List Char} {x : Char}

theorem chain_of_ok (hr : f r = .ok (u, r')) : chain f h r = behind u (h r') := by
  simp only [chain, hr]

theorem chain_of_error {n : Nat} (hr : f r = .error n) : chain f h r = .error n := by
  simp only [chain, hr]

theorem orNothing_of_error (hr : f r = .error 0) : orNothing f r = .ok ([], r) := by
  simp only [orNothing, hr]

/-- Behind a character that has been taken no failure is an empty one. -/
theorem orNothing_of_behind {a : Except Nat (List Char × List Char)}
    (hr : f r = behind (x :: u) a) : orNothing f r = behind (x :: u) a := by
  cases a with
  | ok _ => simp only [orNothing, hr, behind]
  | error n =>
      have further : (x :: u).length + n = (u.length + n) + 1 := Nat.succ_add _ _
      simp only [orNothing, hr, behind, further]

theorem one_of_pos {accepts : Char → Bool} (hx : accepts x = true) :
    one accepts (x :: r) = .ok ([x], r) := if_pos hx

theorem one_of_neg {accepts : Char → Bool} (hx : accepts x = false) :
    one accepts (x :: r) = .error 0 := if_neg (Bool.eq_false_iff.mp hx)

end

/-! The parts of a numeral, as the parser puts them together. -/

theorem orNothing_minus : orNothing (one (· == '-')) = fun r => .ok (minus r) := by
  funext r
  cases r with
  | nil => rfl
  | cons x r =>
      by_cases hx : x = '-'
      · subst hx
        rfl
      · have none : one (· == '-') (x :: r) = .error 0 := one_of_neg (beq_false_of_ne hx)
        rw [orNothing_of_error none]
        simp [minus, hx]

theorem orNothing_sign : orNothing (one ['+', '-'].contains) = fun r => .ok (sign r) := by
  funext r
  cases r with
  | nil => rfl
  | cons x r =>
      by_cases plus : x = '+'
      · subst plus
        rfl
      · by_cases minus : x = '-'
        · subst minus
          rfl
        · rw [orNothing_of_error (one_of_neg (by simp [plus, minus]))]
          simp [sign, plus, minus]

/-- A fraction is a point with digits behind it, or nothing: a point alone is an error behind it. -/
theorem orNothing_point : orNothing (chain (one (· == '.')) digits) = fraction := by
  funext r
  cases r with
  | nil => rfl
  | cons x r =>
      by_cases hx : x = '.'
      · subst hx
        exact orNothing_of_behind (chain_of_ok rfl)
      · have none : one (· == '.') (x :: r) = .error 0 := one_of_neg (beq_false_of_ne hx)
        rw [orNothing_of_error (chain_of_error none)]
        simp [fraction, hx]

/-- An exponent is a mark, a sign or none, and digits, or nothing. -/
theorem orNothing_power :
    orNothing (chain (chain (one ['e', 'E'].contains) fun r => .ok (sign r)) digits) =
      exponent := by
  funext r
  cases r with
  | nil => rfl
  | cons x r =>
      by_cases hx : x = 'e' ∨ x = 'E'
      · -- The letter has been taken, so that what is missing behind it is no longer optional.
        have letter : one ['e', 'E'].contains (x :: r) = .ok ([x], r) :=
          one_of_pos (by simpa using hx)
        rw [orNothing_of_behind (chain_of_ok (chain_of_ok letter))]
        exact (if_pos hx).symm
      · have none : one ['e', 'E'].contains (x :: r) = .error 0 :=
          one_of_neg (by simpa using hx)
        rw [orNothing_of_error (chain_of_error (chain_of_error none))]
        exact (if_neg hx).symm

/-- The parts put together one behind the other are the numeral, with errors at the same places. -/
theorem chain_number (r : List Char) :
    chain (chain (chain (fun r => .ok (minus r)) digits) fraction) exponent r =
      (number r).map fun (t, r) => (t.chars, r) := by
  simp only [chain, number]
  cases digits (minus r).2 with
  | error n => rfl
  | ok a =>
      simp only [behind]
      cases fraction a.2 with
      | error n => rfl
      | ok b =>
          simp only
          cases exponent b.2 with
          | error n => rfl
          | ok e => rfl

/-! ### Where scans stop -/

/-- An answer to the characters `r`: a word of `A` has been taken from their front, or the beginning
of one before it failed. -/
def Answers (A : List Char → Prop) (r : List Char) : Except Nat (List Char × List Char) → Prop
  | .error n => ∃ u v r', r = u ++ r' ∧ u.length = n ∧ A (u ++ v)
  | .ok (w, r') => r = w ++ r' ∧ A w

namespace Answers

variable {A B : List Char → Prop} {f h : Scan (List Char)} {r : List Char}
  {a : Except Nat (List Char × List Char)}

/-- A scan answers for every larger language. -/
theorem mono (h : Answers A r a) (hA : ∀ w, A w → B w) : Answers B r a := by
  cases a with
  | error n =>
      obtain ⟨u, v, r', here, length, hv⟩ := h
      exact ⟨u, v, r', here, length, hA _ hv⟩
  | ok a => exact ⟨h.1, hA _ h.2⟩

theorem of_ok {w r' : List Char} (h : Answers A r a) (ha : a = .ok (w, r')) : A w := by
  subst ha
  exact h.2

/-- One character that passes the test, or an error before it. -/
theorem one (accepts : Char → Bool) {x : Char} (some : accepts x = true) (r : List Char) :
    Answers (fun w => ∃ y, w = [y] ∧ accepts y = true) r (Scan.one accepts r) := by
  cases r with
  | nil => exact ⟨[], [x], [], rfl, rfl, x, rfl, some⟩
  | cons y r =>
      by_cases hy : accepts y = true
      · rw [one_of_pos hy]
        exact ⟨rfl, y, rfl, hy⟩
      · rw [one_of_neg (Bool.eq_false_iff.mpr hy)]
        exact ⟨[], [x], y :: r, rfl, rfl, x, rfl, some⟩

/-- Where there is no digit, one could stand there. -/
theorem digits (r : List Char) : Answers Digits r (Scan.digits r) := by
  cases hr : Scan.digits r with
  | error n =>
      obtain ⟨rfl, -⟩ := digits_eq_error_iff.mp hr
      exact ⟨[], ['0'], r, rfl, rfl, digits_zero⟩
  | ok a =>
      have taken := digits_eq_ok hr
      exact ⟨taken.1, taken.2.1⟩

/-- What the second scan needs is there for the taking. -/
theorem chain (hf : Answers A r (f r)) (hh : ∀ r, Answers B r (h r)) (some : ∃ v, B v) :
    Answers (fun w => ∃ u v, A u ∧ B v ∧ w = u ++ v) r (Scan.chain f h r) := by
  unfold Scan.chain
  cases hr : f r with
  | error n =>
      rw [hr] at hf
      obtain ⟨u, v, r', rfl, rfl, hv⟩ := hf
      obtain ⟨w, hw⟩ := some
      exact ⟨u, v ++ w, r', rfl, rfl, u ++ v, w, hv, hw, (List.append_assoc ..).symm⟩
  | ok a =>
      obtain ⟨u, r'⟩ := a
      rw [hr] at hf
      obtain ⟨rfl, hu⟩ := hf
      have more := hh r'
      simp only
      cases hr' : h r' with
      | error n =>
          rw [hr'] at more
          obtain ⟨w, v, r, rfl, rfl, hv⟩ := more
          exact ⟨u ++ w, v, r, by rw [List.append_assoc], List.length_append,
            u, w ++ v, hu, hv, List.append_assoc ..⟩
      | ok b =>
          rw [hr'] at more
          exact ⟨by rw [more.1, List.append_assoc], u, b.1, hu, more.2, rfl⟩

/-- A scan that may be left out answers for a language that has nothing in it. -/
theorem orNothing (hf : Answers A r (f r)) (hA : ∀ w, A w → B w) (nil : B []) :
    Answers B r (Scan.orNothing f r) := by
  have taken := hf.mono hA
  unfold Scan.orNothing
  cases hr : f r with
  | error n =>
      rw [hr] at taken
      cases n with
      | zero => exact ⟨rfl, nil⟩
      | succ n => exact taken
  | ok a =>
      rw [hr] at taken
      exact taken

theorem minus (r : List Char) : Answers Minus r (.ok (Scan.minus r)) := by
  have sign := (one (· == '-') (x := '-') rfl r).orNothing (B := Minus) ?_ .none
  · rwa [orNothing_minus] at sign
  · rintro _ ⟨x, rfl, hx⟩
    rw [beq_iff_eq.mp hx]
    exact .minus

theorem sign (r : List Char) : Answers Sign r (.ok (Scan.sign r)) := by
  have sign := (one ['+', '-'].contains (x := '+') rfl r).orNothing (B := Sign) ?_ .none
  · rwa [orNothing_sign] at sign
  · rintro _ ⟨x, rfl, hx⟩
    rw [List.contains_iff_mem, List.mem_cons, List.mem_singleton] at hx
    rcases hx with rfl | rfl
    · exact .plus
    · exact .minus

/-- Behind a point without digits there could be one. -/
theorem fraction (r : List Char) : Answers Fraction r (Scan.fraction r) := by
  rw [← orNothing_point]
  refine orNothing (chain (one (· == '.') (x := '.') rfl r) digits ⟨_, digits_zero⟩) ?_ .none
  rintro _ ⟨_, v, ⟨x, rfl, hx⟩, hv, rfl⟩
  rw [beq_iff_eq.mp hx]
  exact .point hv

/-- Behind a mark and a sign without digits there could be one. -/
theorem exponent (r : List Char) : Answers Exponent r (Scan.exponent r) := by
  rw [← orNothing_power]
  have letter := one ['e', 'E'].contains (x := 'e') rfl
  refine orNothing (chain (chain (letter r) sign ⟨[], .none⟩) digits ⟨_, digits_zero⟩) ?_ .none
  rintro _ ⟨_, v, ⟨_, s, ⟨x, rfl, hx⟩, hs, rfl⟩, hv, rfl⟩
  rw [List.contains_iff_mem, List.mem_cons, List.mem_singleton] at hx
  rw [List.append_assoc]
  exact Exponent.power (s := s) hx hs hv

/-- What has been taken of a numeral before it fails is the beginning of one. -/
theorem numeral (r : List Char) :
    Answers Numeral r ((number r).map fun (t, r) => (t.chars, r)) := by
  rw [← chain_number]
  refine (chain (chain (chain (minus r) digits ⟨_, digits_zero⟩) fraction ⟨[], .none⟩) exponent
    ⟨[], .none⟩).mono ?_
  rintro _ ⟨_, e, ⟨_, f, ⟨m, d, hm, hd, rfl⟩, hf, rfl⟩, he, rfl⟩
  exact ⟨m, d, f, e, hm, hd, hf, he, rfl⟩

end Answers

section

variable {r r' : List Char} {t : Parts}

/-- What is scanned has the parts of a numeral. -/
theorem number_sound (h : number r = .ok (t, r')) :
    Minus t.sign ∧ Digits t.whole ∧ Fraction t.fraction ∧ Exponent t.exponent := by
  simp only [number] at h
  split at h
  · cases h
  · next whole r₁ hd =>
    split at h
    · cases h
    · next f r₂ hf =>
      split at h
      · cases h
      · next e r₃ he =>
        cases h
        exact ⟨(Answers.minus r).2, (digits_eq_ok hd).2.1, (Answers.fraction r₁).of_ok hf,
          (Answers.exponent r₂).of_ok he⟩

/-- The value that the parts of a numeral make is that of the parser. -/
theorem Parts.ofNumeral_chars (limit : DigitLimit) (refuse : TooManyDigits → ε)
    (hm : Minus t.sign) (hd : Digits t.whole) (hf : Fraction t.fraction)
    (he : Exponent t.exponent) :
    Rules.ofNumeral (readInt limit refuse) (String.ofList t.chars) =
      (t.value limit).mapError refuse := by
  obtain ⟨m, d, f, e⟩ := t
  by_cases none : f = [] ∧ e = []
  · obtain ⟨rfl, rfl⟩ := none
    have signed : intOfNumeral (m ++ d) =
        if m = [] then (natOfDigits d : Int) else -natOfDigits d := by
      cases hm with
      | none => exact intOfNumeral_of_digits hd
      | minus => rfl
    rw [Parts.value, if_pos ⟨rfl, rfl⟩, Parts.chars, List.append_nil, List.append_nil,
      ofNumeral_integer _ hm hd, readInt, countP_isDigit hm hd, signed]
    cases limit.exceeded? d.length with
    | none | some _ => rfl
  · rw [Parts.value, if_neg none]
    exact ofNumeral_float _ hm hd hf he (mt List.append_eq_nil_iff.mp none)

end

/-! ### Parsers that scan -/

/-- At every place the behaviour does what the scan does there. -/
def Scans (q : Behaviour ε String) (f : Scan (List Char)) : Prop := ∀ c : Cursor,
  match f c.remaining with
  | .error n => q.Meets c (· = .failure (c.offset + n))
  | .ok (w, r) =>
    ∃ d, c.Reads w d ∧ d.remaining = r ∧ q.Meets c (· = .success (String.ofList w) d)

namespace Scans

variable {g : Grammar ε ρ} {p q : Parser ε ρ String} {f h : Scan (List Char)}

/-- A parser of a language scans it, if the scan takes a word before what may stand behind it and
fails at once where there is none. -/
theorem of_recognises {A F N : List Char → Prop}
    (hq : ∀ n, Recognises n (g.run n q) (Spelt A) F N)
    (hf : ∀ r, match f r with
      | .error n => n = 0 ∧ N r
      | .ok (w, r') => r = w ++ r' ∧ A w ∧ F r') : Scans (g.meaning q) f := by
  intro c
  -- With one unit of fuel more than characters are left, the repetitions inside come to their end.
  have enough := Nat.lt_succ_self c.remaining.length
  have answer := hf c.remaining
  cases hr : f c.remaining with
  | error n =>
      rw [hr] at answer
      obtain ⟨rfl, absent⟩ := answer
      have refuses := (hq _).absent c enough absent
      exact (Grammar.run_below_meaning _ q).meets (refuses.of_eq (by simp)) (by simp)
  | ok a =>
      rw [hr] at answer
      obtain ⟨here, word, behind⟩ := answer
      obtain ⟨d, read, rest⟩ := Cursor.Reads.of_append here
      have reads := (hq _).complete enough ⟨word, rfl⟩ read (rest ▸ behind)
      exact ⟨d, read, rest, (Grammar.run_below_meaning _ q).meets reads (by simp)⟩

/-- The second parser scans behind what the first has scanned. -/
theorem append (hp : Scans (g.meaning p) f) (hq : Scans (g.meaning q) h) :
    Scans (g.meaning (p ++ q)) (chain f h) := by
  intro c
  rw [Parser.append_eq_combine, Grammar.meaning_combine]
  have first := hp c
  unfold chain
  cases hr : f c.remaining with
  | error n =>
      rw [hr] at first
      exact .bind (first.of_eq rfl)
  | ok a =>
      obtain ⟨u, r⟩ := a
      rw [hr] at first
      obtain ⟨d, read, rfl, first⟩ := first
      have second := hq d
      simp only
      cases hr' : h d.remaining with
      | error n =>
          rw [hr'] at second
          have further : (d.offset : Int) + n = c.offset + (u.length + n : Nat) := by
            rw [read.offset_eq]
            omega
          refine .bind (first.of_eq ?_)
          simp only [Verdict.Continues]
          exact .map (second.of_eq (congrArg Verdict.failure further))
      | ok b =>
          obtain ⟨v, r'⟩ := b
          rw [hr'] at second
          obtain ⟨e, more, rfl, second⟩ := second
          refine ⟨e, read.trans more, rfl, .bind (first.of_eq ?_)⟩
          simp only [Verdict.Continues]
          refine .map (second.of_eq ?_)
          rw [String.ofList_append]
          rfl

/-- A default for empty failures makes a scan one that may be left out. -/
theorem option (hp : Scans (g.meaning p) f) :
    Scans (g.meaning (Parser.option "" p)) (orNothing f) := by
  intro c
  rw [Parser.option, Grammar.meaning_alt, Grammar.meaning_pure]
  have first := hp c
  unfold orNothing
  cases hr : f c.remaining with
  | error n =>
      rw [hr] at first
      cases n with
      | zero => exact ⟨c, .refl c, rfl, .alt (first.of_eq (by simpa using .pure rfl))⟩
      | succ n =>
          have further : (c.offset : Int) + (n + 1 : Nat) ≠ c.offset := by omega
          exact .alt (first.of_eq ((if_neg further).mpr rfl))
  | ok a =>
      rw [hr] at first
      obtain ⟨d, read, rest, first⟩ := first
      exact ⟨d, read, rest, .alt (first.of_eq rfl)⟩

/-- A parser that recognises single characters scans them. -/
theorem one {accepts : Char → Bool}
    (hq : ∀ n, Recognises n (g.run n q) (Spelt fun w => ∃ x, w = [x] ∧ accepts x = true)
      (fun _ => True) (Avoids accepts)) : Scans (g.meaning q) (one accepts) := by
  refine of_recognises hq fun r => ?_
  cases r with
  | nil => exact ⟨rfl, nofun⟩
  | cons x r =>
      by_cases hx : accepts x = true
      · simp only [Scan.one, hx, if_true]
        exact ⟨rfl, ⟨x, rfl, hx⟩, trivial⟩
      · simp only [Scan.one, hx]
        exact ⟨rfl, Avoids.cons_iff.mpr (Bool.eq_false_iff.mpr hx)⟩

theorem oneOf (cs : List Char) :
    Scans (g.meaning ((Parser.oneOf cs).map String.singleton)) (Scan.one cs.contains) :=
  one fun n => by
    rw [Grammar.run_eq]
    exact oneOf_spelt cs

theorem singleton_iff {x : Char} {w : List Char} :
    w = [x] ↔ ∃ y, w = [y] ∧ (y == x) = true := by
  simp

theorem point : Scans (g.meaning ((Parser.char '.').map String.singleton))
    (Scan.one (· == '.')) :=
  one fun n => by
    rw [Grammar.run_eq]
    exact (char_spelt '.').of_iff fun _ _ => and_congr_left fun _ => singleton_iff

theorem minusSign : Scans (g.meaning (.string "-")) (Scan.one (· == '-')) := by
  refine one fun n => ?_
  rw [Grammar.run_eq]
  refine (Recognises.string "-").imp (fun w s => ?_) (fun _ => id) fun r hr => ?_
  · rw [Spelt, ← singleton_iff]
    refine and_congr_right fun hw => ?_
    rw [hw]
    exact eq_comm
  · rintro ⟨t, rfl⟩
    cases hr '-' rfl

theorem digits : Scans (g.meaning Rules.digits) digits := by
  refine of_recognises (fun n => by
    rw [Grammar.run_eq]
    exact digits_recognises (Nat.le_refl n)) fun r => ?_
  cases hr : Scan.digits r with
  | error n => exact digits_eq_error_iff.mp hr
  | ok a =>
      obtain ⟨w, r'⟩ := a
      exact digits_eq_ok hr

theorem fraction : Scans (g.meaning Rules.fraction) fraction := by
  rw [← orNothing_point]
  exact (point.append digits).option

theorem exponent : Scans (g.meaning Rules.exponent) exponent := by
  rw [← orNothing_power, ← orNothing_sign]
  exact (((oneOf ['e', 'E']).append (oneOf ['+', '-']).option).append digits).option

theorem numeral : Scans
    (g.meaning (Parser.option "" (.string "-") ++ Rules.digits ++ Rules.fraction ++ Rules.exponent))
    (chain (chain (chain (fun r => .ok (minus r)) Scan.digits) Scan.fraction) Scan.exponent) := by
  rw [← orNothing_minus]
  exact ((minusSign.option.append digits).append fraction).append exponent

end Scans

end Scan

/-! ### Numbers -/

variable {g : Grammar ε ρ} {c : Cursor}

/-- All the white space in front is read. -/
theorem spaces_meets (g : Grammar ε ρ) (c : Cursor) :
    ∃ d, c.Reads (c.remaining.takeWhile isBlank) d ∧
      (g.meaning Parser.spaces).Meets c (· = .success () d) := by
  obtain ⟨d, read, rest⟩ := Cursor.Reads.of_append
    (List.takeWhile_append_dropWhile (p := isBlank) (l := c.remaining)).symm
  have stops : Avoids isBlank d.remaining := rest ▸ Scan.avoids_dropWhile isBlank _
  let n := c.remaining.length + 1
  have reads : (g.run n Parser.spaces).Meets c (· = .success () d) := by
    rw [Grammar.run_eq]
    exact (spaces_recognises (Nat.le_refl n)).complete (Nat.lt_succ_self _) (blanks_takeWhile _) read
      stops
  exact ⟨d, read, (Grammar.run_below_meaning n _).meets reads (by simp)⟩

section

variable (g : Grammar ε ρ) (limit : DigitLimit) (refuse : TooManyDigits → ε) (c : Cursor)

/-- What the parser does is what the scan says. -/
theorem number_meets :
    match Scan.number c.remaining with
    | .error n => (g.meaning (Rules.number (readInt limit refuse))).Meets c
        (· = .failure (c.offset + n))
    | .ok (t, r) => ∃ d, c.Reads (t.chars ++ r.takeWhile isBlank) d ∧
        (g.meaning (Rules.number (readInt limit refuse))).Meets c (· = match t.value limit with
          | .ok v => .success v d
          | .error e => .thrown (.raised (refuse e))) := by
  have scanned := Scan.Scans.numeral (g := g) c
  rw [Scan.chain_number] at scanned
  rw [Rules.number, Grammar.meaning_mapM, Rules.lexeme, Grammar.meaning_keepLeft]
  cases hr : Scan.number c.remaining with
  | error n =>
      rw [hr] at scanned
      exact .map (.bind (scanned.of_eq rfl))
  | ok a =>
      obtain ⟨t, r⟩ := a
      rw [hr] at scanned
      obtain ⟨d, read, rfl, first⟩ := scanned
      obtain ⟨e, blanks, second⟩ := spaces_meets g d
      refine ⟨e, read.trans blanks, .map (.bind (first.of_eq ?_))⟩
      simp only [Verdict.Continues]
      refine .map (second.of_eq ?_)
      obtain ⟨hm, hd, hf, he⟩ := Scan.number_sound hr
      show Verdict.ofAnswer e (Rules.ofNumeral _ (String.ofList t.chars)) = _
      rw [Scan.Parts.ofNumeral_chars limit refuse hm hd hf he]
      cases t.value limit with
      | ok _ | error _ => rfl

/-- The parser enters no rule, so that its runs have the meaning that it has in any grammar. -/
theorem number_below {enter : {α : Type} → Cell → ρ α → Behaviour ε α} {rounds : Nat} :
    ((Rules.number (readInt limit refuse)).behaviour enter rounds).Below
      (g.meaning (Rules.number (readInt limit refuse))) := by
  have run : g.run rounds (Rules.number (readInt limit refuse)) =
      (Rules.number (readInt limit refuse)).behaviour enter rounds := Grammar.run_eq ..
  rw [← run]
  exact Grammar.run_below_meaning rounds _

/-- The parser fails empty only where there is neither a minus sign nor a digit. -/
theorem number_refuses_iff : (g.meaning (Rules.number (readInt limit refuse))).Refuses c ↔
    Avoids (fun x => x == '-' || x.isDigit) c.remaining := by
  rw [← Scan.number_eq_error_zero_iff]
  have scanned := number_meets g limit refuse c
  cases hr : Scan.number c.remaining with
  | error n =>
      rw [hr] at scanned
      rw [Except.error.injEq]
      constructor
      · intro refuses
        have same := (scanned .start).symm.trans (refuses .start)
        rw [Verdict.failure.injEq] at same
        omega
      · rintro rfl
        exact scanned.of_eq (congrArg Verdict.failure (Int.add_zero _))
  | ok a =>
      rw [hr] at scanned
      obtain ⟨d, _, first⟩ := scanned
      refine iff_of_false (fun refuses => ?_) nofun
      have same := (first .start).symm.trans (refuses .start)
      cases ht : a.1.value limit with
      | ok _ | error _ => simp [ht] at same

/-- **The parser of numbers scans, at every place of every text.**  It takes a minus sign if there
is one, and all the digits there are; a point and all the digits behind it, if there is a point; the
letter of an exponent, a sign if there is one, and all the digits behind it, if there is the letter.
Where digits are missing it fails behind what it has taken.  Otherwise it succeeds behind the white
space that follows, with an integer if there was neither a point nor an exponent, and with the
floating-point number of the numeral if there was; except that it raises the exception if there are
more digits than an integer may have.  Without a limit it never does.

So it is only where neither a minus sign nor a digit is in front that another alternative is
tried. -/
theorem run_number :
    (match Scan.number c.remaining with
      | .error n => (g.meaning (Rules.number (readInt limit refuse))).Meets c
          (· = .failure (c.offset + n))
      | .ok (t, r) => ∃ d, c.Reads (t.chars ++ r.takeWhile isBlank) d ∧
          (g.meaning (Rules.number (readInt limit refuse))).Meets c (· = match t.value limit with
            | .ok v => .success v d
            | .error e => .thrown (.raised (refuse e)))) ∧
    ((g.meaning (Rules.number (readInt limit refuse))).Refuses c ↔
      Avoids (fun x => x == '-' || x.isDigit) c.remaining) :=
  ⟨number_meets g limit refuse c, number_refuses_iff g limit refuse c⟩

end

/-- Digits are taken as a whole, however many there are, if the numeral does not go on. -/
theorem Scan.number_of_digits {w r : List Char} (h : Digits w) (ends : Avoids numeric r) :
    Scan.number (w ++ r) = .ok (⟨[], w, [], []⟩, r) := by
  have minus : Scan.minus (w ++ r) = ([], w ++ r) := by
    obtain ⟨x, w, rfl⟩ := List.exists_cons_of_ne_nil h.1
    have hx : x ≠ '-' := ne_of_isDigit (h.2 x List.mem_cons_self) rfl
    simp [Scan.minus, hx]
  have none (x : Char) (hx : x ∈ r.head?) : x.isDigit = false ∧ x ≠ '.' ∧ x ≠ 'e' ∧ x ≠ 'E' := by
    simpa [numeric, and_assoc] using ends x hx
  have digits : Scan.digits (w ++ r) = .ok (w, r) := by
    have more : r.takeWhile Char.isDigit = [] :=
      takeWhile_eq_nil_iff_avoids.mpr fun x hx => (none x hx).1
    have taken : (w ++ r).takeWhile Char.isDigit = w := by
      rw [List.takeWhile_append_of_pos h.2, more, List.append_nil]
    have left : (w ++ r).dropWhile Char.isDigit = r := by
      have parts := List.takeWhile_append_dropWhile (p := Char.isDigit) (l := w ++ r)
      rw [taken] at parts
      exact List.append_cancel_left parts
    rw [Scan.digits, taken, left, if_neg h.1]
  have fraction : Scan.fraction r = .ok ([], r) := by
    cases r with
    | nil => rfl
    | cons x r => simp [Scan.fraction, (none x rfl).2.1]
  have exponent : Scan.exponent r = .ok ([], r) := by
    cases r with
    | nil => rfl
    | cons x r => simp [Scan.exponent, (none x rfl).2.2]
  simp only [Scan.number, minus, digits, fraction, exponent]

/-- An integer with too many digits raises the exception. -/
theorem number_meets_of_digits (g : Grammar ε ρ) {limit : DigitLimit} (refuse : TooManyDigits → ε)
    {c : Cursor} {w r : List Char} (here : c.remaining = w ++ r) (h : Digits w)
    (ends : Avoids numeric r) {most : Nat} (many : limit.exceeded? w.length = some most) :
    (g.meaning (Rules.number (readInt limit refuse))).Meets c
      (· = .thrown (.raised (refuse ⟨most, some w.length⟩))) := by
  have raised := number_meets g limit refuse c
  rw [here, Scan.number_of_digits h ends] at raised
  obtain ⟨d, -, raised⟩ := raised
  rwa [Scan.Parts.value, if_pos ⟨rfl, rfl⟩, many] at raised

/-- A numeral of 4301 ones is scanned, but the parser does not succeed with the integer that it
writes: it raises the exception. -/
theorem number_overlong :
    let text := List.replicate 4301 '1'
    let number : Parser TooManyDigits Rule Json := Rules.number (readInt .standard id)
    Scan.number text = .ok (⟨[], text, [], []⟩, []) ∧
    ((grammar .standard).meaning number).Meets (.start text.toArray)
      (· = .thrown (.raised ⟨4300, some 4301⟩)) ∧
    ∀ v d, ¬ ((grammar .standard).meaning number).Meets (.start text.toArray)
      (· = .success v d) := by
  intro text number
  have ones : Digits text := ⟨List.cons_ne_nil _ _, fun x hx => by
    rw [List.eq_of_mem_replicate hx]
    rfl⟩
  have length : text.length = 4301 := List.length_replicate
  have raised := number_meets_of_digits (grammar .standard) id (c := .start text.toArray)
    (List.append_nil text).symm ones nofun
    (show DigitLimit.standard.exceeded? text.length = some 4300 by rw [length]; decide)
  have scanned := Scan.number_of_digits ones (r := []) nofun
  rw [List.append_nil] at scanned
  rw [length] at raised
  refine ⟨scanned, raised, fun v d succeeded => ?_⟩
  cases (raised .start).symm.trans (succeeded .start)

/-- A second point ends the numeral. -/
example : Scan.number "-08.5e+1.".toList =
    .ok (⟨['-'], ['0', '8'], ['.', '5'], ['e', '+', '1']⟩, ['.']) := rfl

/-- A point without digits does not. -/
example : Scan.number "1.e5".toList = .error 2 := rfl

end Parsing.Json
