import Parsing.Proofs.Json.Tokens

/-!
# Inside and outside of strings

An automaton runs over a text and knows no more of it than where strings begin and end and which
escapes are in them (`Lexing`).  A text is *closed* if it takes the automaton from outside of
strings back there (`Closed`); all that the grammar derives is (`closed_value`).  An escape without
a meaning breaks the automaton for good.

Where the automaton is outside of strings, digits are those of a number.  A text *overruns* the
limit on the digits of integers if it is a closed text with too many digits behind it
(`Overruns`), and it is *sparse* if none of its beginnings does (`Sparse`).  Inside of strings there
may be any number of digits.
-/

namespace Parsing.Json

open Parsing.Decimal Parsing.Text Syntax

/-! ### Running through a text -/

/-- Where a text stands as to its strings: outside of them, inside of one, behind a backslash in
one, or in one with an escape that has no meaning. -/
inductive Lexing where
  | outside
  | inside
  | escaped
  | broken
  deriving DecidableEq

namespace Lexing

/-- Goes on by a character. -/
def next : Lexing → Char → Lexing
  | outside, c => if c = '"' then inside else outside
  | inside, c => if c = '"' then outside else if c = '\\' then escaped else inside
  | escaped, c => if (Rules.escapes.map Prod.fst).contains c then inside else broken
  | broken, _ => broken

/-- What is broken stays broken. -/
theorem foldl_broken (w : List Char) : w.foldl next broken = broken := by
  induction w with
  | nil => rfl
  | cons c w ih => exact ih

end Lexing

open Lexing (next)

/-- The text takes the automaton back to where it started. -/
def Closed (w : List Char) : Prop := w.foldl next .outside = .outside

instance (w : List Char) : Decidable (Closed w) :=
  inferInstanceAs (Decidable (w.foldl next .outside = .outside))

namespace Closed

variable {u v w : List Char}

theorem nil : Closed [] := rfl

/-- Texts that are closed can be put one behind the other. -/
theorem append (hu : Closed u) (hv : Closed v) : Closed (u ++ v) := by
  rw [Closed, List.foldl_append, hu, hv]

/-- What stands behind a closed text is closed, if the whole is. -/
theorem of_append (hu : Closed u) (h : Closed (u ++ v)) : Closed v := by
  rwa [Closed, List.foldl_append, hu] at h

/-- Outside of strings only a quote makes a difference. -/
theorem cons {c : Char} (hc : c ≠ '"') (h : Closed w) : Closed (c :: w) := by
  rw [Closed, List.foldl_cons, next, if_neg hc, h]

/-- A text without quotes is outside of strings throughout. -/
theorem of_ne_quote : ∀ {w : List Char}, (∀ c ∈ w, c ≠ '"') → Closed w
  | [], _ => nil
  | _ :: _, h =>
      have ⟨hc, hw⟩ := List.forall_mem_cons.mp h
      cons hc (of_ne_quote hw)

end Closed

/-! ### What is derived does not break the automaton -/

/-- White space has no quote in it. -/
theorem closed_blanks {w : List Char} (h : Blanks w) : Closed w := by
  refine .of_ne_quote ?_
  rintro c hc rfl
  cases h _ hc

theorem closed_minus {w : List Char} (h : Minus w) : Closed w := by
  cases h <;> rfl

/-- A numeral has no quote in it. -/
theorem closed_numeral {w : List Char} (h : Numeral w) : Closed w := by
  refine .of_ne_quote ?_
  rintro c hc rfl
  rcases mem_numeral h hc with digit | other
  · cases digit
  · exact absurd other (by decide)

/-- A character of a string stays within the string, whether it is escaped or not. -/
theorem foldl_character {w : List Char} {c : Char} (h : Character w c) :
    w.foldl next .inside = .inside := by
  cases h with
  | plain hq hb => simp [next, hq, hb]
  | escaped h => cases h <;> rfl

theorem foldl_characters {w cs : List Char} (h : Star Character w cs) :
    w.foldl next .inside = .inside := by
  induction h with
  | nil => rfl
  | cons h _ ih => rw [List.foldl_append, foldl_character h, ih]

/-- A string is left at its second quote. -/
theorem closed_quoted {w : List Char} {s : String} (h : Quoted w s) : Closed w := by
  obtain ⟨h⟩ := h
  rw [Closed, List.foldl_cons, List.foldl_append]
  show List.foldl next (List.foldl next .inside _) ['"'] = _
  rw [foldl_characters h]
  rfl

/-- The strings of a derived value are closed, and their escapes have a meaning. -/
theorem closed_value {limit : DigitLimit} {w : List Char} {v : Json} (h : Value limit w v) :
    Closed w := by
  -- Values, entries and the lists of both are derived from one another; all are closed.
  refine @Value.rec limit (fun w _ _ => Closed w) (fun w _ _ => Closed w) (fun w _ _ => Closed w)
    (fun w _ _ => Closed w) (fun w _ _ => Closed w) (fun w _ _ => Closed w)
    (fun w _ _ => Closed w) (fun w _ _ => Closed w) ?null ?true ?false ?string ?number ?array
    ?object ?noItems ?items ?noEntries ?entries ?noMoreItems ?moreItems ?entry ?noMoreEntries
    ?moreEntries ?ledItem ?ledEntry w v h
  case null | true | false => exact fun hb => .append rfl (closed_blanks hb)
  case string => exact fun h hb => (closed_quoted h).append (closed_blanks hb)
  case number =>
    exact fun h hb => (closed_numeral ((number_iff id).mp h).1).append (closed_blanks hb)
  case array =>
    exact fun hb _ hb' ih => .append (.append (.cons (by decide) (closed_blanks hb)) ih)
      (.cons (by decide) (closed_blanks hb'))
  case object =>
    exact fun hb _ _ hb' ih => .append (.append (.cons (by decide) (closed_blanks hb)) ih)
      (.cons (by decide) (closed_blanks hb'))
  case noItems | noEntries | noMoreItems | noMoreEntries => exact .nil
  case items | entries | moreItems | moreEntries => exact fun _ _ ih ihs => ih.append ihs
  case entry =>
    exact fun hk hb hb' _ ih => .append (.append (closed_quoted hk) (closed_blanks hb))
      (.cons (by decide) (.append (closed_blanks hb') ih))
  case ledItem | ledEntry =>
    exact fun hb _ ih => .cons (by decide) (.append (closed_blanks hb) ih)

/-! ### Too many digits -/

variable {limit : DigitLimit} {u v w : List Char}

/-- The text ends with more digits than an integer may have, outside of its strings. -/
def Overruns (limit : DigitLimit) (u : List Char) : Prop :=
  ∃ w d, u = w ++ d ∧ Closed w ∧ Digits d ∧ ¬ limit.Allows d.length

/-- What overruns behind a closed text overruns as a whole. -/
theorem Overruns.append (h : Overruns limit v) (hu : Closed u) : Overruns limit (u ++ v) := by
  obtain ⟨w, d, rfl, closed, digits, many⟩ := h
  exact ⟨u ++ w, d, by rw [List.append_assoc], hu.append closed, digits, many⟩

/-- Where a beginning of a text overruns the limit, the text has that many digits in a row. -/
theorem Overruns.digits {t : List Char} (h : Overruns limit u) (there : u <+: t) :
    ∃ d, d <:+: t ∧ Digits d ∧ ¬ limit.Allows d.length := by
  obtain ⟨w, d, rfl, -, digits, many⟩ := h
  obtain ⟨r, here⟩ := there
  exact ⟨d, ⟨w, r, here⟩, digits, many⟩

/-- No beginning of the text overruns the limit. -/
def Sparse (limit : DigitLimit) (t : List Char) : Prop := ∀ u, u <+: t → ¬ Overruns limit u

namespace Sparse

/-- A short text has few digits. -/
theorem of_length (h : limit.Allows w.length) : Sparse limit w := by
  rintro _ there ⟨w, d, rfl, -, -, many⟩
  refine many (h.mono ?_)
  have := there.length_le
  rw [List.length_append] at this
  omega

/-- No limit is met by a text of everyday size. -/
theorem of_short (h : w.length ≤ 640) : Sparse limit w := of_length (DigitLimit.allows_of_le h)

theorem nil : Sparse limit [] := of_short (Nat.zero_le _)

/-- A character in front that is neither a digit nor a quote leaves the digits behind it as they
are. -/
theorem cons {c : Char} (hq : c ≠ '"') (hd : c.isDigit = false) (h : Sparse limit w) :
    Sparse limit (c :: w) := by
  rintro _ ⟨r, there⟩ ⟨w', d, rfl, closed, digits, many⟩
  rw [List.append_assoc] at there
  cases w' with
  | nil =>
      -- The digits would begin with the character.
      obtain ⟨x, d, rfl⟩ := List.exists_cons_of_ne_nil digits.1
      obtain ⟨rfl, -⟩ := List.cons.inj there
      exact Bool.false_ne_true (hd.symm.trans (digits.2 x List.mem_cons_self))
  | cons x w' =>
      obtain ⟨rfl, rfl⟩ := List.cons.inj there
      have closed' : Closed w' := Closed.of_append (u := [x]) (.cons hq .nil) closed
      exact h (w' ++ d) ⟨r, List.append_assoc ..⟩ ⟨w', d, rfl, closed', digits, many⟩

/-- White space before a text has no digits. -/
theorem append_of_blanks {b : List Char} (hb : Blanks b) (hw : Sparse limit w) :
    Sparse limit (b ++ w) := by
  induction b with
  | nil => exact hw
  | cons x b ih =>
      obtain ⟨hx, hb⟩ := List.forall_mem_cons.mp hb
      refine .cons ?_ (Bool.eq_false_iff.mpr fun digit => ?_) (ih hb)
      · rintro rfl
        cases hx
      · exact Bool.false_ne_true ((isBlank_of_isDigit digit).symm.trans hx)

/-- The text in front is closed or breaks the automaton, and the digits at its end do not go on. -/
theorem append (hu : Sparse limit u) (ends : Closed u ∨ u.foldl next .outside = .broken)
    (hv : Sparse limit v) (apart : Avoids Char.isDigit v) : Sparse limit (u ++ v) := by
  rintro _ ⟨r, there⟩ ⟨w, d, rfl, closed, digits, many⟩
  rw [List.append_assoc] at there
  rcases List.append_eq_append_iff.mp there with ⟨w', rfl, rest⟩ | ⟨w', rfl, rest⟩
  · -- The digits begin in the first text, and they end there, since the other does not begin with
    -- one.
    rcases List.append_eq_append_iff.mp rest with ⟨r', rfl, -⟩ | ⟨d', rfl, rfl⟩
    · exact hu _ ⟨r', by rw [List.append_assoc]⟩ ⟨w, d, rfl, closed, digits, many⟩
    · cases d' with
      | nil =>
          rw [List.append_nil] at digits many
          exact hu _ (List.prefix_refl _) ⟨w, w', rfl, closed, digits, many⟩
      | cons x d' =>
          have digit := digits.2 x (List.mem_append_right _ List.mem_cons_self)
          exact Bool.false_ne_true ((Avoids.cons_iff.mp apart).symm.trans digit)
  · -- The automaton is outside of strings behind the first text.
    have outside : Closed u := ends.resolve_right fun broken => by
      rw [Closed, List.foldl_append, broken, Lexing.foldl_broken] at closed
      cases closed
    exact hv (w' ++ d) ⟨r, by rw [rest, List.append_assoc]⟩
      ⟨w', d, rfl, outside.of_append closed, digits, many⟩

end Sparse

end Parsing.Json
