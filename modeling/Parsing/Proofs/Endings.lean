import Mathlib.Data.Nat.Find
import Parsing.Parser.Character
import Parsing.Proofs.Items

/-!
# Items up to an ending

`p.Until ending c s xs d t` says that `p` reads the items `xs` from `c` on and comes to `d`, and
that the ending was not there before any of them: it was tried first and has failed empty.  At `d`
the next thing that is tried is the ending again.

**A repetition up to an ending succeeds if the ending is there behind such items**
(`Grammar.run_manyTill`), and it fails if the ending fails committed there, or if neither the ending
is there nor an item that moves (`Behaviour.BreaksOff`).  In particular, any characters up to a
string are those before its first occurrence (`FirstAt`): no character is passed over that an
occurrence starts with, and there is always one more character to go on with while an occurrence is
still ahead.
-/

namespace Parsing

variable {ε : Type} {ρ : Type → Type} {α β γ : Type}

namespace Behaviour

variable {p : Behaviour ε α} {ending : Behaviour ε β} {c d : Cursor} {s t : Session}

/-- From `c` in the session `s` on, `p` reads the items `xs`, of which each moves the cursor on and
none is where the ending is, and comes to `d` in the session `t`. -/
inductive Until (p : Behaviour ε α) (ending : Behaviour ε β) :
    Cursor → Session → List α → Cursor → Session → Prop where
  | nil (c : Cursor) (s : Session) : Until p ending c s [] c s
  | cons {c c' d : Cursor} {s s₁ s₂ t : Session} {e : ParseError} {x : α} {xs : List α}
      (absent : ending c s = (.failure c.offset e, s₁)) (h : p c s₁ = (.success x c', s₂))
      (moved : c.offset < c'.offset) (rest : Until p ending c' s₂ xs d t) :
      Until p ending c s (x :: xs) d t

/-- At `c` there is neither the ending nor an item: the failure that this makes. -/
inductive BreaksOff (p : Behaviour ε α) (ending : Behaviour ε β) (c : Cursor) (s : Session) :
    Int → ParseError → Session → Prop where
  | ending {o : Int} {e : ParseError} {t : Session} (h : ending c s = (.failure o e, t))
      (committed : (c.offset : Int) < o) : BreaksOff p ending c s o e t
  | item {o : Int} {e₁ e₂ : ParseError} {s₁ t : Session}
      (absent : ending c s = (.failure c.offset e₁, s₁)) (h : p c s₁ = (.failure o e₂, t)) :
      BreaksOff p ending c s o ⟨e₂.message, e₁.suggestions ++ e₂.suggestions⟩ t
  | still {e : ParseError} {s₁ t : Session} {x : α} {d : Cursor}
      (absent : ending c s = (.failure c.offset e, s₁)) (h : p c s₁ = (.success x d, t))
      (same : d.offset = c.offset) : BreaksOff p ending c s c.offset ⟨standstill, e.suggestions⟩ t

/-- Only the failures of the ending matter to the items before it. -/
theorem Until.imp {ending' : Behaviour ε γ} {xs : List α} (read : p.Until ending c s xs d t)
    (h : ∀ {c s e t}, ending c s = (.failure c.offset e, t) →
      ending' c s = (.failure c.offset e, t)) : p.Until ending' c s xs d t := by
  induction read with
  | nil c s => exact .nil c s
  | cons absent hx moved _ ih => exact .cons (h absent) hx moved ih

/-- Up to an ending it makes no difference whether that is read, since there it has been absent. -/
theorem until_lookAhead_iff {xs : List α} :
    p.Until (lookAhead ending) c s xs d t ↔ p.Until ending c s xs d t :=
  ⟨fun read => read.imp lookAhead_eq_failure_iff.mp,
    fun read => read.imp lookAhead_eq_failure_iff.mpr⟩

/-! ### A round -/

/-- One round of a repetition up to an ending: it ends with the items where the ending is, and goes
on behind one more item where it is not. -/
def till (p : Behaviour ε α) (ending : Behaviour ε β) (items : List α) :
    Behaviour ε (Step (List α) (List α)) :=
  .alt (.map (fun _ => .ok (.done items)) ending)
    (.map (fun x => .ok (.loop (x :: items))) (.advancing p))

section

variable {items items' xs : List α} {o : Int} {e : ParseError} {fault : Fault ε}

/-- A round goes on where the ending has failed empty and an item has been read that is not
empty. -/
theorem till_eq_loop_iff (hp : p.Onward) :
    till p ending items c s = (.success (.loop items') d, t) ↔
      ∃ e s₁ x, ending c s = (.failure c.offset e, s₁) ∧ p c s₁ = (.success x d, t) ∧
        c.offset < d.offset ∧ items' = x :: items := by
  rw [till, alt_eq_success_iff]
  simp only [map_eq_success_iff, map_eq_failure_iff, advancing_eq_success_iff, reduceCtorEq,
    and_false, exists_false, false_or, Step.loop.injEq]
  constructor
  · rintro ⟨e, s₁, absent, x, ⟨hx, moved⟩, rfl⟩
    exact ⟨e, s₁, x, absent, hx, Nat.lt_of_le_of_ne (hp.success hx) (Ne.symm moved), rfl⟩
  · rintro ⟨e, s₁, x, absent, hx, moved, rfl⟩
    exact ⟨e, s₁, absent, x, ⟨hx, Nat.ne_of_gt moved⟩, rfl⟩

/-- A round is done where the ending succeeds, with the items that have been read. -/
theorem till_eq_done_iff : till p ending items c s = (.success (.done xs) d, t) ↔
    ∃ y, ending c s = (.success y d, t) ∧ items = xs := by
  rw [till, alt_eq_success_iff]
  simp [map_eq_success_iff]

theorem standstill_after (suggestions : List Suggestion) :
    (⟨standstill, []⟩ : ParseError).withSuggestions suggestions = ⟨standstill, suggestions⟩ :=
  congrArg (ParseError.mk standstill) (List.append_nil suggestions)

/-- A round fails with an ending that has read something, or behind an empty failure of the ending
with the item. -/
theorem till_eq_failure_iff (he : ending.Onward) :
    till p ending items c s = (.failure o e, t) ↔ p.BreaksOff ending c s o e t := by
  rw [till, alt_eq_failure_iff]
  simp only [map_eq_failure_iff, advancing_eq_failure_iff]
  constructor
  · rintro (⟨h, full⟩ | ⟨e₁, s₁, e₂, absent, h | ⟨x, d, h, same, rfl, rfl⟩, rfl⟩)
    · have forward := he.failure h
      exact .ending h (by omega)
    · exact .item absent h
    · rw [standstill_after]
      exact .still absent h same
  · intro h
    cases h with
    | ending h committed => exact .inl ⟨h, by omega⟩
    | item absent h => exact .inr ⟨_, _, _, absent, .inl h, rfl⟩
    | still absent h same =>
        exact .inr ⟨_, _, _, absent, .inr ⟨_, _, h, same, rfl, rfl⟩, (standstill_after _).symm⟩

/-- A round raises the exceptions of the ending, and those of the item where the ending is
absent. -/
theorem till_eq_thrown_iff : till p ending items c s = (.thrown fault, t) ↔
    ending c s = (.thrown fault, t) ∨
      ∃ e s₁, ending c s = (.failure c.offset e, s₁) ∧ p c s₁ = (.thrown fault, t) := by
  rw [till, alt_eq_thrown_iff]
  simp only [map_eq_failure_iff, map_eq_thrown_iff, advancing_eq_thrown_iff]

theorem till_ne_stray {shown : String} :
    till p ending items c s ≠ (.success (.stray shown) d, t) := by
  simp [till, alt_eq_success_iff, map_eq_success_iff]

/-- The rounds that go on are those of the items. -/
theorem rounds_till_iff (hp : p.Onward) :
    Rounds (till p ending) items c s items' d t ↔
      ∃ xs, p.Until ending c s xs d t ∧ items' = xs.reverse ++ items := by
  constructor
  · intro r
    induction r with
    | refl items c s => exact ⟨[], .nil c s, rfl⟩
    | more h _ ih =>
        obtain ⟨xs, read, rfl⟩ := ih
        obtain ⟨e, s₁, x, absent, hx, moved, rfl⟩ := (till_eq_loop_iff hp).mp h
        exact ⟨x :: xs, .cons absent hx moved read, by simp⟩
  · rintro ⟨xs, read, rfl⟩
    induction read generalizing items with
    | nil c s => exact .refl items c s
    | @cons _ _ _ _ _ _ _ _ x _ absent hx moved _ ih =>
        have rest := @ih (x :: items)
        rw [List.reverse_cons, List.append_assoc]
        exact .more ((till_eq_loop_iff hp).mpr ⟨_, _, x, absent, hx, moved, rfl⟩) rest

end

/-! ### Strings -/

section

variable {text : String}

/-- A string is read as a whole, and the session stays as it is. -/
theorem string_eq_success_iff {y : String} :
    (string text : Behaviour ε String) c s = (.success y d, t) ↔
      c.Reads text.toList d ∧ y = text ∧ t = s := by
  constructor
  · intro h
    by_cases starts : text.toList <+: c.remaining
    · obtain ⟨r, hr⟩ := starts
      obtain ⟨d', read, -⟩ := Cursor.Reads.of_append hr.symm
      cases (string_of_reads read s).symm.trans h
      exact ⟨read, rfl, rfl⟩
    · obtain ⟨e, he⟩ := string_of_absent (ε := ε) starts s
      cases he.symm.trans h
  · rintro ⟨read, rfl, rfl⟩
    exact string_of_reads read t

/-- A string fails on the spot, and only where it is not there. -/
theorem string_failure {o : Int} {e : ParseError}
    (h : (string text : Behaviour ε String) c s = (.failure o e, t)) :
    ¬ text.toList <+: c.remaining ∧ o = c.offset ∧ t = s := by
  by_cases starts : text.toList <+: c.remaining
  · obtain ⟨r, hr⟩ := starts
    obtain ⟨d, read, -⟩ := Cursor.Reads.of_append hr.symm
    cases (string_of_reads read s).symm.trans h
  · obtain ⟨e, he⟩ := string_of_absent (ε := ε) starts s
    cases he.symm.trans h
    exact ⟨starts, rfl, rfl⟩

theorem Onward.string (text : String) : (Behaviour.string text : Behaviour ε String).Onward where
  success h := by
    obtain ⟨read, _, _⟩ := string_eq_success_iff.mp h
    exact read.offset_eq ▸ Nat.le_add_right _ _
  failure h := Int.le_of_eq (string_failure h).2.1.symm

/-- What goes back to where it was entered does not go behind that. -/
theorem Onward.lookAhead (hp : p.Onward) : (Behaviour.lookAhead p).Onward where
  success h := by rw [(lookAhead_eq_success_iff.mp h).2]
  failure h := hp.failure (lookAhead_eq_failure_iff.mp h)

end

end Behaviour

/-! ### First occurrences -/

/-- `w` occurs in `r` behind the first `n` characters, and not before. -/
def FirstAt (w r : List Char) (n : Nat) : Prop := w <+: r.drop n ∧ ∀ k < n, ¬ w <+: r.drop k

/-- An occurrence starts within the text. -/
theorem FirstAt.le_length {w r : List Char} {n : Nat} (h : FirstAt w r n) : n ≤ r.length := by
  by_contra beyond
  have nothing (k : Nat) (hk : r.length ≤ k) : r.drop k = [] := List.drop_eq_nil_of_le hk
  refine h.2 r.length (by omega) ?_
  rw [nothing _ (Nat.le_refl _), ← nothing n (by omega)]
  exact h.1

/-- The text before the first occurrence can be read, and the string behind it. -/
theorem FirstAt.reads {c : Cursor} {w : List Char} {n : Nat} (h : FirstAt w c.remaining n) :
    ∃ d d', c.Reads (c.remaining.take n) d ∧ d.Reads w d' ∧ (c.remaining.take n).length = n := by
  obtain ⟨r, hr⟩ := h.1
  obtain ⟨d, read, hd⟩ := Cursor.Reads.of_append (List.take_append_drop n c.remaining).symm
  obtain ⟨d', found, -⟩ := Cursor.Reads.of_append (hd.trans hr.symm)
  exact ⟨d, d', read, found, List.length_take_of_le h.le_length⟩

/-- There is a first occurrence if there is any. -/
theorem exists_firstAt_iff {w r : List Char} : (∃ n, FirstAt w r n) ↔ w <:+: r := by
  constructor
  · rintro ⟨n, h, -⟩
    exact h.isInfix.trans (List.drop_suffix n r).isInfix
  · intro h
    obtain ⟨u, v, rfl⟩ := h
    have occurs : ∃ n, w <+: (u ++ w ++ v).drop n := ⟨u.length, by simp⟩
    exact ⟨Nat.find occurs, Nat.find_spec occurs, fun k hk => Nat.find_min occurs hk⟩

namespace Grammar

open Parsing.Behaviour (BreaksOff Onward Until)
open Parsing.Decimal (TooManyDigits)
open Parsing.Parser (anyChar lookAhead manyTill string)

variable {g : Grammar ε ρ} {p : Parser ε ρ α} {ending : Parser ε ρ β} {c d : Cursor}
  {s s' t : Session}

/-! ### Repetitions up to an ending -/

/-- The rounds mean what is done with the meanings of the item and of the ending. -/
theorem meaning_till (p : Parser ε ρ α) (ending : Parser ε ρ β) (items : List α) :
    g.meaning (.alt (.map (fun _ => .done items) ending)
      (.map (fun x => .loop (x :: items)) (.advancing p))) =
        .till (g.meaning p) (g.meaning ending) items := by
  rw [meaning_alt, meaning_map, meaning_map, meaning_advancing]
  rfl

/-- The loop ends with a reply if and only if a round ends it so behind the items. -/
theorem meaning_till_loop_iff (hp : (g.meaning p).Onward)
    {r : Outcome ε (List α) × Session} (hr : r.1 ≠ .exhausted) :
    g.meaning (.tailRec (fun items => .alt (.map (fun _ => .done items) ending)
      (.map (fun x => .loop (x :: items)) (.advancing p))) []) c s = r ↔
        ∃ xs c' t, (g.meaning p).Until (g.meaning ending) c s xs c' t ∧
          Behaviour.round (.till (g.meaning p) (g.meaning ending) xs.reverse)
            (fun _ => .exhausted) c' t = r := by
  rw [meaning_tailRec_iff hr]
  simp only [meaning_till, Behaviour.rounds_till_iff hp, List.append_nil]
  constructor
  · rintro ⟨_, c', t, ⟨xs, read, rfl⟩, last⟩
    exact ⟨xs, c', t, read, last⟩
  · rintro ⟨xs, c', t, read, last⟩
    exact ⟨xs.reverse, c', t, ⟨xs, read, rfl⟩, last⟩

/-- It succeeds with items before each of which the ending was absent, and behind the ending. -/
theorem meaning_manyTill_success_iff (hp : (g.meaning p).Onward) {xs : List α} :
    g.meaning (manyTill p ending) c s = (.success xs d, s') ↔
      ∃ c' t y, (g.meaning p).Until (g.meaning ending) c s xs c' t ∧
        g.meaning ending c' t = (.success y d, s') := by
  rw [manyTill, meaning_map, Behaviour.map_eq_success_iff]
  constructor
  · rintro ⟨_, h, rfl⟩
    obtain ⟨xs, c', t, read, last⟩ := (meaning_till_loop_iff hp (by simp)).mp h
    obtain ⟨y, there, rfl⟩ := Behaviour.till_eq_done_iff.mp (Behaviour.round_eq_success_iff.mp last)
    rw [List.reverse_reverse]
    exact ⟨c', t, y, read, there⟩
  · rintro ⟨c', t, y, read, there⟩
    refine ⟨xs.reverse, (meaning_till_loop_iff hp (by simp)).mpr ⟨xs, c', t, read, ?_⟩,
      List.reverse_reverse xs⟩
    exact Behaviour.round_eq_success_iff.mpr (Behaviour.till_eq_done_iff.mpr ⟨y, there, rfl⟩)

/-- It fails behind such items in one of the ways in which a round can. -/
theorem meaning_manyTill_failure_iff (hp : (g.meaning p).Onward) (he : (g.meaning ending).Onward)
    {o : Int} {e : ParseError} :
    g.meaning (manyTill p ending) c s = (.failure o e, s') ↔
      ∃ xs c' t, (g.meaning p).Until (g.meaning ending) c s xs c' t ∧
        (g.meaning p).BreaksOff (g.meaning ending) c' t o e s' := by
  rw [manyTill, meaning_map, Behaviour.map_eq_failure_iff, meaning_till_loop_iff hp (by simp)]
  simp only [Behaviour.round_eq_failure_iff, Behaviour.till_eq_failure_iff he]

/-- It raises an exception behind such items, that of the ending or of one more item. -/
theorem meaning_manyTill_thrown_iff (hp : (g.meaning p).Onward) {fault : Fault ε} :
    g.meaning (manyTill p ending) c s = (.thrown fault, s') ↔
      ∃ xs c' t, (g.meaning p).Until (g.meaning ending) c s xs c' t ∧
        (g.meaning ending c' t = (.thrown fault, s') ∨
          ∃ e s₁, g.meaning ending c' t = (.failure c'.offset e, s₁) ∧
            g.meaning p c' s₁ = (.thrown fault, s')) := by
  rw [manyTill, meaning_map, Behaviour.map_eq_thrown_iff, meaning_till_loop_iff hp (by simp)]
  simp only [Behaviour.round_eq_thrown_iff, Behaviour.till_eq_thrown_iff, Behaviour.till_ne_stray,
    and_false, exists_false, or_false]

/-! ### Characters up to a string -/

theorem anyChar_of_reads {x : Char} (h : c.Reads [x] d) (s : Session) :
    g.meaning anyChar c s = (.success x d, s) := by
  rw [anyChar, meaning_label, meaning_satisfy]
  simp only [Behaviour.label, Behaviour.satisfy_of_reads _ h]

theorem anyChar_of_none (h : c.peek = none) (s : Session) :
    ∃ e, g.meaning anyChar c s = (.failure c.offset e, s) := by
  rw [anyChar, meaning_label, meaning_satisfy]
  exact ⟨_, by simp only [Behaviour.label, Behaviour.satisfy, h, Behaviour.fail, if_true]; rfl⟩

/-- Any character is read, and the session stays as it is. -/
theorem anyChar_eq_success_iff {x : Char} :
    g.meaning anyChar c s = (.success x d, t) ↔ c.Reads [x] d ∧ t = s := by
  constructor
  · intro h
    cases hc : c.peek with
    | none =>
        obtain ⟨e, he⟩ := anyChar_of_none (g := g) hc s
        cases he.symm.trans h
    | some y =>
        obtain ⟨d', read⟩ := Cursor.peek_eq_some_iff.mp hc
        cases (anyChar_of_reads read s).symm.trans h
        exact ⟨read, rfl⟩
  · rintro ⟨read, rfl⟩
    exact anyChar_of_reads read t

theorem anyChar_onward : (g.meaning anyChar).Onward where
  success h := by
    obtain ⟨read, _⟩ := anyChar_eq_success_iff.mp h
    exact read.offset_eq ▸ Nat.le_add_right _ _
  failure {c s t o e} h := by
    cases hc : c.peek with
    | none =>
        obtain ⟨e, he⟩ := anyChar_of_none (g := g) hc s
        cases he.symm.trans h
        exact Int.le_refl _
    | some x =>
        obtain ⟨d, read⟩ := Cursor.peek_eq_some_iff.mp hc
        cases (anyChar_of_reads read s).symm.trans h

/-- Characters before which the string does not stand are those that are read up to it. -/
theorem until_string_iff {text : String} {xs : List Char} :
    (g.meaning anyChar).Until (.string text) c s xs d t ↔
      c.Reads xs d ∧ (∀ k < xs.length, ¬ text.toList <+: c.remaining.drop k) ∧ t = s := by
  constructor
  · intro read
    induction read with
    | nil c s => exact ⟨.refl c, fun _ hk => absurd hk (Nat.not_lt_zero _), rfl⟩
    | cons absent h _ _ ih =>
        obtain ⟨missing, -, rfl⟩ := Behaviour.string_failure absent
        obtain ⟨one, rfl⟩ := anyChar_eq_success_iff.mp h
        obtain ⟨more, later, rfl⟩ := ih
        refine ⟨one.trans more, fun k hk => ?_, rfl⟩
        cases k with
        | zero => exact missing
        | succ k =>
            rw [one.2]
            exact later k (Nat.lt_of_succ_lt_succ hk)
  · rintro ⟨read, missing, rfl⟩
    -- On the characters, and not on the reading: that the string is missing before each of them is
    -- known for all of them at once, and behind the first it is known for the rest.
    induction xs generalizing c with
    | nil =>
        cases Cursor.Reads.nil_iff.mp read
        exact .nil d t
    | cons x xs ih =>
        obtain ⟨c', one, more⟩ := Cursor.Reads.split (u := [x]) read
        obtain ⟨e, absent⟩ := Behaviour.string_of_absent (ε := ε) (missing 0 (Nat.zero_lt_succ _)) t
        have moved : c.offset < c'.offset := one.offset_eq ▸ Nat.lt_succ_self _
        refine .cons absent (anyChar_of_reads one t) moved (ih more fun k hk => ?_)
        have later := missing (k + 1) (Nat.succ_lt_succ hk)
        rwa [one.2] at later

/-- The characters up to a string are those before its first occurrence, and the string is read with
them. -/
theorem manyTill_string_success_iff {text : String} {xs : List Char} :
    g.meaning (manyTill anyChar (string text)) c s = (.success xs d, t) ↔
      FirstAt text.toList c.remaining xs.length ∧ c.Reads (xs ++ text.toList) d ∧ t = s := by
  rw [meaning_manyTill_success_iff anyChar_onward, meaning_string]
  constructor
  · rintro ⟨c', t', y, items, last⟩
    obtain ⟨read, missing, rfl⟩ := until_string_iff.mp items
    obtain ⟨found, rfl, rfl⟩ := Behaviour.string_eq_success_iff.mp last
    exact ⟨⟨read.drop_eq ▸ ⟨d.remaining, found.2.symm⟩, missing⟩, read.trans found, rfl⟩
  · rintro ⟨⟨-, missing⟩, both, rfl⟩
    obtain ⟨c', read, found⟩ := both.split
    exact ⟨c', t, text, until_string_iff.mpr ⟨read, missing, rfl⟩,
      Behaviour.string_of_reads found t⟩

/-- Looked for ahead, the string is found at the same place and not read. -/
theorem manyTill_lookAhead_string_success_iff {text : String} {xs : List Char} :
    g.meaning (manyTill anyChar (lookAhead (string text))) c s = (.success xs d, t) ↔
      FirstAt text.toList c.remaining xs.length ∧ c.Reads xs d ∧ t = s := by
  rw [meaning_manyTill_success_iff anyChar_onward, meaning_lookAhead, meaning_string]
  simp only [Behaviour.until_lookAhead_iff, Behaviour.lookAhead_eq_success_iff]
  constructor
  · rintro ⟨c', t', y, items, ⟨d', last⟩, rfl⟩
    obtain ⟨read, missing, rfl⟩ := until_string_iff.mp items
    obtain ⟨found, rfl, rfl⟩ := Behaviour.string_eq_success_iff.mp last
    exact ⟨⟨read.drop_eq ▸ ⟨d'.remaining, found.2.symm⟩, missing⟩, read, rfl⟩
  · rintro ⟨⟨starts, missing⟩, read, rfl⟩
    rw [read.drop_eq] at starts
    obtain ⟨r, hr⟩ := starts
    obtain ⟨d', found, -⟩ := Cursor.Reads.of_append hr.symm
    exact ⟨d, t, text, until_string_iff.mpr ⟨read, missing, rfl⟩,
      ⟨d', Behaviour.string_of_reads found t⟩, rfl⟩

/-- So a string is found exactly if it is somewhere in what remains. -/
theorem exists_manyTill_string_iff {text : String} :
    (∃ xs d t, g.meaning (manyTill anyChar (string text)) c s = (.success xs d, t)) ↔
      text.toList <:+: c.remaining := by
  simp only [manyTill_string_success_iff, ← exists_firstAt_iff]
  constructor
  · rintro ⟨xs, d, t, first, _, _⟩
    exact ⟨xs.length, first⟩
  · rintro ⟨n, first⟩
    obtain ⟨d, d', read, found, hn⟩ := first.reads
    exact ⟨_, d', s, hn.symm ▸ first, read.trans found, rfl⟩

theorem exists_manyTill_lookAhead_string_iff {text : String} :
    (∃ xs d t, g.meaning (manyTill anyChar (lookAhead (string text))) c s = (.success xs d, t)) ↔
      text.toList <:+: c.remaining := by
  simp only [manyTill_lookAhead_string_success_iff, ← exists_firstAt_iff]
  constructor
  · rintro ⟨xs, d, t, first, _, _⟩
    exact ⟨xs.length, first⟩
  · rintro ⟨n, first⟩
    obtain ⟨d, _, read, _, hn⟩ := first.reads
    exact ⟨_, d, s, hn.symm ▸ first, read, rfl⟩

/-- Where the string does not occur, the characters are read to the end of the text, and neither
the ending nor one more character is there. -/
theorem manyTill_of_absent (text : String) {ending : Parser ε ρ β} (he : (g.meaning ending).Onward)
    (fails : ∀ {c s e t}, (Behaviour.string text : Behaviour ε String) c s =
      (.failure c.offset e, t) → g.meaning ending c s = (.failure c.offset e, t))
    (h : ¬ text.toList <:+: c.remaining) (s : Session) :
    ∃ e, g.meaning (manyTill anyChar ending) c s = (.failure c.text.size e, s) := by
  have missing (k : Nat) : ¬ text.toList <+: c.remaining.drop k := fun starts =>
    h (starts.isInfix.trans (List.drop_suffix k _).isInfix)
  have read := c.reads_last
  have beyond : ¬ text.toList <+: c.last.remaining := read.drop_eq ▸ missing _
  obtain ⟨e, absent⟩ := Behaviour.string_of_absent (ε := ε) beyond s
  obtain ⟨e', spent⟩ := anyChar_of_none (g := g) (c.last.peek_eq_none_iff.mpr rfl) s
  have items : (g.meaning anyChar).Until (.string text) c s c.remaining c.last s :=
    until_string_iff.mpr ⟨read, fun k _ => missing k, rfl⟩
  exact ⟨_, (meaning_manyTill_failure_iff anyChar_onward he).mpr
    ⟨_, c.last, s, items.imp fails, .item (fails absent) spent⟩⟩

/-- **A repetition up to an ending reads items until the ending is there.**  Let neither the item
nor the ending succeed or fail before where it was entered.  The repetition succeeds if the ending
is there behind items before which it was not, and it ends where the ending does.  It fails if
behind such items the ending fails committed, with that failure, or if the ending fails empty and
the item fails or does not move; then what the ending suggests stands first among the suggestions.

The characters up to a string are those before its first occurrence, which is read as well unless it
is only looked ahead for.  They are found if and only if the string occurs at all, and otherwise the
repetition fails at the end of the text. -/
theorem run_manyTill (g : Grammar ε ρ) (hp : (g.meaning p).Onward)
    (he : (g.meaning ending).Onward) (c : Cursor) (s s' : Session) :
    (∀ xs d, g.meaning (manyTill p ending) c s = (.success xs d, s') ↔
      ∃ c' t y, (g.meaning p).Until (g.meaning ending) c s xs c' t ∧
        g.meaning ending c' t = (.success y d, s')) ∧
    (∀ o e, g.meaning (manyTill p ending) c s = (.failure o e, s') ↔
      ∃ xs c' t, (g.meaning p).Until (g.meaning ending) c s xs c' t ∧
        (g.meaning p).BreaksOff (g.meaning ending) c' t o e s') ∧
    (∀ fault, g.meaning (manyTill p ending) c s = (.thrown fault, s') ↔
      ∃ xs c' t, (g.meaning p).Until (g.meaning ending) c s xs c' t ∧
        (g.meaning ending c' t = (.thrown fault, s') ∨
          ∃ e s₁, g.meaning ending c' t = (.failure c'.offset e, s₁) ∧
            g.meaning p c' s₁ = (.thrown fault, s'))) ∧
    ∀ text : String,
      (∀ xs d, g.meaning (manyTill anyChar (string text)) c s = (.success xs d, s') ↔
        FirstAt text.toList c.remaining xs.length ∧ c.Reads (xs ++ text.toList) d ∧ s' = s) ∧
      (∀ xs d, g.meaning (manyTill anyChar (lookAhead (string text))) c s = (.success xs d, s') ↔
        FirstAt text.toList c.remaining xs.length ∧ c.Reads xs d ∧ s' = s) ∧
      ((∃ xs d t, g.meaning (manyTill anyChar (string text)) c s = (.success xs d, t)) ↔
        text.toList <:+: c.remaining) ∧
      ((∃ xs d t, g.meaning (manyTill anyChar (lookAhead (string text))) c s =
        (.success xs d, t)) ↔ text.toList <:+: c.remaining) ∧
      (¬ text.toList <:+: c.remaining →
        (∃ e, g.meaning (manyTill anyChar (string text)) c s = (.failure c.text.size e, s)) ∧
        ∃ e, g.meaning (manyTill anyChar (lookAhead (string text))) c s =
          (.failure c.text.size e, s)) := by
  refine ⟨fun _ _ => meaning_manyTill_success_iff hp, fun _ _ => meaning_manyTill_failure_iff hp he,
    fun _ => meaning_manyTill_thrown_iff hp, fun text => ⟨fun _ _ => manyTill_string_success_iff,
      fun _ _ => manyTill_lookAhead_string_success_iff, exists_manyTill_string_iff,
      exists_manyTill_lookAhead_string_iff, fun h => ⟨?_, ?_⟩⟩⟩
  · refine manyTill_of_absent text ?_ (fun h => ?_) h s
    · rw [meaning_string]
      exact .string text
    · rwa [meaning_string]
  · refine manyTill_of_absent text ?_ (fun h => ?_) h s
    · rw [meaning_lookAhead, meaning_string]
      exact .lookAhead (.string text)
    · rw [meaning_lookAhead, meaning_string]
      exact Behaviour.lookAhead_eq_failure_iff.mpr h

/-- Of two stars before a slash only the second one belongs to the ending. -/
theorem run_manyTill_stars :
    let g := Json.grammar .standard
    let c : Cursor := .start #['*', '*', '/', ';']
    let ending : Parser TooManyDigits Json.Rule String := string "*/"
    (g.meaning anyChar).Onward ∧ (g.meaning ending).Onward ∧
    g.meaning (manyTill anyChar ending) c .start =
      (.success ['*'] ⟨c.text, 3, by decide⟩, .start) := by
  intro g c ending
  have he : (g.meaning ending).Onward := by
    rw [meaning_string]
    exact .string "*/"
  obtain ⟨found, -⟩ := (run_manyTill g anyChar_onward he c .start .start).2.2.2 "*/"
  exact ⟨anyChar_onward, he, (found _ _).mpr ⟨⟨by decide, by decide⟩, ⟨rfl, rfl⟩, rfl⟩⟩

end Grammar

end Parsing
