import Parsing.Proofs.Bounds
import Parsing.Proofs.Recursion
import Parsing.Proofs.Uniform

/-!
# The items of a repetition

`p.Items c s xs d t` says that `p`, entered again and again from `c` on, reads the items `xs` and
comes to `d`: each time from where the item before has ended and in the session that it has left,
and each item has moved the cursor.  At `d` there is no further item if `p` fails empty there, or
succeeds without having moved (`Behaviour.NoItem`).

**A repetition succeeds with the items if there is no further one behind them, and it fails as `p`
does if the next one is committed** (`Grammar.run_many`).  It has entered `p` once for each item and
once more, and the values of the items have no part in that.

All loops that go on behind items are folds over the same list: whatever a loop keeps of the items,
it comes to what is kept of the list that `Parser.many` comes to (`Grammar.loop_indistinct`).
-/

namespace Parsing

variable {ε : Type} {ρ : Type → Type} {α β γ σ τ : Type}

namespace Behaviour

variable {p : Behaviour ε α} {c d : Cursor} {s t : Session}

/-- From `c` in the session `s` on, `p` reads the items `xs`, of which each moves the cursor, and
comes to `d` in the session `t`. -/
inductive Items (p : Behaviour ε α) : Cursor → Session → List α → Cursor → Session → Prop where
  | nil (c : Cursor) (s : Session) : Items p c s [] c s
  | cons {c c' d : Cursor} {s s' t : Session} {x : α} {xs : List α}
      (h : p c s = (.success x c', s')) (moved : c'.offset ≠ c.offset)
      (rest : Items p c' s' xs d t) : Items p c s (x :: xs) d t

/-- There is no item at `c`: in the session `s`, `p` fails empty or does not move, and leaves the
session `t`. -/
def NoItem (p : Behaviour ε α) (c : Cursor) (s t : Session) : Prop :=
  (∃ e, p c s = (.failure c.offset e, t)) ∨ ∃ x d, p c s = (.success x d, t) ∧ d.offset = c.offset

/-- What `p` comes to does not depend on the session. -/
def Steady (p : Behaviour ε α) : Prop := ∀ c s t, (p c s).1 = (p c t).1

/-- In another session there is no item either, although the session that is left may be another. -/
theorem Steady.noItem (hp : p.Steady) (h : p.NoItem c s t) (r : Session) :
    ∃ r', p.NoItem c r r' := by
  obtain ⟨e, h⟩ | ⟨x, d, h, hd⟩ := h
  · exact ⟨(p c r).2, .inl ⟨e, Prod.ext ((hp c r s).trans (by rw [h])) rfl⟩⟩
  · exact ⟨(p c r).2, .inr ⟨x, d, Prod.ext ((hp c r s).trans (by rw [h])) rfl, hd⟩⟩

/-- The behaviour neither gets nor fails before where it starts. -/
structure Onward (p : Behaviour ε α) : Prop where
  success {c d : Cursor} {s t : Session} {x : α} (h : p c s = (.success x d, t)) :
    c.offset ≤ d.offset
  failure {c : Cursor} {s t : Session} {o : Int} {e : ParseError} (h : p c s = (.failure o e, t)) :
    (c.offset : Int) ≤ o

theorem Onward.pure (x : α) : (pure x : Behaviour ε α).Onward where
  success h := by
    cases h
    exact Nat.le_refl _
  failure h := by cases h

theorem Onward.throw (fault : Fault ε) : (throw fault : Behaviour ε α).Onward where
  success h := by cases h
  failure h := by cases h

/-- Sequences go onward if their parts do, each from where it is entered. -/
theorem Onward.bind {f : α → Behaviour ε β} (hp : p.Onward) (hf : ∀ x, (f x).Onward) :
    (bind p f).Onward where
  success h := by
    obtain ⟨x, d, t, hx, hy⟩ := bind_eq_success_iff.mp h
    exact Nat.le_trans (hp.success hx) ((hf x).success hy)
  failure h := by
    obtain hx | ⟨x, d, t, hx, hy⟩ := bind_eq_failure_iff.mp h
    · exact hp.failure hx
    · exact Int.le_trans (Int.ofNat_le.mpr (hp.success hx)) ((hf x).failure hy)

theorem Onward.map {f : α → Except ε β} (hp : p.Onward) : (map f p).Onward := by
  rw [map_eq_bind]
  refine hp.bind fun x => ?_
  cases f x with
  | ok y => exact .pure y
  | error e => exact .throw _

/-- Any number of items that go onward go onward together. -/
theorem Items.offset_le {xs : List α} (hp : p.Onward) (read : p.Items c s xs d t) :
    c.offset ≤ d.offset := by
  induction read with
  | nil => exact Nat.le_refl _
  | cons h _ _ ih => exact Nat.le_trans (hp.success h) ih

/-! ### A round of a repetition -/

/-- One round of a repetition: behind an item that moves it goes on as `next` says, and where there
is none it ends with `last`. -/
def item (p : Behaviour ε α) (next : α → σ) (last : β) : Behaviour ε (Step σ β) :=
  .alt (.map (fun x => .ok (.loop (next x))) (.advancing p)) (.pure (.done last))

/-- The replies of a round, by what `p` does at `c`. -/
inductive Turn (p : Behaviour ε α) (next : α → σ) (last : β) (c : Cursor) (s : Session) :
    Outcome ε (Step σ β) × Session → Prop where
  | item {x : α} {d : Cursor} {t : Session} (h : p c s = (.success x d, t))
      (moved : d.offset ≠ c.offset) : Turn p next last c s (.success (.loop (next x)) d, t)
  | last {t : Session} (h : p.NoItem c s t) : Turn p next last c s (.success (.done last) c, t)
  | failure {o : Int} {e : ParseError} {t : Session} (h : p c s = (.failure o e, t))
      (committed : o ≠ c.offset) : Turn p next last c s (.failure o e, t)
  | thrown {fault : Fault ε} {t : Session} (h : p c s = (.thrown fault, t)) :
      Turn p next last c s (.thrown fault, t)
  | exhausted {t : Session} (h : p c s = (.exhausted, t)) : Turn p next last c s (.exhausted, t)

section

variable {next : α → σ} {last : β} {x : α} {o : Int} {e : ParseError} {fault : Fault ε}

/-- An item that has been read is one more, and the next round begins behind it. -/
theorem item_of_moved (h : p c s = (.success x d, t)) (moved : d.offset ≠ c.offset) :
    item p next last c s = (.success (.loop (next x)) d, t) := by
  simp [item, alt, map, advancing, h, moved]

/-- Where there is no item the loop is done, at the cursor where none was found. -/
theorem item_of_noItem (h : p.NoItem c s t) :
    item p next last c s = (.success (.done last) c, t) := by
  obtain ⟨e, h⟩ | ⟨x, d, h, hd⟩ := h
  · simp [item, alt, map, advancing, pure, h]
  · simp [item, alt, map, advancing, pure, h, hd]

/-- A failure within an item is a failure of the round. -/
theorem item_of_committed (h : p c s = (.failure o e, t)) (committed : o ≠ c.offset) :
    item p next last c s = (.failure o e, t) := by
  simp [item, alt, map, advancing, h, committed]

theorem item_of_thrown (h : p c s = (.thrown fault, t)) :
    item p next last c s = (.thrown fault, t) := by
  simp [item, alt, map, advancing, h]

theorem item_of_exhausted (h : p c s = (.exhausted, t)) :
    item p next last c s = (.exhausted, t) := by
  simp [item, alt, map, advancing, h]

/-- There is no other way for a round to end than these. -/
theorem item_turn (p : Behaviour ε α) (next : α → σ) (last : β) (c : Cursor) (s : Session) :
    p.Turn next last c s (item p next last c s) := by
  cases h : p c s with
  | mk o t =>
      cases o with
      | success x d =>
          by_cases hd : d.offset = c.offset
          · have none : p.NoItem c s t := .inr ⟨x, d, h, hd⟩
            rw [item_of_noItem none]
            exact .last none
          · rw [item_of_moved h hd]
            exact .item h hd
      | failure o e =>
          by_cases ho : o = c.offset
          · have none : p.NoItem c s t := .inl ⟨e, ho ▸ h⟩
            rw [item_of_noItem none]
            exact .last none
          · rw [item_of_committed h ho]
            exact .failure h ho
      | thrown fault =>
          rw [item_of_thrown h]
          exact .thrown h
      | exhausted =>
          rw [item_of_exhausted h]
          exact .exhausted h

end

/-! ### Loops over items -/

/-- A loop that goes round with items, newest first, goes round once for each item. -/
theorem rounds_item_iff {items items' : List α} :
    Rounds (fun items => item p (· :: items) items) items c s items' d t ↔
      ∃ xs, p.Items c s xs d t ∧ items' = xs.reverse ++ items := by
  constructor
  · intro r
    induction r with
    | refl items c s => exact ⟨[], .nil c s, rfl⟩
    | @more items _ _ c _ _ s _ _ h _ ih =>
        obtain ⟨xs, read, rfl⟩ := ih
        have turn := item_turn p (· :: items) items c s
        rw [h] at turn
        cases turn with
        | @item x _ _ hx moved => exact ⟨x :: xs, .cons hx moved read, by simp⟩
  · rintro ⟨xs, read, rfl⟩
    induction read generalizing items with
    | nil c s => exact .refl items c s
    | @cons _ _ _ _ _ _ x _ h moved _ ih =>
        have rest := @ih (x :: items)
        rw [List.reverse_cons, List.append_assoc]
        exact .more (item_of_moved h moved) rest

/-- What is made of the value of a loop may as well be made of it round by round: a round sees the
same of `p` whatever is kept of the item. -/
theorem map_round_item (f : β → γ) (p : Behaviour ε α) {next : α → σ} {next' : α → τ} (last : β)
    {again : σ → Behaviour ε β} {again' : τ → Behaviour ε γ}
    (h : ∀ x, map (fun z => .ok (f z)) (again (next x)) = again' (next' x)) :
    map (fun z => .ok (f z)) (round (item p next last) again) =
      round (item p next' (f last)) again' := by
  funext c s
  rw [map_ok_eq]
  have turn := item_turn p next last c s
  generalize hr : item p next last c s = r at turn
  cases turn with
  | @item x d t hx moved =>
      simp only [round, bind, hr, item_of_moved hx moved, ← h, map_ok_eq]
  | last none => simp only [round, bind, hr, item_of_noItem none]; rfl
  | failure hx committed => simp only [round, bind, hr, item_of_committed hx committed]; rfl
  | thrown hx => simp only [round, bind, hr, item_of_thrown hx]; rfl
  | exhausted hx => simp only [round, bind, hr, item_of_exhausted hx]; rfl

/-- Whatever a loop keeps of the items instead of a list, it comes to what it keeps of the list. -/
theorem loop_item_eq_map (p : Behaviour ε α) (next : σ → α → σ) (last : σ → β) (n : Nat) (a : σ)
    (items : List α) :
    loop (fun a => item p (next a) (last a)) n (items.foldr (fun x a => next a x) a) =
      map (fun items => .ok (last (items.foldr (fun x a => next a x) a)))
        (loop (fun items => item p (· :: items) items) n items) := by
  induction n generalizing items with
  | zero => rfl
  | succ n ih =>
      rw [loop_succ, loop_succ]
      exact (map_round_item (fun items => last (items.foldr (fun x a => next a x) a)) p items
        fun x => (ih (x :: items)).symm).symm

section

variable {next : α → σ} {last : β} {o : Int} {e : ParseError} {fault : Fault ε}

/-- The loop is done exactly where there is no item. -/
theorem item_eq_done_iff {z : β} : item p next last c s = (.success (.done z) d, t) ↔
    p.NoItem c s t ∧ z = last ∧ d = c := by
  constructor
  · intro h
    have turn := item_turn p next last c s
    rw [h] at turn
    cases turn with
    | last none => exact ⟨none, rfl, rfl⟩
  · rintro ⟨none, rfl, rfl⟩
    exact item_of_noItem none

/-- It fails exactly where an item does that has been begun. -/
theorem item_eq_failure_iff : item p next last c s = (.failure o e, t) ↔
    p c s = (.failure o e, t) ∧ o ≠ c.offset := by
  constructor
  · intro h
    have turn := item_turn p next last c s
    rw [h] at turn
    cases turn with
    | failure h committed => exact ⟨h, committed⟩
  · exact fun ⟨h, committed⟩ => item_of_committed h committed

theorem item_eq_thrown_iff : item p next last c s = (.thrown fault, t) ↔
    p c s = (.thrown fault, t) := by
  constructor
  · intro h
    have turn := item_turn p next last c s
    rw [h] at turn
    cases turn with
    | thrown h => exact h
  · exact item_of_thrown

theorem item_ne_stray {shown : String} :
    item p next last c s ≠ (.success (.stray shown) d, t) := by
  intro h
  have turn := item_turn p next last c s
  rw [h] at turn
  cases turn

end

end Behaviour

open Behaviour (Items NoItem Onward Rounds Steady)

namespace Grammar

open Parsing.Decimal (TooManyDigits)
open Parsing.Parser (many manyReversed skipMany)

variable {g : Grammar ε ρ} {p : Parser ε ρ α} {c d : Cursor} {s s' : Session}

/-- What is put together from the operations goes onward. -/
theorem Composed.meaning_onward (hg : g.Composed) (hp : p.Composed) : (g.meaning p).Onward where
  success {c d s t x} h := by
    obtain ⟨n, hn⟩ := (meaning_eq_iff (by simp)).mp h
    have reached := hg.run_bounded n hp c s
    rw [hn] at reached
    exact Cursor.Reaches.offset_le reached
  failure {c s t o e} h := by
    obtain ⟨n, hn⟩ := (meaning_eq_iff (by simp)).mp h
    have reached := hg.run_bounded n hp c s
    rw [hn] at reached
    obtain ⟨d, reached, rfl⟩ := reached
    exact Int.ofNat_le.mpr reached.offset_le

/-- A run of a parser whose text names no frames comes to the same wherever its session begins. -/
theorem Uniform.run_steady {N : Naming ρ} {k k' : Frame} (hg : g.Uniform N) (hp : p.Copy N k k' p)
    (n : Nat) : (g.run n p).Steady := fun c s t =>
  (hg.run_inStep_of (R := fun _ _ => True) (fun _ _ => trivial) hp n c c s t rfl trivial).outcome_eq

/-- What does not depend on the cells that are filled comes to the same outcome in every session. -/
theorem Uniform.meaning_steady {N : Naming ρ} {k k' : Frame} (hg : g.Uniform N)
    (hp : p.Copy N k k' p) : (g.meaning p).Steady := by
  intro c s t
  have same (n : Nat) : (g.run n p c s).1 = (g.run n p c t).1 := hg.run_steady hp n c s t
  obtain ⟨n, hn⟩ | none := g.ended_or_exhausted p c s
  · rw [meaning_of_run hn, meaning_of_run (same n ▸ hn), same n]
  · rw [meaning_of_none none, meaning_of_none fun n => same n ▸ none n]

/-- The rounds of a repetition mean what is done with the meaning of the item. -/
theorem meaning_item (p : Parser ε ρ α) (next : α → σ) (last : β) :
    g.meaning (.alt (.map (fun x => .loop (next x)) (.advancing p)) (.pure (.done last))) =
      .item (g.meaning p) next last := by
  rw [meaning_alt, meaning_map, meaning_advancing, meaning_pure]
  rfl

theorem meaning_manyReversed_iff {r : Outcome ε (List α) × Session} (hr : r.1 ≠ .exhausted) :
    g.meaning (manyReversed p) c s = r ↔ ∃ xs d t, (g.meaning p).Items c s xs d t ∧
      Behaviour.round (.item (g.meaning p) (· :: xs.reverse) xs.reverse) (fun _ => .exhausted) d t =
        r := by
  rw [manyReversed, meaning_tailRec_iff hr]
  simp only [meaning_item]
  constructor
  · rintro ⟨items, d, t, rounds, last⟩
    obtain ⟨xs, read, rfl⟩ := Behaviour.rounds_item_iff.mp rounds
    rw [List.append_nil] at last
    exact ⟨xs, d, t, read, last⟩
  · rintro ⟨xs, d, t, read, last⟩
    exact ⟨xs.reverse, d, t, Behaviour.rounds_item_iff.mpr ⟨xs, read, (List.append_nil _).symm⟩,
      last⟩

/-- A repetition ends with a reply if and only if `p` ends it so behind the items. -/
theorem meaning_many_iff {r : Outcome ε (List α) × Session} (hr : r.1 ≠ .exhausted) :
    g.meaning (many p) c s = r ↔ ∃ xs d t, (g.meaning p).Items c s xs d t ∧
      Behaviour.round (.item (g.meaning p) (fun _ => ()) xs) (fun _ => .exhausted) d t = r := by
  have turned (xs : List α) :
      Behaviour.map (fun items => .ok items.reverse)
        (.round (.item (g.meaning p) (· :: xs.reverse) xs.reverse) fun _ => .exhausted) =
          .round (.item (g.meaning p) (fun _ => ()) xs) fun _ => .exhausted := by
    conv_rhs => rw [← List.reverse_reverse xs]
    exact Behaviour.map_round_item List.reverse (g.meaning p) xs.reverse fun _ => rfl
  simp only [← turned, Behaviour.map_ok_eq]
  rw [many, meaning_map, Behaviour.map_ok_eq]
  constructor
  · rintro rfl
    have ended := mt Outcome.map_eq_exhausted_iff.mpr hr
    obtain ⟨xs, d, t, read, last⟩ := (meaning_manyReversed_iff ended).mp rfl
    exact ⟨xs, d, t, read, by rw [last]⟩
  · rintro ⟨xs, d, t, read, rfl⟩
    have ended := mt Outcome.map_eq_exhausted_iff.mpr hr
    rw [(meaning_manyReversed_iff ended).mpr ⟨xs, d, t, read, rfl⟩]

/-- It succeeds with the items up to the first place at which there is none. -/
theorem meaning_many_success_iff {xs : List α} :
    g.meaning (many p) c s = (.success xs d, s') ↔
      ∃ t, (g.meaning p).Items c s xs d t ∧ (g.meaning p).NoItem d t s' := by
  rw [meaning_many_iff (by simp)]
  simp only [Behaviour.round_eq_success_iff, Behaviour.item_eq_done_iff]
  constructor
  · rintro ⟨_, _, t, read, none, rfl, rfl⟩
    exact ⟨t, read, none⟩
  · rintro ⟨t, read, none⟩
    exact ⟨xs, d, t, read, none, rfl, rfl⟩

/-- It fails with the first item that fails behind where it was entered. -/
theorem meaning_many_failure_iff {o : Int} {e : ParseError} :
    g.meaning (many p) c s = (.failure o e, s') ↔ ∃ xs d t, (g.meaning p).Items c s xs d t ∧
      g.meaning p d t = (.failure o e, s') ∧ o ≠ d.offset := by
  rw [meaning_many_iff (by simp)]
  simp only [Behaviour.round_eq_failure_iff, Behaviour.item_eq_failure_iff]

theorem meaning_many_thrown_iff {fault : Fault ε} :
    g.meaning (many p) c s = (.thrown fault, s') ↔ ∃ xs d t, (g.meaning p).Items c s xs d t ∧
      g.meaning p d t = (.thrown fault, s') := by
  rw [meaning_many_iff (by simp)]
  simp only [Behaviour.round_eq_thrown_iff, Behaviour.item_eq_thrown_iff, Behaviour.item_ne_stray,
    and_false, exists_false, or_false]

/-- Behind the beginning of a repetition only a committed item can fail, which fails further on. -/
theorem lt_of_many_failure {o : Int} {e : ParseError} (hp : (g.meaning p).Onward)
    (h : g.meaning (many p) c s = (.failure o e, s')) : (c.offset : Int) < o := by
  obtain ⟨_, d, t, read, last, committed⟩ := meaning_many_failure_iff.mp h
  have items := read.offset_le hp
  have further := hp.failure last
  omega

/-- A loop over items that keeps something else of them than a list is a repetition of which the
list is folded afterwards. -/
theorem loop_indistinct (g : Grammar ε ρ) (p : Parser ε ρ α) (next : σ → α → σ) (last : σ → β)
    (a : σ) : g.Indistinct
      (.tailRec (fun a => .alt (.map (fun x => .loop (next a x)) (.advancing p))
        (.pure (.done (last a)))) a)
      ((many p).map fun xs => last (xs.foldl next a)) := by
  refine g.indistinct_of_behaviour fun enter n => ?_
  have folded := Behaviour.loop_item_eq_map (p.behaviour enter n) next last n a []
  show Behaviour.loop (fun a => .item (p.behaviour enter n) (next a) (last a)) n a =
    Behaviour.map _ (Behaviour.map _ (Behaviour.loop (fun items =>
      .item (p.behaviour enter n) (· :: items) items) n []))
  simp only [List.foldr_nil, ← List.foldl_reverse] at folded
  rw [Behaviour.map_map]
  exact folded

theorem skipMany_indistinct (g : Grammar ε ρ) (p : Parser ε ρ α) :
    g.Indistinct (skipMany p) ((many p).map fun _ => ()) :=
  g.loop_indistinct p (fun _ _ => ()) (fun _ => ()) ()

/-- Where a repetition has ended there is nothing left for another one. -/
theorem many_append_many (steady : (g.meaning p).Steady) (c : Cursor) (s : Session) :
    (g.meaning (many p ++ many p) c s).1 = (g.meaning (many p) c s).1 := by
  rw [Parser.append_eq_combine, meaning_combine]
  simp only [Behaviour.bind, Behaviour.map_ok_eq]
  cases h : g.meaning (many p) c s with
  | mk r s' =>
      cases r with
      | success xs d =>
          obtain ⟨t, _, none⟩ := meaning_many_success_iff.mp h
          obtain ⟨s'', none⟩ := steady.noItem none s'
          have nothing := meaning_many_success_iff.mpr ⟨s', .nil d s', none⟩
          simp [nothing, Outcome.map]
      | failure _ _ | thrown _ | exhausted => rfl

/-- **A repetition reads items until there is none.**  It succeeds with the items that `p` reads
from where it is entered on, if each of them moves and then there is none, because `p` fails empty
or does not move; that last value is left out.  It fails if the one after them fails committed, with
that failure, and it is cut short if that one is.  Each item is read in the session that the one
before has left, so that `p` is entered where the repetition is and behind each item, and nowhere
else.

`Parser.skipMany` does the same without the list, and behind a repetition another one of the same
parser reads nothing, provided that `p` depends on the place only and not on what was run before, as
it does in every uniform grammar (`Uniform.meaning_steady`). -/
theorem run_many (g : Grammar ε ρ) (p : Parser ε ρ α) (c : Cursor) (s s' : Session) :
    (∀ xs d, g.meaning (many p) c s = (.success xs d, s') ↔
      ∃ t, (g.meaning p).Items c s xs d t ∧ (g.meaning p).NoItem d t s') ∧
    (∀ o e, g.meaning (many p) c s = (.failure o e, s') ↔ ∃ xs d t,
      (g.meaning p).Items c s xs d t ∧ g.meaning p d t = (.failure o e, s') ∧ o ≠ d.offset) ∧
    (∀ fault, g.meaning (many p) c s = (.thrown fault, s') ↔ ∃ xs d t,
      (g.meaning p).Items c s xs d t ∧ g.meaning p d t = (.thrown fault, s')) ∧
    g.Indistinct (skipMany p) ((many p).map fun _ => ()) ∧
    ((g.meaning p).Steady →
      (g.meaning (many p ++ many p) c s).1 = (g.meaning (many p) c s).1) :=
  ⟨fun _ _ => meaning_many_success_iff, fun _ _ => meaning_many_failure_iff,
    fun _ => meaning_many_thrown_iff, g.skipMany_indistinct p,
    fun steady => many_append_many steady c s⟩

/-- Digits that may be missing: where the first is, the second moves no further. -/
theorem run_many_digit :
    let g := Json.grammar .standard
    let digit : Parser TooManyDigits Json.Rule (Option Char) := .optionMaybe (.satisfy Char.isDigit)
    let text := #['4', ';']
    (g.meaning digit).Steady ∧
    g.meaning (many digit) (.start text) .start =
      (.success [some '4'] ⟨text, 1, by decide⟩, .start) ∧
    (g.meaning (many digit ++ many digit) (.start text) .start).1 =
      .success [some '4'] ⟨text, 1, by decide⟩ := by
  intro g digit text
  have copy : digit.Copy (.plain Json.Rule) 0 0 digit :=
    Parser.Congruence.optionMaybe (.satisfy _)
  have steady : (g.meaning digit).Steady := Json.grammar_uniform.meaning_steady copy
  have once : g.meaning (many digit) (.start text) .start =
      (.success [some '4'] ⟨text, 1, by decide⟩, .start) :=
    (meaning_eq_iff (by simp)).mpr ⟨5, rfl⟩
  refine ⟨steady, once, ?_⟩
  rw [(run_many g digit (.start text) .start .start).2.2.2.2 steady, once]

end Grammar

end Parsing
