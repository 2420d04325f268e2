import Parsing.Parser.Choice
import Parsing.Parser.Separated
import Parsing.Proofs.Chains

/-!
# Commitment

A parser is *committed* if it never fails where it was entered (`Behaviour.Committed`): where it
fails it has read something.  Whatever is put around it to deal with an empty failure, another
alternative, a label or a suggestion, then never comes into play.

`Parser.Lenient` lists the combinators that answer without reading where there is nothing for them:
repetitions of any number of items, and what may be left out.  **They are all committed**
(`Grammar.run_lenient`), provided that their parts do not go back.  There are two reasons for that.
A combinator that has a value for the empty failures of some parser is left with the other failures
of that parser.  A loop over items ends at an item that fails empty, and an item that fails
committed does so behind where it was entered, which is not before where the loop was.
-/

namespace Parsing

variable {ε : Type} {ρ : Type → Type} {α β δ σ : Type}

namespace Behaviour

variable {p q : Behaviour ε α}

/-! ### What goes onward -/

/-- A choice goes onward if its parts do, since both are entered at the same cursor. -/
theorem Onward.alt (hp : p.Onward) (hq : q.Onward) : (Behaviour.alt p q).Onward where
  success h := by
    obtain h | ⟨e, s', _, h⟩ := alt_eq_success_iff.mp h
    · exact hp.success h
    · exact hq.success h
  failure h := by
    obtain ⟨h, _⟩ | ⟨e₁, s', e₂, _, h, _⟩ := alt_eq_failure_iff.mp h
    · exact hp.failure h
    · exact hq.failure h

/-- A success on the spot that becomes a failure on the spot does not go back. -/
theorem Onward.advancing (hp : p.Onward) : (Behaviour.advancing p).Onward where
  success h := hp.success (advancing_eq_success_iff.mp h).1
  failure h := by
    obtain h | ⟨x, d, _, _, ho, _⟩ := advancing_eq_failure_iff.mp h
    · exact hp.failure h
    · exact Int.le_of_eq ho.symm

/-- Any number of rounds that go onward go onward together. -/
theorem Rounds.offset_le {step : σ → Behaviour ε (Step σ α)} (hs : ∀ a, (step a).Onward) {a b : σ}
    {c d : Cursor} {s t : Session} (r : Rounds step a c s b d t) : c.offset ≤ d.offset := by
  induction r with
  | refl => exact Nat.le_refl _
  | more h _ ih => exact Nat.le_trans ((hs _).success h) ih

/-! ### What is committed -/

/-- Every failure is behind the place where the behaviour was entered. -/
def Committed (p : Behaviour ε α) : Prop :=
  ∀ ⦃c s o e t⦄, p c s = (.failure o e, t) → (c.offset : Int) < o

namespace Committed

theorem map {f : α → β} (h : p.Committed) : (Behaviour.map (fun x => .ok (f x)) p).Committed :=
  fun _ _ _ _ _ hf => h (map_eq_failure_iff.mp hf)

/-- A value for empty failures leaves the other ones. -/
theorem alt_pure (hp : p.Onward) (default : α) : (Behaviour.alt p (.pure default)).Committed := by
  intro c s o e t h
  obtain ⟨h, full⟩ | ⟨_, _, _, _, h, _⟩ := alt_eq_failure_iff.mp h
  · have forward := hp.failure h
    omega
  · cases h

/-- What only ever fails as a committed behaviour does is committed. -/
theorem of_below (h : p.Below q) (hq : q.Committed) : p.Committed := by
  intro c s o e t hp
  exact hq ((h c s (by simp [hp])).trans hp)

/-- A failure of it is never empty, from whatever session. -/
theorem not_empty (h : p.Committed) (c : Cursor) (s : Session) :
    ¬ (p c s).1.IsEmptyFailure c := by
  intro he
  obtain ⟨e, he⟩ := Outcome.isEmptyFailure_iff.mp he
  exact absurd (h (Prod.ext he rfl)) (Int.lt_irrefl _)

/-! Nothing that waits for an empty failure comes into play. -/

theorem alt (h : p.Committed) (q : Behaviour ε α) : Behaviour.alt p q = p :=
  funext fun c => funext fun s => alt_of_not_empty (h.not_empty c s)

/-- A label changes empty failures only. -/
theorem label (h : p.Committed) (name : String) : Behaviour.label p name = p := by
  funext c s
  have full := h.not_empty c s
  simp only [Behaviour.label]
  generalize p c s = reply at full ⊢
  obtain ⟨r, s'⟩ := reply
  cases r with
  | failure o e => exact if_neg full
  | success _ _ | thrown _ | exhausted => rfl

theorem suggest (h : p.Committed) (x : Suggestion) : Behaviour.suggest p x = p := by
  funext c s
  have full := h.not_empty c s
  simp only [Behaviour.suggest]
  generalize p c s = reply at full ⊢
  obtain ⟨r, s'⟩ := reply
  cases r with
  | failure o e => exact if_neg full
  | success _ _ | thrown _ | exhausted => rfl

end Committed

end Behaviour

/-! ### Combinators -/

/-- The combinators of an item, a separator and an operator that answer without reading where there
is nothing for them. -/
inductive Parser.Lenient (p : Parser ε ρ α) (separator : Parser ε ρ β)
    (operator : Parser ε ρ (α → α → Except ε α)) : {δ : Type} → Parser ε ρ δ → Prop where
  | many : Lenient p separator operator (many p)
  | skipMany : Lenient p separator operator (skipMany p)
  | endBy : Lenient p separator operator (endBy p separator)
  | sepBy : Lenient p separator operator (sepBy p separator)
  | sepEndBy : Lenient p separator operator (sepEndBy p separator)
  | option (default : α) : Lenient p separator operator (option default p)
  | optionMaybe : Lenient p separator operator (optionMaybe p)
  | optional : Lenient p separator operator (optional p)
  | chainl (default : α) : Lenient p separator operator (chainl p operator default)
  | chainr (default : α) : Lenient p separator operator (chainr p operator default)

namespace Grammar

open Parsing.Behaviour (Committed Onward)
open Parsing.Decimal (TooManyDigits)
open Parsing.Parser (Lenient chainl1 chainr1 endBy many manyReversed sepBy sepBy1 sepEndBy1 tailRec)

variable {g : Grammar ε ρ} {p : Parser ε ρ α} {separator : Parser ε ρ β}
  {operator : Parser ε ρ (α → α → Except ε α)}

/-- A loop goes onward if its steps do. -/
theorem tailRec_onward {step : σ → Parser ε ρ (Step σ α)}
    (hs : ∀ a, (g.meaning (step a)).Onward) (a : σ) : (g.meaning (tailRec step a)).Onward where
  success h := by
    obtain ⟨b, d, t, rounds, last⟩ := (meaning_tailRec_iff (by simp)).mp h
    exact Nat.le_trans (rounds.offset_le hs)
      ((hs b).success (Behaviour.round_eq_success_iff.mp last))
  failure h := by
    obtain ⟨b, d, t, rounds, last⟩ := (meaning_tailRec_iff (by simp)).mp h
    exact Int.le_trans (Int.ofNat_le.mpr (rounds.offset_le hs))
      ((hs b).failure (Behaviour.round_eq_failure_iff.mp last))

theorem manyReversed_onward (hp : (g.meaning p).Onward) : (g.meaning (manyReversed p)).Onward := by
  refine tailRec_onward (fun items => ?_) []
  rw [meaning_item]
  exact hp.advancing.map.alt (.pure _)

/-- One item and a repetition of separators with items, all of which go onward. -/
theorem sepBy1_onward (hp : (g.meaning p).Onward) (hs : (g.meaning separator).Onward) :
    (g.meaning (sepBy1 p separator)).Onward := by
  rw [sepBy1, meaning_bind]
  refine hp.bind fun x => ?_
  rw [meaning_map]
  refine (manyReversed_onward ?_).map
  rw [meaning_keepRight]
  exact hs.bind fun _ => hp

theorem sepEndBy1_onward (hp : (g.meaning p).Onward) (hs : (g.meaning separator).Onward) :
    (g.meaning (sepEndBy1 p separator)).Onward := by
  rw [sepEndBy1, meaning_map, meaning_bind]
  refine (hp.bind fun x => tailRec_onward (fun items => ?_) [x]).map
  rw [meaning_alt, meaning_advancing, meaning_keepRight, meaning_alt, meaning_map, meaning_pure]
  exact (hs.bind fun _ => hp.map.alt (.pure _)).advancing.alt (.pure _)

theorem chainl1_onward (hp : (g.meaning p).Onward) (ho : (g.meaning operator).Onward) :
    (g.meaning (chainl1 p operator)).Onward := by
  rw [chainl1, meaning_bind]
  refine hp.bind fun x => tailRec_onward (fun left => ?_) x
  rw [meaning_alt, meaning_mapM, meaning_advancing, meaning_pure]
  exact (pair_onward ho hp).advancing.map.alt (.pure _)

/-- What is done with the operands once they are read does not move the cursor. -/
theorem chainr1_onward (hp : (g.meaning p).Onward) (ho : (g.meaning operator).Onward) :
    (g.meaning (chainr1 p operator)).Onward := by
  rw [chainr1, meaning_bind]
  refine hp.bind fun x => ?_
  rw [meaning_mapM, many, meaning_map]
  exact (manyReversed_onward (pair_onward ho hp)).map.map

/-- The loop ends at an item that fails empty, and is done with failures only behind its cursor. -/
theorem many_committed (hp : (g.meaning p).Onward) : (g.meaning (many p)).Committed :=
  fun _ _ _ _ _ h => lt_of_many_failure hp h

/-- With a value for the empty failures only the others are left. -/
theorem alt_pure_committed (hp : (g.meaning p).Onward) (default : α) :
    (g.meaning (p.alt (.pure default))).Committed := by
  rw [meaning_alt, meaning_pure]
  exact .alt_pure hp default

/-- Each combinator is a loop over items, or has a value for the empty failures of some parser. -/
theorem lenient_committed (hp : (g.meaning p).Onward) (hs : (g.meaning separator).Onward)
    (ho : (g.meaning operator).Onward) {r : Parser ε ρ δ} (hr : Lenient p separator operator r) :
    (g.meaning r).Committed := by
  cases hr with
  | many => exact many_committed hp
  | skipMany =>
      rw [(g.skipMany_indistinct p).meaning_eq, meaning_map]
      exact (many_committed hp).map
  | endBy =>
      refine many_committed ?_
      rw [meaning_keepLeft]
      exact hp.bind fun _ => hs.map
  | sepBy => exact alt_pure_committed (sepBy1_onward hp hs) []
  | sepEndBy => exact alt_pure_committed (sepEndBy1_onward hp hs) []
  | option default => exact alt_pure_committed hp default
  | optionMaybe =>
      refine alt_pure_committed ?_ none
      rw [meaning_map]
      exact hp.map
  | optional =>
      refine alt_pure_committed ?_ ()
      rw [meaning_map]
      exact hp.map
  | chainl default => exact alt_pure_committed (chainl1_onward hp ho) default
  | chainr default => exact alt_pure_committed (chainr1_onward hp ho) default

/-- **Lenient combinators never fail where they are entered.**  Let none of their parts succeed or
fail before the place where it was entered.  Then a failure of such a combinator is further on than
where the combinator was entered.  So no run tells it from a choice in which another alternative
stands behind it: whatever that one would do, it is never entered.  Nor does a label or a suggestion
change anything. -/
theorem run_lenient (g : Grammar ε ρ) (hp : (g.meaning p).Onward)
    (hs : (g.meaning separator).Onward) (ho : (g.meaning operator).Onward) {r : Parser ε ρ δ}
    (hr : Lenient p separator operator r) :
    (∀ fuel c s o e s', g.run fuel r c s = (.failure o e, s') → (c.offset : Int) < o) ∧
    (∀ q, g.Indistinct (r.alt q) r) ∧ (∀ name, g.Indistinct (r.label name) r) ∧
    ∀ suggestion, g.Indistinct (r.suggest suggestion) r := by
  have committed (fuel : Nat) : (g.run fuel r).Committed :=
    (lenient_committed hp hs ho hr).of_below (run_below_meaning fuel r)
  refine ⟨fun fuel c s o e s' h => committed fuel h, fun q fuel c s => ?_, fun name fuel c s => ?_,
    fun suggestion fuel c s => ?_⟩
  · have alt : g.run fuel (r.alt q) = .alt (g.run fuel r) (g.run fuel q) := by
      simp only [run_eq]; rfl
    rw [alt, (committed fuel).alt]
  · have label : g.run fuel (r.label name) = .label (g.run fuel r) name := by
      simp only [run_eq]; rfl
    rw [label, (committed fuel).label]
  · have suggest : g.run fuel (r.suggest suggestion) = .suggest (g.run fuel r) suggestion := by
      simp only [run_eq]; rfl
    rw [suggest, (committed fuel).suggest]

/-- In `1+` an operand is missing: the chain fails behind the operator, in spite of its default and
of an alternative. -/
theorem run_lenient_chain :
    let g := Json.grammar .standard
    let digit : Parser TooManyDigits Json.Rule Nat :=
      (Parser.satisfy Char.isDigit).map fun x => x.toNat - 48
    let comma : Parser TooManyDigits Json.Rule Char := .satisfy (· == ',')
    let plus : Parser TooManyDigits Json.Rule (Nat → Nat → Except TooManyDigits Nat) :=
      (Parser.satisfy (· == '+')).map fun _ => operation (· + ·)
    let sum := Parser.chainl digit plus 0
    let c : Cursor := .start #['1', '+']
    let failed : Outcome TooManyDigits Nat × Session :=
      (.failure 2 ⟨"unexpected end of input", []⟩, .start)
    (g.meaning digit).Onward ∧ (g.meaning comma).Onward ∧
    (g.meaning plus).Onward ∧ Lenient digit comma plus sum ∧
    g.run 3 sum c .start = failed ∧ (c.offset : Int) < 2 ∧
    g.run 3 (sum.alt (.pure 7)) c .start = failed ∧
    g.run 3 (sum.label "sum") c .start = failed ∧
    g.run 3 (sum.suggest ⟨"1", ""⟩) c .start = failed := by
  intro g digit comma plus sum c failed
  have onward {α : Type} {q : Parser TooManyDigits Json.Rule α} (h : q.Composed) :
      (g.meaning q).Onward := Json.grammar_composed.meaning_onward h
  have hp : (g.meaning digit).Onward := onward trivial
  have hs : (g.meaning comma).Onward := onward trivial
  have ho : (g.meaning plus).Onward := onward trivial
  have lenient : Lenient digit comma plus sum := .chainl 0
  have fails : g.run 3 sum c .start = failed := rfl
  obtain ⟨further, alt, label, suggest⟩ := run_lenient g hp hs ho lenient
  exact ⟨hp, hs, ho, lenient, fails, further 3 c .start 2 _ _ fails, (alt _ 3 c .start).trans fails,
    (label _ 3 c .start).trans fails, (suggest _ 3 c .start).trans fails⟩

end Grammar

end Parsing
