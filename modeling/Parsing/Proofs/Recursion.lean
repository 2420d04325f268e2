import Parsing.Json.Rules
import Parsing.Proofs.Meaning

/-!
# Loops are recursions

A loop goes round with a step until the step answers with a result; the cursor and the session of
one round are where the next one starts.  The same can be said by a recursion, which runs the step
and continues with itself from the new state on (`Parser.round`).  A parser cannot contain itself,
but it can be unrolled to any depth (`Parser.recursive`), as a program would that has to keep its
calls on a stack.

`Behaviour.Rounds` says which states, cursors and sessions a loop goes through.  What it comes to is
what its last step answers, and nothing of the rounds before (`Grammar.meaning_tailRec_iff`): a loop
that never ends is one whose rounds never end.

**A loop means what the recursion means** (`Grammar.run_tailRec`): it solves the equation of the
recursion, it is below all other solutions, and it is approached by the recursions to a depth.
-/

namespace Parsing

variable {ε : Type} {ρ : Type → Type} {α σ : Type}

namespace Behaviour

variable {step step' : σ → Behaviour ε (Step σ α)} {a b : σ} {c d : Cursor} {s t : Session}

theorem round_below {p p' : Behaviour ε (Step σ α)} {again again' : σ → Behaviour ε α}
    (hp : p.Below p') (ha : ∀ a, (again a).Below (again' a)) :
    (round p again).Below (round p' again') := by
  have hp : p.ApproachedBy fun _ => p' := below_iff.mp hp
  have ha (a : σ) : (again a).ApproachedBy fun _ => again' a := below_iff.mp (ha a)
  exact below_iff.mpr (hp.round ha)

theorem round_of_loop {p : Behaviour ε (Step σ α)} {again : σ → Behaviour ε α}
    (h : p c s = (.success (.loop b) d, t)) : round p again c s = again b d t := by
  simp only [round, bind, h]

theorem round_of_done {p : Behaviour ε (Step σ α)} {again : σ → Behaviour ε α} {x : α}
    (h : p c s = (.success (.done x) d, t)) : round p again c s = (.success x d, t) := by
  simp only [round, bind, h, pure]

/-- A loop goes from a state at a cursor to another state at another cursor, with every step in the
session that the one before has left. -/
inductive Rounds (step : σ → Behaviour ε (Step σ α)) :
    σ → Cursor → Session → σ → Cursor → Session → Prop where
  | refl (a : σ) (c : Cursor) (s : Session) : Rounds step a c s a c s
  | more {a a' b : σ} {c c' d : Cursor} {s s' t : Session}
      (h : step a c s = (.success (.loop a') c', s')) (r : Rounds step a' c' s' b d t) :
      Rounds step a c s b d t

namespace Rounds

/-- Whatever solves the equation of the loop comes to the same from every round on. -/
theorem eq_of_solves (r : Rounds step a c s b d t) (again : σ → Behaviour ε α)
    (solves : ∀ a, again a = round (step a) again) : again a c s = again b d t := by
  induction r with
  | refl => rfl
  | more h _ ih => rw [solves, round_of_loop h, ih]

/-- From the step on that ends the loop there is nothing left of the equation to be solved. -/
theorem reply_of_solves (r : Rounds step a c s b d t) (again : σ → Behaviour ε α)
    (solves : ∀ a, again a = round (step a) again)
    (h : (round (step b) (fun _ => .exhausted) d t).1 ≠ .exhausted) :
    again a c s = round (step b) (fun _ => .exhausted) d t := by
  rw [r.eq_of_solves again solves, solves]
  exact round_below (fun _ _ _ => rfl) (fun _ => Below.exhausted _) d t h

theorem imp (r : Rounds step a c s b d t)
    (h : ∀ {a c s b d t}, step a c s = (.success (.loop b) d, t) →
      step' a c s = (.success (.loop b) d, t)) : Rounds step' a c s b d t := by
  induction r with
  | refl => exact .refl _ _ _
  | more hs _ ih => exact .more (h hs) ih

theorem mono (r : Rounds step a c s b d t) (h : ∀ a, (step a).Below (step' a)) :
    Rounds step' a c s b d t :=
  r.imp fun {a c s _ _ _} hs => (h a c s (by simp [hs])).trans hs

/-- A loop that ends has gone round so often that it need not go round again. -/
theorem of_loop {n : Nat} (h : (loop step n a c s).1 ≠ .exhausted) : ∃ b d t,
    Rounds step a c s b d t ∧ round (step b) (fun _ => .exhausted) d t = loop step n a c s := by
  induction n generalizing a c s with
  | zero => exact absurd rfl h
  | succ n ih =>
      rw [loop_succ] at h ⊢
      by_cases last : (round (step a) (fun _ => .exhausted) c s).1 = .exhausted
      · -- Only a step that answers with a new state ends here for want of a further round.
        cases hs : step a c s with
        | mk o s' =>
            cases o with
            | success answer c' =>
                cases answer with
                | loop a' =>
                    rw [round_of_loop hs] at h ⊢
                    obtain ⟨b, d, t, r, same⟩ := ih h
                    exact ⟨b, d, t, .more hs r, same⟩
                | done _ | stray _ => simp [round, bind, pure, throw, hs] at last
            | failure _ _ | thrown _ => simp [round, bind, hs] at last
            | exhausted => simp [round, bind, hs] at h
      · refine ⟨a, c, s, .refl a c s, ?_⟩
        exact (round_below (fun _ _ _ => rfl) (fun _ => Below.exhausted _) c s last).symm

end Rounds

section

variable {p : Behaviour ε (Step σ α)} {s' : Session}

/-! Where a loop does not go round again, it comes to what its step has answered. -/

theorem round_eq_success_iff {x : α} :
    round p (fun _ => exhausted) c s = (.success x d, s') ↔
      p c s = (.success (.done x) d, s') := by
  simp only [round, bind]
  generalize p c s = reply
  obtain ⟨o, t⟩ := reply
  cases o with
  | success answer e =>
      cases answer with
      | loop _ | done _ | stray _ => simp [pure, throw, exhausted]
  | failure _ _ | thrown _ | exhausted => simp

theorem round_eq_failure_iff {o : Int} {e : ParseError} :
    round p (fun _ => exhausted) c s = (.failure o e, s') ↔ p c s = (.failure o e, s') := by
  simp only [round, bind]
  generalize p c s = reply
  obtain ⟨o', t⟩ := reply
  cases o' with
  | success answer _ =>
      cases answer with
      | loop _ | done _ | stray _ => simp [pure, throw, exhausted]
  | failure _ _ | thrown _ | exhausted => simp

theorem round_eq_thrown_iff {fault : Fault ε} :
    round p (fun _ => exhausted) c s = (.thrown fault, s') ↔
      p c s = (.thrown fault, s') ∨
        ∃ shown d, fault = .strayStep shown ∧ p c s = (.success (.stray shown) d, s') := by
  simp only [round, bind]
  generalize p c s = reply
  obtain ⟨o, t⟩ := reply
  cases o with
  | success answer e =>
      cases answer with
      | loop _ | done _ => simp [pure, exhausted]
      | stray shown =>
          simp only [throw, Prod.mk.injEq, Outcome.thrown.injEq, Outcome.success.injEq,
            Step.stray.injEq, reduceCtorEq, false_and, false_or]
          constructor
          · rintro ⟨rfl, rfl⟩
            exact ⟨shown, e, rfl, ⟨rfl, rfl⟩, rfl⟩
          · rintro ⟨_, _, rfl, ⟨rfl, _⟩, rfl⟩
            exact ⟨rfl, rfl⟩
  | failure _ _ | thrown _ | exhausted => simp

end

end Behaviour

open Behaviour (ApproachedBy Below Rounds)

/-! ### The recursion -/

namespace Parser

/-- Runs a step, and continues as `again` says with a parser for the new state, or with the
result. -/
def round (step : Parser ε ρ (Step σ α)) (again : σ → Parser ε ρ α) : Parser ε ρ α :=
  step.bind fun
    | .loop state => again state
    | .done result => .pure result
    | .stray shown => .custom fun _ => .thrown (.strayStep shown)

/-- The recursion that runs a step and continues with itself, to a depth at which it breaks off
without an outcome. -/
def recursive (step : σ → Parser ε ρ (Step σ α)) : Nat → σ → Parser ε ρ α
  | 0, _ => .custom fun _ => .exhausted
  | depth + 1, state => (step state).round (recursive step depth)

end Parser

namespace Grammar

open Parsing.Decimal (TooManyDigits)
open Parsing.Parser (recursive tailRec)

variable {g : Grammar ε ρ} {step : σ → Parser ε ρ (Step σ α)}

theorem meaning_round (p : Parser ε ρ (Step σ α)) (again : σ → Parser ε ρ α) :
    g.meaning (p.round again) = .round (g.meaning p) fun a => g.meaning (again a) := by
  rw [Parser.round, meaning_bind, Behaviour.round]
  congr 1
  funext answer
  cases answer with
  | loop a => rfl
  | done x => exact meaning_pure x
  | stray shown =>
      exact Grammar.meaning_eq (.throw _) (fun n => by rw [run_eq]; exact fun _ _ _ => rfl)
        fun _ _ _ => ⟨0, rfl⟩

/-- A loop ends with a reply if and only if some finite number of rounds leads to a step that makes
it end so. -/
theorem meaning_tailRec_iff {a : σ} {c : Cursor} {s : Session} {r : Outcome ε α × Session}
    (hr : r.1 ≠ .exhausted) : g.meaning (tailRec step a) c s = r ↔ ∃ b d t,
      Rounds (fun a => g.meaning (step a)) a c s b d t ∧
        Behaviour.round (g.meaning (step b)) (fun _ => .exhausted) d t = r := by
  constructor
  · intro h
    obtain ⟨n, hn⟩ := (meaning_eq_iff hr).mp h
    rw [run_tailRec_eq] at hn
    obtain ⟨b, d, t, rounds, same⟩ := Rounds.of_loop (hn ▸ hr)
    have last := same.trans hn
    refine ⟨b, d, t, rounds.mono fun a => run_below_meaning n (step a), ?_⟩
    rw [← last] at hr ⊢
    exact Behaviour.round_below (run_below_meaning n _) (fun _ => Below.exhausted _) d t hr
  · rintro ⟨b, d, t, rounds, last⟩
    rw [← last] at hr ⊢
    exact rounds.reply_of_solves (fun a => g.meaning (tailRec step a)) (meaning_tailRec step) hr

theorem meaning_tailRec_congr {step' : σ → Parser ε ρ (Step σ α)}
    (h : ∀ a, g.meaning (step a) = g.meaning (step' a)) (a : σ) :
    g.meaning (tailRec step a) = g.meaning (tailRec step' a) := by
  funext c s
  refine meaning_ext fun r hr => ?_
  rw [meaning_tailRec_iff hr, meaning_tailRec_iff hr]
  simp only [h]

theorem tailRec_below {again : σ → Parser ε ρ α}
    (solves : ∀ a, g.meaning (again a) = g.meaning ((step a).round again)) (a : σ) :
    (g.meaning (tailRec step a)).Below (g.meaning (again a)) := by
  intro c s h
  obtain ⟨b, d, t, rounds, last⟩ := (meaning_tailRec_iff h).mp rfl
  rw [← last] at h ⊢
  exact rounds.reply_of_solves (fun a => g.meaning (again a))
    (fun a => (solves a).trans (meaning_round _ _)) h

theorem recursive_below (depth : Nat) (a : σ) :
    (g.meaning (recursive step depth a)).Below (g.meaning (tailRec step a)) := by
  induction depth generalizing a with
  | zero =>
      intro c s h
      exact absurd (congrArg Prod.fst (meaning_of_none fun n => by rw [run_eq]; rfl)) h
  | succ depth ih =>
      rw [recursive, meaning_round, meaning_tailRec]
      exact Behaviour.round_below (fun _ _ _ => rfl) ih

/-- A recursion needs to go as deep as the loop goes round. -/
theorem recursive_of_rounds {a b : σ} {c d : Cursor} {s t : Session}
    (rounds : Rounds (fun a => g.meaning (step a)) a c s b d t)
    (h : (Behaviour.round (g.meaning (step b)) (fun _ => .exhausted) d t).1 ≠ .exhausted) :
    ∃ n, ∀ depth, n ≤ depth → g.meaning (recursive step depth a) c s =
      Behaviour.round (g.meaning (step b)) (fun _ => .exhausted) d t := by
  induction rounds with
  | refl =>
      refine ⟨1, fun depth hd => ?_⟩
      obtain ⟨depth, rfl⟩ := Nat.exists_eq_add_of_le' hd
      rw [recursive, meaning_round]
      exact Behaviour.round_below (fun _ _ _ => rfl) (fun _ => Below.exhausted _) _ _ h
  | more hs _ ih =>
      obtain ⟨n, hn⟩ := ih h
      refine ⟨n + 1, fun depth hd => ?_⟩
      obtain ⟨depth, rfl⟩ := Nat.exists_eq_add_of_le' (Nat.le_trans (Nat.le_add_left 1 n) hd)
      rw [recursive, meaning_round, Behaviour.round_of_loop hs]
      exact hn depth (Nat.le_of_succ_le_succ hd)

theorem tailRec_approached (a : σ) :
    (g.meaning (tailRec step a)).ApproachedBy fun depth => g.meaning (recursive step depth a) := by
  intro c s h
  obtain ⟨b, d, t, rounds, last⟩ := (meaning_tailRec_iff h).mp rfl
  rw [← last] at h ⊢
  exact recursive_of_rounds rounds h

end Grammar

end Parsing
