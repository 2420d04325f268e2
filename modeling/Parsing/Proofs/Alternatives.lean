import Parsing.Parser.Choice
import Parsing.Proofs.Fuel

/-!
# Ordered choice does not depend on its brackets

A choice among several alternatives can be bracketed in many ways (`Bracketing`), of which
`Parser.choice` is one.  A failure has to be empty at the brackets around it to let the next
alternative run, and every pair of brackets that it passes prepends suggestions to it; so neither
is it plain that a committed failure in the middle stops all alternatives behind it, nor that it
gets the suggestions of all those before it.

`Behaviour.Tried` says what happens to a list of alternatives without mentioning brackets: they
run in their order, each from the same cursor and in the session that the one before it has left,
until one does not fail empty or none is left.  **Every bracketing does that** (`run_alternatives`):
its outcome is that of the last alternative that ran, with the suggestions of those before it in
front of its own.  Hence bracketings of the same alternatives cannot be told apart.
-/

namespace Parsing

variable {ε : Type} {ρ : Type → Type} {α : Type}

/-- The outcome with the suggestions of earlier errors in front of those of its own error. -/
def Outcome.after (earlier : List ParseError) : Outcome ε α → Outcome ε α
  | .failure offset error =>
    .failure offset (error.withSuggestions (earlier.flatMap ParseError.suggestions))
  | outcome => outcome

/-- The outcome of a run from `c`, with another message if it is an empty failure. -/
def Outcome.withMessage (message : String) (c : Cursor) : Outcome ε α → Outcome ε α
  | .failure offset error =>
    .failure offset (if offset = c.offset then ⟨message, error.suggestions⟩ else error)
  | outcome => outcome

/-- The outcome of a run from `c` is an empty failure. -/
def Outcome.IsEmptyFailure (c : Cursor) : Outcome ε α → Prop
  | .failure offset _ => offset = c.offset
  | _ => False

theorem Outcome.after_nil (o : Outcome ε α) : o.after [] = o := by
  cases o <;> rfl

namespace Behaviour

/-- Alternatives tried at `c` in their order, from the session `s` on.  The `errors` are those of
the alternatives that failed empty; the outcome `o` and the session `s'` behind it are those of the
next one, which did not fail empty or was the last. -/
inductive Tried (c : Cursor) : List (Behaviour ε α) → Session → List ParseError →
    Outcome ε α → Session → Prop where
  | stop {p : Behaviour ε α} {ps : List (Behaviour ε α)} {s s' : Session} {o : Outcome ε α}
      (h : p c s = (o, s')) (ho : ¬ o.IsEmptyFailure c) : Tried c (p :: ps) s [] o s'
  | last {p : Behaviour ε α} {s s' : Session} {o : Outcome ε α} (h : p c s = (o, s')) :
      Tried c [p] s [] o s'
  | next {p : Behaviour ε α} {ps : List (Behaviour ε α)} {s s' s'' : Session}
      {error : ParseError} {errors : List ParseError} {o : Outcome ε α}
      (h : p c s = (.failure c.offset error, s')) (t : Tried c ps s' errors o s'') :
      Tried c (p :: ps) s (error :: errors) o s''

namespace Tried

variable {c : Cursor} {ps qs : List (Behaviour ε α)} {s s' s'' : Session}
  {errors errors' : List ParseError} {o o' : Outcome ε α}

/-- Alternatives behind one that did not fail empty do not run. -/
theorem append_right (h : Tried c ps s errors o s') (ho : ¬ o.IsEmptyFailure c)
    (qs : List (Behaviour ε α)) : Tried c (ps ++ qs) s errors o s' := by
  induction h with
  | stop h _ => exact .stop h ho
  | last h => exact .stop h ho
  | next h _ ih => exact .next h (ih ho)

/-- Where all alternatives fail empty, those behind them are tried from the same cursor. -/
theorem append {error : ParseError} (h : Tried c ps s errors (.failure c.offset error) s')
    (h' : Tried c qs s' errors' o s'') :
    Tried c (ps ++ qs) s (errors ++ error :: errors') o s'' := by
  generalize hf : (Outcome.failure c.offset error : Outcome ε α) = f at h
  induction h with
  | stop h ho => exact absurd (hf ▸ rfl) ho
  | last h => exact .next (hf ▸ h) h'
  | next h _ ih => exact .next h (ih h' hf)

theorem unique (h : Tried c ps s errors o s') (h' : Tried c ps s errors' o' s'') :
    errors = errors' ∧ o = o' ∧ s' = s'' := by
  induction h generalizing errors' o' s'' with
  | stop h ho =>
      cases h' with
      | stop h₂ _ | last h₂ => cases h.symm.trans h₂; exact ⟨rfl, rfl, rfl⟩
      | next h₂ _ => cases h.symm.trans h₂; exact absurd rfl ho
  | last h =>
      cases h' with
      | stop h₂ _ | last h₂ => cases h.symm.trans h₂; exact ⟨rfl, rfl, rfl⟩
      | next _ t => cases t
  | next h t ih =>
      cases h' with
      | stop h₂ ho => cases h.symm.trans h₂; exact absurd rfl ho
      | last _ => cases t
      | next h₂ t₂ =>
          cases h.symm.trans h₂
          obtain ⟨rfl, rfl, rfl⟩ := ih t₂
          exact ⟨rfl, rfl, rfl⟩

/-- One pair of brackets: what both sides do, the choice between them does. -/
theorem alt {p q : Behaviour ε α} (hp : p c s = (o.after errors, s'))
    (h : Tried c ps s errors o s')
    (hq : ∃ errors' o' s'', Tried c qs s' errors' o' s'' ∧ q c s' = (o'.after errors', s'')) :
    ∃ errors o s', Tried c (ps ++ qs) s errors o s' ∧
      Behaviour.alt p q c s = (o.after errors, s') := by
  by_cases ho : o.IsEmptyFailure c
  · cases o with
    | success _ _ | thrown _ | exhausted => exact ho.elim
    | failure offset error =>
        obtain rfl : offset = c.offset := ho
        obtain ⟨errors', o', s'', h', hq⟩ := hq
        refine ⟨errors ++ error :: errors', o', s'', h.append h', ?_⟩
        simp only [Behaviour.alt, hp, Outcome.after, if_true, hq]
        cases o' with
        | failure offset' error' =>
            -- The brackets prepend the suggestions of the left side to those of the right.
            simp
        | success _ _ | thrown _ | exhausted => rfl
  · refine ⟨errors, o, s', h.append_right ho qs, ?_⟩
    simp only [Behaviour.alt, hp]
    cases o with
    | failure offset error => simp only [Outcome.after, if_neg (show ¬ offset = c.offset from ho)]
    | success _ _ | thrown _ | exhausted => rfl

end Tried

end Behaviour

open Behaviour (Tried)

/-! ### Bracketings -/

/-- Alternatives with brackets: one, or a choice between two bracketings. -/
inductive Bracketing (ε : Type) (ρ : Type → Type) (α : Type) : Type 1 where
  | single (p : Parser ε ρ α)
  | either (left right : Bracketing ε ρ α)

namespace Bracketing

/-- The parser that is written with these brackets. -/
def parser : Bracketing ε ρ α → Parser ε ρ α
  | .single p => p
  | .either left right => left.parser.alt right.parser

/-- The alternatives from left to right. -/
def alternatives : Bracketing ε ρ α → List (Parser ε ρ α)
  | .single p => [p]
  | .either left right => left.alternatives ++ right.alternatives

/-- The brackets of `Parser.choice`: each alternative behind all those before it. -/
def leftmost : Bracketing ε ρ α → List (Parser ε ρ α) → Bracketing ε ρ α
  | t, [] => t
  | t, p :: ps => leftmost (.either t (.single p)) ps

theorem parser_leftmost (t : Bracketing ε ρ α) (ps : List (Parser ε ρ α)) :
    (leftmost t ps).parser = ps.foldl Parser.alt t.parser := by
  induction ps generalizing t with
  | nil => rfl
  | cons p ps ih => exact ih (.either t (.single p))

theorem alternatives_leftmost (t : Bracketing ε ρ α) (ps : List (Parser ε ρ α)) :
    (leftmost t ps).alternatives = t.alternatives ++ ps := by
  induction ps generalizing t with
  | nil => rw [leftmost, List.append_nil]
  | cons p ps ih => rw [leftmost, ih, alternatives, alternatives, List.append_assoc]; rfl

/-- A choice from a list is a bracketing of it. -/
theorem exists_choice (p : Parser ε ρ α) (ps : List (Parser ε ρ α)) : ∃ t : Bracketing ε ρ α,
    t.parser = Parser.choice (p :: ps) ∧ t.alternatives = p :: ps :=
  ⟨leftmost (.single p) ps, parser_leftmost _ ps, alternatives_leftmost _ ps⟩

theorem alternatives_eq_cons (t : Bracketing ε ρ α) : ∃ p ps, t.alternatives = p :: ps := by
  induction t with
  | single p => exact ⟨p, [], rfl⟩
  | either left right ihl _ =>
      obtain ⟨p, ps, h⟩ := ihl
      exact ⟨p, ps ++ right.alternatives, by rw [alternatives, h, List.cons_append]⟩

variable {enter : {α : Type} → Cell → ρ α → Behaviour ε α} {rounds : Nat}

/-- A bracketing tries its alternatives in their order. -/
theorem behaviour_tried (t : Bracketing ε ρ α) (c : Cursor) (s : Session) :
    ∃ errors o s', Tried c (t.alternatives.map fun p => p.behaviour enter rounds) s errors o s' ∧
      t.parser.behaviour enter rounds c s = (o.after errors, s') := by
  induction t generalizing s with
  | single p =>
      refine ⟨[], (p.behaviour enter rounds c s).1, (p.behaviour enter rounds c s).2,
        .last rfl, ?_⟩
      rw [Outcome.after_nil]
      rfl
  | either left right ihl ihr =>
      obtain ⟨errors, o, s', h, hl⟩ := ihl s
      rw [alternatives, List.map_append]
      exact h.alt hl (ihr s')

/-- Bracketings of the same alternatives behave in the same way. -/
theorem behaviour_eq_of_alternatives_eq {t u : Bracketing ε ρ α}
    (h : t.alternatives = u.alternatives) :
    t.parser.behaviour enter rounds = u.parser.behaviour enter rounds := by
  funext c s
  obtain ⟨errors, o, s', ht, hr⟩ := @behaviour_tried ε ρ α enter rounds t c s
  obtain ⟨errors', o', s'', hu, hr'⟩ := @behaviour_tried ε ρ α enter rounds u c s
  obtain ⟨rfl, rfl, rfl⟩ := ht.unique (h ▸ hu)
  exact hr.trans hr'.symm

end Bracketing

/-! ### The choice among no alternatives -/

theorem Behaviour.alt_fail {error : ParseError} (p : Behaviour ε α) (c : Cursor) (s : Session)
    (he : error.suggestions = []) :
    Behaviour.alt p (.fail error) c s = ((p c s).1.withMessage error.message c, (p c s).2) := by
  simp only [Behaviour.alt]
  generalize p c s = reply
  obtain ⟨o, s'⟩ := reply
  cases o with
  | failure offset e =>
      by_cases ho : offset = c.offset
      · simp [Outcome.withMessage, Behaviour.fail, ParseError.withSuggestions, ho, he]
      · simp [Outcome.withMessage, ho]
  | success _ _ | thrown _ | exhausted => rfl

theorem Behaviour.fail_alt {error : ParseError} (p : Behaviour ε α) (he : error.suggestions = []) :
    Behaviour.alt (.fail error) p = p := by
  funext c s
  simp only [Behaviour.alt, Behaviour.fail, if_true]
  generalize p c s = reply
  obtain ⟨o, s'⟩ := reply
  cases o with
  | failure offset e => simp [he]
  | success _ _ | thrown _ | exhausted => rfl

/-! ### Runs -/

namespace Grammar

variable (g : Grammar ε ρ) (fuel : Nat)

/-- **Ordered choice does not depend on its brackets.**  Every bracketing of alternatives runs
them in their order, each once and from the cursor where the choice was entered, up to the first
that does not fail empty or else the last.  If that one succeeds, its success is the outcome; if it
fails, its failure is, with the suggestions of the alternatives before it in front of its own.  A
choice from a list is such a bracketing.

So every bracketing behaves like the choice from the list of its alternatives, and choice is
associative.  The choice among no alternatives is neutral on the left; on the right it changes
nothing but the message of an empty failure. -/
theorem run_alternatives :
    (∀ (t : Bracketing ε ρ α) (c : Cursor) (s : Session), ∃ errors o s',
      Tried c (t.alternatives.map fun p => g.run fuel p) s errors o s' ∧
        g.run fuel t.parser c s = (o.after errors, s')) ∧
    (∀ (p : Parser ε ρ α) (ps : List (Parser ε ρ α)), ∃ t : Bracketing ε ρ α,
      t.parser = Parser.choice (p :: ps) ∧ t.alternatives = p :: ps) ∧
    (∀ t : Bracketing ε ρ α, g.run fuel t.parser = g.run fuel (Parser.choice t.alternatives)) ∧
    (∀ p q r : Parser ε ρ α, g.run fuel ((p.alt q).alt r) = g.run fuel (p.alt (q.alt r))) ∧
    (∀ p : Parser ε ρ α, g.run fuel (Parser.empty.alt p) = g.run fuel p) ∧
    ∀ (p : Parser ε ρ α) (c : Cursor) (s : Session), g.run fuel (p.alt Parser.empty) c s =
      ((g.run fuel p c s).1.withMessage "No alternative" c, (g.run fuel p c s).2) := by
  simp only [run_eq]
  refine ⟨fun t c s => t.behaviour_tried c s, Bracketing.exists_choice, fun t => ?_,
    fun p q r => ?_, fun p => Behaviour.fail_alt _ rfl, fun p c s => Behaviour.alt_fail _ c s rfl⟩
  · obtain ⟨p, ps, hp⟩ := t.alternatives_eq_cons
    obtain ⟨t', ht', hps⟩ := Bracketing.exists_choice p ps
    rw [hp, ← ht']
    exact Bracketing.behaviour_eq_of_alternatives_eq (hp.trans hps.symm)
  · exact Bracketing.behaviour_eq_of_alternatives_eq
      (t := .either (.either (.single p) (.single q)) (.single r))
      (u := .either (.single p) (.either (.single q) (.single r))) rfl

end Grammar

end Parsing
