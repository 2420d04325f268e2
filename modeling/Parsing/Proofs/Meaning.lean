import Parsing.Proofs.Alternatives
import Parsing.Proofs.Laws

/-!
# What parsers mean

Runs are bounded by their fuel.  The *meaning* of a parser is what it does without that bound: what
its runs do that end, and where none of them ends, it is exhausted (`Grammar.meaning_eq_iff`).  A
run that is exhausted leaves a session that depends on its fuel, and that is not part of the
meaning; a meaning that is exhausted leaves the empty session (`Behaviour.Strict`).

So meanings are equal, and not only approached by one another, and the meaning of a composite is
composed from the meanings of its parts.  **A loop has the meaning of the loop unrolled once**
(`Grammar.meaning_tailRec`): the number of rounds is gone, and what is shown of loops from here on
goes by induction on the rounds that are taken.
-/

namespace Parsing

variable {ε : Type} {ρ : Type → Type} {α β γ σ : Type}

/-! ### What is made of an outcome -/

namespace Outcome

/-- The outcome with a function applied to the value of a success. -/
def map (f : α → β) : Outcome ε α → Outcome ε β
  | .success x d => .success (f x) d
  | .failure o e => .failure o e
  | .thrown fault => .thrown fault
  | .exhausted => .exhausted

/-- The outcome of a parser that answers with `default` at `c`, where it was entered, instead of
failing empty. -/
def orDefault (default : α) (c : Cursor) : Outcome ε α → Outcome ε α
  | .failure o e => if o = c.offset then .success default c else .failure o e
  | r => r

variable {f : α → β} {r : Outcome ε α} {d : Cursor}

/-- Only a success can become a success, and it stays where it was. -/
theorem map_eq_success_iff {y : β} : r.map f = .success y d ↔ ∃ x, r = .success x d ∧ f x = y := by
  cases r with
  | success x d' =>
      simp only [map, success.injEq]
      constructor
      · rintro ⟨hy, hd⟩
        exact ⟨x, ⟨rfl, hd⟩, hy⟩
      · rintro ⟨_, ⟨rfl, hd⟩, hy⟩
        exact ⟨hy, hd⟩
  | failure _ _ | thrown _ | exhausted => simp [map]

/-- Failures are left alone. -/
theorem map_eq_failure_iff {o : Int} {e : ParseError} :
    r.map f = .failure o e ↔ r = .failure o e := by
  cases r with
  | success _ _ | failure _ _ | thrown _ | exhausted => simp [map]

theorem map_eq_exhausted_iff : r.map f = .exhausted ↔ r = .exhausted := by
  cases r with
  | success _ _ | failure _ _ | thrown _ | exhausted => simp [map]

theorem map_eq_thrown_iff {fault : Fault ε} : r.map f = .thrown fault ↔ r = .thrown fault := by
  cases r with
  | success _ _ | failure _ _ | thrown _ | exhausted => simp [map]

theorem isEmptyFailure_iff {c : Cursor} : r.IsEmptyFailure c ↔ ∃ e, r = .failure c.offset e := by
  cases r with
  | success _ _ | failure _ _ | thrown _ | exhausted => simp [IsEmptyFailure]

section

variable {errors : List ParseError}

/-- Failures before a success leave no trace in it. -/
theorem after_eq_success_iff {x : α} : r.after errors = .success x d ↔ r = .success x d := by
  cases r with
  | success _ _ | failure _ _ | thrown _ | exhausted => simp [after]

/-- A failure behind others carries the suggestions of all of them, theirs first. -/
theorem after_eq_failure_iff {o : Int} {e : ParseError} : r.after errors = .failure o e ↔
    ∃ e', r = .failure o e' ∧
      e = e'.withSuggestions (errors.flatMap ParseError.suggestions) := by
  cases r with
  | failure _ e' =>
      simp only [after, failure.injEq]
      constructor
      · rintro ⟨ho, rfl⟩
        exact ⟨e', ⟨ho, rfl⟩, rfl⟩
      · rintro ⟨_, ⟨ho, rfl⟩, rfl⟩
        exact ⟨ho, rfl⟩
  | success _ _ | thrown _ | exhausted => simp [after]

theorem after_eq_thrown_iff {fault : Fault ε} :
    r.after errors = .thrown fault ↔ r = .thrown fault := by
  cases r with
  | success _ _ | failure _ _ | thrown _ | exhausted => simp [after]

end

end Outcome

namespace Behaviour

/-- A function without exceptions touches nothing but the value of a success. -/
theorem map_ok_eq (f : α → β) (p : Behaviour ε α) (c : Cursor) (s : Session) :
    map (fun x => .ok (f x)) p c s = ((p c s).1.map f, (p c s).2) := by
  simp only [map]
  generalize p c s = reply
  obtain ⟨o, t⟩ := reply
  cases o with
  | success _ _ | failure _ _ | thrown _ | exhausted => rfl

section

variable {p : Behaviour ε α} {c d : Cursor} {s t : Session} {o : Int} {e : ParseError}

theorem map_eq_success_iff {f : α → β} {y : β} :
    map (fun x => .ok (f x)) p c s = (.success y d, t) ↔
      ∃ x, p c s = (.success x d, t) ∧ f x = y := by
  rw [map_ok_eq, Prod.mk.injEq, Outcome.map_eq_success_iff]
  constructor
  · rintro ⟨⟨x, hx, hy⟩, ht⟩
    exact ⟨x, Prod.ext hx ht, hy⟩
  · rintro ⟨x, hx, hy⟩
    exact ⟨⟨x, congrArg Prod.fst hx, hy⟩, congrArg Prod.snd hx⟩

theorem map_eq_failure_iff {f : α → β} :
    map (fun x => .ok (f x)) p c s = (.failure o e, t) ↔ p c s = (.failure o e, t) := by
  rw [map_ok_eq, Prod.mk.injEq, Outcome.map_eq_failure_iff]
  exact ⟨fun h => Prod.ext h.1 h.2, fun h => ⟨congrArg Prod.fst h, congrArg Prod.snd h⟩⟩

theorem map_eq_thrown_iff {f : α → β} {fault : Fault ε} :
    map (fun x => .ok (f x)) p c s = (.thrown fault, t) ↔ p c s = (.thrown fault, t) := by
  rw [map_ok_eq, Prod.mk.injEq, Outcome.map_eq_thrown_iff]
  exact ⟨fun h => Prod.ext h.1 h.2, fun h => ⟨congrArg Prod.fst h, congrArg Prod.snd h⟩⟩

/-- Only a success that has moved remains one. -/
theorem advancing_eq_success_iff {x : α} : advancing p c s = (.success x d, t) ↔
    p c s = (.success x d, t) ∧ d.offset ≠ c.offset := by
  simp only [advancing]
  generalize p c s = reply
  obtain ⟨r, s'⟩ := reply
  cases r with
  | success y d' =>
      by_cases hd : d'.offset = c.offset
      · simp only [hd, if_true, Prod.mk.injEq, reduceCtorEq, false_and, Outcome.success.injEq,
          false_iff, not_and]
        rintro ⟨⟨_, rfl⟩, _⟩ moved
        exact moved hd
      · simp only [hd, if_false]
        refine (and_iff_left_of_imp fun h => ?_).symm
        cases h
        exact hd
  | failure _ _ | thrown _ | exhausted => simp

/-- A success on the spot becomes a failure on the spot, with a message of its own and no
suggestions. -/
theorem advancing_eq_failure_iff : advancing p c s = (.failure o e, t) ↔
    p c s = (.failure o e, t) ∨ ∃ x d, p c s = (.success x d, t) ∧ d.offset = c.offset ∧
      o = c.offset ∧ e = ⟨standstill, []⟩ := by
  simp only [advancing]
  generalize p c s = reply
  obtain ⟨r, s'⟩ := reply
  cases r with
  | success y d' =>
      by_cases hd : d'.offset = c.offset
      · simp only [hd, if_true, Prod.mk.injEq, Outcome.failure.injEq, reduceCtorEq, false_and,
          false_or]
        constructor
        · rintro ⟨⟨rfl, rfl⟩, rfl⟩
          exact ⟨y, d', ⟨rfl, rfl⟩, hd, rfl, rfl⟩
        · rintro ⟨_, _, ⟨_, rfl⟩, _, rfl, rfl⟩
          exact ⟨⟨rfl, rfl⟩, rfl⟩
      · simp only [hd, if_false, Prod.mk.injEq, reduceCtorEq, false_and, false_or, false_iff,
          not_exists, not_and, Outcome.success.injEq]
        rintro _ _ ⟨⟨_, rfl⟩, _⟩ here
        exact absurd here hd
  | failure _ _ | thrown _ | exhausted => simp

theorem advancing_eq_thrown_iff {fault : Fault ε} :
    advancing p c s = (.thrown fault, t) ↔ p c s = (.thrown fault, t) := by
  simp only [advancing]
  generalize p c s = reply
  obtain ⟨r, s'⟩ := reply
  cases r with
  | success _ d' =>
      by_cases hd : d'.offset = c.offset
      · simp [hd]
      · simp [hd]
  | failure _ _ | thrown _ | exhausted => simp

/-- A success is taken back to where it began, wherever it ended. -/
theorem lookAhead_eq_success_iff {x : α} : lookAhead p c s = (.success x d, t) ↔
    (∃ d', p c s = (.success x d', t)) ∧ d = c := by
  simp only [lookAhead]
  generalize p c s = reply
  obtain ⟨r, s'⟩ := reply
  cases r with
  | success y d' =>
      simp only [Prod.mk.injEq, Outcome.success.injEq]
      constructor
      · rintro ⟨⟨hy, hd⟩, ht⟩
        exact ⟨⟨d', ⟨hy, rfl⟩, ht⟩, hd.symm⟩
      · rintro ⟨⟨_, ⟨hy, _⟩, ht⟩, rfl⟩
        exact ⟨⟨hy, rfl⟩, ht⟩
  | failure _ _ | thrown _ | exhausted => simp

/-- A failure stays where it is. -/
theorem lookAhead_eq_failure_iff :
    lookAhead p c s = (.failure o e, t) ↔ p c s = (.failure o e, t) := by
  simp only [lookAhead]
  generalize p c s = reply
  obtain ⟨r, s'⟩ := reply
  cases r with
  | success _ _ | failure _ _ | thrown _ | exhausted => simp

/-- A sequence succeeds if both parts do, the second from where and with what the first has ended.
-/
theorem bind_eq_success_iff {f : α → Behaviour ε β} {y : β} :
    bind p f c s = (.success y d, t) ↔
      ∃ x c' s', p c s = (.success x c', s') ∧ f x c' s' = (.success y d, t) := by
  simp only [bind]
  generalize p c s = reply
  obtain ⟨r, s'⟩ := reply
  cases r with
  | success x c' =>
      constructor
      · exact fun h => ⟨x, c', s', rfl, h⟩
      · rintro ⟨_, _, _, ⟨⟩, h⟩
        exact h
  | failure _ _ | thrown _ | exhausted => simp

/-- A sequence fails with its first part, or with the second behind a success of the first. -/
theorem bind_eq_failure_iff {f : α → Behaviour ε β} :
    bind p f c s = (.failure o e, t) ↔ p c s = (.failure o e, t) ∨
      ∃ x c' s', p c s = (.success x c', s') ∧ f x c' s' = (.failure o e, t) := by
  simp only [bind]
  generalize p c s = reply
  obtain ⟨r, s'⟩ := reply
  cases r with
  | success x c' =>
      constructor
      · exact fun h => .inr ⟨x, c', s', rfl, h⟩
      · rintro (h | ⟨_, _, _, ⟨⟩, h⟩)
        · simp at h
        · exact h
  | failure _ _ | thrown _ | exhausted => simp

/-! A choice ends as its first part does, or as the second where the first has failed empty. -/

section

variable {q : Behaviour ε α} {x : α} {fault : Fault ε}

/-- Behind an empty failure the second part is tried, and a failure of it takes over the
suggestions. -/
theorem alt_of_empty {s' : Session} (h : p c s = (.failure c.offset e, s')) :
    alt p q c s = ((q c s').1.after [e], (q c s').2) := by
  simp only [alt, h, if_true]
  generalize q c s' = reply
  obtain ⟨r, s''⟩ := reply
  cases r with
  | failure _ _ => simp [Outcome.after]
  | success _ _ | thrown _ | exhausted => rfl

/-- Any other outcome of the first part is that of the choice. -/
theorem alt_of_not_empty (h : ¬ (p c s).1.IsEmptyFailure c) : alt p q c s = p c s := by
  simp only [alt]
  generalize p c s = reply at h ⊢
  obtain ⟨r, s'⟩ := reply
  cases r with
  | failure o e => exact if_neg h
  | success _ _ | thrown _ | exhausted => rfl

/-- The second part is tried at the same cursor, in the session that the first one leaves. -/
theorem alt_eq_iff {r : Outcome ε α × Session} : alt p q c s = r ↔
    p c s = r ∧ ¬ r.1.IsEmptyFailure c ∨
      ∃ e s', p c s = (.failure c.offset e, s') ∧ ((q c s').1.after [e], (q c s').2) = r := by
  by_cases h : (p c s).1.IsEmptyFailure c
  · obtain ⟨e, he⟩ := Outcome.isEmptyFailure_iff.mp h
    have hp : p c s = (.failure c.offset e, (p c s).2) := Prod.ext he rfl
    rw [alt_of_empty hp]
    constructor
    · exact fun hr => .inr ⟨e, _, hp, hr⟩
    · rintro (⟨rfl, full⟩ | ⟨e', s', hp', hr⟩)
      · exact absurd h full
      · cases hp.symm.trans hp'
        exact hr
  · rw [alt_of_not_empty h]
    constructor
    · exact fun hr => .inl ⟨hr, hr ▸ h⟩
    · rintro (⟨hr, -⟩ | ⟨e, s', hp, -⟩)
      · exact hr
      · rw [hp] at h
        exact absurd rfl h

/-- A success is that of one part; if it is that of the second, the first has failed empty. -/
theorem alt_eq_success_iff : alt p q c s = (.success x d, t) ↔
    p c s = (.success x d, t) ∨
      ∃ e s', p c s = (.failure c.offset e, s') ∧ q c s' = (.success x d, t) := by
  rw [alt_eq_iff]
  simp [Outcome.IsEmptyFailure, Prod.ext_iff, Outcome.after_eq_success_iff]

/-- A failure is one of the first part behind the cursor, or one of the second with the suggestions
of both. -/
theorem alt_eq_failure_iff : alt p q c s = (.failure o e, t) ↔
    p c s = (.failure o e, t) ∧ o ≠ c.offset ∨
      ∃ e₁ s' e₂, p c s = (.failure c.offset e₁, s') ∧ q c s' = (.failure o e₂, t) ∧
        e = e₂.withSuggestions e₁.suggestions := by
  rw [alt_eq_iff]
  refine or_congr_right (exists_congr fun e₁ => exists_congr fun s' => ?_)
  rw [exists_and_left]
  refine and_congr_right fun _ => ?_
  simp only [Prod.mk.injEq, Outcome.after_eq_failure_iff, List.flatMap_singleton]
  constructor
  · rintro ⟨⟨e₂, hq, he⟩, ht⟩
    exact ⟨e₂, Prod.ext hq ht, he⟩
  · rintro ⟨e₂, hq, he⟩
    rw [hq]
    exact ⟨⟨e₂, rfl, he⟩, rfl⟩

theorem alt_eq_thrown_iff : alt p q c s = (.thrown fault, t) ↔
    p c s = (.thrown fault, t) ∨
      ∃ e s', p c s = (.failure c.offset e, s') ∧ q c s' = (.thrown fault, t) := by
  rw [alt_eq_iff]
  simp [Outcome.IsEmptyFailure, Prod.ext_iff, Outcome.after_eq_thrown_iff]

end

end

/-- Where the second part always succeeds on the spot, it is a default for empty failures. -/
theorem alt_pure (p : Behaviour ε α) (default : α) (c : Cursor) (s : Session) :
    alt p (pure default) c s = ((p c s).1.orDefault default c, (p c s).2) := by
  simp only [alt]
  generalize p c s = reply
  obtain ⟨o, t⟩ := reply
  cases o with
  | failure o e =>
      by_cases ho : o = c.offset
      · simp [Outcome.orDefault, pure, ho]
      · simp [Outcome.orDefault, ho]
  | success _ _ | thrown _ | exhausted => rfl

/-! ### Strict behaviours -/

/-- Where the behaviour is exhausted, it leaves the empty session. -/
def Strict (p : Behaviour ε α) : Prop := ∀ c s, (p c s).1 = .exhausted → (p c s).2 = .start

namespace Strict

variable {p q : Behaviour ε α}

theorem pure (x : α) : (Behaviour.pure x : Behaviour ε α).Strict :=
  fun _ _ h => by cases h

/-- An exception ends the run, so that no fuel is used up. -/
theorem throw (fault : Fault ε) : (Behaviour.throw fault : Behaviour ε α).Strict :=
  fun _ _ h => by cases h

/-- A sequence is exhausted only if one of its parts is, and takes over the session of that part. -/
theorem bind {f : α → Behaviour ε β} (hp : p.Strict) (hf : ∀ x, (f x).Strict) :
    (Behaviour.bind p f).Strict := by
  intro c s
  have h := hp c s
  simp only [Behaviour.bind]
  generalize p c s = reply at h ⊢
  obtain ⟨o, s'⟩ := reply
  cases o with
  | success x d => exact hf x d s'
  | failure _ _ | thrown _ => simp
  | exhausted => simpa only using h

theorem map {f : α → Except ε β} (hp : p.Strict) : (Behaviour.map f p).Strict := by
  rw [map_eq_bind]
  refine hp.bind fun x => ?_
  cases f x with
  | ok y => exact .pure y
  | error e => exact .throw _

/-- A choice is exhausted only if one of its parts is. -/
theorem alt (hp : p.Strict) (hq : q.Strict) : (Behaviour.alt p q).Strict := by
  intro c s
  have h := hp c s
  simp only [Behaviour.alt]
  generalize p c s = reply at h ⊢
  obtain ⟨o, s'⟩ := reply
  cases o with
  | failure offset error =>
      by_cases ho : offset = c.offset
      · have h' := hq c s'
        simp only [if_pos ho]
        generalize q c s' = reply at h' ⊢
        obtain ⟨o, s''⟩ := reply
        cases o with
        | success _ _ | failure _ _ | thrown _ => simp
        | exhausted => exact h'
      · simp [ho]
  | success _ _ | thrown _ => simp
  | exhausted => exact h

theorem advancing (hp : p.Strict) : (Behaviour.advancing p).Strict := by
  intro c s
  have h := hp c s
  simp only [Behaviour.advancing]
  generalize p c s = reply at h ⊢
  obtain ⟨o, s'⟩ := reply
  cases o with
  | success x d =>
      by_cases hd : d.offset = c.offset
      · simp [hd]
      · simp [hd]
  | failure _ _ | thrown _ => simp
  | exhausted => exact h

theorem label {name : String} (hp : p.Strict) : (Behaviour.label p name).Strict := by
  intro c s
  have h := hp c s
  simp only [Behaviour.label]
  generalize p c s = reply at h ⊢
  obtain ⟨o, s'⟩ := reply
  cases o with
  | failure offset _ =>
      by_cases ho : offset = c.offset
      · simp [ho]
      · simp [ho]
  | success _ _ | thrown _ => simp
  | exhausted => exact h

theorem lookAhead (hp : p.Strict) : (Behaviour.lookAhead p).Strict := by
  intro c s
  have h := hp c s
  simp only [Behaviour.lookAhead]
  generalize p c s = reply at h ⊢
  obtain ⟨o, s'⟩ := reply
  cases o with
  | success _ _ | failure _ _ | thrown _ => simp
  | exhausted => exact h

theorem skip (x : α) (n : Int) : (Behaviour.skip x n : Behaviour ε α).Strict := by
  intro c s
  simp only [Behaviour.skip]
  cases c.advance n with
  | ok _ | error _ => simp

theorem satisfy (accepts : Char → Bool) :
    (Behaviour.satisfy accepts : Behaviour ε Char).Strict := by
  intro c s
  simp only [Behaviour.satisfy]
  split
  · exact fun h => by cases h
  · split
    · exact skip _ 1 c s
    · exact fun h => by cases h

theorem string (text : String) : (Behaviour.string text : Behaviour ε String).Strict := by
  intro c s
  simp only [Behaviour.string]
  split
  · exact skip text text.length c s
  · exact fun h => by cases h

end Strict

/-- Continues a loop as `again` says from its new state on. -/
def round (step : Behaviour ε (Step σ α)) (again : σ → Behaviour ε α) : Behaviour ε α :=
  .bind step fun
    | .loop state => again state
    | .done result => .pure result
    | .stray shown => .throw (.strayStep shown)

/-- A round of a loop is followed by the loop with one round less. -/
theorem loop_succ (step : σ → Behaviour ε (Step σ α)) (n : Nat) (state : σ) :
    loop step (n + 1) state = round (step state) (loop step n) := by
  funext c s
  simp only [loop, round, bind]
  generalize step state c s = reply
  obtain ⟨o, s'⟩ := reply
  cases o with
  | success answer d =>
      cases answer with
      | loop _ | done _ | stray _ => rfl
  | failure _ _ | thrown _ | exhausted => rfl

/-- A round is strict if its step is and what comes after it. -/
theorem Strict.round {step : Behaviour ε (Step σ α)} {again : σ → Behaviour ε α}
    (hs : step.Strict) (ha : ∀ state, (again state).Strict) : (round step again).Strict := by
  refine hs.bind fun answer => ?_
  cases answer with
  | loop state => exact ha state
  | done result => exact .pure result
  | stray shown => exact .throw _

/-- More rounds and better steps make a loop that agrees with the first wherever that ends. -/
theorem Below.loop {step step' : σ → Behaviour ε (Step σ α)}
    (h : ∀ state, (step state).Below (step' state)) {n m : Nat} (hnm : n ≤ m) (state : σ) :
    Below (Behaviour.loop step n state) (Behaviour.loop step' m state) := by
  have steps (state : σ) : (step state).ApproachedBy fun _ => step' state := below_iff.mp (h state)
  exact below_iff.mpr (.loop steps n ⟨0, fun _ _ => hnm⟩ state)

/-- If the step and what comes after it are approached, so is the round. -/
theorem ApproachedBy.round {step : Behaviour ε (Step σ α)} {again : σ → Behaviour ε α}
    {step' : Nat → Behaviour ε (Step σ α)} {again' : Nat → σ → Behaviour ε α}
    (hs : step.ApproachedBy step')
    (ha : ∀ state, (again state).ApproachedBy fun n => again' n state) :
    (round step again).ApproachedBy fun n => round (step' n) (again' n) := by
  refine hs.bind fun answer => ?_
  cases answer with
  | loop state => exact ha state
  | done result => exact .refl _
  | stray shown => exact .refl _

end Behaviour

open Behaviour (ApproachedBy Below Strict)

namespace Grammar

variable {g : Grammar ε ρ}

/-- What the parser does with as much fuel as it needs.  Where no fuel is enough, it is
exhausted. -/
noncomputable def meaning (g : Grammar ε ρ) (p : Parser ε ρ α) : Behaviour ε α := fun c s =>
  open Classical in
  if h : ∃ n, (g.run n p c s).1 ≠ .exhausted then g.run h.choose p c s
  else (.exhausted, .start)

variable {p : Parser ε ρ α} {q : Parser ε ρ β}

/-- A run ends with some fuel, or it is exhausted with any. -/
theorem ended_or_exhausted (g : Grammar ε ρ) (p : Parser ε ρ α) (c : Cursor) (s : Session) :
    (∃ n, (g.run n p c s).1 ≠ .exhausted) ∨ ∀ n, (g.run n p c s).1 = .exhausted := by
  by_cases h : ∃ n, (g.run n p c s).1 ≠ .exhausted
  · exact .inl h
  · exact .inr fun n => Classical.not_not.mp fun hn => h ⟨n, hn⟩

/-- Any run that ends tells the meaning, since all that end agree. -/
theorem meaning_of_run {n : Nat} {c : Cursor} {s : Session} (h : (g.run n p c s).1 ≠ .exhausted) :
    g.meaning p c s = g.run n p c s := by
  have some : ∃ n, (g.run n p c s).1 ≠ .exhausted := ⟨n, h⟩
  have ended := some.choose_spec
  simp only [meaning, dif_pos some]
  calc g.run some.choose p c s
      = g.run (max some.choose n) p c s := (run_mono (Nat.le_max_left ..) ended).symm
    _ = g.run n p c s := run_mono (Nat.le_max_right ..) h

/-- What never ends means nothing but that, and keeps nothing in the session. -/
theorem meaning_of_none {c : Cursor} {s : Session} (h : ∀ n, (g.run n p c s).1 = .exhausted) :
    g.meaning p c s = (.exhausted, .start) :=
  dif_neg fun ⟨n, hn⟩ => hn (h n)

/-- A parser means what its runs do that end. -/
theorem meaning_eq_iff {c : Cursor} {s : Session} {r : Outcome ε α × Session}
    (hr : r.1 ≠ .exhausted) : g.meaning p c s = r ↔ ∃ n, g.run n p c s = r := by
  constructor
  · intro h
    obtain ⟨n, hn⟩ | none := g.ended_or_exhausted p c s
    · exact ⟨n, by rw [← h, meaning_of_run hn]⟩
    · rw [meaning_of_none none] at h
      exact absurd (congrArg Prod.fst h).symm hr
  · rintro ⟨n, hn⟩
    rw [meaning_of_run (hn ▸ hr), hn]

/-- A run agrees with the meaning unless it is exhausted. -/
theorem run_below_meaning (n : Nat) (p : Parser ε ρ α) : (g.run n p).Below (g.meaning p) :=
  fun _ _ h => meaning_of_run h

/-- With enough fuel, a run comes to the meaning. -/
theorem meaning_approached (p : Parser ε ρ α) : (g.meaning p).ApproachedBy fun n => g.run n p := by
  intro c s h
  obtain ⟨n, hn⟩ := (meaning_eq_iff h).mp rfl
  exact ⟨n, fun m hm => (run_mono hm (hn ▸ h)).trans hn⟩

/-- A meaning that is exhausted leaves the empty session, whatever the session was before. -/
theorem meaning_strict (p : Parser ε ρ α) : (g.meaning p).Strict := by
  intro c s h
  obtain ⟨n, hn⟩ | none := g.ended_or_exhausted p c s
  · rw [meaning_of_run hn] at h
    exact absurd h hn
  · rw [meaning_of_none none]

/-- A behaviour is the meaning of a parser if no run does anything else, and it does nothing that no
run does. -/
theorem meaning_eq {b : Behaviour ε α} (strict : b.Strict) (below : ∀ n, (g.run n p).Below b)
    (reached : ∀ c s, (b c s).1 ≠ .exhausted → ∃ n, g.run n p c s = b c s) : g.meaning p = b := by
  funext c s
  by_cases ended : (b c s).1 = .exhausted
  · have none (n : Nat) : (g.run n p c s).1 = .exhausted := by
      refine Classical.not_not.mp fun hn => hn ?_
      rw [← below n c s hn, ended]
    rw [meaning_of_none none]
    exact Prod.ext ended.symm (strict c s ended).symm
  · exact (meaning_eq_iff ended).mpr (reached c s ended)

/-- The same for a behaviour that is made from the meanings of parts as the runs are made from the
runs of the parts. -/
theorem meaning_eq_of_approached {b : Behaviour ε α} (strict : b.Strict)
    (below : ∀ n, ApproachedBy (g.run n p) fun _ => b)
    (approached : b.ApproachedBy fun n => g.run n p) : g.meaning p = b := by
  refine meaning_eq strict (fun n => Behaviour.below_iff.mpr (below n)) fun c s h => ?_
  obtain ⟨n, hn⟩ := approached c s h
  exact ⟨n, hn n (Nat.le_refl n)⟩

/-- Wherever a run with some fuel ends, the meaning has come to the same. -/
theorem run_approached_meaning (n : Nat) (p : Parser ε ρ α) :
    (g.run n p).ApproachedBy fun _ => g.meaning p :=
  Behaviour.below_iff.mp (run_below_meaning n p)

/-- Runs that are the same from a cursor in a session mean the same there. -/
theorem meaning_congr {p q : Parser ε ρ α} {c : Cursor} {s : Session}
    (h : ∀ n, g.run n p c s = g.run n q c s) : g.meaning p c s = g.meaning q c s := by
  obtain ⟨n, hn⟩ | none := g.ended_or_exhausted p c s
  · rw [meaning_of_run hn, meaning_of_run (h n ▸ hn), h n]
  · rw [meaning_of_none none, meaning_of_none fun n => h n ▸ none n]

/-- Parsers that end with the same replies mean the same. -/
theorem meaning_ext {p q : Parser ε ρ α} {c : Cursor} {s : Session}
    (h : ∀ r, r.1 ≠ .exhausted → (g.meaning p c s = r ↔ g.meaning q c s = r)) :
    g.meaning p c s = g.meaning q c s := by
  by_cases hp : (g.meaning p c s).1 = .exhausted
  · by_cases hq : (g.meaning q c s).1 = .exhausted
    · have hs := (meaning_strict p c s hp).trans (meaning_strict q c s hq).symm
      exact Prod.ext (hp.trans hq.symm) hs
    · exact (h _ hq).mpr rfl
  · exact ((h _ hp).mp rfl).symm

/-- Parsers that no fuel tells apart mean the same. -/
theorem Indistinct.meaning_eq {p q : Parser ε ρ α} (h : g.Indistinct p q) :
    g.meaning p = g.meaning q := funext fun c => funext fun s => meaning_congr fun n => h n c s

/-! ### Composites -/

theorem meaning_pure (x : α) : g.meaning (.pure x) = .pure x :=
  Grammar.meaning_eq (.pure x) (fun n => by rw [run_eq]; exact fun _ _ _ => rfl)
    fun _ _ _ => ⟨0, rfl⟩

theorem meaning_mapM (f : α → Except ε β) (p : Parser ε ρ α) :
    g.meaning (.mapM f p) = .map f (g.meaning p) := by
  have run (n : Nat) : g.run n (.mapM f p) = .map f (g.run n p) := by simp only [run_eq]; rfl
  refine meaning_eq_of_approached (meaning_strict p).map (fun n => ?_) ?_
  · rw [run]
    exact (run_approached_meaning n p).map
  · simp only [run]
    exact (meaning_approached p).map

theorem meaning_map (f : α → β) (p : Parser ε ρ α) :
    g.meaning (p.map f) = .map (fun x => .ok (f x)) (g.meaning p) := meaning_mapM _ p

/-- A sequence means what its parts mean one after the other: of the fuel that each of them needs
the larger is enough for both. -/
theorem meaning_bind (p : Parser ε ρ α) (f : α → Parser ε ρ β) :
    g.meaning (.bind p f) = .bind (g.meaning p) fun x => g.meaning (f x) := by
  have run (n : Nat) : g.run n (.bind p f) = .bind (g.run n p) fun x => g.run n (f x) := by
    simp only [run_eq]; rfl
  refine meaning_eq_of_approached ((meaning_strict p).bind fun x => meaning_strict (f x))
    (fun n => ?_) ?_
  · rw [run]
    exact (run_approached_meaning n p).bind fun x => run_approached_meaning n (f x)
  · simp only [run]
    exact (meaning_approached p).bind fun x => meaning_approached (f x)

/-- A sequence means the first part and then the second, with whose result it ends. -/
theorem meaning_keepRight (p : Parser ε ρ α) (q : Parser ε ρ β) :
    g.meaning (p.keepRight q) = .bind (g.meaning p) fun _ => g.meaning q := meaning_bind p _

theorem meaning_keepLeft (p : Parser ε ρ α) (q : Parser ε ρ β) :
    g.meaning (p.keepLeft q) =
      .bind (g.meaning p) fun x => .map (fun _ => .ok x) (g.meaning q) := by
  rw [Parser.keepLeft, meaning_bind]
  simp only [meaning_map]

/-- Two results are combined once the second one is there. -/
theorem meaning_combine (f : α → β → γ) (p : Parser ε ρ α) (q : Parser ε ρ β) :
    g.meaning (.combine f p q) =
      .bind (g.meaning p) fun x => .map (fun y => .ok (f x y)) (g.meaning q) := by
  have same : g.Indistinct (.combine f p q) (p.bind fun x => q.map (f x)) :=
    g.indistinct_of_behaviour fun enter n => Parser.combine_behaviour enter n f p q
  rw [same.meaning_eq, meaning_bind]
  simp only [meaning_map]

/-- A choice means the choice between what its parts mean. -/
theorem meaning_alt (p q : Parser ε ρ α) :
    g.meaning (.alt p q) = .alt (g.meaning p) (g.meaning q) := by
  have run (n : Nat) : g.run n (.alt p q) = .alt (g.run n p) (g.run n q) := by
    simp only [run_eq]; rfl
  refine meaning_eq_of_approached ((meaning_strict p).alt (meaning_strict q)) (fun n => ?_) ?_
  · rw [run]
    exact (run_approached_meaning n p).alt (run_approached_meaning n q)
  · simp only [run]
    exact (meaning_approached p).alt (meaning_approached q)

/-- Progress is asked of the meaning as it is of the runs. -/
theorem meaning_advancing (p : Parser ε ρ α) :
    g.meaning (.advancing p) = .advancing (g.meaning p) := by
  have run (n : Nat) : g.run n (.advancing p) = .advancing (g.run n p) := by
    simp only [run_eq]; rfl
  refine meaning_eq_of_approached (meaning_strict p).advancing (fun n => ?_) ?_
  · rw [run]
    exact (run_approached_meaning n p).advancing
  · simp only [run]
    exact (meaning_approached p).advancing

theorem meaning_label (p : Parser ε ρ α) (name : String) :
    g.meaning (.label p name) = .label (g.meaning p) name := by
  have run (n : Nat) : g.run n (.label p name) = .label (g.run n p) name := by
    simp only [run_eq]; rfl
  refine meaning_eq_of_approached (meaning_strict p).label (fun n => ?_) ?_
  · rw [run]
    exact (run_approached_meaning n p).label
  · simp only [run]
    exact (meaning_approached p).label

theorem meaning_lookAhead (p : Parser ε ρ α) :
    g.meaning (.lookAhead p) = .lookAhead (g.meaning p) := by
  have run (n : Nat) : g.run n (.lookAhead p) = .lookAhead (g.run n p) := by
    simp only [run_eq]; rfl
  refine meaning_eq_of_approached (meaning_strict p).lookAhead (fun n => ?_) ?_
  · rw [run]
    exact (run_approached_meaning n p).lookAhead
  · simp only [run]
    exact (meaning_approached p).lookAhead

/-- A test of one character needs no fuel and means what it does. -/
theorem meaning_satisfy (accepts : Char → Bool) :
    g.meaning (.satisfy accepts) = .satisfy accepts := by
  have run (n : Nat) : g.run n (.satisfy accepts) = .satisfy accepts := by rw [run_eq]; rfl
  exact Grammar.meaning_eq (.satisfy accepts) (fun n => run n ▸ fun _ _ _ => rfl)
    fun _ _ _ => ⟨0, run 0 ▸ rfl⟩

theorem meaning_string (text : String) : g.meaning (.string text) = .string text := by
  have run (n : Nat) : g.run n (.string text) = .string text := by rw [run_eq]; rfl
  exact Grammar.meaning_eq (.string text) (fun n => run n ▸ fun _ _ _ => rfl)
    fun _ _ _ => ⟨0, run 0 ▸ rfl⟩

/-! ### Loops -/

variable {step : σ → Parser ε ρ (Step σ α)}

/-- A run of a loop has as many rounds as it has fuel, and each step has that fuel too. -/
theorem run_tailRec_eq (n : Nat) (state : σ) :
    g.run n (.tailRec step state) = Behaviour.loop (fun state => g.run n (step state)) n state := by
  simp only [run_eq]; rfl

/-- The rounds of a loop need not be counted as the fuel of its steps is. -/
theorem loop_below_meaning (n m : Nat) (state : σ) :
    Below (Behaviour.loop (fun state => g.run n (step state)) m state)
      (g.meaning (.tailRec step state)) := by
  have more : Below (Behaviour.loop (fun state => g.run n (step state)) m state)
      (g.run (max n m) (.tailRec step state)) := by
    rw [run_tailRec_eq]
    exact .loop (fun state => run_below (Nat.le_max_left n m) (step state))
      (Nat.le_max_right n m) state
  intro c s h
  have h' := more c s h
  rw [← h', run_below_meaning _ _ c s (h' ▸ h)]

/-- A loop has the meaning of the loop unrolled once. -/
theorem meaning_tailRec (step : σ → Parser ε ρ (Step σ α)) (state : σ) :
    g.meaning (.tailRec step state) =
      .round (g.meaning (step state)) fun state => g.meaning (.tailRec step state) := by
  refine Grammar.meaning_eq ((meaning_strict _).round fun _ => meaning_strict _) (fun n => ?_) ?_
  · rw [run_tailRec_eq]
    cases n with
    | zero => exact Below.exhausted _
    | succ n =>
        rw [Behaviour.loop_succ]
        exact Behaviour.below_iff.mpr ((run_approached_meaning _ _).round fun state =>
          Behaviour.below_iff.mp (loop_below_meaning (n + 1) n state))
  · intro c s h
    have unrolled := ((meaning_approached (g := g) (step state)).round fun state =>
      meaning_approached (g := g) (.tailRec step state)) c s h
    obtain ⟨n, hn⟩ := unrolled
    have once := hn n (Nat.le_refl n)
    simp only [run_tailRec_eq] at once
    rw [← once] at h ⊢
    have below : Below (Behaviour.loop (fun state => g.run n (step state)) (n + 1) state)
        (g.run (n + 1) (.tailRec step state)) := by
      rw [run_tailRec_eq]
      exact .loop (fun state => run_below (Nat.le_succ n) (step state)) (Nat.le_refl _) state
    rw [Behaviour.loop_succ] at below
    exact ⟨n + 1, below c s h⟩

end Grammar

end Parsing
