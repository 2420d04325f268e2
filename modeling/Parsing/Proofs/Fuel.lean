import Parsing.Grammar
import Parsing.Proofs.Verdicts

/-!
# Runs and their fuel

A run with fuel `n` is the behaviour of its parser in which loops may take `n` rounds and deferred
parsers are entered with one unit of fuel less (`run_eq`).  So a fact about all runs is a fact
about `Parser.behaviour`, shown by going through the operations, and an induction on the fuel
that only has to look at the entering of deferred parsers.

More fuel never changes how a run ends (`run_mono`): it can only let a run end that was exhausted
before.  `p.Below q` is that relation between behaviours.  With fuel growing without a bound, the
runs of a parser approach a behaviour that they all are below.  `p.ApproachedBy q` says of a
sequence `q` of behaviours that wherever `p` is not exhausted, all but finitely many of them do
what `p` does; it is kept by the operations of the algebra (`Parser.behaviour_approached`).
-/

namespace Parsing

variable {ε : Type} {ρ : Type → Type} {α β σ : Type}

namespace Behaviour

/-- A callback is applied to its argument as a parser is continued with another. -/
theorem apply_eq_bind (p : Behaviour ε (α → Except ε β)) (q : Behaviour ε α) :
    Behaviour.apply p q = .bind p fun f => .map f q := by
  funext c s
  simp only [Behaviour.apply, Behaviour.bind]
  cases p c s with
  | mk o s' =>
      cases o with
      | success _ _ | failure _ _ | thrown _ | exhausted => rfl

/-- Wherever `p` is not exhausted, `q` does the same. -/
def Below (p q : Behaviour ε α) : Prop := ∀ c s, (p c s).1 ≠ .exhausted → q c s = p c s

/-- Wherever `p` is not exhausted, `q n` does the same from some `n` on. -/
def ApproachedBy (p : Behaviour ε α) (q : Nat → Behaviour ε α) : Prop :=
  ∀ c s, (p c s).1 ≠ .exhausted → ∃ n, ∀ m, n ≤ m → q m c s = p c s

namespace Below

variable {p q : Behaviour ε α}

theorem exhausted (q : Behaviour ε α) : Below exhausted q := fun _ _ h => absurd rfl h

/-- What `p` meets without being exhausted, `q` meets as well. -/
theorem meets (h : p.Below q) {c : Cursor} {Q : Verdict ε α → Prop} (hp : p.Meets c Q)
    (hQ : ¬ Q .exhausted) : q.Meets c Q := by
  intro s
  have hs := hp s
  rw [h c s fun he => hQ (by rwa [he] at hs)]
  exact hs

/-- Where the one behaviour comes to an end it meets what the other meets. -/
theorem meets_of_ended (h : p.Below q) {c : Cursor} {Q : Verdict ε α → Prop}
    (ended : p.Meets c (· ≠ .exhausted)) (hq : q.Meets c Q) : p.Meets c Q := by
  intro s
  have hs := hq s
  rwa [h c s fun he => ended s (by rw [he]; rfl)] at hs

end Below

/-- A behaviour is below another if it is approached by that one alone. -/
theorem below_iff {p q : Behaviour ε α} : p.Below q ↔ p.ApproachedBy fun _ => q := by
  constructor
  · exact fun h c s hr => ⟨0, fun _ _ => h c s hr⟩
  · intro h c s hr
    obtain ⟨n, hn⟩ := h c s hr
    exact hn n (Nat.le_refl n)

namespace ApproachedBy

variable {p : Behaviour ε α} {q : Nat → Behaviour ε α}

/-- A behaviour approaches itself, at once. -/
theorem refl (p : Behaviour ε α) : p.ApproachedBy fun _ => p := fun _ _ _ => ⟨0, fun _ _ => rfl⟩

/-- Nothing has to be approached where nothing ends. -/
theorem exhausted (q : Nat → Behaviour ε α) : ApproachedBy exhausted q :=
  fun _ _ h => absurd rfl h

/-- A reply that is made from the reply of `p`, and exhausted if that is, is in the end the one
that is made from the replies of `q`. -/
theorem lift (h : p.ApproachedBy q) (c : Cursor) (s : Session) {reply : Outcome ε β × Session}
    {replies : Nat → Outcome ε β × Session} (same : ∀ n, q n c s = p c s → replies n = reply)
    (strict : ∀ s', p c s = (.exhausted, s') → reply.1 = .exhausted) :
    reply.1 ≠ .exhausted → ∃ n, ∀ m, n ≤ m → replies m = reply := by
  intro hr
  obtain ⟨n, hn⟩ := h c s fun he => hr (strict (p c s).2 (Prod.ext he rfl))
  exact ⟨n, fun m hm => same m (hn m hm)⟩

theorem map {f : α → Except ε β} (h : p.ApproachedBy q) :
    (Behaviour.map f p).ApproachedBy fun n => Behaviour.map f (q n) := fun c s =>
  h.lift c s (fun n e => by simp only [Behaviour.map, e])
    (fun s' e => by simp only [Behaviour.map, e])

/-- From some fuel on both parts do what they do in the end, the second one from where the first has
ended. -/
theorem bind {f : α → Behaviour ε β} {g : Nat → α → Behaviour ε β} (h : p.ApproachedBy q)
    (hf : ∀ x, (f x).ApproachedBy fun n => g n x) :
    (Behaviour.bind p f).ApproachedBy fun n => Behaviour.bind (q n) (g n) := by
  intro c s hr
  simp only [Behaviour.bind] at hr ⊢
  cases hp : p c s with
  | mk o s' =>
      rw [hp] at hr
      cases o with
      | exhausted => exact absurd rfl hr
      | success x d =>
          -- Both parts are as in `p` and `f x` from some place on, so from the later of the two.
          obtain ⟨n, hn⟩ := h c s (by simp [hp])
          obtain ⟨k, hk⟩ := hf x d s' hr
          refine ⟨max n k, fun m hm => ?_⟩
          rw [hn m (Nat.max_le.mp hm).1, hp]
          exact hk m (Nat.max_le.mp hm).2
      | failure _ _ | thrown _ =>
          obtain ⟨n, hn⟩ := h c s (by simp [hp])
          exact ⟨n, fun m hm => by rw [hn m hm, hp]⟩

theorem apply {p : Behaviour ε (α → Except ε β)} {p' : Nat → Behaviour ε (α → Except ε β)}
    {q : Behaviour ε α} {q' : Nat → Behaviour ε α} (h : p.ApproachedBy p')
    (hq : q.ApproachedBy q') :
    (Behaviour.apply p q).ApproachedBy fun n => Behaviour.apply (p' n) (q' n) := by
  simp only [Behaviour.apply_eq_bind]
  exact h.bind fun f => hq.map

/-- From some fuel on both parts do what they do in the end, and the first one decides whether the
second is tried. -/
theorem alt {r : Behaviour ε α} {q' : Nat → Behaviour ε α} (h : p.ApproachedBy q)
    (hq : r.ApproachedBy q') :
    (Behaviour.alt p r).ApproachedBy fun n => Behaviour.alt (q n) (q' n) := by
  intro c s hr
  simp only [Behaviour.alt] at hr ⊢
  cases hp : p c s with
  | mk o s' =>
      rw [hp] at hr
      cases o with
      | exhausted => exact absurd rfl hr
      | success _ _ | thrown _ =>
          obtain ⟨n, hn⟩ := h c s (by simp [hp])
          exact ⟨n, fun m hm => by rw [hn m hm, hp]⟩
      | failure offset error =>
          obtain ⟨n, hn⟩ := h c s (by simp [hp])
          by_cases ho : offset = c.offset
          · -- The second alternative runs in the session that the first has left, which is the
            -- same from `n` on.
            simp only [if_pos ho] at hr
            obtain ⟨k, hk⟩ := hq c s' fun he => hr (by rw [show r c s' = (.exhausted, _) from
              Prod.ext he rfl])
            refine ⟨max n k, fun m hm => ?_⟩
            simp only [hn m (Nat.max_le.mp hm).1, hp, hk m (Nat.max_le.mp hm).2]
          · refine ⟨n, fun m hm => ?_⟩
            simp only [hn m hm, hp, if_neg ho]

theorem label {name : String} (h : p.ApproachedBy q) :
    (Behaviour.label p name).ApproachedBy fun n => Behaviour.label (q n) name := fun c s =>
  h.lift c s (fun n e => by simp only [Behaviour.label, e])
    (fun s' e => by simp only [Behaviour.label, e])

theorem suggest {x : Suggestion} (h : p.ApproachedBy q) :
    (Behaviour.suggest p x).ApproachedBy fun n => Behaviour.suggest (q n) x := fun c s =>
  h.lift c s (fun n e => by simp only [Behaviour.suggest, e])
    (fun s' e => by simp only [Behaviour.suggest, e])

theorem attempt (h : p.ApproachedBy q) :
    (Behaviour.attempt p).ApproachedBy fun n => Behaviour.attempt (q n) := fun c s =>
  h.lift c s (fun n e => by simp only [Behaviour.attempt, e])
    (fun s' e => by simp only [Behaviour.attempt, e])

theorem lookAhead (h : p.ApproachedBy q) :
    (Behaviour.lookAhead p).ApproachedBy fun n => Behaviour.lookAhead (q n) := fun c s =>
  h.lift c s (fun n e => by simp only [Behaviour.lookAhead, e])
    (fun s' e => by simp only [Behaviour.lookAhead, e])

theorem notFollowedBy {shown : α → String} (h : p.ApproachedBy q) :
    (Behaviour.notFollowedBy shown p).ApproachedBy fun n =>
      Behaviour.notFollowedBy shown (q n) := fun c s =>
  h.lift c s (fun n e => by simp only [Behaviour.notFollowedBy, e])
    (fun s' e => by simp only [Behaviour.notFollowedBy, e])

theorem advancing (h : p.ApproachedBy q) :
    (Behaviour.advancing p).ApproachedBy fun n => Behaviour.advancing (q n) := fun c s =>
  h.lift c s (fun n e => by simp only [Behaviour.advancing, e])
    (fun s' e => by simp only [Behaviour.advancing, e])

/-- If the steps are approached and the rounds become as many, so is the loop: only finitely many
steps are taken. -/
theorem loop {step : σ → Behaviour ε (Step σ α)} {step' : Nat → σ → Behaviour ε (Step σ α)}
    (h : ∀ state, (step state).ApproachedBy fun n => step' n state) (rounds : Nat) :
    ∀ {rounds' : Nat → Nat} (_ : ∃ k, ∀ m, k ≤ m → rounds ≤ rounds' m) (state : σ),
      ApproachedBy (Behaviour.loop step rounds state) fun n =>
        Behaviour.loop (step' n) (rounds' n) state := by
  induction rounds with
  | zero => exact fun _ _ => exhausted _
  | succ rounds ih =>
      -- From `k` on there is a round to take, and enough of them are left behind it.
      rintro rounds' ⟨k, hk⟩ state
      have left {m : Nat} (hm : k ≤ m) : rounds' m = (rounds' m - 1) + 1 :=
        (Nat.sub_add_cancel (Nat.le_trans (Nat.le_add_left 1 rounds) (hk m hm))).symm
      have ih := fun state => ih ⟨k, fun m hm => Nat.le_sub_one_of_lt (hk m hm)⟩ state
      intro c s hr
      have round {m : Nat} (hm : k ≤ m) : Behaviour.loop (step' m) (rounds' m) state c s =
          Behaviour.loop (step' m) (rounds' m - 1 + 1) state c s := by rw [← left hm]
      simp only [Behaviour.loop] at hr round ⊢
      cases hp : step state c s with
      | mk o s' =>
          rw [hp] at hr
          have first (ho : o ≠ .exhausted) :
              ∃ n, ∀ m, n ≤ m → k ≤ m ∧ step' m state c s = (o, s') := by
            obtain ⟨n, hn⟩ := h state c s (by rwa [hp])
            exact ⟨max n k, fun m hm =>
              ⟨(Nat.max_le.mp hm).2, (hn m (Nat.max_le.mp hm).1).trans hp⟩⟩
          cases o with
          | exhausted => exact absurd rfl hr
          | failure _ _ | thrown _ =>
              obtain ⟨n, hn⟩ := first (by simp)
              exact ⟨n, fun m hm => by rw [round (hn m hm).1, (hn m hm).2]⟩
          | success answer d =>
              obtain ⟨n, hn⟩ := first (by simp)
              cases answer with
              | loop state' =>
                  obtain ⟨j, hj⟩ := ih state' d s' hr
                  refine ⟨max n j, fun m hm => ?_⟩
                  have hm := Nat.max_le.mp hm
                  rw [round (hn m hm.1).1, (hn m hm.1).2]
                  exact hj m hm.2
              | done _ | stray _ =>
                  exact ⟨n, fun m hm => by rw [round (hn m hm).1, (hn m hm).2]⟩

theorem fresh {p : Frame → Behaviour ε α} {q : Nat → Frame → Behaviour ε α}
    (h : ∀ frame, (p frame).ApproachedBy fun n => q n frame) :
    (Behaviour.fresh p).ApproachedBy fun n => Behaviour.fresh (q n) := fun c _ hr => h _ c _ hr

theorem traced {name : String} (h : p.ApproachedBy q) :
    (Behaviour.traced name p).ApproachedBy fun n => Behaviour.traced name (q n) := fun c s =>
  h.lift c (s.log (c.traceLine name)) (fun n e => by simp only [Behaviour.traced, e])
    (fun s' e => by simp only [Behaviour.traced, e])

theorem visit {name : String} (h : p.ApproachedBy q) :
    (Behaviour.visit name p).ApproachedBy fun n => Behaviour.visit name (q n) :=
  fun c _ hr => h c _ hr

end ApproachedBy

end Behaviour

open Behaviour (ApproachedBy Below Meets)

/-- A parser is approached when the deferred parsers are approached and loops come to take as many
rounds. -/
theorem Parser.behaviour_approached {enter : {α : Type} → Cell → ρ α → Behaviour ε α}
    {enter' : Nat → {α : Type} → Cell → ρ α → Behaviour ε α}
    (h : ∀ {α : Type} (cell : Cell) (rule : ρ α),
      (enter cell rule).ApproachedBy fun n => enter' n cell rule)
    {rounds : Nat} {rounds' : Nat → Nat} (hr : ∃ k, ∀ m, k ≤ m → rounds ≤ rounds' m) :
    ∀ {α : Type} (p : Parser ε ρ α),
      (p.behaviour enter rounds).ApproachedBy fun n => p.behaviour (enter' n) (rounds' n)
  | _, .pure _ | _, .fail _ | _, .raise _ | _, .satisfy _ | _, .string _ | _, .position
  | _, .trace _ | _, .custom _ => .refl _
  | _, .mapM _ p => (behaviour_approached h hr p).map
  | _, .applyM p q => (behaviour_approached h hr p).apply (behaviour_approached h hr q)
  | _, .bind p f => (behaviour_approached h hr p).bind fun x => behaviour_approached h hr (f x)
  | _, .alt p q => (behaviour_approached h hr p).alt (behaviour_approached h hr q)
  | _, .label p _ => (behaviour_approached h hr p).label
  | _, .suggest p _ => (behaviour_approached h hr p).suggest
  | _, .attempt p => (behaviour_approached h hr p).attempt
  | _, .lookAhead p => (behaviour_approached h hr p).lookAhead
  | _, .notFollowedBy _ p => (behaviour_approached h hr p).notFollowedBy
  | _, .advancing p => (behaviour_approached h hr p).advancing
  | _, .tailRec step initial =>
      .loop (fun state => behaviour_approached h hr (step state)) _ hr initial
  | _, .deferred cell rule => h cell rule
  | _, .fresh p => .fresh fun frame => behaviour_approached h hr (p frame)
  | _, .traced _ p => (behaviour_approached h hr p).traced
  | _, .visit _ p => (behaviour_approached h hr p).visit

/-- A parser does not do less when deferred parsers do not do less and loops may take more
rounds. -/
theorem Parser.behaviour_below {enter enter' : {α : Type} → Cell → ρ α → Behaviour ε α}
    (h : ∀ {α : Type} (cell : Cell) (rule : ρ α), (enter cell rule).Below (enter' cell rule))
    {n m : Nat} (hnm : n ≤ m) {α : Type} (p : Parser ε ρ α) :
    (p.behaviour enter n).Below (p.behaviour enter' m) :=
  Behaviour.below_iff.mpr (p.behaviour_approached
    (fun cell rule => Behaviour.below_iff.mp (h cell rule)) ⟨0, fun _ _ => hnm⟩)

namespace Grammar

variable (g : Grammar ε ρ)

/-- What deferred parsers do in a run with the given fuel. -/
def entered : Nat → {α : Type} → Cell → ρ α → Behaviour ε α
  | 0, _, _, _ => Behaviour.exhausted
  | fuel + 1, _, cell, rule => g.enter (g.run fuel) cell rule

/-- A run does what its text says, where deferred parsers are built and run with less fuel. -/
theorem run_eq (fuel : Nat) (p : Parser ε ρ α) :
    g.run fuel p = p.behaviour (g.entered fuel) fuel := by
  cases fuel with
  | zero => rfl
  | succ fuel => rfl

variable {g}

/-- A deferred parser meets what the parsers meet that are built for it, in any frame. -/
theorem enter_meets {run : {α : Type} → Parser ε ρ α → Behaviour ε α} {cell : Cell} {rule : ρ α}
    {c : Cursor} {Q : Verdict ε α → Prop}
    (ok : ∀ frame p, g.build rule frame = .ok p → (run p).Meets c Q)
    (error : ∀ frame e, g.build rule frame = .error e → Q (.thrown (.raised e))) :
    (g.enter run cell rule).Meets c Q := by
  intro s
  unfold enter
  cases s.built? cell with
  | some frame =>
      cases hb : g.build rule frame with
      | ok p => simp only [hb]; exact ok frame p hb s
      | error e => simp only [hb]; exact error frame e hb
  | none =>
      cases hb : g.build rule s.openFrame.1 with
      | ok p => simp only [hb]; exact ok _ p hb _
      | error e => simp only [hb]; exact error _ e hb

/-- A rule is built in the same way whatever runs it, so that only its run may be better. -/
theorem enter_below {run run' : {α : Type} → Parser ε ρ α → Behaviour ε α}
    (h : ∀ {α : Type} (p : Parser ε ρ α), (run p).Below (run' p)) (cell : Cell) (rule : ρ α) :
    (g.enter run cell rule).Below (g.enter run' cell rule) := by
  intro c s hr
  unfold enter at hr ⊢
  -- Fuel has no part in what is built or in which frame, only in the run of what was built.
  cases hs : s.built? cell with
  | some frame =>
      simp only [hs] at hr ⊢
      cases hb : g.build rule frame with
      | ok p => simp only [hb] at hr ⊢; exact h p c s hr
      | error e => rfl
  | none =>
      simp only [hs] at hr ⊢
      cases hb : g.build rule s.openFrame.1 with
      | ok p => simp only [hb] at hr ⊢; exact h p c _ hr
      | error e => rfl

/-- With more fuel, deferred parsers agree with what they did with less, wherever that ended. -/
theorem entered_below : ∀ {n m : Nat} (_ : n ≤ m) {α : Type} (cell : Cell) (rule : ρ α),
    (g.entered n cell rule).Below (g.entered m cell rule)
  | 0, _, _, _, _, _ => Below.exhausted _
  | n + 1, m + 1, h, _, cell, rule => by
      have hnm : n ≤ m := Nat.le_of_succ_le_succ h
      refine enter_below (fun p => ?_) cell rule
      rw [run_eq, run_eq]
      exact p.behaviour_below (fun cell rule => entered_below hnm cell rule) hnm

/-- With more fuel, a run agrees with the one with less, wherever that ended. -/
theorem run_below {n m : Nat} (h : n ≤ m) (p : Parser ε ρ α) :
    (g.run n p).Below (g.run m p) := by
  rw [run_eq, run_eq]
  exact p.behaviour_below (fun cell rule => entered_below h cell rule) h

/-- A run on a text ends as the run of its parser from the beginning. -/
theorem runText_meets {n : Nat} {p : Parser ε ρ α} {text : Array Char} {Q : Verdict ε α → Prop}
    (h : (g.run n p).Meets (.start text) Q) (s : Session) :
    Q (g.runText n p text s).1.verdict := by
  have hs := h s
  unfold runText
  generalize g.run n p (.start text) s = reply at hs ⊢
  obtain ⟨o, s'⟩ := reply
  cases o with
  | success _ _ | failure _ _ | thrown _ | exhausted => exact hs

/-- **More fuel never changes how a run ends.** -/
theorem run_mono {n m : Nat} (h : n ≤ m) {p : Parser ε ρ α} {c : Cursor} {s : Session}
    (hr : (g.run n p c s).1 ≠ .exhausted) : g.run m p c s = g.run n p c s :=
  run_below h p c s hr

end Grammar

end Parsing
