import Parsing.Behaviour
import Parsing.Proofs.Reading

/-!
# Verdicts

The verdict of a run is its outcome without the error: whether it succeeded, with which value and
where, or at which offset it failed.  No operation of the algebra looks at the error of a part, so
verdicts can be reasoned about by themselves.

`p.Meets c Q` says that the verdict of `p` at `c` satisfies `Q` in every session.  For each
operation there is one rule that brings such a statement about a composite down to its parts; the
rule for loops (`Meets.loop`) takes an invariant indexed by the number of rounds that are left,
and so serves both when running out of rounds is allowed and when it has to be excluded.
-/

namespace Parsing

variable {ε α β σ : Type}

/-- An outcome without its error. -/
inductive Verdict (ε α : Type) where
  | success (value : α) (rest : Cursor)
  | failure (offset : Int)
  | thrown (fault : Fault ε)
  | exhausted

/-- What an outcome comes to when its error is dropped. -/
def Outcome.verdict : Outcome ε α → Verdict ε α
  | .success value rest => .success value rest
  | .failure offset _ => .failure offset
  | .thrown fault => .thrown fault
  | .exhausted => .exhausted

/-- A success is subject to `k`; every other verdict is handed on and subject to `Q`. -/
def Verdict.Continues (k : α → Cursor → Prop) (Q : Verdict ε β → Prop) : Verdict ε α → Prop
  | .success value rest => k value rest
  | .failure offset => Q (.failure offset)
  | .thrown fault => Q (.thrown fault)
  | .exhausted => Q .exhausted

/-- What the answer of a callback comes to, for a run that has got to `rest`. -/
def Verdict.ofAnswer (rest : Cursor) : Except ε α → Verdict ε α
  | .ok value => .success value rest
  | .error exception => .thrown (.raised exception)

namespace Behaviour

/-- The verdict of `p` at `c` satisfies `Q`, whatever the session. -/
def Meets (p : Behaviour ε α) (c : Cursor) (Q : Verdict ε α → Prop) : Prop :=
  ∀ s, Q (p c s).1.verdict

/-- `p` fails empty at `c`. -/
def Refuses (p : Behaviour ε α) (c : Cursor) : Prop := p.Meets c (· = .failure c.offset)

/-! One verdict in every session is one outcome in every session, up to its error. -/

/-- To succeed in every session is to have one outcome there, whatever session is left. -/
theorem meets_success_iff {p : Behaviour ε α} {c d : Cursor} {x : α} :
    p.Meets c (· = .success x d) ↔ ∀ s, ∃ t, p c s = (.success x d, t) := by
  refine forall_congr' fun s => ?_
  generalize p c s = reply
  obtain ⟨r, t⟩ := reply
  cases r with
  | success _ _ | failure _ _ | thrown _ | exhausted => simp [Outcome.verdict]

/-- To fail in every session at one offset leaves the error open, which may depend on the
session. -/
theorem meets_failure_iff {p : Behaviour ε α} {c : Cursor} {o : Int} :
    p.Meets c (· = .failure o) ↔ ∀ s, ∃ e t, p c s = (.failure o e, t) := by
  refine forall_congr' fun s => ?_
  generalize p c s = reply
  obtain ⟨r, t⟩ := reply
  cases r with
  | success _ _ | failure _ _ | thrown _ | exhausted => simp [Outcome.verdict]

/-! ### What reads the text

It does the same in every session, and leaves the session as it is. -/

section

variable {c d : Cursor} {text : String}

/-- Skipping characters that remain succeeds behind them. -/
theorem skip_of_reads {w : List Char} (h : c.Reads w d) (x : α) (s : Session) :
    (skip x w.length : Behaviour ε α) c s = (.success x d, s) := by
  simp only [skip, h.advance]

/-- A character that is accepted is read. -/
theorem satisfy_of_reads (accepts : Char → Bool) {x : Char} (h : c.Reads [x] d)
    (hx : accepts x = true) (s : Session) :
    (satisfy accepts : Behaviour ε Char) c s = (.success x d, s) := by
  simp only [satisfy, Cursor.peek_eq_some_iff.mpr ⟨d, h⟩, hx, if_true]
  exact skip_of_reads h x s

/-- Where no such character is next, the test fails on the spot. -/
theorem satisfy_of_absent (accepts : Char → Bool)
    (h : ∀ x d, c.Reads [x] d → accepts x = false) (s : Session) :
    ∃ e, (satisfy accepts : Behaviour ε Char) c s = (.failure c.offset e, s) := by
  cases hp : c.peek with
  | none => exact ⟨_, by simp only [satisfy, hp]; rfl⟩
  | some x =>
      obtain ⟨d, hd⟩ := Cursor.peek_eq_some_iff.mp hp
      exact ⟨_, by simp only [satisfy, hp, h x d hd]; rfl⟩

/-- There is a character of the class, or there is none. -/
theorem reads_or_absent (accepts : Char → Bool) (c : Cursor) :
    (∃ x d, c.Reads [x] d ∧ accepts x = true) ∨ ∀ x d, c.Reads [x] d → accepts x = false := by
  by_cases h : ∃ x d, c.Reads [x] d ∧ accepts x = true
  · exact .inl h
  · exact .inr fun x d hd => Bool.eq_false_iff.mpr fun hx => h ⟨x, d, hd, hx⟩

theorem satisfy_session (accepts : Char → Bool) (c : Cursor) (s : Session) :
    (satisfy accepts c s : Outcome ε Char × Session).2 = s := by
  obtain ⟨x, d, hd, hx⟩ | absent := reads_or_absent accepts c
  · rw [satisfy_of_reads accepts hd hx]
  · obtain ⟨e, he⟩ := satisfy_of_absent (ε := ε) accepts absent s
    rw [he]

/-- A string that is there is read as a whole. -/
theorem string_of_reads (h : c.Reads text.toList d) (s : Session) :
    (string text : Behaviour ε String) c s = (.success text d, s) := by
  simp only [string, Cursor.startsWith_iff_reads.mpr ⟨d, h⟩, if_true]
  rw [← String.length_toList]
  exact skip_of_reads h text s

/-- A string that is not there fails on the spot. -/
theorem string_of_absent (h : ¬ text.toList <+: c.remaining) (s : Session) :
    ∃ e, (string text : Behaviour ε String) c s = (.failure c.offset e, s) := by
  have absent : c.startsWith text = false := by
    rw [← Bool.not_eq_true, Cursor.startsWith_iff]
    exact h
  exact ⟨_, by simp only [string, absent]; rfl⟩

end

namespace Meets

variable {p : Behaviour ε α} {c : Cursor} {Q R : Verdict ε α → Prop}

/-- What is shown of a verdict may be weakened. -/
theorem mono (h : p.Meets c Q) (hQ : ∀ r, Q r → R r) : p.Meets c R := fun s => hQ _ (h s)

/-- A behaviour that meets `· = r` meets whatever holds of `r`. -/
theorem of_eq {r : Verdict ε α} (h : p.Meets c (· = r)) (hQ : Q r) : p.Meets c Q :=
  h.mono fun _ e => e ▸ hQ

/-! ### Reading -/

theorem pure {x : α} (h : Q (.success x c)) : (Behaviour.pure x).Meets c Q := fun _ => h

theorem fail {e : ParseError} (h : Q (.failure c.offset)) : (Behaviour.fail e).Meets c Q :=
  fun _ => h

theorem throw {t : Fault ε} (h : Q (.thrown t)) : (Behaviour.throw t).Meets c Q := fun _ => h

theorem position {Q : Verdict ε Nat → Prop} (h : Q (.success c.offset c)) :
    Behaviour.position.Meets c Q := fun _ => h

/-- Skipping characters that remain succeeds behind them. -/
theorem skip {x : α} {w : List Char} {d : Cursor} (hr : c.Reads w d) (h : Q (.success x d)) :
    (Behaviour.skip x w.length).Meets c Q := by
  intro s
  rw [skip_of_reads hr]
  exact h

/-- What is to hold is shown for the character that is read, and for the empty failure where there
is none. -/
theorem satisfy {accepts : Char → Bool} {Q : Verdict ε Char → Prop}
    (success : ∀ x d, c.Reads [x] d → accepts x = true → Q (.success x d))
    (failure : (∀ x d, c.Reads [x] d → accepts x = false) → Q (.failure c.offset)) :
    (Behaviour.satisfy accepts).Meets c Q := by
  intro s
  obtain ⟨x, d, hd, hx⟩ | absent := reads_or_absent accepts c
  · rw [satisfy_of_reads accepts hd hx]
    exact success x d hd hx
  · obtain ⟨e, he⟩ := satisfy_of_absent (ε := ε) accepts absent s
    rw [he]
    exact failure absent

/-- What is to hold is shown for the string that is read, and for the empty failure where it is not
there. -/
theorem string {text : String} {Q : Verdict ε String → Prop}
    (success : ∀ d, c.Reads text.toList d → Q (.success text d))
    (failure : (∀ d, ¬ c.Reads text.toList d) → Q (.failure c.offset)) :
    (Behaviour.string text).Meets c Q := by
  intro s
  by_cases h : ∃ d, c.Reads text.toList d
  · obtain ⟨d, hd⟩ := h
    rw [string_of_reads hd]
    exact success d hd
  · have absent : ¬ text.toList <+: c.remaining := fun starts =>
      h (Cursor.startsWith_iff_reads.mp ((c.startsWith_iff text).mpr starts))
    obtain ⟨e, he⟩ := string_of_absent (ε := ε) absent s
    rw [he]
    exact failure fun d hd => h ⟨d, hd⟩

/-! ### Composing -/

/-- It is enough for the first part to end where the second does what is wanted; what else it may
come to is the end. -/
theorem bind {f : α → Behaviour ε β} {Q : Verdict ε β → Prop}
    (h : p.Meets c (Verdict.Continues (fun x d => (f x).Meets d Q) Q)) :
    (Behaviour.bind p f).Meets c Q := by
  intro s
  have hp := h s
  unfold Behaviour.bind
  generalize p c s = reply at hp ⊢
  obtain ⟨o, s'⟩ := reply
  cases o with
  | success x d => exact hp s'
  | failure _ _ | thrown _ | exhausted => exact hp

/-- A function on the value may raise an exception in its place. -/
theorem map {f : α → Except ε β} {Q : Verdict ε β → Prop}
    (h : p.Meets c (Verdict.Continues (fun x d => Q (.ofAnswer d (f x))) Q)) :
    (Behaviour.map f p).Meets c Q := by
  intro s
  have hp := h s
  unfold Behaviour.map
  generalize p c s = reply at hp ⊢
  obtain ⟨o, s'⟩ := reply
  cases o with
  | success x d =>
      simp only [Outcome.verdict, Verdict.Continues] at hp ⊢
      cases hf : f x with
      | ok y => rwa [hf] at hp
      | error e => rwa [hf] at hp
  | failure _ _ | thrown _ | exhausted => exact hp

/-- What holds of the result holds of the value behind it, if it succeeds, and else of the same
verdict. -/
theorem of_map {f : α → Except ε β} {Q : Verdict ε β → Prop}
    (h : (Behaviour.map f p).Meets c Q) :
    p.Meets c (Verdict.Continues (fun x d => Q (.ofAnswer d (f x))) Q) := by
  intro s
  have hp := h s
  unfold Behaviour.map at hp
  generalize p c s = reply at hp ⊢
  obtain ⟨o, s'⟩ := reply
  cases o with
  | success x d =>
      simp only [Outcome.verdict, Verdict.Continues] at hp ⊢
      cases hf : f x with
      | ok y => rwa [hf] at hp
      | error e => rwa [hf] at hp
  | failure _ _ | thrown _ | exhausted => exact hp

/-- The function is read first and then its argument, and the exception that it may raise comes
last. -/
theorem apply {p : Behaviour ε (α → Except ε β)} {q : Behaviour ε α} {Q : Verdict ε β → Prop}
    (h : p.Meets c (Verdict.Continues (fun f d =>
      q.Meets d (Verdict.Continues (fun x e => Q (.ofAnswer e (f x))) Q)) Q)) :
    (Behaviour.apply p q).Meets c Q := by
  intro s
  have hp := h s
  unfold Behaviour.apply
  generalize p c s = reply at hp ⊢
  obtain ⟨o, s'⟩ := reply
  cases o with
  | success f d => exact map (hp : q.Meets d _) s'
  | failure _ _ | thrown _ | exhausted => exact hp

/-- Where the first part fails on the spot the second has to do what is wanted, from the same
cursor. -/
theorem alt {q : Behaviour ε α}
    (h : p.Meets c fun
      | .failure offset => if offset = c.offset then q.Meets c Q else Q (.failure offset)
      | r => Q r) :
    (Behaviour.alt p q).Meets c Q := by
  intro s
  have hp := h s
  unfold Behaviour.alt
  generalize p c s = reply at hp ⊢
  obtain ⟨o, s'⟩ := reply
  cases o with
  | failure offset error =>
      by_cases ho : offset = c.offset
      · simp only [Outcome.verdict, if_pos ho] at hp ⊢
        have hq := hp s'
        generalize q c s' = reply at hq ⊢
        obtain ⟨o', s''⟩ := reply
        cases o' with
        | success _ _ | failure _ _ | thrown _ | exhausted => exact hq
      · simp only [Outcome.verdict, if_neg ho] at hp ⊢
        exact hp
  | success _ _ | thrown _ | exhausted => exact hp

/-- A label changes words only. -/
theorem label {name : String} (h : p.Meets c Q) : (Behaviour.label p name).Meets c Q := by
  intro s
  have hp := h s
  unfold Behaviour.label
  generalize p c s = reply at hp ⊢
  obtain ⟨o, s'⟩ := reply
  cases o with
  | failure offset error =>
      by_cases ho : offset = c.offset
      · simp only [if_pos ho]; exact hp
      · simp only [if_neg ho]; exact hp
  | success _ _ | thrown _ | exhausted => exact hp

theorem suggest {x : Suggestion} (h : p.Meets c Q) : (Behaviour.suggest p x).Meets c Q := by
  intro s
  have hp := h s
  unfold Behaviour.suggest
  generalize p c s = reply at hp ⊢
  obtain ⟨o, s'⟩ := reply
  cases o with
  | failure offset error =>
      by_cases ho : offset = c.offset
      · simp only [if_pos ho]; exact hp
      · simp only [if_neg ho]; exact hp
  | success _ _ | thrown _ | exhausted => exact hp

/-- A failure, wherever it was, is one on the spot. -/
theorem attempt
    (h : p.Meets c fun
      | .failure _ => Q (.failure c.offset)
      | r => Q r) :
    (Behaviour.attempt p).Meets c Q := by
  intro s
  have hp := h s
  unfold Behaviour.attempt
  generalize p c s = reply at hp ⊢
  obtain ⟨o, s'⟩ := reply
  cases o with
  | success _ _ | failure _ _ | thrown _ | exhausted => exact hp

/-- A success, wherever it was, is one on the spot. -/
theorem lookAhead (h : p.Meets c (Verdict.Continues (fun x _ => Q (.success x c)) Q)) :
    (Behaviour.lookAhead p).Meets c Q := by
  intro s
  have hp := h s
  unfold Behaviour.lookAhead
  generalize p c s = reply at hp ⊢
  obtain ⟨o, s'⟩ := reply
  cases o with
  | success _ _ | failure _ _ | thrown _ | exhausted => exact hp

theorem notFollowedBy {shown : α → String} {Q : Verdict ε Unit → Prop}
    (h : p.Meets c fun
      | .success _ _ => Q (.failure c.offset)
      | .failure _ => Q (.success () c)
      | .thrown fault => Q (.thrown fault)
      | .exhausted => Q .exhausted) :
    (Behaviour.notFollowedBy shown p).Meets c Q := by
  intro s
  have hp := h s
  unfold Behaviour.notFollowedBy
  generalize p c s = reply at hp ⊢
  obtain ⟨o, s'⟩ := reply
  cases o with
  | success _ _ | failure _ _ | thrown _ | exhausted => exact hp

/-- A success on the spot is an empty failure. -/
theorem advancing
    (h : p.Meets c (Verdict.Continues (fun x d =>
      if d.offset = c.offset then Q (.failure c.offset) else Q (.success x d)) Q)) :
    (Behaviour.advancing p).Meets c Q := by
  intro s
  have hp := h s
  unfold Behaviour.advancing
  generalize p c s = reply at hp ⊢
  obtain ⟨o, s'⟩ := reply
  cases o with
  | success x d =>
      by_cases hd : d.offset = c.offset <;>
        simpa only [Outcome.verdict, Verdict.Continues, hd, if_true, if_false] using hp
  | failure _ _ | thrown _ | exhausted => exact hp

/-- One round of a repetition goes on behind an item that reads something, and ends the repetition
where there is none. -/
theorem item {next : α → σ} {last : β} {Q : Verdict ε (Step σ β) → Prop}
    (h : p.Meets c fun
      | .success x d =>
        if d.offset = c.offset then Q (.success (.done last) c)
        else Q (.success (.loop (next x)) d)
      | .failure offset =>
        if offset = c.offset then Q (.success (.done last) c) else Q (.failure offset)
      | .thrown fault => Q (.thrown fault)
      | .exhausted => Q .exhausted) :
    (Behaviour.alt (.map (fun x => .ok (.loop (next x))) (.advancing p))
      (.pure (.done last))).Meets c Q := by
  refine .alt (.map (.advancing (h.mono fun v hv => ?_)))
  cases v with
  | success x d =>
      show if d.offset = c.offset then _ else _
      split
      · next hd => simp only [if_pos hd] at hv; exact (if_pos rfl).mpr (.pure hv)
      · next hd => simp only [if_neg hd] at hv; exact hv
  | failure offset =>
      show if offset = c.offset then _ else _
      split
      · next ho => simp only [if_pos ho] at hv; exact .pure hv
      · next ho => simp only [if_neg ho] at hv; exact hv
  | thrown _ | exhausted => exact hv

/-- One round of a loop. -/
theorem round {step : σ → Behaviour ε (Step σ α)} {n : Nat} {state : σ}
    (h : (step state).Meets c (Verdict.Continues (fun answer d => match answer with
      | .loop state => Meets (Behaviour.loop step n state) d Q
      | .done result => Q (.success result d)
      | .stray shown => Q (.thrown (.strayStep shown))) Q)) :
    Meets (Behaviour.loop step (n + 1) state) c Q := by
  intro s
  have hs := h s
  unfold Behaviour.loop
  generalize step state c s = reply at hs ⊢
  obtain ⟨o, s'⟩ := reply
  cases o with
  | success answer d =>
      cases answer with
      | loop state' => exact (hs : Meets _ _ _) s'
      | done _ | stray _ => exact hs
  | failure _ _ | thrown _ | exhausted => exact hs

/-- The rule for loops.  `Inv n` holds of the state and the cursor of a loop with `n` rounds
left. -/
theorem loop {step : σ → Behaviour ε (Step σ α)} (Inv : Nat → σ → Cursor → Prop)
    (zero : ∀ state c, Inv 0 state c → Q .exhausted)
    (succ : ∀ n state c, Inv (n + 1) state c → (step state).Meets c
      (Verdict.Continues (fun answer d => match answer with
        | .loop state => Inv n state d
        | .done result => Q (.success result d)
        | .stray shown => Q (.thrown (.strayStep shown))) Q)) :
    ∀ (n : Nat) (state : σ) (c : Cursor), Inv n state c →
      Meets (Behaviour.loop step n state) c Q
  | 0, state, c, h => fun _ => zero state c h
  | n + 1, state, c, h => by
      refine round ((succ n state c h).mono fun r hr => ?_)
      cases r with
      | success answer d =>
          cases answer with
          | loop state' => exact loop Inv zero succ n state' d hr
          | done _ | stray _ => exact hr
      | failure _ | thrown _ | exhausted => exact hr

/-! ### Frames, traces and probes -/

/-- Whatever frame is opened, what is built in it has to do what is wanted. -/
theorem fresh {p : Frame → Behaviour ε α} (h : ∀ frame, (p frame).Meets c Q) :
    (Behaviour.fresh p).Meets c Q := fun _ => h _ _

theorem trace {name : String} {Q : Verdict ε Unit → Prop} (h : Q (.success () c)) :
    (Behaviour.trace name).Meets c Q := fun _ => h

/-- A trace changes words only. -/
theorem traced {name : String} (h : p.Meets c Q) : (Behaviour.traced name p).Meets c Q := by
  intro s
  have hp := h (s.log (c.traceLine name))
  unfold Behaviour.traced
  generalize p c (s.log (c.traceLine name)) = reply at hp ⊢
  obtain ⟨o, s'⟩ := reply
  cases o with
  | failure offset error =>
      by_cases ho : offset = c.offset
      · simp only [if_pos ho]; exact hp
      · simp only [if_neg ho]; exact hp
  | success _ _ | thrown _ | exhausted => exact hp

theorem visit {name : String} (h : p.Meets c Q) : (Behaviour.visit name p).Meets c Q :=
  fun _ => h _

end Meets

end Behaviour

end Parsing
