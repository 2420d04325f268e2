import Parsing.Proofs.Fuel

/-!
# Runs in lockstep

A `Comparison` says what two runs have in common at every moment: how the places compare where they
are, the offsets at which they fail, their errors, and the sessions that they go through.
Behaviours are *in step* (`InStep`) if from places and sessions that compare they give replies that
compare.  Every operation of the algebra keeps that: it decides what to do next by the value of a
success, and by whether an offset is that of the place where it was entered, and `Comparison`
asks that both runs see the same of these.

Comparisons of runs at the same place that differ in their sessions only are `exact`.
-/

namespace Parsing

variable {ε α β σ : Type}

/-- What two runs have in common. -/
structure Comparison where
  /-- The places where the runs are. -/
  cursor : Cursor → Cursor → Prop
  /-- The offsets at which they fail. -/
  offset : Int → Int → Prop
  error : ParseError → ParseError → Prop
  session : Session → Session → Prop
  /-- The sessions that runs leave which are exhausted. -/
  cut : Session → Session → Prop
  offset_self {c c' : Cursor} : cursor c c' → offset c.offset c'.offset
  offset_iff {c c' : Cursor} {o o' : Int} : cursor c c' → offset o o' →
    (o = c.offset ↔ o' = c'.offset)
  error_self (e : ParseError) : error e e
  error_label {e e' : ParseError} (message : String) : error e e' →
    error ⟨message, e.suggestions⟩ ⟨message, e'.suggestions⟩
  error_after {e e' f f' : ParseError} : error e e' → error f f' →
    error (e.withSuggestions f.suggestions) (e'.withSuggestions f'.suggestions)
  cut_of_session {s t : Session} : session s t → cut s t

namespace Comparison

/-- Runs at the same place, with the same errors. -/
def exact (session cut : Session → Session → Prop) (h : ∀ s t, session s t → cut s t) :
    Comparison where
  cursor := Eq
  offset := Eq
  error := Eq
  session := session
  cut := cut
  offset_self := by rintro _ _ rfl; rfl
  offset_iff := by rintro _ _ _ _ rfl rfl; rfl
  error_self _ := rfl
  error_label := by rintro _ _ _ rfl; rfl
  error_after := by rintro _ _ _ _ rfl rfl; rfl
  cut_of_session := h _ _

variable (L : Comparison)

/-- The runs end in the same way, with the same value or exception. -/
inductive Reply : Outcome ε α × Session → Outcome ε α × Session → Prop where
  | success (x : α) {d d' : Cursor} {s t : Session} (hd : L.cursor d d') (h : L.session s t) :
      Reply (.success x d, s) (.success x d', t)
  | failure {o o' : Int} {e e' : ParseError} {s t : Session} (ho : L.offset o o')
      (he : L.error e e') (h : L.session s t) : Reply (.failure o e, s) (.failure o' e', t)
  | thrown (fault : Fault ε) {s t : Session} (h : L.session s t) :
      Reply (.thrown fault, s) (.thrown fault, t)
  | exhausted {s t : Session} (h : L.cut s t) : Reply (.exhausted, s) (.exhausted, t)

/-- From places and sessions that compare, the replies compare. -/
def InStep (p q : Behaviour ε α) : Prop :=
  ∀ c c' s t, L.cursor c c' → L.session s t → L.Reply (p c s) (q c' t)

variable {L}

namespace InStep

variable {p p' : Behaviour ε α}

/-! In each of the rules the replies of the parts are taken apart together, so that only the cases
remain in which both ended in the same way. -/

/-- A function is applied to the same value on both sides, with the same exception or none. -/
theorem map {f : α → Except ε β} (hp : L.InStep p p') :
    L.InStep (Behaviour.map f p) (Behaviour.map f p') := by
  intro c c' s t hc hs
  have h := hp c c' s t hc hs
  simp only [Behaviour.map]
  generalize p c s = r, p' c' t = r' at h ⊢
  cases h with
  | success x hd h =>
      simp only
      cases f x with
      | ok y => exact .success y hd h
      | error e => exact .thrown (.raised e) h
  | failure ho he h => exact .failure ho he h
  | thrown fault h => exact .thrown fault h
  | exhausted h => exact .exhausted h

/-- The second parts are entered where the first ones have ended, which are places that compare. -/
theorem bind {f f' : α → Behaviour ε β} (hp : L.InStep p p') (hf : ∀ x, L.InStep (f x) (f' x)) :
    L.InStep (Behaviour.bind p f) (Behaviour.bind p' f') := by
  intro c c' s t hc hs
  have h := hp c c' s t hc hs
  simp only [Behaviour.bind]
  generalize p c s = r, p' c' t = r' at h ⊢
  cases h with
  | success x hd h => exact hf x _ _ _ _ hd h
  | failure ho he h => exact .failure ho he h
  | thrown fault h => exact .thrown fault h
  | exhausted h => exact .exhausted h

theorem apply {p p' : Behaviour ε (α → Except ε β)} {q q' : Behaviour ε α} (hp : L.InStep p p')
    (hq : L.InStep q q') : L.InStep (Behaviour.apply p q) (Behaviour.apply p' q') := by
  rw [Behaviour.apply_eq_bind, Behaviour.apply_eq_bind]
  exact hp.bind fun _ => hq.map

/-- A failure is empty on both sides or on neither, so that both try the second part or both do
not. -/
theorem alt {q q' : Behaviour ε α} (hp : L.InStep p p') (hq : L.InStep q q') :
    L.InStep (Behaviour.alt p q) (Behaviour.alt p' q') := by
  intro c c' s t hc hs
  have h := hp c c' s t hc hs
  simp only [Behaviour.alt]
  generalize p c s = r, p' c' t = r' at h ⊢
  cases h with
  | success x hd h => exact .success x hd h
  | thrown fault h => exact .thrown fault h
  | exhausted h => exact .exhausted h
  | @failure o o' e e' s t ho he h =>
      by_cases hoc : o = c.offset
      · -- Both runs go on to their second alternative, since both failed empty.
        simp only [if_pos hoc, if_pos ((L.offset_iff hc ho).mp hoc)]
        have h' := hq c c' s t hc h
        generalize q c s = r, q' c' t = r' at h' ⊢
        cases h' with
        | success x hd h => exact .success x hd h
        | failure ho' he' h => exact .failure ho' (L.error_after he' he) h
        | thrown fault h => exact .thrown fault h
        | exhausted h => exact .exhausted h
      · simp only [if_neg hoc, if_neg (mt (L.offset_iff hc ho).mpr hoc)]
        exact .failure ho he h

/-- A label replaces the message of an empty failure on both sides. -/
theorem label (hp : L.InStep p p') (name : String) :
    L.InStep (Behaviour.label p name) (Behaviour.label p' name) := by
  intro c c' s t hc hs
  have h := hp c c' s t hc hs
  simp only [Behaviour.label]
  generalize p c s = r, p' c' t = r' at h ⊢
  cases h with
  | @failure o o' e e' s t ho he h =>
      by_cases hoc : o = c.offset
      · simp only [if_pos hoc, if_pos ((L.offset_iff hc ho).mp hoc)]
        exact .failure ho (L.error_label _ he) h
      · simp only [if_neg hoc, if_neg (mt (L.offset_iff hc ho).mpr hoc)]
        exact .failure ho he h
  | success x hd h => exact .success x hd h
  | thrown fault h => exact .thrown fault h
  | exhausted h => exact .exhausted h

theorem suggest (hp : L.InStep p p') (x : Suggestion) :
    L.InStep (Behaviour.suggest p x) (Behaviour.suggest p' x) := by
  intro c c' s t hc hs
  have h := hp c c' s t hc hs
  simp only [Behaviour.suggest]
  generalize p c s = r, p' c' t = r' at h ⊢
  cases h with
  | @failure o o' e e' s t ho he h =>
      by_cases hoc : o = c.offset
      · simp only [if_pos hoc, if_pos ((L.offset_iff hc ho).mp hoc)]
        exact .failure ho (L.error_after he (L.error_self ⟨"", [x]⟩)) h
      · simp only [if_neg hoc, if_neg (mt (L.offset_iff hc ho).mpr hoc)]
        exact .failure ho he h
  | success x hd h => exact .success x hd h
  | thrown fault h => exact .thrown fault h
  | exhausted h => exact .exhausted h

theorem attempt (hp : L.InStep p p') :
    L.InStep (Behaviour.attempt p) (Behaviour.attempt p') := by
  intro c c' s t hc hs
  have h := hp c c' s t hc hs
  simp only [Behaviour.attempt]
  generalize p c s = r, p' c' t = r' at h ⊢
  cases h with
  | failure _ he h => exact .failure (L.offset_self hc) he h
  | success x hd h => exact .success x hd h
  | thrown fault h => exact .thrown fault h
  | exhausted h => exact .exhausted h

theorem lookAhead (hp : L.InStep p p') :
    L.InStep (Behaviour.lookAhead p) (Behaviour.lookAhead p') := by
  intro c c' s t hc hs
  have h := hp c c' s t hc hs
  simp only [Behaviour.lookAhead]
  generalize p c s = r, p' c' t = r' at h ⊢
  cases h with
  | success x _ h => exact .success x hc h
  | failure ho he h => exact .failure ho he h
  | thrown fault h => exact .thrown fault h
  | exhausted h => exact .exhausted h

/-- Success and failure change places on both sides. -/
theorem notFollowedBy {shown : α → String} (hp : L.InStep p p') :
    L.InStep (Behaviour.notFollowedBy shown p) (Behaviour.notFollowedBy shown p') := by
  intro c c' s t hc hs
  have h := hp c c' s t hc hs
  simp only [Behaviour.notFollowedBy]
  generalize p c s = r, p' c' t = r' at h ⊢
  cases h with
  | success _ _ h => exact .failure (L.offset_self hc) (L.error_self _) h
  | failure _ _ h => exact .success () hc h
  | thrown fault h => exact .thrown fault h
  | exhausted h => exact .exhausted h

theorem advancing (hp : L.InStep p p') :
    L.InStep (Behaviour.advancing p) (Behaviour.advancing p') := by
  intro c c' s t hc hs
  have h := hp c c' s t hc hs
  simp only [Behaviour.advancing]
  generalize p c s = r, p' c' t = r' at h ⊢
  cases h with
  | @success x d d' s t hd h =>
      -- Whether something was read is seen by the offset, as whether a failure is empty.
      have same : d.offset = c.offset ↔ d'.offset = c'.offset := by
        have := L.offset_iff hc (L.offset_self hd)
        rwa [Int.ofNat_inj, Int.ofNat_inj] at this
      by_cases hdc : d.offset = c.offset
      · simp only [if_pos hdc, if_pos (same.mp hdc)]
        exact .failure (L.offset_self hc) (L.error_self _) h
      · simp only [if_neg hdc, if_neg (mt same.mpr hdc)]
        exact .success x hd h
  | failure ho he h => exact .failure ho he h
  | thrown fault h => exact .thrown fault h
  | exhausted h => exact .exhausted h

/-- In each round both loops go on with the same state, or both are done. -/
theorem loop {step step' : σ → Behaviour ε (Step σ α)}
    (hstep : ∀ state, L.InStep (step state) (step' state)) (n : Nat) :
    ∀ state, L.InStep (Behaviour.loop step n state) (Behaviour.loop step' n state) := by
  induction n with
  | zero => exact fun _ _ _ _ _ _ hs => .exhausted (L.cut_of_session hs)
  | succ n ih =>
      intro state c c' s t hc hs
      have h := hstep state c c' s t hc hs
      simp only [Behaviour.loop]
      generalize step state c s = r, step' state c' t = r' at h ⊢
      cases h with
      | success answer hd h =>
          cases answer with
          | loop state' => exact ih state' _ _ _ _ hd h
          | done x => exact .success x hd h
          | stray shown => exact .thrown (.strayStep shown) h
      | failure ho he h => exact .failure ho he h
      | thrown fault h => exact .thrown fault h
      | exhausted h => exact .exhausted h

/-- A probe may have another name on the other side, if the sessions still compare. -/
theorem visit {name name' : String} (hp : L.InStep p p')
    (record : ∀ {c c' s t}, L.cursor c c' → L.session s t →
      L.session (s.record (.visited name c.offset)) (t.record (.visited name' c'.offset))) :
    L.InStep (Behaviour.visit name p) (Behaviour.visit name' p') :=
  fun _ _ _ _ hc hs => hp _ _ _ _ hc (record hc hs)

end InStep

/-! ### Runs at the same place -/

section

variable {session cut : Session → Session → Prop} {h : ∀ s t, session s t → cut s t}

/-- One outcome compares with itself, if the sessions do. -/
theorem Reply.of_session {s t : Session} (o : Outcome ε α) (hs : session s t) :
    (exact session cut h).Reply (o, s) (o, t) := by
  cases o with
  | success x d => exact .success x rfl hs
  | failure offset e => exact .failure rfl rfl hs
  | thrown fault => exact .thrown fault hs
  | exhausted => exact .exhausted (h s t hs)

/-- Sessions that compare may be shown to compare in another way as well. -/
theorem Reply.imp {session' cut' : Session → Session → Prop}
    {h' : ∀ s t, session' s t → cut' s t} {r r' : Outcome ε α × Session}
    (hr : (exact session cut h).Reply r r') (hs : ∀ {s t}, session s t → session' s t)
    (hc : ∀ {s t}, cut s t → cut' s t) : (exact session' cut' h').Reply r r' := by
  cases hr with
  | success x hd h => exact .success x hd (hs h)
  | failure ho he h => exact .failure ho he (hs h)
  | thrown fault h => exact .thrown fault (hs h)
  | exhausted h => exact .exhausted (hc h)

/-- At the same place, runs in lockstep come to the same outcome. -/
theorem Reply.outcome_eq {r r' : Outcome ε α × Session}
    (hr : (exact session cut h).Reply r r') : r.1 = r'.1 := by
  cases hr with
  | success x hd _ => rw [show _ = _ from hd]
  | failure ho he _ => rw [show _ = _ from ho, show _ = _ from he]
  | thrown _ _ | exhausted _ => rfl

/-- Only where runs are exhausted may the sessions be less alike. -/
theorem Reply.session_of_ended {r r' : Outcome ε α × Session}
    (hr : (exact session cut h).Reply r r') (ended : r.1 ≠ .exhausted) : session r.2 r'.2 := by
  cases hr with
  | success _ _ hs | failure _ _ hs | thrown _ hs => exact hs
  | exhausted _ => exact absurd rfl ended

/-- What a parser does that leaves the session alone, and does not look at it. -/
theorem inStep_of_answer (answer : Cursor → Outcome ε α) :
    (exact session cut h).InStep (fun c s => (answer c, s)) fun c s => (answer c, s) := by
  rintro c _ s t rfl hs
  exact .of_session _ hs

theorem inStep_skip (x : α) (n : Int) :
    (exact session cut h).InStep (ε := ε) (Behaviour.skip x n) (Behaviour.skip x n) := by
  rintro c _ s t rfl hs
  simp only [Behaviour.skip]
  split
  · exact .of_session _ hs
  · exact .of_session _ hs

/-- A test of one character leaves the session alone. -/
theorem inStep_satisfy (accepts : Char → Bool) :
    (exact session cut h).InStep (ε := ε) (Behaviour.satisfy accepts)
      (Behaviour.satisfy accepts) := by
  rintro c _ s t rfl hs
  simp only [Behaviour.satisfy]
  split
  · exact .of_session _ hs
  · split
    · exact inStep_skip _ 1 _ _ _ _ rfl hs
    · exact .of_session _ hs

theorem inStep_string (text : String) :
    (exact session cut h).InStep (ε := ε) (Behaviour.string text) (Behaviour.string text) := by
  rintro c _ s t rfl hs
  simp only [Behaviour.string]
  split
  · exact inStep_skip _ _ _ _ _ _ rfl hs
  · exact .of_session _ hs

section

variable (log : ∀ {s t} (message : String), session s t → session (s.log message) (t.log message))

include log

/-- A trace logs the same line on both sides. -/
theorem inStep_trace (name : String) :
    (exact session cut h).InStep (ε := ε) (Behaviour.trace name) (Behaviour.trace name) := by
  rintro c _ s t rfl hs
  exact .success () rfl (log _ hs)

/-- So does a trace around a parser, for failures that are the same. -/
theorem InStep.traced {p p' : Behaviour ε α} (hp : (exact session cut h).InStep p p')
    (name : String) :
    (exact session cut h).InStep (Behaviour.traced name p) (Behaviour.traced name p') := by
  rintro c _ s t rfl hs
  have hr := hp c c _ _ rfl (log (c.traceLine name) hs)
  simp only [Behaviour.traced]
  generalize p c (s.log (c.traceLine name)) = r, p' c (t.log (c.traceLine name)) = r' at hr ⊢
  cases hr with
  | @failure o o' e e' s t ho he hs =>
      obtain rfl : o = o' := ho
      obtain rfl : e = e' := he
      by_cases hoc : o = c.offset
      · simp only [if_pos hoc]
        exact .failure rfl rfl (log _ hs)
      · simp only [if_neg hoc]
        exact .failure rfl rfl (log _ hs)
  | success x hd hs => exact .success x hd hs
  | thrown fault hs => exact .thrown fault hs
  | exhausted hs => exact .exhausted hs

end

end

end Comparison

end Parsing
