import Parsing.Parser.Character
import Parsing.Proofs.Fuel

/-!
# Where runs stop

`p.Stops W E T` says what a run of `p` leaves behind: where it succeeds, `W w r` holds of the text
`w` that it has read and the text `r` that remains; where it fails, `E u r` holds of the text `u`
before the offset of the failure and the text `r` behind it; and where it is broken off by a fault,
`T u` holds of some text `u` from where it began, which may be less than it has read.  Nothing is
said of values, nor of runs that lack fuel.

In a sequence the first part has read a word before the second stops (`Stops.bind`).  A choice goes
on to its second alternative where the first has read nothing (`Stops.alt`), and a repetition stops
behind items where another one has read nothing, or fails inside an item (`Stops.gather`).
-/

namespace Parsing

variable {ε α β σ : Type}

/-- What was read and what remains where a run from `c` has come to its end, and what had been read
where it was broken off. -/
def Verdict.Stopped (W E : List Char → List Char → Prop) (T : List Char → Prop) (c : Cursor) :
    Verdict ε α → Prop
  | .success _ d => ∃ w, c.Reads w d ∧ W w d.remaining
  | .failure offset => ∃ u d, c.Reads u d ∧ offset = d.offset ∧ E u d.remaining
  | .thrown _ => ∃ u d, c.Reads u d ∧ T u
  | .exhausted => True

namespace Behaviour

/-- Successes leave the text as `W` says, failures as `E` says and faults as `T` says. -/
def Stops (p : Behaviour ε α) (W E : List Char → List Char → Prop) (T : List Char → Prop) : Prop :=
  ∀ c, p.Meets c (Verdict.Stopped W E T c)

namespace Stops

variable {p : Behaviour ε α} {W W' E E' : List Char → List Char → Prop} {T T' : List Char → Prop}

/-- What is said of the places where a behaviour stops may be weakened. -/
theorem mono (h : p.Stops W E T) (hW : ∀ w r, W w r → W' w r) (hE : ∀ u r, E u r → E' u r)
    (hT : ∀ u, T u → T' u) : p.Stops W' E' T' := by
  refine fun c => (h c).mono fun v hv => ?_
  cases v with
  | success x d =>
      obtain ⟨w, hw, h⟩ := hv
      exact ⟨w, hw, hW w _ h⟩
  | failure offset =>
      obtain ⟨u, d, hu, ho, h⟩ := hv
      exact ⟨u, d, hu, ho, hE u _ h⟩
  | thrown fault =>
      obtain ⟨u, d, hu, h⟩ := hv
      exact ⟨u, d, hu, hT u h⟩
  | exhausted => trivial

/-- With less fuel a run ends as with more, or lacks it. -/
theorem of_below {q : Behaviour ε α} (h : p.Below q) (hq : q.Stops W E T) : p.Stops W E T := by
  intro c s
  by_cases lacks : (p c s).1 = .exhausted
  · rw [lacks]
    trivial
  · rw [← h c s lacks]
    exact hq c s

theorem here {c : Cursor} (h : E [] c.remaining) :
    (Verdict.failure c.offset : Verdict ε α).Stopped W E T c :=
  ⟨[], c, .refl c, rfl, h⟩

/-! ### Reading -/

theorem pure (x : α) (h : ∀ r, W [] r) : (Behaviour.pure x : Behaviour ε α).Stops W E T :=
  fun c => .pure ⟨[], .refl c, h _⟩

/-- A test of one character stops behind a character that passes, or at one that does not. -/
theorem satisfy {accepts : Char → Bool} (success : ∀ x r, accepts x = true → W [x] r)
    (failure : ∀ r, (∀ x ∈ r.head?, accepts x = false) → E [] r) :
    (Behaviour.satisfy accepts : Behaviour ε Char).Stops W E T := by
  refine fun c => .satisfy (fun x d hd hx => ⟨[x], hd, success x _ hx⟩) fun none => ?_
  refine here (failure _ fun x hx => ?_)
  obtain ⟨r, hr⟩ := List.head?_eq_some_iff.mp hx
  obtain ⟨d, hd, -⟩ := Cursor.Reads.of_append (w := [x]) (r := r) hr
  exact none x d hd

/-- A string is read as a whole or not at all. -/
theorem string {text : String} (success : ∀ r, W text.toList r) (failure : ∀ r, E [] r) :
    (Behaviour.string text : Behaviour ε String).Stops W E T :=
  fun _ => .string (fun _ hd => ⟨text.toList, hd, success _⟩) fun _ => here (failure _)

/-! ### Composing -/

theorem label (h : p.Stops W E T) (name : String) : (Behaviour.label p name).Stops W E T :=
  fun c => .label (h c)

theorem suggest (h : p.Stops W E T) (x : Suggestion) : (Behaviour.suggest p x).Stops W E T :=
  fun c => .suggest (h c)

theorem fresh {p : Frame → Behaviour ε α} (h : ∀ frame, (p frame).Stops W E T) :
    (Behaviour.fresh p).Stops W E T :=
  fun c => .fresh fun frame => h frame c

/-- A function that raises nothing changes only the value. -/
theorem map {f : α → β} (h : p.Stops W E T) :
    (Behaviour.map (fun x => .ok (f x)) p).Stops W E T := by
  refine fun c => .map ((h c).mono fun v hv => ?_)
  cases v with
  | success _ _ | failure _ | thrown _ => exact hv
  | exhausted => trivial

/-- The first part is seen with what the second one reads behind it, so that what is said of it may
look ahead. -/
theorem bind {f : α → Behaviour ε β} {W₁ W₂ E₁ E₂ : List Char → List Char → Prop}
    {T₂ : List Char → Prop} (hp : p.Stops W₁ E₁ T) (hf : ∀ x, (f x).Stops W₂ E₂ T₂)
    (success : ∀ u v r, W₁ u (v ++ r) → W₂ v r → W (u ++ v) r)
    (first : ∀ u r, E₁ u r → E u r)
    (second : ∀ w u r, W₁ w (u ++ r) → E₂ u r → E (w ++ u) r)
    (fault : ∀ w u r, W₁ w (u ++ r) → T₂ u → T (w ++ u)) :
    (Behaviour.bind p f).Stops W E T := by
  refine fun c => .bind ((hp c).mono fun v hv => ?_)
  cases v with
  | success x d =>
      obtain ⟨w, hw, h₁⟩ := hv
      refine (hf x d).mono fun v hv => ?_
      cases v with
      | success y e =>
          obtain ⟨w', hw', h₂⟩ := hv
          exact ⟨w ++ w', hw.trans hw', success w w' _ (hw'.2 ▸ h₁) h₂⟩
      | failure offset =>
          obtain ⟨u, e, hu, ho, h₂⟩ := hv
          exact ⟨w ++ u, e, hw.trans hu, ho, second w u _ (hu.2 ▸ h₁) h₂⟩
      | thrown _ =>
          obtain ⟨u, e, hu, h₂⟩ := hv
          exact ⟨w ++ u, e, hw.trans hu, fault w u _ (hu.2 ▸ h₁) h₂⟩
      | exhausted => trivial
  | failure offset =>
      obtain ⟨u, d, hu, ho, h₁⟩ := hv
      exact ⟨u, d, hu, ho, first u _ h₁⟩
  | thrown _ => exact hv
  | exhausted => trivial

/-- Where the first part has read nothing the second decides, and it is known that the first has
failed there. -/
theorem alt {q : Behaviour ε α} {E₁ E₂ : List Char → List Char → Prop} (hp : p.Stops W E₁ T)
    (hq : q.Stops W E₂ T) (first : ∀ u r, u ≠ [] → E₁ u r → E u r)
    (second : ∀ u r, E₁ [] (u ++ r) → E₂ u r → E u r) : (Behaviour.alt p q).Stops W E T := by
  refine fun c => .alt ((hp c).mono fun v hv => ?_)
  cases v with
  | success x d => exact hv
  | failure offset =>
      obtain ⟨u, d, hu, rfl, h₁⟩ := hv
      show if (d.offset : Int) = c.offset then _ else _
      split
      · next ho =>
          obtain rfl : u = [] := hu.eq_nil_iff.mpr (Int.ofNat_inj.mp ho)
          cases Cursor.Reads.nil_iff.mp hu
          refine (hq c).mono fun v hv => ?_
          cases v with
          | failure offset =>
              obtain ⟨u, d, hu, ho, h₂⟩ := hv
              exact ⟨u, d, hu, ho, second u _ (hu.2 ▸ h₁) h₂⟩
          | success _ _ | thrown _ => exact hv
          | exhausted => trivial
      · next ho =>
          exact ⟨u, d, hu, rfl, first u _ (fun h => ho (by rw [hu.eq_nil_iff.mp h])) h₁⟩
  | thrown _ => exact hv
  | exhausted => trivial

/-- A repetition.  `I` holds of what has been read before each round. -/
theorem gather (next : σ → α → σ) {I : List Char → Prop} (hp : p.Stops W E T) (nil : I [])
    (more : ∀ u w r, I u → W w r → I (u ++ w)) (fault : ∀ w u, I w → T u → T' (w ++ u))
    (rounds : Nat) (initial : σ) :
    Stops (Behaviour.loop (fun state =>
        .alt (.map (fun x => .ok (.loop (next state x))) (.advancing p)) (.pure (.done state)))
        rounds initial)
      (fun w r => I w ∧ (E [] r ∨ W [] r))
      (fun u r => ∃ w v, u = w ++ v ∧ v ≠ [] ∧ I w ∧ E v r) T' := by
  intro c
  refine Meets.loop (fun _ _ d => ∃ w, c.Reads w d ∧ I w) (fun _ _ _ => trivial) ?_ rounds initial c
    ⟨[], .refl c, nil⟩
  rintro _ state d ⟨w, hw, hI⟩
  refine .item ((hp d).mono fun v hv => ?_)
  cases v with
  | success x e =>
      obtain ⟨w', hw', h⟩ := hv
      show if e.offset = d.offset then _ else _
      split
      · next he =>
          obtain rfl : w' = [] := hw'.eq_nil_iff.mpr he
          cases Cursor.Reads.nil_iff.mp hw'
          exact ⟨w, hw, hI, .inr h⟩
      · exact ⟨w ++ w', hw.trans hw', more w w' _ hI h⟩
  | failure offset =>
      obtain ⟨u, e, hu, rfl, h⟩ := hv
      show if (e.offset : Int) = d.offset then _ else _
      split
      · next he =>
          obtain rfl : u = [] := hu.eq_nil_iff.mpr (Int.ofNat_inj.mp he)
          cases Cursor.Reads.nil_iff.mp hu
          exact ⟨w, hw, hI, .inl h⟩
      · next he =>
          refine ⟨w ++ u, e, hw.trans hu, rfl, w, u, rfl, fun h => he ?_, hI, h⟩
          rw [hu.eq_nil_iff.mp h]
  | thrown _ =>
      obtain ⟨u, e, hu, h⟩ := hv
      exact ⟨w ++ u, e, hw.trans hu, fault w u hI h⟩
  | exhausted => trivial

end Stops

end Behaviour

/-! ### Characters -/

open Behaviour (Stops)

namespace Parser

variable {ρ : Type → Type} {enter : {α : Type} → Cell → ρ α → Behaviour ε α} {rounds : Nat}
  {T : List Char → Prop}

/-- A character fails only where another one stands, or none. -/
theorem char_stops (x : Char) : Stops ((char x : Parser ε ρ Char).behaviour enter rounds)
    (fun w _ => w = [x]) (fun u r => u = [] ∧ ∀ y ∈ r.head?, y ≠ x) T := by
  refine .suggest (.label (.satisfy (fun y _ hy => ?_) fun r hr => ⟨rfl, fun y hy => ?_⟩) _) _
  · simp only [String.toList_singleton, beq_iff_eq, List.cons.injEq, and_true] at hy
    rw [hy]
  · have hxy := hr y hy
    simp only [String.toList_singleton, beq_eq_false_iff_ne, ne_eq, List.cons.injEq,
      and_true] at hxy
    exact Ne.symm hxy

end Parser

end Parsing
