import Parsing.Proofs.Composed
import Parsing.Proofs.Fuel

/-!
# Parsers stay within their text

A composed parser that is run from a cursor `c` gets to a cursor of the same text that is not
before `c`, or fails at the offset of such a cursor, and it never moves a cursor out of the text
(`run_stays_within`).  The statement is one invariant, `Verdict.Within c`, that every operation
keeps; a loop keeps it because the cursor of each round is reached from the one before
(`Behaviour.Bounded.loop`).
-/

namespace Parsing

variable {ε : Type} {ρ : Type → Type} {α β σ : Type}

open Behaviour (Meets)

/-- The run got to a cursor reached from `c`, or failed at the offset of one; no cursor was moved
out of the text. -/
def Verdict.Within (c : Cursor) : Verdict ε α → Prop
  | .success _ d => c.Reaches d
  | .failure offset => ∃ d, c.Reaches d ∧ offset = d.offset
  | .thrown (.outOfRange _) => False
  | .thrown _ | .exhausted => True

namespace Verdict.Within

variable {c d : Cursor}

theorem here (c : Cursor) : (Verdict.failure c.offset : Verdict ε α).Within c :=
  ⟨c, .refl c, rfl⟩

/-- What is within the text behind a later cursor is so behind an earlier one. -/
theorem of_reaches (hd : c.Reaches d) {r : Verdict ε α} (h : r.Within d) : r.Within c := by
  cases r with
  | success x e => exact hd.trans h
  | failure offset =>
      obtain ⟨e, he, ho⟩ := h
      exact ⟨e, hd.trans he, ho⟩
  | thrown fault => cases fault <;> exact h
  | exhausted => trivial

/-- A success goes on from a cursor that is reached, and every other verdict is one of the whole. -/
theorem continues {k : α → Cursor → Prop} {r : Verdict ε α} (h : r.Within c)
    (hk : ∀ x d, c.Reaches d → k x d) : r.Continues k (Within (α := β) c) := by
  cases r with
  | success x d => exact hk x d h
  | failure offset => exact h
  | thrown fault => cases fault <;> exact h
  | exhausted => trivial

theorem ofAnswer (hd : c.Reaches d) (answer : Except ε α) : (ofAnswer d answer).Within c := by
  cases answer with
  | ok x => exact hd
  | error e => trivial

end Verdict.Within

namespace Behaviour

/-- From every cursor the behaviour stays within the text behind it. -/
def Bounded (p : Behaviour ε α) : Prop := ∀ c, p.Meets c (Verdict.Within c)

namespace Bounded

variable {p : Behaviour ε α}

theorem map {f : α → Except ε β} (hp : p.Bounded) : (Behaviour.map f p).Bounded := fun c =>
  .map ((hp c).mono fun _ h => h.continues fun _ _ hd => .ofAnswer hd _)

/-- The second part is entered at a cursor that the first has reached. -/
theorem bind {f : α → Behaviour ε β} (hp : p.Bounded) (hf : ∀ x, (f x).Bounded) :
    (Behaviour.bind p f).Bounded := fun c =>
  .bind ((hp c).mono fun _ h => h.continues fun x d hd =>
    (hf x d).mono fun _ h => .of_reaches hd h)

theorem apply {p : Behaviour ε (α → Except ε β)} {q : Behaviour ε α} (hp : p.Bounded)
    (hq : q.Bounded) : (Behaviour.apply p q).Bounded := fun c =>
  .apply ((hp c).mono fun _ h => h.continues fun _ d hd =>
    (hq d).mono fun _ h => Verdict.Within.continues (.of_reaches hd h) fun _ _ he =>
      .ofAnswer he _)

/-- Both parts are entered at the same cursor. -/
theorem alt {q : Behaviour ε α} (hp : p.Bounded) (hq : q.Bounded) :
    (Behaviour.alt p q).Bounded := by
  intro c
  refine .alt ((hp c).mono fun r h => ?_)
  -- Both alternatives start at `c`, so nothing is to be shown about the choice between them.
  cases r with
  | failure offset =>
      show if offset = c.offset then _ else _
      split
      · exact hq c
      · exact h
  | success _ _ | thrown _ | exhausted => exact h

/-- A failure is taken back to where the parser was entered, which is within the text. -/
theorem attempt (hp : p.Bounded) : (Behaviour.attempt p).Bounded := by
  intro c
  refine .attempt ((hp c).mono fun r h => ?_)
  cases r with
  | failure offset => exact .here c
  | success _ _ | thrown _ | exhausted => exact h

theorem lookAhead (hp : p.Bounded) : (Behaviour.lookAhead p).Bounded := fun c =>
  .lookAhead ((hp c).mono fun _ h => h.continues fun _ _ _ => .refl c)

theorem notFollowedBy {shown : α → String} (hp : p.Bounded) :
    (Behaviour.notFollowedBy shown p).Bounded := by
  intro c
  refine .notFollowedBy ((hp c).mono fun r h => ?_)
  cases r with
  | success _ _ => exact .here c
  | failure _ => exact .refl c
  | thrown fault => cases fault <;> exact h
  | exhausted => trivial

/-- A success on the spot becomes a failure there. -/
theorem advancing (hp : p.Bounded) : (Behaviour.advancing p).Bounded := by
  intro c
  refine .advancing ((hp c).mono fun r h => h.continues fun x d hd => ?_)
  split
  · exact .here c
  · exact hd

/-- The invariant of a loop: the cursor of every round is reached from the one it started at. -/
theorem loop {step : σ → Behaviour ε (Step σ α)} (h : ∀ state, (step state).Bounded) (n : Nat)
    (initial : σ) : Bounded (Behaviour.loop step n initial) := by
  intro c
  refine Meets.loop (fun _ _ d => c.Reaches d) (fun _ _ _ => trivial) ?_ n initial c (.refl c)
  intro _ state d hd
  refine (h state d).mono fun r hr => (Verdict.Within.of_reaches hd hr).continues ?_
  intro answer e he
  cases answer with
  | loop _ | done _ => exact he
  | stray _ => trivial

end Bounded

end Behaviour

open Behaviour (Bounded)

/-- A composed parser stays within the text if the deferred parsers it enters do. -/
theorem Parser.behaviour_bounded {enter : {α : Type} → Cell → ρ α → Behaviour ε α}
    (he : ∀ {α : Type} (cell : Cell) (rule : ρ α), (enter cell rule).Bounded) (n : Nat) :
    ∀ {α : Type} (p : Parser ε ρ α), p.Composed → (p.behaviour enter n).Bounded
  | _, .pure _, _ => fun c => .pure (.refl c)
  | _, .fail _, _ => fun c => .fail (.here c)
  | _, .raise _, _ => fun _ => .throw trivial
  | _, .satisfy _, _ => fun c => .satisfy (fun x _ hd _ => ⟨[x], hd⟩) fun _ => .here c
  | _, .string text, _ => fun c => .string (fun _ hd => ⟨text.toList, hd⟩) fun _ => .here c
  | _, .position, _ => fun c => .position (.refl c)
  | _, .mapM _ p, h => (behaviour_bounded he n p h).map
  | _, .applyM p q, h => (behaviour_bounded he n p h.1).apply (behaviour_bounded he n q h.2)
  | _, .bind p f, h =>
      (behaviour_bounded he n p h.1).bind fun x => behaviour_bounded he n (f x) (h.2 x)
  | _, .alt p q, h => (behaviour_bounded he n p h.1).alt (behaviour_bounded he n q h.2)
  | _, .label p _, h => fun c => .label (behaviour_bounded he n p h c)
  | _, .suggest p _, h => fun c => .suggest (behaviour_bounded he n p h c)
  | _, .attempt p, h => (behaviour_bounded he n p h).attempt
  | _, .lookAhead p, h => (behaviour_bounded he n p h).lookAhead
  | _, .notFollowedBy _ p, h => (behaviour_bounded he n p h).notFollowedBy
  | _, .advancing p, h => (behaviour_bounded he n p h).advancing
  | _, .tailRec step initial, h =>
      .loop (fun state => behaviour_bounded he n (step state) (h state)) n initial
  | _, .deferred cell rule, _ => he cell rule
  | _, .fresh p, h => fun c => .fresh fun frame => behaviour_bounded he n (p frame) (h frame) c
  | _, .trace _, _ => fun c => .trace (.refl c)
  | _, .traced _ p, h => fun c => .traced (behaviour_bounded he n p h c)
  | _, .visit _ p, h => fun c => .visit (behaviour_bounded he n p h c)

namespace Grammar

variable {g : Grammar ε ρ}

/-- What is built for a rule is composed, and runs with less fuel. -/
theorem Composed.entered_bounded (hg : g.Composed) :
    ∀ (fuel : Nat) {α : Type} (cell : Cell) (rule : ρ α), (g.entered fuel cell rule).Bounded
  | 0, _, _, _ => fun _ _ => trivial
  | fuel + 1, _, _, rule => by
      intro c
      refine enter_meets (fun frame p hp => ?_) fun _ _ _ => trivial
      rw [run_eq]
      exact p.behaviour_bounded (hg.entered_bounded fuel) fuel (hg rule frame p hp) c

/-- So every run of a composed parser is bounded. -/
theorem Composed.run_bounded (hg : g.Composed) (fuel : Nat) {p : Parser ε ρ α}
    (hp : p.Composed) : (g.run fuel p).Bounded := by
  rw [run_eq]
  exact p.behaviour_bounded (hg.entered_bounded fuel) fuel hp

/-- **Parsers stay within their text.**  A run of a composed parser from `c` that succeeds gets to
a cursor of the same text at an offset between that of `c` and the end; one that fails does so at
an offset between those; and none moves a cursor out of the text. -/
theorem run_stays_within (hg : g.Composed) {p : Parser ε ρ α} (hp : p.Composed) (fuel : Nat)
    (c : Cursor) (s : Session) :
    (∀ x d s', g.run fuel p c s = (.success x d, s') →
      d.text = c.text ∧ c.offset ≤ d.offset ∧ d.offset ≤ c.text.size) ∧
    (∀ o e s', g.run fuel p c s = (.failure o e, s') →
      (c.offset : Int) ≤ o ∧ o ≤ c.text.size) ∧
    ∀ e s', g.run fuel p c s ≠ (.thrown (.outOfRange e), s') := by
  have h := hg.run_bounded fuel hp c s
  refine ⟨fun x d s' he => ?_, fun o e s' he => ?_, fun e s' he => ?_⟩
  · rw [he] at h
    have hd : c.Reaches d := h
    exact ⟨hd.text_eq, hd.offset_le, hd.text_eq ▸ d.offset_le⟩
  · rw [he] at h
    obtain ⟨d, hd, rfl⟩ := h
    have hsize := d.offset_le
    rw [hd.text_eq] at hsize
    exact ⟨Int.ofNat_le.mpr hd.offset_le, Int.ofNat_le.mpr hsize⟩
  · rw [he] at h
    exact h

/-- The document `[t]` behind a blank: the bracket is read, and the run ends at the letter. -/
theorem run_stays_within_document :
    let g := Json.grammar .standard
    g.Composed ∧ (Json.parser .standard).Composed ∧
    ∃ o e s', g.run 5 (Json.parser .standard) ⟨#[' ', '[', 't', ']'], 1, by decide⟩ .start =
      (.failure o e, s') ∧ 1 ≤ o ∧ o ≤ 4 := by
  intro g
  obtain ⟨o, e, s', h⟩ : ∃ o e s', g.run 5 (Json.parser .standard)
      ⟨#[' ', '[', 't', ']'], 1, by decide⟩ .start = (.failure o e, s') := ⟨_, _, _, rfl⟩
  have hg : g.Composed := Json.grammar_composed
  have hp : (Json.parser .standard).Composed := Json.parser_composed
  exact ⟨hg, hp, o, e, s', h, (run_stays_within hg hp 5 _ _).2.1 o e s' h⟩

end Grammar

end Parsing
