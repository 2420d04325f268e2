import Parsing.Json.Rules
import Parsing.Proofs.Fuel

/-!
# The laws of sequencing

Sequencing is there three times over: as the application of a callback to a value (`map`), as the
application of a parser's callback to a parser's value (`apply`), and as the continuation with a
parser that is chosen by a value (`bind`).  As behaviours all three are a `bind`: a callback
either has an answer, and then nothing is read, or raises (`Behaviour.answer`).  With that the
behaviours are a monad, in which the callbacks are the computations that may raise, and the laws
of functors, applicative functors and monads are equations between behaviours.

`g.Indistinct p q` says that no run tells `p` from `q`: from every cursor and session both end with
the same outcome in the same session, so that they enter the same parsers, log the same lines and
build the same cells in the same order.
-/

namespace Parsing

variable {ε : Type} {ρ : Type → Type} {α β γ δ : Type}

namespace Behaviour

/-- Succeeds with the answer of a callback, or raises its exception. -/
def answer : Except ε α → Behaviour ε α
  | .ok value => .pure value
  | .error exception => .throw (.raised exception)

/-! ### The monad of behaviours -/

theorem pure_bind (x : α) (f : α → Behaviour ε β) : Behaviour.bind (.pure x) f = f x := rfl

theorem bind_pure (p : Behaviour ε α) : Behaviour.bind p .pure = p := by
  funext c s
  unfold Behaviour.bind
  generalize p c s = reply
  obtain ⟨o, s'⟩ := reply
  cases o with
  | success _ _ | failure _ _ | thrown _ | exhausted => rfl

theorem bind_assoc (p : Behaviour ε α) (f : α → Behaviour ε β) (k : β → Behaviour ε γ) :
    Behaviour.bind (.bind p f) k = .bind p fun x => .bind (f x) k := by
  funext c s
  simp only [Behaviour.bind]
  generalize p c s = reply
  obtain ⟨o, s'⟩ := reply
  cases o with
  | success _ _ | failure _ _ | thrown _ | exhausted => rfl

/-! ### Callbacks -/

theorem answer_bind (r : Except ε α) (f : α → Except ε β) :
    answer (r >>= f) = .bind (answer r) fun x => answer (f x) := by
  cases r with
  | ok x => rfl
  | error e => rfl

/-- Applying a callback is to continue with its answer. -/
theorem map_eq_bind (f : α → Except ε β) (p : Behaviour ε α) :
    Behaviour.map f p = .bind p fun x => answer (f x) := by
  funext c s
  simp only [Behaviour.map, Behaviour.bind]
  generalize p c s = reply
  obtain ⟨o, s'⟩ := reply
  cases o with
  | success x d =>
      simp only
      cases f x with
      | ok y => rfl
      | error e => rfl
  | failure _ _ | thrown _ | exhausted => rfl

theorem map_ok (p : Behaviour ε α) : Behaviour.map .ok p = p :=
  (map_eq_bind .ok p).trans p.bind_pure

theorem map_bind (k : β → Except ε γ) (p : Behaviour ε α) (f : α → Behaviour ε β) :
    Behaviour.map k (.bind p f) = .bind p fun x => .map k (f x) := by
  simp only [map_eq_bind, bind_assoc]

theorem map_map (k : β → Except ε γ) (f : α → Except ε β) (p : Behaviour ε α) :
    Behaviour.map k (.map f p) = .map (fun x => f x >>= k) p := by
  simp only [map_eq_bind, bind_assoc, answer_bind]

/-- A callback that never raises leaves nothing to be seen of it but the value. -/
theorem bind_map (f : α → β) (p : Behaviour ε α) (k : β → Behaviour ε γ) :
    Behaviour.bind (.map (fun x => .ok (f x)) p) k = .bind p fun x => k (f x) := by
  rw [map_eq_bind, bind_assoc]
  rfl

/-- Combining the values of two behaviours is to continue with the second. -/
theorem apply_map (f : α → β → Except ε γ) (p : Behaviour ε α) (q : Behaviour ε β) :
    Behaviour.apply (.map (fun x => .ok (f x)) p) q = .bind p fun x => .map (f x) q := by
  rw [apply_eq_bind, bind_map]

/-- The callback that puts a callback behind another. -/
def compose (f : β → Except ε γ) : Except ε ((α → Except ε β) → Except ε (α → Except ε γ)) :=
  .ok fun k => .ok fun x => k x >>= f

/-- Both sides run `p`, then `q`, then `r`, and at the end the two callbacks one after the
other. -/
theorem apply_assoc (p : Behaviour ε (β → Except ε γ)) (q : Behaviour ε (α → Except ε β))
    (r : Behaviour ε α) :
    Behaviour.apply (.apply (.apply (.pure compose) p) q) r = .apply p (.apply q r) := by
  calc Behaviour.apply (.apply (.apply (.pure compose) p) q) r
      = .apply (.apply (.map compose p) q) r := by rw [apply_eq_bind (.pure _), pure_bind]
    _ = .apply (.bind p fun f => .map (fun k => .ok fun x => k x >>= f) q) r :=
        congrArg (Behaviour.apply · r)
          (apply_map (fun f (k : α → Except ε β) => .ok fun x => k x >>= f) p q)
    _ = .bind p fun f => .apply (.map (fun k => .ok fun x => k x >>= f) q) r := by
        simp only [apply_eq_bind, bind_assoc]
    _ = .bind p fun f => .bind q fun k => .map (fun x => k x >>= f) r := by
        simp only [apply_map]
    _ = .apply p (.apply q r) := by simp only [apply_eq_bind, map_bind, map_map]

end Behaviour

/-! ### The laws -/

theorem Parser.append_eq_combine [Append α] (p q : Parser ε ρ α) :
    p ++ q = combine (· ++ ·) p q := rfl

theorem Parser.combine_behaviour (enter : {α : Type} → Cell → ρ α → Behaviour ε α) (rounds : Nat)
    (f : α → β → γ) (p : Parser ε ρ α) (q : Parser ε ρ β) :
    (combine f p q).behaviour enter rounds =
      .bind (p.behaviour enter rounds) fun x =>
        .map (fun y => .ok (f x y)) (q.behaviour enter rounds) :=
  Behaviour.apply_map _ _ _

namespace Grammar

/-- No run tells the parsers apart. -/
def Indistinct (g : Grammar ε ρ) (p q : Parser ε ρ α) : Prop :=
  ∀ (fuel : Nat) (c : Cursor) (s : Session), g.run fuel p c s = g.run fuel q c s

/-- The laws of sequencing, for the runs with a grammar.  All callbacks and the functions that
parsers are combined with may raise, unless they are said to be total. -/
structure Lawful (g : Grammar ε ρ) : Prop where
  /-- A value is handed on. -/
  pure_bind {α β : Type} (x : α) (f : α → Parser ε ρ β) :
    g.Indistinct ((Parser.pure x).bind f) (f x)
  bind_pure {α : Type} (p : Parser ε ρ α) : g.Indistinct (p.bind .pure) p
  bind_assoc {α β γ : Type} (p : Parser ε ρ α) (f : α → Parser ε ρ β) (k : β → Parser ε ρ γ) :
    g.Indistinct ((p.bind f).bind k) (p.bind fun x => (f x).bind k)
  map_id {α : Type} (p : Parser ε ρ α) : g.Indistinct (p.map id) p
  map_map {α β γ : Type} (f : α → Except ε β) (k : β → Except ε γ) (p : Parser ε ρ α) :
    g.Indistinct ((p.mapM f).mapM k) (p.mapM fun x => f x >>= k)
  pure_apply {α β : Type} (f : α → Except ε β) (p : Parser ε ρ α) :
    g.Indistinct ((Parser.pure f).applyM p) (p.mapM f)
  apply_eq_bind {α β : Type} (p : Parser ε ρ (α → Except ε β)) (q : Parser ε ρ α) :
    g.Indistinct (p.applyM q) (p.bind fun f => q.mapM f)
  apply_assoc {α β γ : Type} (p : Parser ε ρ (β → Except ε γ)) (q : Parser ε ρ (α → Except ε β))
    (r : Parser ε ρ α) :
    g.Indistinct ((((Parser.pure Behaviour.compose).applyM p).applyM q).applyM r)
      (p.applyM (q.applyM r))
  pair_eq_bind {α β : Type} (p : Parser ε ρ α) (q : Parser ε ρ β) :
    g.Indistinct (p.pair q) (p.bind fun x => q.map fun y => (x, y))
  seqRight_eq_keepRight {α β : Type} (p : Parser ε ρ α) (q : Parser ε ρ β) :
    g.Indistinct (p *> q) (p.keepRight q)
  keepRight_eq_second {α β : Type} (p : Parser ε ρ α) (q : Parser ε ρ β) :
    g.Indistinct (p.keepRight q) ((p.pair q).map Prod.snd)
  keepLeft_eq_first {α β : Type} (p : Parser ε ρ α) (q : Parser ε ρ β) :
    g.Indistinct (p.keepLeft q) ((p.pair q).map Prod.fst)
  /-- A total function that is associative combines three parsers as it combines three values. -/
  combine_assoc {α : Type} (f : α → α → α) (assoc : ∀ x y z, f (f x y) z = f x (f y z))
    (p q r : Parser ε ρ α) :
    g.Indistinct (.combine f (.combine f p q) r) (.combine f p (.combine f q r))

variable (g : Grammar ε ρ)

/-- Parsers with one behaviour are indistinct. -/
theorem indistinct_of_behaviour {p q : Parser ε ρ α}
    (h : ∀ (enter : {α : Type} → Cell → ρ α → Behaviour ε α) rounds,
      p.behaviour enter rounds = q.behaviour enter rounds) : g.Indistinct p q := by
  intro fuel c s
  rw [run_eq, run_eq, h]

theorem run_combine (fuel : Nat) (f : α → β → γ) (p : Parser ε ρ α) (q : Parser ε ρ β) :
    g.run fuel (.combine f p q) =
      .bind (g.run fuel p) fun x => .map (fun y => .ok (f x y)) (g.run fuel q) := by
  simp only [run_eq]
  exact Parser.combine_behaviour _ _ f p q

/-- **The laws of functors, applicative functors and monads** hold of the runs with any
grammar. -/
theorem lawful : g.Lawful where
  pure_bind x f := g.indistinct_of_behaviour fun _ _ => rfl
  bind_pure p := g.indistinct_of_behaviour fun _ _ => Behaviour.bind_pure _
  bind_assoc p f k := g.indistinct_of_behaviour fun _ _ => Behaviour.bind_assoc _ _ _
  map_id p := g.indistinct_of_behaviour fun _ _ => Behaviour.map_ok _
  map_map f k p := g.indistinct_of_behaviour fun _ _ => Behaviour.map_map k f _
  pure_apply f p := g.indistinct_of_behaviour fun _ _ => Behaviour.apply_eq_bind _ _
  apply_eq_bind p q := g.indistinct_of_behaviour fun _ _ => Behaviour.apply_eq_bind _ _
  apply_assoc p q r := g.indistinct_of_behaviour fun _ _ => Behaviour.apply_assoc _ _ _
  pair_eq_bind p q := g.indistinct_of_behaviour fun _ _ => Parser.combine_behaviour _ _ _ p q
  seqRight_eq_keepRight p q := fun _ _ _ => rfl
  keepRight_eq_second p q := by
    refine g.indistinct_of_behaviour fun enter rounds => ?_
    calc (p.keepRight q).behaviour enter rounds
        = .bind (p.behaviour enter rounds) fun _ => .map .ok (q.behaviour enter rounds) := by
          simp only [Behaviour.map_ok]; rfl
      _ = .map (fun z => .ok z.2) ((p.pair q).behaviour enter rounds) := by
          rw [Parser.pair, Parser.combine_behaviour, Behaviour.map_bind]
          simp only [Behaviour.map_map]; rfl
  keepLeft_eq_first p q := by
    refine g.indistinct_of_behaviour fun enter rounds => ?_
    calc (p.keepLeft q).behaviour enter rounds
        = .bind (p.behaviour enter rounds) fun x =>
            .map (fun _ => .ok x) (q.behaviour enter rounds) := rfl
      _ = .map (fun z => .ok z.1) ((p.pair q).behaviour enter rounds) := by
          rw [Parser.pair, Parser.combine_behaviour, Behaviour.map_bind]
          simp only [Behaviour.map_map]; rfl
  combine_assoc f assoc p q r := by
    refine g.indistinct_of_behaviour fun enter rounds => ?_
    simp only [Parser.combine_behaviour]
    generalize p.behaviour enter rounds = P, q.behaviour enter rounds = Q,
      r.behaviour enter rounds = R
    calc Behaviour.bind (.bind P fun x => .map (fun y => .ok (f x y)) Q)
          (fun z => .map (fun y => .ok (f z y)) R)
        = .bind P fun x => .bind Q fun y => .map (fun z => .ok (f (f x y) z)) R := by
          simp only [Behaviour.bind_assoc, Behaviour.bind_map]
      _ = .bind P fun x => .bind Q fun y => .map (fun z => .ok (f x (f y z))) R := by
          simp only [assoc]
      _ = .bind P fun x => .map (fun y => .ok (f x y))
            (.bind Q fun x => .map (fun y => .ok (f x y)) R) := by
          simp only [Behaviour.map_bind, Behaviour.map_map]; rfl

/-- The parts of a JSON number may be glued together from either side. -/
theorem lawful_number :
    (∀ x y z : String, x ++ y ++ z = x ++ (y ++ z)) ∧
    (Json.grammar .standard).Indistinct
      (.combine (· ++ ·) (.combine (· ++ ·) Json.Rules.digits Json.Rules.fraction)
        Json.Rules.exponent)
      (.combine (· ++ ·) Json.Rules.digits
        (.combine (· ++ ·) Json.Rules.fraction Json.Rules.exponent)) :=
  have assoc (x y z : String) : x ++ y ++ z = x ++ (y ++ z) := String.append_assoc
  ⟨assoc, (Json.grammar .standard).lawful.combine_assoc _ assoc _ _ _⟩

end Grammar

end Parsing
