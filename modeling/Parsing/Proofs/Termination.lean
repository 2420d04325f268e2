import Parsing.Json.Rules
import Parsing.Parser.Chain
import Parsing.Proofs.Fuel

/-!
# Repetitions end

A parser is *orderly* if every run of it ends, with a success at a cursor that is reached from the
one where it was entered, with a failure that is not before that cursor, or by an exception.  It
may succeed without reading anything.

A loop whose step advances wherever it goes round takes at most one round more than there are
characters left (`loop_ends`).  Each repetition guards what it repeats so that its step does: the
item, or a separator or an operator together with the item behind it.  `Repetition` lists them;
`r.behaviour parts rounds` is what the repetition `r` does, given what its parts do and how often
its loop may go round, so that the rounds of the parts are not counted.

**Repetitions of orderly parts end within `r.rounds` rounds, and they are orderly again**; so every
parser that is nested from them, without deferred parsers and loops of its own, ends on every input
(`run_repetition`).
-/

namespace Parsing

variable {ε : Type} {ρ : Type → Type} {α β γ δ σ τ : Type}

open Parsing.Decimal (TooManyDigits)
open Behaviour (ApproachedBy Meets)

/-- The further the cursor, the less is left. -/
theorem Cursor.Reaches.remaining_le {c d : Cursor} (h : c.Reaches d) :
    d.remaining.length ≤ c.remaining.length := by
  obtain ⟨w, hw⟩ := h
  rw [hw.length_eq]
  exact Nat.le_add_left _ _

/-- An offset that grows leaves fewer characters, so that what is left can be counted down. -/
theorem Cursor.remaining_lt {c d : Cursor} (ht : d.text = c.text) (ho : c.offset < d.offset) :
    d.remaining.length < c.remaining.length := by
  rw [length_remaining, length_remaining, ht]
  have := d.offset_le
  rw [ht] at this
  omega

/-- The run ended: with a success at a cursor that is reached from `c`, where `k` holds of the
value and that cursor, with a failure not before `c`, or by an exception. -/
def Verdict.Ends (c : Cursor) (k : α → Cursor → Prop) : Verdict ε α → Prop
  | .success x d => c.Reaches d ∧ k x d
  | .failure offset => (c.offset : Int) ≤ offset
  | .thrown _ => True
  | .exhausted => False

namespace Verdict.Ends

variable {c d : Cursor} {k : α → Cursor → Prop} {r : Verdict ε α}

/-- What holds of the value where a run succeeds may be weakened, given that it is not before where
it began. -/
theorem mono {k' : α → Cursor → Prop} (h : r.Ends c k) (hk : ∀ x d, c.Reaches d → k x d → k' x d) :
    r.Ends c k' := by
  cases r with
  | success x d => exact ⟨h.1, hk x d h.1 h.2⟩
  | failure _ | thrown _ | exhausted => exact h

/-- A run that was entered further on ends at a place that is not before the first cursor either. -/
theorem of_reaches (hd : c.Reaches d) (h : r.Ends d k) : r.Ends c k := by
  cases r with
  | success x e => exact ⟨hd.trans h.1, h.2⟩
  | failure offset => exact Int.le_trans (Int.ofNat_le.mpr hd.offset_le) h
  | thrown _ | exhausted => exact h

/-- A run that ends goes on only from a cursor that it has reached. -/
theorem continues {K : α → Cursor → Prop} {k' : β → Cursor → Prop} (h : r.Ends c k)
    (hK : ∀ x d, c.Reaches d → k x d → K x d) : r.Continues K (Ends c k') := by
  cases r with
  | success x d => exact hK x d h.1 h.2
  | failure _ | thrown _ | exhausted => exact h

end Verdict.Ends

namespace Behaviour

/-- Every run from `c` ends, and `k` holds of its value and the cursor behind it if it succeeds. -/
def Ends (p : Behaviour ε α) (c : Cursor) (k : α → Cursor → Prop) : Prop :=
  p.Meets c (Verdict.Ends c k)

/-- From every cursor the behaviour ends at a place that is not before it. -/
def Orderly (p : Behaviour ε α) : Prop := ∀ c, p.Ends c fun _ _ => True

/-! ### What the operations keep -/

section

variable {p q : Behaviour ε α} {c : Cursor} {k : α → Cursor → Prop}

/-- A function on the value may establish what is to hold of it, or raise an exception, which is an
end too. -/
theorem map_ends {f : α → Except ε β} {k' : β → Cursor → Prop} (h : p.Ends c k)
    (hk : ∀ x y d, k x d → f x = .ok y → k' y d) : (map f p).Ends c k' := by
  refine .map (h.mono fun _ hr => hr.continues fun x d hd hx => ?_)
  cases hf : f x with
  | ok y => exact ⟨hd, hk x y d hx hf⟩
  | error _ => trivial

/-- The second part ends from wherever the first may have got. -/
theorem bind_ends {f : α → Behaviour ε β} {k' : β → Cursor → Prop} (h : p.Ends c k)
    (hf : ∀ x d, c.Reaches d → k x d → (f x).Ends d k') :
    (bind p f).Ends c k' :=
  .bind (h.mono fun _ hr => hr.continues fun x d hd hx =>
    (hf x d hd hx).mono fun _ => .of_reaches hd)

/-- Both parts are entered at the same cursor, so that both have to end from there. -/
theorem alt_ends (hp : p.Ends c k) (hq : q.Ends c k) :
    (alt p q).Ends c k := by
  refine .alt (hp.mono fun r hr => ?_)
  cases r with
  | failure offset =>
      show if offset = c.offset then _ else _
      split
      · exact hq
      · exact hr
  | success _ _ | thrown _ | exhausted => exact hr

/-- What succeeds behind the check has read something. -/
theorem advancing_ends (h : p.Ends c k) :
    (advancing p).Ends c fun _ d => c.offset < d.offset := by
  refine .advancing (h.mono fun _ hr => hr.continues fun x d hd _ => ?_)
  split
  · exact Int.le_refl _
  · next ho => exact ⟨hd, Nat.lt_of_le_of_ne hd.offset_le (Ne.symm ho)⟩

/-- Success on the spot is an end, with what holds there. -/
theorem pure_ends {x : α} (h : k x c) : (pure x : Behaviour ε α).Ends c k :=
  .pure ⟨.refl c, h⟩

end

namespace Orderly

variable {p : Behaviour ε α}

theorem pure (x : α) : (Behaviour.pure x : Behaviour ε α).Orderly := fun _ => pure_ends trivial

theorem map {f : α → Except ε β} (h : p.Orderly) : (Behaviour.map f p).Orderly :=
  fun c => map_ends (h c) fun _ _ _ _ _ => trivial

/-- Sequences of orderly parts are orderly, whatever the second part is made from. -/
theorem bind {f : α → Behaviour ε β} (h : p.Orderly) (hf : ∀ x, (f x).Orderly) :
    (Behaviour.bind p f).Orderly := fun c => bind_ends (h c) fun x d _ _ => hf x d

theorem apply {p : Behaviour ε (α → Except ε β)} {q : Behaviour ε α} (h : p.Orderly)
    (hq : q.Orderly) : (Behaviour.apply p q).Orderly := by
  rw [apply_eq_bind]
  exact h.bind fun _ => hq.map

theorem alt {q : Behaviour ε α} (h : p.Orderly) (hq : q.Orderly) : (Behaviour.alt p q).Orderly :=
  fun c => alt_ends (h c) (hq c)

theorem attempt (h : p.Orderly) : (Behaviour.attempt p).Orderly := by
  intro c
  refine .attempt ((h c).mono fun r hr => ?_)
  cases r with
  | failure _ => exact Int.le_refl _
  | success _ _ | thrown _ | exhausted => exact hr

/-- Going back to where it was entered, the run has still not gone behind that. -/
theorem lookAhead (h : p.Orderly) : (Behaviour.lookAhead p).Orderly := fun c =>
  .lookAhead ((h c).mono fun _ hr => hr.continues fun _ _ _ _ => ⟨.refl c, trivial⟩)

/-- Success and failure change places, on the spot. -/
theorem notFollowedBy {shown : α → String} (h : p.Orderly) :
    (Behaviour.notFollowedBy shown p).Orderly := by
  intro c
  refine .notFollowedBy ((h c).mono fun r hr => ?_)
  cases r with
  | success _ _ => exact Int.le_refl _
  | failure _ => exact ⟨.refl c, trivial⟩
  | thrown _ | exhausted => exact hr

theorem advancing (h : p.Orderly) : (Behaviour.advancing p).Orderly :=
  fun c => (advancing_ends (h c)).mono fun _ hr => hr.mono fun _ _ _ _ => trivial

end Orderly

/-- The behaviour ends from every cursor with fewer than `n` characters behind it. -/
def OrderlyWithin (n : Nat) (p : Behaviour ε α) : Prop :=
  ∀ c, c.remaining.length < n → p.Ends c fun _ _ => True

namespace OrderlyWithin

variable {n : Nat} {p q : Behaviour ε α}

theorem map {f : α → Except ε β} (h : p.OrderlyWithin n) : (Behaviour.map f p).OrderlyWithin n :=
  fun c hc => map_ends (h c hc) fun _ _ _ _ _ => trivial

/-- Only the second part may need a text that is short: the first does not go back, and so leaves no
more of it. -/
theorem bind {f : α → Behaviour ε β} (h : p.Orderly) (hf : ∀ x, (f x).OrderlyWithin n) :
    (Behaviour.bind p f).OrderlyWithin n :=
  fun c hc => bind_ends (h c) fun x d hd _ => hf x d (Nat.lt_of_le_of_lt hd.remaining_le hc)

/-- The second part is entered where the first was, and may take any text. -/
theorem alt (h : p.OrderlyWithin n) (hq : q.Orderly) : (Behaviour.alt p q).OrderlyWithin n :=
  fun c hc => alt_ends (h c hc) (hq c)

end OrderlyWithin

/-! ### Loops -/

/-- An answer with which a loop that is at `c` goes round comes from behind `c`. -/
def Advances (c : Cursor) : Step σ α → Cursor → Prop
  | .loop _, d => c.offset < d.offset
  | .done _, _ | .stray _, _ => True

/-- A round that has read something may answer what it likes. -/
theorem advances_of_lt {c d : Cursor} (h : c.offset < d.offset) (answer : Step σ α) :
    Advances c answer d := by
  cases answer with
  | loop _ => exact h
  | done _ | stray _ => trivial

/-- A loop whose step advances goes round at most once more than there are characters left. -/
theorem loop_ends {step : σ → Behaviour ε (Step σ α)}
    (h : ∀ state c, (step state).Ends c (Advances c)) (n : Nat) (state : σ) :
    OrderlyWithin n (loop step n state) := by
  intro c hn
  -- With every round fewer characters are left than before, and fewer than there are rounds.
  refine Meets.loop (fun m _ d => c.Reaches d ∧ d.remaining.length < m)
    (fun _ _ hd => absurd hd.2 (Nat.not_lt_zero _)) ?_ n state c ⟨.refl c, hn⟩
  rintro m state d ⟨hd, hm⟩
  refine (h state d).mono fun r hr => (hr.of_reaches hd).continues fun answer e he advances => ?_
  cases answer with
  | loop _ =>
      have left := Cursor.remaining_lt (he.text_eq.trans hd.text_eq.symm) advances
      exact ⟨he, Nat.lt_of_lt_of_le left (Nat.le_of_lt_succ hm)⟩
  | done _ => exact ⟨he, trivial⟩
  | stray _ => trivial

/-- A loop that counts its rounds up to `enough` goes round once more than that. -/
theorem counted_ends {step : Nat × σ → Behaviour ε (Step (Nat × σ) α)} {enough : Nat}
    (h : ∀ k state c, k ≤ enough → (step (k, state)).Ends c fun answer _ =>
      ∀ next, answer = .loop next → next.1 = k + 1 ∧ k < enough)
    (c : Cursor) (state : σ) :
    Ends (loop step (enough + 1) (0, state)) c fun _ _ => True := by
  refine Meets.loop (fun m s d => c.Reaches d ∧ s.1 ≤ enough ∧ enough < m + s.1)
    (fun _ _ hd => by omega) ?_ _ _ c ⟨.refl c, Nat.zero_le _, Nat.lt_succ_self _⟩
  rintro m ⟨k, state⟩ d ⟨hd, hk, hm⟩
  refine (h k state d hk).mono fun r hr => (hr.of_reaches hd).continues fun answer e he counts => ?_
  cases answer with
  | loop next =>
      obtain ⟨hn, hk⟩ := counts next rfl
      exact ⟨he, by omega, by omega⟩
  | done _ => exact ⟨he, trivial⟩
  | stray _ => trivial

/-- A round with a guarded item, or else the end of the loop. -/
theorem item_ends {p : Behaviour ε α} (hp : p.Orderly) (f : α → Except ε (Step σ β)) (last : β)
    (c : Cursor) : (alt (map f (advancing p)) (pure (.done last))).Ends c (Advances c) :=
  alt_ends (map_ends (advancing_ends (hp c)) fun _ answer _ hd _ => advances_of_lt hd answer)
    (pure_ends trivial)

end Behaviour

/-! ### Repetitions -/

namespace Parser

open Behaviour (OrderlyWithin advances_of_lt counted_ends item_ends loop_ends)

variable {enter : {α : Type} → Cell → ρ α → Behaviour ε α} {n : Nat} {p : Parser ε ρ α}
  {q : Parser ε ρ β}

theorem pair_orderly (hp : (p.behaviour enter n).Orderly) (hq : (q.behaviour enter n).Orderly) :
    ((p.pair q).behaviour enter n).Orderly := hp.map.apply hq

theorem keepRight_orderly (hp : (p.behaviour enter n).Orderly)
    (hq : (q.behaviour enter n).Orderly) : ((p.keepRight q).behaviour enter n).Orderly :=
  hp.bind fun _ => hq

theorem keepLeft_orderly (hp : (p.behaviour enter n).Orderly)
    (hq : (q.behaviour enter n).Orderly) : ((p.keepLeft q).behaviour enter n).Orderly :=
  hp.bind fun _ => hq.map

/-- An item that reads nothing ends the loop, and every other makes progress. -/
theorem manyReversed_ends (hp : (p.behaviour enter n).Orderly) :
    ((manyReversed p).behaviour enter n).OrderlyWithin n :=
  loop_ends (fun items c => item_ends hp _ items c) n []

theorem many_ends (hp : (p.behaviour enter n).Orderly) :
    ((many p).behaviour enter n).OrderlyWithin n := (manyReversed_ends hp).map

theorem skipMany_ends (hp : (p.behaviour enter n).Orderly) :
    ((skipMany p).behaviour enter n).OrderlyWithin n :=
  loop_ends (fun _ c => item_ends hp _ () c) n ()

/-- The items behind the first are a repetition of a separator with an item. -/
theorem sepBy1_ends (hp : (p.behaviour enter n).Orderly) (hq : (q.behaviour enter n).Orderly) :
    ((sepBy1 p q).behaviour enter n).OrderlyWithin n :=
  .bind hp fun _ => (manyReversed_ends (keepRight_orderly hq hp)).map

/-- Behind a separator the next item is optional, but not both may read nothing. -/
theorem sepEndBy1_ends (hp : (p.behaviour enter n).Orderly) (hq : (q.behaviour enter n).Orderly) :
    ((sepEndBy1 p q).behaviour enter n).OrderlyWithin n := by
  refine .map (.bind hp fun x => loop_ends (fun items c => ?_) n [x])
  have more := keepRight_orderly (q := (p.map fun y => Step.loop (y :: items)).alt
    (.pure (.done items))) hq (hp.map.alt (.pure _))
  have guarded := (Behaviour.advancing_ends (more c)).mono fun _ hr =>
    hr.mono fun answer _ _ hd => advances_of_lt hd answer
  exact Behaviour.alt_ends guarded (Behaviour.pure_ends trivial)

/-- A round that does not find the end reads an item, which must not be empty. -/
theorem manyTill_ends (hp : (p.behaviour enter n).Orderly) (hq : (q.behaviour enter n).Orderly) :
    ((manyTill p q).behaviour enter n).OrderlyWithin n := by
  refine .map (loop_ends (fun items c => ?_) n [])
  refine Behaviour.alt_ends (Behaviour.map_ends (hq c) fun x answer d _ h => ?_)
    (Behaviour.map_ends (Behaviour.advancing_ends (hp c)) fun x answer d hd _ =>
      advances_of_lt hd answer)
  cases h
  trivial

section

variable {operator : Parser ε ρ (α → α → Except ε α)}

/-- An operator and its right operand together read something, or the loop ends. -/
theorem chainl1_ends (hp : (p.behaviour enter n).Orderly)
    (ho : (operator.behaviour enter n).Orderly) :
    ((chainl1 p operator).behaviour enter n).OrderlyWithin n :=
  .bind hp fun x => loop_ends (fun left c => item_ends (pair_orderly ho hp) _ left c) n x

/-- The loop reads pairs, and the fold that comes behind reads nothing. -/
theorem chainr1_ends (hp : (p.behaviour enter n).Orderly)
    (ho : (operator.behaviour enter n).Orderly) :
    ((chainr1 p operator).behaviour enter n).OrderlyWithin n :=
  .bind hp fun _ => (many_ends (pair_orderly ho hp)).map

end

/-- The rounds are counted, so that items that read nothing do no harm: one round for each and one
to stop. -/
theorem count_ends (k : Int) (hp : (p.behaviour enter (k.toNat + 1)).Orderly) :
    ((count k p).behaviour enter (k.toNat + 1)).Orderly := by
  by_cases hk : k ≤ 0
  · rw [count, if_pos hk]
    exact .pure []
  · rw [count, if_neg hk]
    refine .map fun c => counted_ends (fun j items c hj => ?_) c []
    show (Parser.behaviour _ _ (if _ then _ else _)).Ends c _
    split
    · exact Behaviour.pure_ends nofun
    · next hjk =>
        refine Behaviour.map_ends (hp c) fun x answer _ _ ha next hn => ?_
        cases ha
        cases hn
        simp only [decide_eq_true_eq] at hjk
        exact ⟨rfl, by omega⟩

end Parser

/-- What repetitions are made from. -/
inductive Part (ε α β γ : Type) : Type → Type where
  | item : Part ε α β γ α
  | separator : Part ε α β γ β
  | operator : Part ε α β γ (α → α → Except ε α)
  | ending : Part ε α β γ γ

/-- The repetitions of an item of type `α`, with the type of what they give. -/
inductive Repetition (α : Type) : Type → Type where
  | many : Repetition α (List α)
  | skipMany : Repetition α Unit
  | many1 : Repetition α (List α)
  | skipMany1 : Repetition α Unit
  | sepBy : Repetition α (List α)
  | sepBy1 : Repetition α (List α)
  | endBy : Repetition α (List α)
  | sepEndBy : Repetition α (List α)
  | sepEndBy1 : Repetition α (List α)
  | chainl (default : α) : Repetition α α
  | chainl1 : Repetition α α
  | chainr (default : α) : Repetition α α
  | chainr1 : Repetition α α
  | manyTill : Repetition α (List α)
  | count (n : Int) : Repetition α (List α)

namespace Repetition

open Behaviour (OrderlyWithin)

/-- The parser of a repetition of the given parts. -/
def of (parts : {τ : Type} → Part ε α β γ τ → Parser ε ρ τ) : Repetition α δ → Parser ε ρ δ
  | many => Parser.many (parts .item)
  | skipMany => Parser.skipMany (parts .item)
  | many1 => Parser.many1 (parts .item)
  | skipMany1 => Parser.skipMany1 (parts .item)
  | sepBy => Parser.sepBy (parts .item) (parts .separator)
  | sepBy1 => Parser.sepBy1 (parts .item) (parts .separator)
  | endBy => Parser.endBy (parts .item) (parts .separator)
  | sepEndBy => Parser.sepEndBy (parts .item) (parts .separator)
  | sepEndBy1 => Parser.sepEndBy1 (parts .item) (parts .separator)
  | chainl default => Parser.chainl (parts .item) (parts .operator) default
  | chainl1 => Parser.chainl1 (parts .item) (parts .operator)
  | chainr default => Parser.chainr (parts .item) (parts .operator) default
  | chainr1 => Parser.chainr1 (parts .item) (parts .operator)
  | manyTill => Parser.manyTill (parts .item) (parts .ending)
  | count n => Parser.count n (parts .item)

/-- What a repetition does, given what its parts do and how many rounds its loop may take. -/
def behaviour (r : Repetition α δ) (parts : {τ : Type} → Part ε α β γ τ → Behaviour ε τ)
    (rounds : Nat) : Behaviour ε δ :=
  (r.of fun part => .deferred ⟨0, 0⟩ part).behaviour (fun _ part => parts part) rounds

/-- The rounds that the loop of a repetition takes at most from `c` on: one more than the
characters that are left, and for `count` one more than it counts. -/
def rounds (c : Cursor) : Repetition α δ → Nat
  | count n => n.toNat + 1
  | _ => c.text.size - c.offset + 1

/-- A parser does what its parts do, put together. -/
theorem behaviour_of (r : Repetition α δ) (parts : {τ : Type} → Part ε α β γ τ → Parser ε ρ τ)
    (enter : {α : Type} → Cell → ρ α → Behaviour ε α) (n : Nat) :
    (r.of parts).behaviour enter n =
      r.behaviour (fun part => (parts part).behaviour enter n) n := by
  cases r with
  | count k =>
      by_cases hk : k ≤ 0
      · simp only [behaviour, of, Parser.count, if_pos hk]
        rfl
      · simp only [behaviour, of, Parser.count, if_neg hk]
        show Behaviour.map _ (Behaviour.loop _ n _) = Behaviour.map _ (Behaviour.loop _ n _)
        congr 2
        funext ⟨j, items⟩
        show Parser.behaviour _ _ (if _ then _ else _) = Parser.behaviour _ _ (if _ then _ else _)
        split
        · rfl
        · rfl
  | _ => rfl

/-- Within its rounds, each repetition ends, from the cursor by whose text they are counted. -/
theorem behaviour_ends (r : Repetition α δ) {parts : {τ : Type} → Part ε α β γ τ → Behaviour ε τ}
    (h : ∀ {τ : Type} (part : Part ε α β γ τ), (parts part).Orderly) (c : Cursor) :
    (r.behaviour parts (r.rounds c)).Ends c fun _ _ => True := by
  have left : c.remaining.length < c.text.size - c.offset + 1 := by
    rw [c.length_remaining]
    exact Nat.lt_succ_self _
  have hole {τ : Type} (part : Part ε α β γ τ) (n : Nat) :
      ((Parser.deferred ⟨0, 0⟩ part).behaviour (fun _ part => parts part) n).Orderly := h part
  cases r with
  | many => exact Parser.many_ends (hole .item _) c left
  | skipMany => exact Parser.skipMany_ends (hole .item _) c left
  | many1 =>
      exact OrderlyWithin.bind (h .item) (fun _ => (Parser.many_ends (hole .item _)).map) c left
  | skipMany1 =>
      exact OrderlyWithin.bind (h .item) (fun _ => Parser.skipMany_ends (hole .item _)) c left
  | sepBy => exact (Parser.sepBy1_ends (hole .item _) (hole .separator _)).alt (.pure []) c left
  | sepBy1 => exact Parser.sepBy1_ends (hole .item _) (hole .separator _) c left
  | endBy =>
      exact Parser.many_ends (Parser.keepLeft_orderly (hole .item _) (hole .separator _)) c left
  | sepEndBy =>
      exact (Parser.sepEndBy1_ends (hole .item _) (hole .separator _)).alt (.pure []) c left
  | sepEndBy1 => exact Parser.sepEndBy1_ends (hole .item _) (hole .separator _) c left
  | chainl x => exact (Parser.chainl1_ends (hole .item _) (hole .operator _)).alt (.pure x) c left
  | chainl1 => exact Parser.chainl1_ends (hole .item _) (hole .operator _) c left
  | chainr x => exact (Parser.chainr1_ends (hole .item _) (hole .operator _)).alt (.pure x) c left
  | chainr1 => exact Parser.chainr1_ends (hole .item _) (hole .operator _) c left
  | manyTill => exact Parser.manyTill_ends (hole .item _) (hole .ending _) c left
  | count n => exact Parser.count_ends n (hole .item _) c

/-- If the parts are approached and the rounds become as many, the repetition is approached. -/
theorem behaviour_approached (r : Repetition α δ)
    {parts : {τ : Type} → Part ε α β γ τ → Behaviour ε τ}
    {parts' : Nat → {τ : Type} → Part ε α β γ τ → Behaviour ε τ}
    (h : ∀ {τ : Type} (part : Part ε α β γ τ), (parts part).ApproachedBy fun n => parts' n part)
    {rounds : Nat} {rounds' : Nat → Nat} (hr : ∃ k, ∀ m, k ≤ m → rounds ≤ rounds' m) :
    (r.behaviour parts rounds).ApproachedBy fun n => r.behaviour (parts' n) (rounds' n) :=
  Parser.behaviour_approached (fun _ part => h part) hr _

end Repetition

/-! ### Runs -/

namespace Grammar

/-- Every run of the parser ends if it has enough fuel, with a success at a cursor that is reached
from the one where it was entered, with a failure not before that cursor, or by an exception. -/
def Orderly (g : Grammar ε ρ) (p : Parser ε ρ α) : Prop :=
  ∀ c s, ∃ n, (g.run n p c s).1.verdict.Ends c fun _ _ => True

/-- The parsers that are nested from orderly ones and from the repetitions by the operations of the
algebra, without deferred parsers and without loops of their own. -/
inductive Nested (g : Grammar ε ρ) : {α : Type} → Parser ε ρ α → Prop where
  | orderly {α : Type} {p : Parser ε ρ α} (h : g.Orderly p) : g.Nested p
  | repetition {α β γ δ : Type} (r : Repetition α δ)
      {parts : {τ : Type} → Part ε α β γ τ → Parser ε ρ τ}
      (h : ∀ {τ : Type} (part : Part ε α β γ τ), g.Nested (parts part)) : g.Nested (r.of parts)
  | pure {α : Type} (value : α) : g.Nested (.pure value)
  | fail {α : Type} (error : ParseError) : g.Nested (.fail error : Parser ε ρ α)
  | raise {α : Type} (exception : ε) : g.Nested (.raise exception : Parser ε ρ α)
  | satisfy (accepts : Char → Bool) : g.Nested (.satisfy accepts)
  | string (text : String) : g.Nested (.string text)
  | position : g.Nested .position
  | trace (name : String) : g.Nested (.trace name)
  | mapM {α β : Type} (f : α → Except ε β) {p : Parser ε ρ α} (h : g.Nested p) :
      g.Nested (.mapM f p)
  | applyM {α β : Type} {p : Parser ε ρ (α → Except ε β)} {q : Parser ε ρ α} (h : g.Nested p)
      (hq : g.Nested q) : g.Nested (.applyM p q)
  | bind {α β : Type} {p : Parser ε ρ α} {f : α → Parser ε ρ β} (h : g.Nested p)
      (hf : ∀ x, g.Nested (f x)) : g.Nested (.bind p f)
  | alt {α : Type} {p q : Parser ε ρ α} (h : g.Nested p) (hq : g.Nested q) :
      g.Nested (.alt p q)
  | label {α : Type} {p : Parser ε ρ α} (h : g.Nested p) (name : String) :
      g.Nested (.label p name)
  | suggest {α : Type} {p : Parser ε ρ α} (h : g.Nested p) (suggestion : Suggestion) :
      g.Nested (.suggest p suggestion)
  | attempt {α : Type} {p : Parser ε ρ α} (h : g.Nested p) : g.Nested (.attempt p)
  | lookAhead {α : Type} {p : Parser ε ρ α} (h : g.Nested p) : g.Nested (.lookAhead p)
  | notFollowedBy {α : Type} (shown : α → String) {p : Parser ε ρ α} (h : g.Nested p) :
      g.Nested (.notFollowedBy shown p)
  | advancing {α : Type} {p : Parser ε ρ α} (h : g.Nested p) : g.Nested (.advancing p)
  | fresh {α : Type} {p : Frame → Parser ε ρ α} (h : ∀ frame, g.Nested (p frame)) :
      g.Nested (.fresh p)
  | traced {α : Type} (name : String) {p : Parser ε ρ α} (h : g.Nested p) :
      g.Nested (.traced name p)
  | visit {α : Type} (name : String) {p : Parser ε ρ α} (h : g.Nested p) :
      g.Nested (.visit name p)

variable {g : Grammar ε ρ}

/-- The runs of an orderly parser approach an orderly behaviour. -/
theorem orderly_iff {p : Parser ε ρ α} :
    g.Orderly p ↔ ∃ b : Behaviour ε α, b.Orderly ∧ b.ApproachedBy fun n => g.run n p := by
  constructor
  · intro h
    simp only [Orderly, Classical.skolem] at h
    obtain ⟨fuel, ends⟩ := h
    exact ⟨fun c s => g.run (fuel c s) p c s, ends, fun c s hr =>
      ⟨fuel c s, fun m hm => run_mono hm hr⟩⟩
  · rintro ⟨b, ends, hb⟩ c s
    have he := ends c s
    obtain ⟨n, hn⟩ := hb c s fun hx => by
      rw [hx] at he
      exact he
    have hr : g.run n p c s = b c s := hn n (Nat.le_refl n)
    exact ⟨n, by rwa [hr]⟩

/-- A run of a repetition is the repetition of the runs of its parts, with as many rounds as there
is fuel. -/
theorem run_of (r : Repetition α δ) (parts : {τ : Type} → Part ε α β γ τ → Parser ε ρ τ) (n : Nat) :
    g.run n (r.of parts) = r.behaviour (fun part => g.run n (parts part)) n := by
  simp only [run_eq, Repetition.behaviour_of]

namespace Orderly

variable {p : Parser ε ρ α} {q : Parser ε ρ β}

/-- What does the same to every run of `p` is orderly if it keeps what is orderly and what is
approached. -/
theorem lift (h : g.Orderly p) (op : Behaviour ε α → Behaviour ε β)
    (run : ∀ n, g.run n q = op (g.run n p)) (ends : ∀ {b}, b.Orderly → (op b).Orderly)
    (approached : ∀ {b q}, b.ApproachedBy q → (op b).ApproachedBy fun n => op (q n)) :
    g.Orderly q := by
  obtain ⟨b, hb, ha⟩ := orderly_iff.mp h
  simp only [orderly_iff, run]
  exact ⟨op b, ends hb, approached ha⟩

/-- The second part is entered in the session that the first has left, and its fuel depends on
that. -/
theorem alt {p q : Parser ε ρ α} (h : g.Orderly p) (hq : g.Orderly q) : g.Orderly (.alt p q) := by
  obtain ⟨b, hb, ha⟩ := orderly_iff.mp h
  obtain ⟨b', hb', ha'⟩ := orderly_iff.mp hq
  simp only [orderly_iff, run_eq] at *
  exact ⟨.alt b b', hb.alt hb', ha.alt ha'⟩

/-- The second part is entered where the first has ended. -/
theorem applyM {p : Parser ε ρ (α → Except ε β)} {q : Parser ε ρ α} (h : g.Orderly p)
    (hq : g.Orderly q) : g.Orderly (.applyM p q) := by
  obtain ⟨b, hb, ha⟩ := orderly_iff.mp h
  obtain ⟨b', hb', ha'⟩ := orderly_iff.mp hq
  simp only [orderly_iff, run_eq] at *
  exact ⟨.apply b b', hb.apply hb', ha.apply ha'⟩

/-- The fuel for both parts is the larger of what they need, from where the first one ends. -/
theorem bind {f : α → Parser ε ρ β} (h : g.Orderly p) (hf : ∀ x, g.Orderly (f x)) :
    g.Orderly (.bind p f) := by
  obtain ⟨b, hb, ha⟩ := orderly_iff.mp h
  simp only [orderly_iff, run_eq, Classical.skolem] at *
  obtain ⟨b', hb'⟩ := hf
  exact ⟨.bind b b', hb.bind fun x => (hb' x).1, ha.bind fun x => (hb' x).2⟩

/-- The frame that is opened decides which parser is run, and so how much fuel it takes. -/
theorem fresh {p : Frame → Parser ε ρ α} (h : ∀ frame, g.Orderly (p frame)) :
    g.Orderly (.fresh p) := by
  simp only [orderly_iff, run_eq, Classical.skolem] at *
  obtain ⟨b, hb⟩ := h
  exact ⟨.fresh b, fun c => .fresh fun frame => (hb frame).1 c, .fresh fun frame => (hb frame).2⟩

/-- A repetition of orderly parts does what it does with `r.rounds c` rounds for its loop. -/
theorem repetition {parts : {τ : Type} → Part ε α β γ τ → Parser ε ρ τ}
    (h : ∀ {τ : Type} (part : Part ε α β γ τ), g.Orderly (parts part)) (r : Repetition α δ)
    (c : Cursor) (s : Session) : ∃ reply : Outcome ε δ × Session,
      reply.1.verdict.Ends c (fun _ _ => True) ∧ ∃ n, ∀ m, n ≤ m →
        g.run m (r.of parts) c s = reply ∧
          r.behaviour (fun part => g.run m (parts part)) (r.rounds c) c s = reply := by
  have limit {τ : Type} (part : Part ε α β γ τ) := orderly_iff.mp (h part)
  let b {τ : Type} (part : Part ε α β γ τ) : Behaviour ε τ := (limit part).choose
  have ends : (r.behaviour b (r.rounds c)).Ends c fun _ _ => True :=
    r.behaviour_ends (fun part => (limit part).choose_spec.1) c
  have approached {τ : Type} (part : Part ε α β γ τ) :
      (b part).ApproachedBy fun n => g.run n (parts part) := (limit part).choose_spec.2
  have settled : (r.behaviour b (r.rounds c) c s).1 ≠ .exhausted := fun he => by
    have := ends s
    rw [he] at this
    exact this
  have enough : ∃ n, ∀ m, n ≤ m → r.rounds c ≤ id m := ⟨r.rounds c, fun _ => id⟩
  obtain ⟨n, hn⟩ := r.behaviour_approached approached enough c s settled
  obtain ⟨k, hk⟩ := r.behaviour_approached approached ⟨0, fun _ _ => Nat.le_refl _⟩ c s settled
  refine ⟨_, ends s, max n k, fun m hm => ⟨?_, hk m (Nat.max_le.mp hm).2⟩⟩
  rw [run_of]
  exact hn m (Nat.max_le.mp hm).1

end Orderly

/-- However repetitions are nested, every run ends, given fuel enough. -/
theorem Nested.ends {p : Parser ε ρ α} (h : g.Nested p) : g.Orderly p := by
  induction h with
  | orderly h => exact h
  | repetition r _ ih =>
      intro c s
      obtain ⟨reply, ends, n, hn⟩ := Orderly.repetition ih r c s
      exact ⟨n, by rwa [(hn n (Nat.le_refl n)).1]⟩
  | pure value => exact fun c _ => ⟨0, .refl c, trivial⟩
  | fail error => exact fun c _ => ⟨0, Int.le_refl _⟩
  | raise exception => exact fun c _ => ⟨0, trivial⟩
  | satisfy accepts =>
      exact fun c s => ⟨0, Meets.satisfy (fun x d hd _ => ⟨⟨[x], hd⟩, trivial⟩)
        (fun _ => Int.le_refl _) s⟩
  | string text =>
      exact fun c s => ⟨0, Meets.string (fun d hd => ⟨⟨text.toList, hd⟩, trivial⟩)
        (fun _ => Int.le_refl _) s⟩
  | position => exact fun c _ => ⟨0, .refl c, trivial⟩
  | trace name => exact fun c _ => ⟨0, .refl c, trivial⟩
  | mapM f _ ih => exact ih.lift (.map f) (fun n => by simp only [run_eq]; rfl) .map .map
  | applyM _ _ ih ih' => exact ih.applyM ih'
  | bind _ _ ih ihf => exact ih.bind ihf
  | alt _ _ ih ih' => exact ih.alt ih'
  | label _ name ih =>
      exact ih.lift (.label · name) (fun n => by simp only [run_eq]; rfl)
        (fun h c => .label (h c)) .label
  | suggest _ suggestion ih =>
      exact ih.lift (.suggest · suggestion) (fun n => by simp only [run_eq]; rfl)
        (fun h c => .suggest (h c)) .suggest
  | attempt _ ih => exact ih.lift .attempt (fun n => by simp only [run_eq]; rfl) .attempt .attempt
  | lookAhead _ ih =>
      exact ih.lift .lookAhead (fun n => by simp only [run_eq]; rfl) .lookAhead .lookAhead
  | notFollowedBy shown _ ih =>
      exact ih.lift (.notFollowedBy shown) (fun n => by simp only [run_eq]; rfl) .notFollowedBy
        .notFollowedBy
  | advancing _ ih =>
      exact ih.lift .advancing (fun n => by simp only [run_eq]; rfl) .advancing .advancing
  | fresh _ ih => exact .fresh ih
  | traced name _ ih =>
      exact ih.lift (.traced name) (fun n => by simp only [run_eq]; rfl) (fun h c => .traced (h c))
        .traced
  | visit name _ ih =>
      exact ih.lift (.visit name) (fun n => by simp only [run_eq]; rfl) (fun h c => .visit (h c))
        .visit

/-- **Repetitions end.**  A repetition of parts that are orderly, be it that they read nothing, ends
at every cursor, and with enough fuel in the way in which it ends if its loop may take only one
round more than there are characters left, or for `count` one more than it counts.  It is orderly
again, and so is every parser that is nested from repetitions and orderly parsers without deferred
parsers and loops of its own. -/
theorem run_repetition {parts : {τ : Type} → Part ε α β γ τ → Parser ε ρ τ}
    (h : ∀ {τ : Type} (part : Part ε α β γ τ), g.Orderly (parts part)) (r : Repetition α δ) :
    (∀ c s, ∃ reply : Outcome ε δ × Session, reply.1.verdict.Ends c (fun _ _ => True) ∧
      ∃ n, ∀ m, n ≤ m → g.run m (r.of parts) c s = reply ∧
        r.behaviour (fun part => g.run m (parts part)) (r.rounds c) c s = reply) ∧
    g.Orderly (r.of parts) ∧ ∀ {τ : Type} {p : Parser ε ρ τ}, g.Nested p → g.Orderly p :=
  ⟨Orderly.repetition h r, (Nested.repetition r fun part => .orderly (h part)).ends, Nested.ends⟩

/-- The parts of a repetition of `p` in which nothing but the items reads anything. -/
def only (p : Parser ε ρ α) : {τ : Type} → Part ε α Unit Unit τ → Parser ε ρ τ
  | _, .item => p
  | _, .separator => .pure ()
  | _, .operator => .pure fun x _ => .ok x
  | _, .ending => .pure ()

/-- A part that is missing is replaced by one that reads nothing. -/
theorem nested_only {p : Parser ε ρ α} (h : g.Nested p) {τ : Type} (part : Part ε α Unit Unit τ) :
    g.Nested (only p part) := by
  cases part with
  | item => exact h
  | separator | operator | ending => exact .pure _

/-- A digit or nothing. -/
def looseDigit : Parser TooManyDigits Json.Rule Char := .option '0' (.satisfy Char.isDigit)

/-- Neither items nor separators need to read anything, and still the repetition ends within two
rounds before the last character of `1;`; and so does the repetition of that repetition. -/
theorem run_repetition_looseDigit :
    let g := Json.grammar .standard
    (∃ reply : Outcome TooManyDigits (List Char) × Session,
      reply.1.verdict.Ends ⟨#['1', ';'], 1, by decide⟩ (fun _ _ => True) ∧
      ∃ n, ∀ m, n ≤ m →
        g.run m (.sepEndBy looseDigit (.pure ())) ⟨#['1', ';'], 1, by decide⟩ .start =
          reply ∧
        Repetition.behaviour .sepEndBy (fun part => g.run m (only looseDigit part)) 2
          ⟨#['1', ';'], 1, by decide⟩ .start = reply) ∧
    g.Orderly (.many (.sepEndBy looseDigit (.pure ()))) := by
  intro g
  have item : g.Nested looseDigit := .alt (.satisfy _) (.pure _)
  obtain ⟨ends, _, nested⟩ := run_repetition (fun part => (nested_only item part).ends) .sepEndBy
  exact ⟨ends ⟨#['1', ';'], 1, by decide⟩ .start,
    nested (.repetition .many (nested_only (.repetition .sepEndBy (nested_only item))))⟩

end Grammar

end Parsing
