import Mathlib.Data.Set.List
import Parsing.Parser.Chain
import Parsing.Proofs.Items

/-!
# Chains

Operands with operators between them are the first operand and then as many operators as there are,
each with an operand behind it.  `Parser.chainl1` joins them while it reads, and `Parser.chainr1`
once it has read them all, going back from the last operation to the first (`Parser.joinBack`).

**Both are folds of the same operands** (`Grammar.run_chains`), from the left and from the right,
provided that operations raise no exceptions.
-/

namespace Parsing

variable {ε : Type} {ρ : Type → Type} {α β γ : Type}

/-! ### Joining operands -/

/-- A first operand, and operations with an operand behind each. -/
structure Chain (α : Type) where
  first : α
  rest : List ((α → α → α) × α)

/-- An operation that raises no exceptions. -/
def operation (f : α → α → α) : α → α → Except ε α := fun x y => .ok (f x y)

namespace Chain

/-- The operands and operations as a parser of them has them. -/
def parsed (chain : Chain α) : α × List ((α → α → Except ε α) × α) :=
  (chain.first, chain.rest.map (Prod.map operation id))

/-- The operands joined from the left. -/
def joinLeft (chain : Chain α) : α := chain.rest.foldl (fun left (f, x) => f left x) chain.first

/-- The operands behind `x` joined from the right, and `x` with them. -/
def joinRightFrom : α → List ((α → α → α) × α) → α
  | x, [] => x
  | x, (f, y) :: rest => f x (joinRightFrom y rest)

/-- The operands joined from the right. -/
def joinRight (chain : Chain α) : α := joinRightFrom chain.first chain.rest

end Chain

namespace Parser

/-- The operands joined from the right, by recursion. -/
def joinAll : α → List ((α → α → Except ε α) × α) → Except ε α
  | x, [] => .ok x
  | x, (f, y) :: rest => do f x (← joinAll y rest)

/-- Going back from the `i`th operand, which the operands behind it have been joined with, comes to
what all of them come to. -/
theorem joinAll_bind_joinBack (rest : List ((α → α → Except ε α) × α)) (i : Nat)
    (h : i < rest.toArray.size) :
    (joinAll (rest.toArray[i].2) (rest.drop (i + 1)) >>= joinBack rest.toArray i h) =
      joinAll (rest.toArray[0].2) (rest.drop 1) := by
  induction i with
  | zero => exact bind_pure _
  | succ i ih =>
      have hi : i < rest.toArray.size := Nat.lt_of_succ_lt h
      have next : rest.drop (i + 1) = rest.toArray[i + 1] :: rest.drop (i + 2) := by
        rw [List.getElem_toArray, List.drop_eq_getElem_cons]
      calc (joinAll (rest.toArray[i + 1].2) (rest.drop (i + 2)) >>= joinBack rest.toArray (i + 1) h)
          = joinAll (rest.toArray[i + 1].2) (rest.drop (i + 2)) >>= fun right =>
              rest.toArray[i + 1].1 rest.toArray[i].2 right >>= joinBack rest.toArray i hi := rfl
        _ = joinAll (rest.toArray[i].2) (rest.drop (i + 1)) >>= joinBack rest.toArray i hi := by
              rw [next, joinAll, bind_assoc]
        _ = joinAll (rest.toArray[0].2) (rest.drop 1) := ih hi

theorem foldRight_eq_joinAll (first : α) (rest : List ((α → α → Except ε α) × α)) :
    foldRight first rest = joinAll first rest := by
  cases rest with
  | nil => rfl
  | cons z rest =>
      have last : (z :: rest).drop (rest.length + 1) = [] := List.drop_length
      have back := joinAll_bind_joinBack (z :: rest) rest.length (Nat.lt_succ_self _)
      rw [last, joinAll] at back
      exact congrArg (· >>= z.1 first) back

end Parser

namespace Chain

theorem joinAll_parsed (chain : Chain α) :
    Parser.joinAll chain.first (chain.parsed (ε := ε)).2 = .ok chain.joinRight := by
  obtain ⟨x, rest⟩ := chain
  simp only [parsed, joinRight]
  induction rest generalizing x with
  | nil => rfl
  | cons z rest ih =>
      rw [List.map_cons, Parser.joinAll, show (Prod.map operation id z).2 = z.2 from rfl, ih]
      rfl

end Chain

/-! ### What is yielded -/

namespace Behaviour

variable {p : Behaviour ε α} {P : α → Prop} {c d : Cursor} {s t : Session}

/-- Every value that the behaviour succeeds with satisfies `P`. -/
def Yields (p : Behaviour ε α) (P : α → Prop) : Prop :=
  ∀ ⦃c s x d t⦄, p c s = (.success x d, t) → P x

theorem Yields.items (hp : p.Yields P) {xs : List α} (read : p.Items c s xs d t) :
    ∀ x ∈ xs, P x := by
  induction read with
  | nil => exact fun _ => nofun
  | cons h _ _ ih => exact List.forall_mem_cons.mpr ⟨hp h, ih⟩

theorem Yields.advancing (hp : p.Yields P) : (Behaviour.advancing p).Yields P := by
  intro c s x d t h
  simp only [Behaviour.advancing] at h
  cases hx : p c s with
  | mk o s' =>
      cases o with
      | success y d' =>
          simp only [hx] at h
          split at h
          · simp at h
          · simp only [Prod.mk.injEq, Outcome.success.injEq] at h
            exact h.1.1 ▸ hp hx
      | failure _ _ | thrown _ | exhausted => simp [hx] at h

/-- A callback matters at the values only that are yielded. -/
theorem Yields.map_congr {f f' : α → Except ε β} (hp : p.Yields P) (h : ∀ x, P x → f x = f' x) :
    map f p = map f' p := by
  funext c s
  simp only [map]
  cases hx : p c s with
  | mk o s' =>
      cases o with
      | success x d => simp only [h x (hp hx)]
      | failure _ _ | thrown _ | exhausted => rfl

/-- If all values come from others by `k`, then so do the outcomes. -/
theorem Yields.exists_map {k : β → α} (hp : p.Yields fun x => ∃ y, x = k y) (c : Cursor)
    (s : Session) : ∃ o : Outcome ε β, (p c s).1 = o.map k := by
  cases hx : p c s with
  | mk o t =>
      cases o with
      | success x d =>
          obtain ⟨y, rfl⟩ := hp hx
          exact ⟨.success y d, rfl⟩
      | failure o e => exact ⟨.failure o e, rfl⟩
      | thrown fault => exact ⟨.thrown fault, rfl⟩
      | exhausted => exact ⟨.exhausted, rfl⟩

theorem map_of_eq {p : Behaviour ε β} {o : Outcome ε α} {k : α → β} {f : β → Except ε γ} {h : α → γ}
    (hp : p c s = (o.map k, t)) (hf : ∀ x, f (k x) = .ok (h x)) : map f p c s = (o.map h, t) := by
  simp only [map, hp]
  cases o with
  | success x d => simp only [Outcome.map, hf x]
  | failure _ _ | thrown _ | exhausted => rfl

end Behaviour

open Behaviour (Onward Yields)

/-! ### Chains -/

namespace Parser

/-- A first operand, and then operators with an operand behind each. -/
def operands (p : Parser ε ρ α) (operator : Parser ε ρ (α → α → Except ε α)) :
    Parser ε ρ (α × List ((α → α → Except ε α) × α)) :=
  p.bind fun x => (many (operator.pair p)).map fun rest => (x, rest)

/-- The operands so far joined with one more, as far as the operation raises no exception. -/
def joined (left : α) (z : (α → α → Except ε α) × α) : α :=
  match z.1 left z.2 with
  | .ok value => value
  | .error _ => left

end Parser

namespace Chain

theorem foldl_joined (chain : Chain α) :
    (chain.parsed (ε := ε)).2.foldl Parser.joined chain.first = chain.joinLeft := by
  simp only [parsed, List.foldl_map]
  rfl

/-- Operations none of which raises an exception are those of a chain. -/
theorem exists_parsed (x : α) {rest : List ((α → α → Except ε α) × α)}
    (total : ∀ z ∈ rest, ∃ h, z.1 = operation h) : ∃ chain : Chain α, (x, rest) = chain.parsed := by
  have each : rest ∈ Set.range (List.map (Prod.map (operation (ε := ε)) (id : α → α))) := by
    rw [Set.range_list_map]
    intro z hz
    obtain ⟨h, hf⟩ := total z hz
    exact ⟨(h, z.2), Prod.ext hf.symm rfl⟩
  obtain ⟨rest, rfl⟩ := each
  exact ⟨⟨x, rest⟩, rfl⟩

end Chain

namespace Grammar

open Parsing.Decimal (TooManyDigits)
open Parsing.Parser (chainl chainl1 chainr chainr1 joined many operands tailRec)

variable {g : Grammar ε ρ} {p : Parser ε ρ α} {operator : Parser ε ρ (α → α → Except ε α)}
  {c : Cursor} {s s' : Session}

theorem meaning_operands (p : Parser ε ρ α) (operator : Parser ε ρ (α → α → Except ε α)) :
    g.meaning (operands p operator) = .bind (g.meaning p) fun x =>
      .map (fun rest => .ok (x, rest)) (g.meaning (many (operator.pair p))) := by
  rw [operands, meaning_bind]
  simp only [meaning_map]

theorem meaning_chainr1 (p : Parser ε ρ α) (operator : Parser ε ρ (α → α → Except ε α)) :
    g.meaning (chainr1 p operator) =
      .map (fun z => Parser.joinAll z.1 z.2) (g.meaning (operands p operator)) := by
  rw [chainr1, meaning_bind, meaning_operands, Behaviour.map_bind]
  congr 1
  funext x
  rw [meaning_mapM, Behaviour.map_map]
  congr 1
  funext rest
  exact Parser.foldRight_eq_joinAll x rest

theorem pair_yields (total : (g.meaning operator).Yields fun f => ∃ h, f = operation h) :
    (g.meaning (operator.pair p)).Yields fun z => ∃ h, z.1 = operation h := by
  intro c s z d t h
  rw [Parser.pair, meaning_combine] at h
  obtain ⟨f, c', s', hf, hy⟩ := Behaviour.bind_eq_success_iff.mp h
  obtain ⟨y, _, rfl⟩ := Behaviour.map_eq_success_iff.mp hy
  exact total hf

/-- The loop of `chainl1` joins the operands that a repetition reads. -/
theorem meaning_chainl1 (total : (g.meaning operator).Yields fun f => ∃ h, f = operation h) :
    g.meaning (chainl1 p operator) =
      .map (fun z => .ok (z.2.foldl joined z.1)) (g.meaning (operands p operator)) := by
  have step (left : α) : g.meaning (.alt (.mapM (fun z => (z.1 left z.2).map Step.loop)
      (.advancing (operator.pair p))) (.pure (.done left))) =
        g.meaning (.alt (.map (fun z => .loop (joined left z)) (.advancing (operator.pair p)))
          (.pure (.done left))) := by
    rw [meaning_alt, meaning_alt, meaning_mapM, meaning_map, meaning_advancing]
    rw [(pair_yields total).advancing.map_congr]
    rintro ⟨_, y⟩ ⟨h, rfl⟩
    rfl
  rw [chainl1, meaning_bind, meaning_operands, Behaviour.map_bind]
  congr 1
  funext x
  rw [Behaviour.map_map]
  calc g.meaning (tailRec _ x)
      = g.meaning (tailRec (fun left => .alt (.map (fun z => .loop (joined left z))
          (.advancing (operator.pair p))) (.pure (.done left))) x) := meaning_tailRec_congr step x
    _ = g.meaning ((many (operator.pair p)).map fun rest => rest.foldl joined x) :=
          (g.loop_indistinct (operator.pair p) joined (fun left => left) x).meaning_eq
    _ = _ := meaning_map _ _

theorem operands_yields (total : (g.meaning operator).Yields fun f => ∃ h, f = operation h) :
    (g.meaning (operands p operator)).Yields fun z => ∃ chain : Chain α, z = chain.parsed := by
  intro c s z d t h
  rw [meaning_operands] at h
  obtain ⟨x, c', s', _, hz⟩ := Behaviour.bind_eq_success_iff.mp h
  obtain ⟨rest, many, rfl⟩ := Behaviour.map_eq_success_iff.mp hz
  obtain ⟨_, read, _⟩ := meaning_many_success_iff.mp many
  exact Chain.exists_parsed x ((pair_yields total).items read)

theorem pair_onward (ho : (g.meaning operator).Onward) (hp : (g.meaning p).Onward) :
    (g.meaning (operator.pair p)).Onward := by
  rw [Parser.pair, meaning_combine]
  exact ho.bind fun _ => hp.map

/-- If nothing goes back, then operands fail where they begin only if the first one does. -/
theorem meaning_operands_empty (hp : (g.meaning p).Onward) (ho : (g.meaning operator).Onward)
    {e : ParseError} (h : g.meaning (operands p operator) c s = (.failure c.offset e, s')) :
    g.meaning p c s = (.failure c.offset e, s') := by
  rw [meaning_operands] at h
  obtain h | ⟨x, d, t, hx, hr⟩ := Behaviour.bind_eq_failure_iff.mp h
  · exact h
  · have further := lt_of_many_failure (pair_onward ho hp) (Behaviour.map_eq_failure_iff.mp hr)
    have forward := hp.success hx
    omega

/-- **Both chains are folds of the same operands.**  Let operations raise no exceptions.  Operands
are read by reading one and then repeating an operator with an operand behind it.  `chainl1` and
`chainr1` end as that does: they fail with the same failure and succeed where it does, with what was
read joined from the left and from the right.

`chainl` and `chainr` differ from them where that fails empty, and only there: they succeed with the
default where they were entered.  If neither parser goes back, it fails empty only where the first
operand does, so that an operator without an operand behind it does not bring in the default. -/
theorem run_chains (g : Grammar ε ρ) (p : Parser ε ρ α)
    (operator : Parser ε ρ (α → α → Except ε α)) (default : α)
    (total : (g.meaning operator).Yields fun f => ∃ h, f = operation h) (c : Cursor) (s : Session) :
    ∃ (o : Outcome ε (Chain α)) (s' : Session),
      g.meaning (p.bind fun x => (many (operator.pair p)).map fun rest => (x, rest)) c s =
        (o.map Chain.parsed, s') ∧
      g.meaning (chainl1 p operator) c s = (o.map Chain.joinLeft, s') ∧
      g.meaning (chainr1 p operator) c s = (o.map Chain.joinRight, s') ∧
      g.meaning (chainl p operator default) c s =
        ((o.map Chain.joinLeft).orDefault default c, s') ∧
      g.meaning (chainr p operator default) c s =
        ((o.map Chain.joinRight).orDefault default c, s') ∧
      ((g.meaning p).Onward → (g.meaning operator).Onward → ∀ e,
        o = .failure c.offset e → g.meaning p c s = (.failure c.offset e, s')) := by
  obtain ⟨o, ho⟩ := (operands_yields (p := p) total).exists_map c s
  have read : g.meaning (operands p operator) c s =
      (o.map Chain.parsed, (g.meaning (operands p operator) c s).2) := Prod.ext ho rfl
  generalize (g.meaning (operands p operator) c s).2 = s' at read
  have left : g.meaning (chainl1 p operator) c s = (o.map Chain.joinLeft, s') := by
    rw [meaning_chainl1 total]
    exact Behaviour.map_of_eq read fun chain => congrArg Except.ok chain.foldl_joined
  have right : g.meaning (chainr1 p operator) c s = (o.map Chain.joinRight, s') := by
    rw [meaning_chainr1]
    exact Behaviour.map_of_eq read Chain.joinAll_parsed
  refine ⟨o, s', read, left, right, ?_, ?_, fun hp hf e he => ?_⟩
  · rw [chainl, meaning_alt, meaning_pure, Behaviour.alt_pure, left]
  · rw [chainr, meaning_alt, meaning_pure, Behaviour.alt_pure, right]
  · subst he
    exact meaning_operands_empty hp hf read

/-- The chain `1+2*3` comes to `9` from the left and to `7` from the right. -/
theorem run_chains_digits :
    let g := Json.grammar .standard
    let digit : Parser TooManyDigits Json.Rule Nat :=
      (Parser.satisfy Char.isDigit).map fun x => x.toNat - 48
    let sign : Parser TooManyDigits Json.Rule (Nat → Nat → Except TooManyDigits Nat) :=
      (Parser.satisfy fun x => x == '+' || x == '*').map fun x =>
        if x == '+' then operation (· + ·) else operation (· * ·)
    let c : Cursor := .start #['1', '+', '2', '*', '3']
    let d : Cursor := ⟨#['1', '+', '2', '*', '3'], 5, by decide⟩
    (g.meaning sign).Yields (fun f => ∃ h, f = operation h) ∧
    ∃ (o : Outcome TooManyDigits (Chain Nat)) (s' : Session),
      g.meaning (digit.bind fun x =>
        (many (sign.pair digit)).map fun rest => (x, rest)) c .start = (o.map Chain.parsed, s') ∧
      o.map Chain.joinLeft = .success 9 d ∧ o.map Chain.joinRight = .success 7 d := by
  intro g digit sign c d
  have total : (g.meaning sign).Yields fun f => ∃ h, f = operation h := by
    intro c s f d t h
    rw [meaning_map] at h
    obtain ⟨x, _, rfl⟩ := Behaviour.map_eq_success_iff.mp h
    by_cases hx : x == '+'
    · exact ⟨(· + ·), if_pos hx⟩
    · exact ⟨(· * ·), if_neg hx⟩
  obtain ⟨o, s', read, left, right, _⟩ := run_chains g digit sign 0 total c .start
  have nine : g.meaning (chainl1 digit sign) c .start = (.success 9 d, .start) :=
    (meaning_eq_iff (by simp)).mpr ⟨5, by dsimp only [g, digit, sign, c, d]; decide +kernel⟩
  have seven : g.meaning (chainr1 digit sign) c .start = (.success 7 d, .start) :=
    (meaning_eq_iff (by simp)).mpr ⟨5, by dsimp only [g, digit, sign, c, d]; decide +kernel⟩
  exact ⟨total, o, s', read, congrArg Prod.fst (left.symm.trans nine),
    congrArg Prod.fst (right.symm.trans seven)⟩

end Grammar

end Parsing
