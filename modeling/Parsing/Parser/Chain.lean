import Parsing.Parser.Repetition
import Parsing.Parser.Sequence

/-!
# Operator chains

Operands with binary operators between them.  An operator's value is the operation, which may
raise an exception when it is applied.
-/

namespace Parsing.Parser

variable {ε : Type} {ρ : Type → Type} {α : Type}

/-- Operands joined from the left, each operation as soon as its right operand is read. -/
def chainl1 (p : Parser ε ρ α) (operator : Parser ε ρ (α → α → Except ε α)) : Parser ε ρ α :=
  p.bind fun x =>
    tailRec
      (fun left =>
        ((advancing (operator.pair p)).mapM fun (f, right) => (f left right).map Step.loop).alt
          (pure (.done left)))
      x

/-- Joins the operands from the `i`th on with those before them, down to the first of `rest`;
`right` is what the former have come to.  An operation has the operand of the one before it on its
left. -/
def joinBack (rest : Array ((α → α → Except ε α) × α)) :
    (i : Nat) → i < rest.size → α → Except ε α
  | 0, _, right => .ok right
  | i + 1, h, right => do
    let right ← rest[i + 1].1 rest[i].2 right
    joinBack rest i (Nat.lt_of_succ_lt h) right

/-- The value of a chain joined from the right: the last operation is applied first. -/
def foldRight (first : α) (rest : List ((α → α → Except ε α) × α)) : Except ε α :=
  let rest := rest.toArray
  if h : 0 < rest.size then do
    let right ← joinBack rest (rest.size - 1) (Nat.sub_one_lt_of_lt h) rest[rest.size - 1].2
    rest[0].1 first right
  else .ok first

/-- Operands joined from the right, once all of them are read. -/
def chainr1 (p : Parser ε ρ α) (operator : Parser ε ρ (α → α → Except ε α)) : Parser ε ρ α :=
  p.bind fun x => (many (operator.pair p)).mapM (foldRight x)

/-- Operands joined from the left, or `default` where there is none. -/
def chainl (p : Parser ε ρ α) (operator : Parser ε ρ (α → α → Except ε α)) (default : α) :
    Parser ε ρ α :=
  (chainl1 p operator).alt (pure default)

/-- Operands joined from the right, or `default` where there is none. -/
def chainr (p : Parser ε ρ α) (operator : Parser ε ρ (α → α → Except ε α)) (default : α) :
    Parser ε ρ α :=
  (chainr1 p operator).alt (pure default)

end Parsing.Parser
