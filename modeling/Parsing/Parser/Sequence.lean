import Parsing.Parser

/-!
# Sequences

Parsers that run others one after the other and put their values together.
-/

namespace Parsing.Parser

variable {ε : Type} {ρ : Type → Type} {α β γ : Type}

/-- Reads both in turn, and combines the two values with a callback. -/
def combineM (f : α → β → Except ε γ) (p : Parser ε ρ α) (q : Parser ε ρ β) : Parser ε ρ γ :=
  (p.map fun x y => f x y).applyM q

/-- Reads both in turn, and combines the two values. -/
def combine (f : α → β → γ) (p : Parser ε ρ α) (q : Parser ε ρ β) : Parser ε ρ γ :=
  combineM (fun x y => .ok (f x y)) p q

/-- Reads both in turn, and keeps both values. -/
def pair (p : Parser ε ρ α) (q : Parser ε ρ β) : Parser ε ρ (α × β) := combine Prod.mk p q

instance [Append α] : Append (Parser ε ρ α) := ⟨combine (· ++ ·)⟩

/-- Reads `p` between `opening` and `closing`, and keeps its value. -/
def between (opening : Parser ε ρ α) (closing : Parser ε ρ β) (p : Parser ε ρ γ) :
    Parser ε ρ γ :=
  opening.keepRight (p.keepLeft closing)

end Parsing.Parser
