import Parsing.Parser

/-!
# Choices

Parsers that decide between alternatives, in order and by empty failures: an alternative that has
read something before it fails is final.
-/

namespace Parsing.Parser

variable {ε : Type} {ρ : Type → Type} {α : Type}

/-- The choice among no alternatives. -/
def empty : Parser ε ρ α := fail ⟨"No alternative", []⟩

/-- The first of the alternatives that does not fail empty. -/
def choice : List (Parser ε ρ α) → Parser ε ρ α
  | [] => empty
  | p :: ps => ps.foldl alt p

/-- Reads `p`, or answers with `default` where `p` fails empty. -/
def option (default : α) (p : Parser ε ρ α) : Parser ε ρ α := p.alt (pure default)

/-- Reads `p` if it is there. -/
def optionMaybe (p : Parser ε ρ α) : Parser ε ρ (Option α) := (p.map some).alt (pure none)

/-- Reads `p` if it is there, and drops its value. -/
def optional (p : Parser ε ρ α) : Parser ε ρ Unit := (p.map fun _ => ()).alt (pure ())

end Parsing.Parser
