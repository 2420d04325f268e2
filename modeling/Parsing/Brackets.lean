import Parsing.Grammar
import Parsing.Parser.Character
import Parsing.Parser.Repetition
import Parsing.Parser.Sequence

/-!
# Nested brackets

The grammar of a pair of brackets with groups of the same kind between them, any number and to any
depth.  What stands between the brackets is deferred to the rule that it is part of.  The value is
how deep the brackets nest.
-/

namespace Parsing.Brackets

open Parsing.Parser hiding pure

variable {ε : Type} {ρ : Type → Type}

/-- A pair of brackets, with the groups between them deferred to a rule. -/
def group (rule : ρ Nat) (cell : Cell) : Parser ε ρ Nat :=
  (between (char '[') (char ']') (many (deferred cell rule))).map fun inner =>
    1 + inner.max?.getD 0

/-- The rules of the grammar. -/
inductive Rule : Type → Type where
  | group : Rule Nat

/-- The grammar of nested brackets. -/
def grammar : Grammar Empty Rule where
  build
    | .group, frame => .ok (group .group ⟨frame, 0⟩)

/-- The parser of a group. -/
def parser : Parser Empty Rule Nat := group .group ⟨0, 0⟩

end Parsing.Brackets
