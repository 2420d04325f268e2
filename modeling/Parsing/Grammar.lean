import Parsing.Parser

/-!
# Grammars and runs

A grammar gives each rule its parser, built for a frame.  A run is bounded by its fuel: so many
cells can be entered within one another, and so many rounds a loop can take.  A run that ends
within its fuel ends in the same way with more.
-/

namespace Parsing

/-- The parsers of the rules `ρ`.  Building one may raise an exception; a rule with a label shows
it in the journal when its parser is built. -/
structure Grammar (ε : Type) (ρ : Type → Type) where
  build : {α : Type} → ρ α → Frame → Except ε (Parser ε ρ α)
  label : {α : Type} → ρ α → Option String := fun _ => none

namespace Grammar

variable {ε : Type} {ρ : Type → Type} {α : Type}

/-- Enters a deferred parser: the one in the cell, or else a new one, which fills the cell.  If
its building raises an exception the cell stays as it was. -/
def enter (g : Grammar ε ρ) (run : {α : Type} → Parser ε ρ α → Behaviour ε α) (cell : Cell)
    (rule : ρ α) : Behaviour ε α := fun c s =>
  match s.built? cell with
  | some frame =>
    match g.build rule frame with
    | .ok p => run p c s
    | .error exception => (.thrown (.raised exception), s)
  | none =>
    let (frame, s) := s.openFrame
    match g.build rule frame with
    | .ok p => run p c ((s.record (.built cell (g.label rule) true)).fill cell frame)
    | .error exception =>
      (.thrown (.raised exception), s.record (.built cell (g.label rule) false))

/-- Runs a parser with the given fuel. -/
def run (g : Grammar ε ρ) : Nat → {α : Type} → Parser ε ρ α → Behaviour ε α
  | 0, _, p => p.behaviour (fun _ _ => .exhausted) 0
  | fuel + 1, _, p => p.behaviour (fun cell rule => g.enter (g.run fuel) cell rule) (fuel + 1)

/-- Runs a parser on a whole text, from its beginning; a failure is logged. -/
def runText (g : Grammar ε ρ) (fuel : Nat) (p : Parser ε ρ α) (text : Array Char) (s : Session) :
    Outcome ε α × Session :=
  match g.run fuel p (.start text) s with
  | (.failure offset error, s) =>
    (.failure offset error,
      s.log ("parse failed at offset " ++ toString offset ++ ": " ++ error.message))
  | reply => reply

end Grammar

end Parsing
