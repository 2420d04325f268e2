import Parsing.Proofs.Congruence

/-!
# Composed parsers

A parser is *composed* if it is put together from the operations of the algebra alone: no part of
it is written by hand (`Parser.custom`), and neither is what its continuations, the steps of its
loops and the rules that it defers to give.  That is a congruence, so that what is shown of composed
parsers in general holds of all combinators and of the grammar of JSON.
-/

namespace Parsing

variable {ε : Type} {ρ : Type → Type}

/-- No part of the parser is written by hand. -/
def Parser.Composed : {α : Type} → Parser ε ρ α → Prop
  | _, .pure _ | _, .fail _ | _, .raise _ | _, .satisfy _ | _, .string _ | _, .position
  | _, .deferred _ _ | _, .trace _ => True
  | _, .mapM _ p | _, .label p _ | _, .suggest p _ | _, .attempt p | _, .lookAhead p
  | _, .notFollowedBy _ p | _, .advancing p | _, .traced _ p | _, .visit _ p => p.Composed
  | _, .applyM p q => p.Composed ∧ q.Composed
  | _, .alt p q => p.Composed ∧ q.Composed
  | _, .bind p f => p.Composed ∧ ∀ x, (f x).Composed
  | _, .tailRec step _ => ∀ state, (step state).Composed
  | _, .fresh p => ∀ frame, (p frame).Composed
  | _, .custom _ => False

/-- Every parser that is built for a rule is composed. -/
def Grammar.Composed (g : Grammar ε ρ) : Prop :=
  ∀ {α : Type} (rule : ρ α) (frame : Frame) (p : Parser ε ρ α),
    g.build rule frame = .ok p → p.Composed

/-- Being composed is kept by the operations; the second parser does not matter. -/
instance Parser.Composed.congruence :
    Congruence fun p _ => Composed (ε := ε) (ρ := ρ) p where
  pure _ := trivial
  fail _ := trivial
  satisfy _ := trivial
  string _ := trivial
  mapM _ _ _ h := h
  applyM h hq := ⟨h, hq⟩
  bind h hf := ⟨h, hf⟩
  alt h hq := ⟨h, hq⟩
  label h _ := h
  suggest h _ := h
  notFollowedBy _ _ _ h := h
  advancing h := h
  tailRec h _ := h

/-! ### Documents -/

namespace Json

namespace Rules

variable (toInt : List Char → Except ε Int) (value : ρ Json) (cell : Cell)

theorem entry_composed : (entry value : Parser ε ρ (String × Json)).Composed :=
  @entry_congr ε ρ (fun p _ => p.Composed) _ value value (fun _ => trivial) id

/-- The rules of JSON have nothing in them that is written by hand. -/
theorem element_composed : (element toInt value cell : Parser ε ρ Json).Composed :=
  @element_congr ε ρ (fun p _ => p.Composed) _ toInt value value cell cell trivial
    (entry_composed value)

theorem document_composed : (document toInt value cell : Parser ε ρ Json).Composed :=
  @document_congr ε ρ (fun p _ => p.Composed) _ toInt value value cell cell trivial
    (entry_composed value)

end Rules

variable {limit : Decimal.DigitLimit}

theorem grammar_composed : (grammar limit).Composed := by
  intro _ rule frame p hp
  cases rule
  cases hp
  exact Rules.element_composed _ _ _

theorem parser_composed : (parser limit).Composed := Rules.document_composed _ _ _

end Json

end Parsing
