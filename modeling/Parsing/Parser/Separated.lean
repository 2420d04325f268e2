import Parsing.Parser.Repetition

/-!
# Separated items

Repetitions of an item with something between the items (`sepBy`), behind each of them (`endBy`),
or between them and possibly behind the last (`sepEndBy`).
-/

namespace Parsing.Parser

variable {ε : Type} {ρ : Type → Type} {α β : Type}

/-- One item or more, with separators between them. -/
def sepBy1 (p : Parser ε ρ α) (separator : Parser ε ρ β) : Parser ε ρ (List α) :=
  p.bind fun x => (manyReversed (separator.keepRight p)).map fun items => x :: items.reverse

/-- Items with separators between them, or nothing. -/
def sepBy (p : Parser ε ρ α) (separator : Parser ε ρ β) : Parser ε ρ (List α) :=
  (sepBy1 p separator).alt (pure [])

/-- Items with a separator behind each. -/
def endBy (p : Parser ε ρ α) (separator : Parser ε ρ β) : Parser ε ρ (List α) :=
  many (p.keepLeft separator)

/-- One item or more, with separators between them and perhaps behind the last.  Behind a
separator the next item is optional; a separator and an item that together read nothing end the
loop. -/
def sepEndBy1 (p : Parser ε ρ α) (separator : Parser ε ρ β) : Parser ε ρ (List α) :=
  (p.bind fun x =>
    tailRec
      (fun items =>
        (advancing
          (separator.keepRight
            ((p.map fun y => Step.loop (y :: items)).alt (pure (.done items))))).alt
          (pure (.done items)))
      [x]).map List.reverse

/-- Items with separators between them and perhaps behind the last, or nothing. -/
def sepEndBy (p : Parser ε ρ α) (separator : Parser ε ρ β) : Parser ε ρ (List α) :=
  (sepEndBy1 p separator).alt (pure [])

end Parsing.Parser
