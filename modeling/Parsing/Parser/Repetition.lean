import Parsing.Parser

/-!
# Repetitions

Parsers that run another a number of times.  An item that succeeds without reading ends a
repetition that would otherwise go on for ever; `count` knows how often to go round and takes
such items, and so does `forever`, which has no end but a failure.

The loops gather their items newest first.
-/

namespace Parsing.Parser

variable {ε : Type} {ρ : Type → Type} {α β : Type}

/-- The items of as many `p` as there are, newest first. -/
def manyReversed (p : Parser ε ρ α) : Parser ε ρ (List α) :=
  tailRec
    (fun items => ((advancing p).map fun x => Step.loop (x :: items)).alt (pure (.done items)))
    []

/-- Reads `p` as often as it is there. -/
def many (p : Parser ε ρ α) : Parser ε ρ (List α) := (manyReversed p).map List.reverse

/-- Reads `p` as often as it is there, and drops the values. -/
def skipMany (p : Parser ε ρ α) : Parser ε ρ Unit :=
  tailRec (fun () => ((advancing p).map fun _ => Step.loop ()).alt (pure (.done ()))) ()

/-- Reads `p` once or more. -/
def many1 (p : Parser ε ρ α) : Parser ε ρ (List α) :=
  p.bind fun x => (many p).map fun xs => x :: xs

/-- Reads `p` once or more, and drops the values. -/
def skipMany1 (p : Parser ε ρ α) : Parser ε ρ Unit := p.keepRight (skipMany p)

/-- Reads `p` until it has been read `enough` times. -/
def repeated (enough : Nat → Bool) (p : Parser ε ρ α) : Parser ε ρ (List α) :=
  (tailRec
    (fun (k, items) =>
      if enough k then pure (.done items) else p.map fun x => Step.loop (k + 1, x :: items))
    ((0, []) : Nat × List α)).map List.reverse

/-- Reads `p` exactly `n` times, not at all if `n` is negative. -/
def count (n : Int) (p : Parser ε ρ α) : Parser ε ρ (List α) :=
  if n ≤ 0 then pure [] else repeated (fun k => (k : Int) = n) p

/-- Reads `p` again and again.  It cannot succeed: it ends where `p` fails. -/
def forever (p : Parser ε ρ α) : Parser ε ρ (List α) := repeated (fun _ => false) p

/-- Reads `p` until `ending` is there, and reads that too. -/
def manyTill (p : Parser ε ρ α) (ending : Parser ε ρ β) : Parser ε ρ (List α) :=
  (tailRec
    (fun items =>
      (ending.map fun _ => Step.done items).alt
        ((advancing p).map fun x => Step.loop (x :: items)))
    []).map List.reverse

end Parsing.Parser
