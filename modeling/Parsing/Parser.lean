import Parsing.Behaviour

/-!
# Parsers

A parser is a term over the operations of the algebra, so that what holds of every parser can be
shown by going through the operations.  Continuations and the steps of loops are functions that
give parsers.  A parser cannot contain itself; where a grammar is recursive it names a rule
(`deferred`), which is looked up in the grammar when the parser is run.

`ε` are the exceptions that callbacks raise and `ρ α` the names of rules for `α`.
-/

namespace Parsing

/-- A parser of `α`. -/
inductive Parser (ε : Type) (ρ : Type → Type) : Type → Type 1 where
  /-- Succeeds without reading. -/
  | pure {α : Type} (value : α) : Parser ε ρ α
  /-- Fails without reading. -/
  | fail {α : Type} (error : ParseError) : Parser ε ρ α
  /-- Raises an exception. -/
  | raise {α : Type} (exception : ε) : Parser ε ρ α
  /-- Reads one character of a class. -/
  | satisfy (accepts : Char → Bool) : Parser ε ρ Char
  /-- Reads a whole string or nothing. -/
  | string (text : String) : Parser ε ρ String
  /-- Succeeds with the offset. -/
  | position : Parser ε ρ Nat
  /-- Applies a callback to the value of a success. -/
  | mapM {α β : Type} (f : α → Except ε β) (p : Parser ε ρ α) : Parser ε ρ β
  /-- Reads a callback and then its argument, and applies the one to the other. -/
  | applyM {α β : Type} (p : Parser ε ρ (α → Except ε β)) (q : Parser ε ρ α) : Parser ε ρ β
  /-- Continues with a parser chosen by the value of a success. -/
  | bind {α β : Type} (p : Parser ε ρ α) (f : α → Parser ε ρ β) : Parser ε ρ β
  /-- Tries the second parser where the first fails empty. -/
  | alt {α : Type} (p q : Parser ε ρ α) : Parser ε ρ α
  /-- Gives an empty failure the message that `name` was expected. -/
  | label {α : Type} (p : Parser ε ρ α) (name : String) : Parser ε ρ α
  /-- Puts a suggestion in front of those of an empty failure. -/
  | suggest {α : Type} (p : Parser ε ρ α) (suggestion : Suggestion) : Parser ε ρ α
  /-- Makes every failure empty. -/
  | attempt {α : Type} (p : Parser ε ρ α) : Parser ε ρ α
  /-- Goes back to the start after a success. -/
  | lookAhead {α : Type} (p : Parser ε ρ α) : Parser ε ρ α
  /-- Succeeds, without reading, exactly where `p` fails. -/
  | notFollowedBy {α : Type} (shown : α → String) (p : Parser ε ρ α) : Parser ε ρ Unit
  /-- Turns a success that read nothing into an empty failure. -/
  | advancing {α : Type} (p : Parser ε ρ α) : Parser ε ρ α
  /-- Goes round with a step until it answers with a result. -/
  | tailRec {σ α : Type} (step : σ → Parser ε ρ (Step σ α)) (initial : σ) : Parser ε ρ α
  /-- The parser of a rule, built when it is first entered and kept in a cell. -/
  | deferred {α : Type} (cell : Cell) (rule : ρ α) : Parser ε ρ α
  /-- A parser whose text is built anew, in a frame of its own, whenever it is entered. -/
  | fresh {α : Type} (p : Frame → Parser ε ρ α) : Parser ε ρ α
  /-- Logs where the cursor is. -/
  | trace (name : String) : Parser ε ρ Unit
  /-- Logs the entry into `p` and its failures. -/
  | traced {α : Type} (name : String) (p : Parser ε ρ α) : Parser ε ρ α
  /-- Notes in the journal where `p` is entered. -/
  | visit {α : Type} (name : String) (p : Parser ε ρ α) : Parser ε ρ α
  /-- A parser written by hand, from what it answers at a cursor. -/
  | custom {α : Type} (answer : Cursor → Outcome ε α) : Parser ε ρ α

namespace Parser

variable {ε : Type} {ρ : Type → Type} {α β : Type}

/-- Applies a function to the value of a success. -/
def map (f : α → β) (p : Parser ε ρ α) : Parser ε ρ β := p.mapM fun x => .ok (f x)

/-- Reads a function and then its argument, and applies the one to the other. -/
def apply (p : Parser ε ρ (α → β)) (q : Parser ε ρ α) : Parser ε ρ β :=
  (p.map fun f x => .ok (f x)).applyM q

/-- Reads both in turn, and keeps the second value. -/
def keepRight (p : Parser ε ρ α) (q : Parser ε ρ β) : Parser ε ρ β := p.bind fun _ => q

/-- Reads both in turn, and keeps the first value. -/
def keepLeft (p : Parser ε ρ α) (q : Parser ε ρ β) : Parser ε ρ α :=
  p.bind fun x => q.map fun _ => x

instance : Monad (Parser ε ρ) where
  pure := .pure
  bind := .bind
  map := map
  seq p q := p.apply (q ())
  seqRight p q := p.keepRight (q ())
  seqLeft p q := p.keepLeft (q ())

instance : OrElse (Parser ε ρ α) := ⟨fun p q => p.alt (q ())⟩

/-- What a parser does, given what the parsers of rules do and how many rounds a loop may
take. -/
def behaviour (enter : {α : Type} → Cell → ρ α → Behaviour ε α) (rounds : Nat) {α : Type} :
    Parser ε ρ α → Behaviour ε α
  | .pure value => .pure value
  | .fail error => .fail error
  | .raise exception => .throw (.raised exception)
  | .satisfy accepts => .satisfy accepts
  | .string text => .string text
  | .position => .position
  | .mapM f p => .map f (p.behaviour enter rounds)
  | .applyM p q => .apply (p.behaviour enter rounds) (q.behaviour enter rounds)
  | .bind p f => .bind (p.behaviour enter rounds) fun x => (f x).behaviour enter rounds
  | .alt p q => .alt (p.behaviour enter rounds) (q.behaviour enter rounds)
  | .label p name => .label (p.behaviour enter rounds) name
  | .suggest p suggestion => .suggest (p.behaviour enter rounds) suggestion
  | .attempt p => .attempt (p.behaviour enter rounds)
  | .lookAhead p => .lookAhead (p.behaviour enter rounds)
  | .notFollowedBy shown p => .notFollowedBy shown (p.behaviour enter rounds)
  | .advancing p => .advancing (p.behaviour enter rounds)
  | .tailRec step initial =>
    .loop (fun state => (step state).behaviour enter rounds) rounds initial
  | .deferred cell rule => enter cell rule
  | .fresh p => .fresh fun frame => (p frame).behaviour enter rounds
  | .trace name => .trace name
  | .traced name p => .traced name (p.behaviour enter rounds)
  | .visit name p => .visit name (p.behaviour enter rounds)
  | .custom answer => fun c s => (answer c, s)

end Parser

end Parsing
