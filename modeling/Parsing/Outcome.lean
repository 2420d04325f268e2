import Parsing.ParseError
import Parsing.Session

/-!
# Outcomes

A run of a parser succeeds with a value and the cursor behind what it read, or fails with an
error and the offset it had reached, or is cut short by an exception.  Runs are bounded by a
number of rounds; one that would need more is exhausted, which is an outcome of its own.
-/

namespace Parsing

open Parsing.Text

/-- An exception that cuts a run short; `ε` are those that callbacks raise. -/
inductive Fault (ε : Type) where
  /-- A cursor was moved out of its text. -/
  | outOfRange (error : RangeError)
  /-- The step of a loop answered neither with a new state nor with a result. -/
  | strayStep (shown : String)
  /-- A callback raised an exception. -/
  | raised (exception : ε)
  deriving DecidableEq

/-- How a run of a parser of `α` ends. -/
inductive Outcome (ε α : Type) where
  | success (value : α) (rest : Cursor)
  | failure (offset : Int) (error : ParseError)
  | thrown (fault : Fault ε)
  | exhausted
  deriving DecidableEq

/-- What the step of a loop answers. -/
inductive Step (σ α : Type) where
  /-- Go round again with a new state. -/
  | loop (state : σ)
  /-- Stop with a result. -/
  | done (result : α)
  /-- Neither; the loop is broken off, and the answer is shown. -/
  | stray (shown : String)
  deriving DecidableEq

/-- The text of a stray answer's exception. -/
def strayStepMessage (shown : String) : String :=
  "tail_rec step must produce Loop or Done, got " ++ shown

/-- A success as messages show it. -/
def writtenSuccess (value : String) (rest : Cursor) : String :=
  writtenRecord "Success" [("value", value), ("remaining", rest.written)]

/-- A failure as messages show it. -/
def writtenFailure (offset : Int) (error : ParseError) : String :=
  writtenRecord "Failure" [("offset", toString offset), ("error", error.written)]

end Parsing
