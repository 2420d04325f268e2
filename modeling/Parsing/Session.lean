import Parsing.Cursor

/-!
# Sessions

What lasts from one run of a parser to the next, and what an observer sees of a run.

A *deferred* parser is built when it is first entered, and what was built is kept in a cell for
later entries.  Cells belong to frames: each time the text of a parser is built, at the outset,
by a continuation, by a step of a loop or for a cell, a new frame is opened, and a site of that
text has a cell of its own in each frame.  Building has no effects, so a session keeps for a cell
only the frame in which its parser was built; the parser itself can be built again from it.

The journal lists what a run lets an observer see: lines logged, probes passed, and cells built.
-/

namespace Parsing

/-- One building of the text of a parser. -/
abbrev Frame := Nat

/-- The place where a deferred parser is kept: a site in the text built in a frame. -/
structure Cell where
  frame : Frame
  site : Nat
  deriving DecidableEq

/-- What an observer sees of a run. -/
inductive Event where
  /-- A line was logged. -/
  | logged (message : String)
  /-- A probe was passed at an offset. -/
  | visited (label : String) (offset : Nat)
  /-- The parser of a cell was built, or its building raised an exception. -/
  | built (cell : Cell) (label : Option String) (succeeded : Bool)
  deriving DecidableEq

/-- The frames opened so far with the cells filled in each, and the journal, newest event
first. -/
structure Session where
  frames : Array (List (Nat × Frame))
  journal : List Event
  deriving DecidableEq

namespace Session

/-- A session with one frame and nothing built. -/
def start : Session := ⟨#[[]], []⟩

/-- Enters an event into the journal. -/
def record (s : Session) (event : Event) : Session := { s with journal := event :: s.journal }

/-- Enters a line into the journal. -/
def log (s : Session) (message : String) : Session := s.record (.logged message)

/-- Opens a new frame. -/
def openFrame (s : Session) : Frame × Session :=
  (s.frames.size, { s with frames := s.frames.push [] })

/-- The frame in which the parser of a cell was built, if it was built. -/
def built? (s : Session) (cell : Cell) : Option Frame :=
  s.frames[cell.frame]?.bind fun sites => sites.lookup cell.site

/-- Fills a cell with the parser built in `frame`. -/
def fill (s : Session) (cell : Cell) (frame : Frame) : Session :=
  { s with frames := s.frames.modify cell.frame fun sites => (cell.site, frame) :: sites }

/-- The events of the journal in the order in which they happened. -/
def events (s : Session) : List Event := s.journal.reverse

/-- The same frames and cells with an empty journal. -/
def withoutJournal (s : Session) : Session := { s with journal := [] }

end Session

end Parsing
