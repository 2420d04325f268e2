import Parsing.Script.Building

/-!
# Programs

A program is a term with definitions that it and its parts can name.  Its parser is built once;
runs of it share a session, so that what a run builds is there for the next.
-/

namespace Parsing.Script

/-- A term, and the terms it can name. -/
structure Program where
  term : Term
  definitions : List (String × Term)

/-- What can be asked of a parser. -/
inductive Request where
  /-- Run it on a text from its beginning. -/
  | run (text : Array Char)
  /-- Run it on a text from its beginning, a failure being an exception. -/
  | parse (text : Array Char)
  /-- Run it from an offset of a text. -/
  | atOffset (text : Array Char) (offset : Int)
  /-- Run it from an offset of a text and show the outcome. -/
  | describe (text : Array Char) (offset : Int)

/-- The answer to a request. -/
inductive Answer where
  /-- A run succeeded. -/
  | ran (value : Value)
  /-- A run failed. -/
  | ranWithout (error : ParseError)
  /-- The value of a text. -/
  | parsed (value : Value)
  /-- A text without a value. -/
  | rejected (error : ParseError)
  /-- A run succeeded and ended at an offset. -/
  | reached (value : Value) (offset : Nat)
  /-- A run failed at an offset. -/
  | failedAt (offset : Int) (error : ParseError)
  /-- The outcome of a run, shown. -/
  | described (text : String)
  /-- A run was cut short. -/
  | thrown (fault : Fault Exception)
  /-- A run needed more fuel than there was. -/
  | exhausted

/-- The answer to a request for the outcome of a run. -/
def Request.answer : Request → Outcome Exception Value → Answer
  | _, .thrown fault => .thrown fault
  | _, .exhausted => .exhausted
  | .run _, .success value _ => .ran value
  | .run _, .failure _ error => .ranWithout error
  | .parse _, .success value _ => .parsed value
  | .parse _, .failure _ error => .rejected error
  | .atOffset .., .success value rest => .reached value rest.offset
  | .atOffset .., .failure offset error => .failedAt offset error
  | .describe .., .success value rest =>
    match value.written with
    | .ok value => .described (writtenSuccess value rest)
    | .error exception => .thrown (.raised exception)
  | .describe .., .failure offset error => .described (writtenFailure offset error)

namespace Program

/-- The grammar of a program. -/
def grammar (program : Program) : Grammar Exception Rule := Script.grammar program.definitions

/-- The parser of a program, built in the first frame of a session. -/
def parser (program : Program) : Built := program.term.build 0 [] 0

/-- The fuel of a run: more than any run could use in a lifetime. -/
def fuel : Nat := Nat.pow 2 62

/-- Runs a parser as a request asks. -/
def outcome (program : Program) (p : ScriptParser Value) (request : Request) (s : Session) :
    Outcome Exception Value × Session :=
  match request with
  | .run text | .parse text => program.grammar.runText fuel p text s
  | .atOffset text offset | .describe text offset =>
    match Cursor.place text offset with
    | .ok c => program.grammar.run fuel p c s
    | .error e => (.thrown (.outOfRange e), s)

/-- Answers a request, with the events of its run. -/
def answer (program : Program) (p : ScriptParser Value) (request : Request) (s : Session) :
    (Answer × List Event) × Session :=
  let (outcome, s) := program.outcome p request s.withoutJournal
  ((request.answer outcome, s.events), s)

/-- Answers requests one after the other. -/
def answerAll (program : Program) (p : ScriptParser Value) :
    List Request → Session → List (Answer × List Event)
  | [], _ => []
  | request :: requests, s =>
    let (reply, s) := program.answer p request s
    reply :: program.answerAll p requests s

/-- Builds the parser of a program and answers requests with it, or gives the exception raised
while it was built. -/
def perform (program : Program) (requests : List Request) :
    Except Exception (List (Answer × List Event)) :=
  match program.parser with
  | .ok p => .ok (program.answerAll p requests .start)
  | .error exception => .error exception

end Program

end Parsing.Script
