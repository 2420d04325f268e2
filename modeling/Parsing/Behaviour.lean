import Parsing.Outcome

/-!
# Behaviours

What a parser does: from a cursor and a session to an outcome and the session after it.  This
module says, one operation of the algebra at a time, how the behaviour of a composite comes from
those of its parts.

The offset of a failure decides whether another alternative is tried: a failure at the offset
where the parser was entered is *empty*, one anywhere else is *committed* and passes through
choices, labels and suggestions unchanged.
-/

namespace Parsing

open Parsing.Text

/-- From a cursor and a session to an outcome and the session after it. -/
abbrev Behaviour (ε α : Type) := Cursor → Session → Outcome ε α × Session

namespace Behaviour

variable {ε α β σ : Type}

/-- Succeeds without reading. -/
def pure (value : α) : Behaviour ε α := fun c s => (.success value c, s)

/-- Fails without reading. -/
def fail (error : ParseError) : Behaviour ε α := fun c s => (.failure c.offset error, s)

/-- Raises an exception. -/
def throw (fault : Fault ε) : Behaviour ε α := fun _ s => (.thrown fault, s)

/-- Needs more rounds than there are. -/
def exhausted : Behaviour ε α := fun _ s => (.exhausted, s)

/-- Succeeds with `value` after moving by `n` characters. -/
def skip (value : α) (n : Int) : Behaviour ε α := fun c s =>
  match c.advance n with
  | .ok rest => (.success value rest, s)
  | .error e => (.thrown (.outOfRange e), s)

/-- Reads one character of a class. -/
def satisfy (accepts : Char → Bool) : Behaviour ε Char := fun c s =>
  match c.peek with
  | none => fail ⟨"unexpected end of input", []⟩ c s
  | some x =>
    if accepts x then skip x 1 c s else fail ⟨"unexpected " ++ quotedChar x, []⟩ c s

/-- Reads a whole string or nothing. -/
def string (text : String) : Behaviour ε String := fun c s =>
  if c.startsWith text then skip text text.length c s
  else
    let shown := "'" ++ text ++ "'"
    fail ⟨"expecting " ++ shown, [⟨text, shown⟩]⟩ c s

/-- Succeeds with the offset. -/
def position : Behaviour ε Nat := fun c s => (.success c.offset c, s)

/-- Applies a callback to the value of a success. -/
def map (f : α → Except ε β) (p : Behaviour ε α) : Behaviour ε β := fun c s =>
  match p c s with
  | (.success value rest, s) =>
    match f value with
    | .ok value => (.success value rest, s)
    | .error exception => (.thrown (.raised exception), s)
  | (.failure offset error, s) => (.failure offset error, s)
  | (.thrown fault, s) => (.thrown fault, s)
  | (.exhausted, s) => (.exhausted, s)

/-- Continues with a behaviour chosen by the value of a success. -/
def bind (p : Behaviour ε α) (f : α → Behaviour ε β) : Behaviour ε β := fun c s =>
  match p c s with
  | (.success value rest, s) => f value rest s
  | (.failure offset error, s) => (.failure offset error, s)
  | (.thrown fault, s) => (.thrown fault, s)
  | (.exhausted, s) => (.exhausted, s)

/-- Reads a callback and then its argument, and applies the one to the other. -/
def apply (p : Behaviour ε (α → Except ε β)) (q : Behaviour ε α) : Behaviour ε β := fun c s =>
  match p c s with
  | (.success f rest, s) =>
    match q rest s with
    | (.success value rest, s) =>
      match f value with
      | .ok value => (.success value rest, s)
      | .error exception => (.thrown (.raised exception), s)
    | (.failure offset error, s) => (.failure offset error, s)
    | (.thrown fault, s) => (.thrown fault, s)
    | (.exhausted, s) => (.exhausted, s)
  | (.failure offset error, s) => (.failure offset error, s)
  | (.thrown fault, s) => (.thrown fault, s)
  | (.exhausted, s) => (.exhausted, s)

/-- Tries `q` where `p` fails empty; if both fail, the suggestions of `p` come before those of
`q`. -/
def alt (p q : Behaviour ε α) : Behaviour ε α := fun c s =>
  match p c s with
  | (.failure offset error, s) =>
    if offset = c.offset then
      match q c s with
      | (.failure offset' error', s) =>
        (.failure offset' (error'.withSuggestions error.suggestions), s)
      | reply => reply
    else (.failure offset error, s)
  | reply => reply

/-- Gives an empty failure the message that `name` was expected. -/
def label (p : Behaviour ε α) (name : String) : Behaviour ε α := fun c s =>
  match p c s with
  | (.failure offset error, s) =>
    if offset = c.offset then (.failure offset ⟨"expecting " ++ name, error.suggestions⟩, s)
    else (.failure offset error, s)
  | reply => reply

/-- Puts a suggestion in front of those of an empty failure. -/
def suggest (p : Behaviour ε α) (suggestion : Suggestion) : Behaviour ε α := fun c s =>
  match p c s with
  | (.failure offset error, s) =>
    if offset = c.offset then (.failure offset (error.withSuggestions [suggestion]), s)
    else (.failure offset error, s)
  | reply => reply

/-- Makes every failure empty. -/
def attempt (p : Behaviour ε α) : Behaviour ε α := fun c s =>
  match p c s with
  | (.failure _ error, s) => (.failure c.offset error, s)
  | reply => reply

/-- Goes back to the start after a success. -/
def lookAhead (p : Behaviour ε α) : Behaviour ε α := fun c s =>
  match p c s with
  | (.success value _, s) => (.success value c, s)
  | reply => reply

/-- Succeeds, without reading, exactly where `p` fails. -/
def notFollowedBy (shown : α → String) (p : Behaviour ε α) : Behaviour ε Unit := fun c s =>
  match p c s with
  | (.success value _, s) => (.failure c.offset ⟨"unexpected " ++ shown value, []⟩, s)
  | (.failure _ _, s) => (.success () c, s)
  | (.thrown fault, s) => (.thrown fault, s)
  | (.exhausted, s) => (.exhausted, s)

/-- The message of a success that read nothing where something has to be read. -/
def standstill : String := "parser succeeded without consuming input inside a repetition"

/-- Turns a success that read nothing into an empty failure. -/
def advancing (p : Behaviour ε α) : Behaviour ε α := fun c s =>
  match p c s with
  | (.success value rest, s) =>
    if rest.offset = c.offset then (.failure c.offset ⟨standstill, []⟩, s)
    else (.success value rest, s)
  | reply => reply

/-- Goes round with a step until it answers with a result, at most `rounds` times.  The first
failure ends the loop. -/
def loop (step : σ → Behaviour ε (Step σ α)) :
    (rounds : Nat) → σ → Cursor → Session → Outcome ε α × Session
  | 0, _, _, s => (.exhausted, s)
  | rounds + 1, state, c, s =>
    match step state c s with
    | (.success (.loop state) rest, s) => loop step rounds state rest s
    | (.success (.done result) rest, s) => (.success result rest, s)
    | (.success (.stray shown) _, s) => (.thrown (.strayStep shown), s)
    | (.failure offset error, s) => (.failure offset error, s)
    | (.thrown fault, s) => (.thrown fault, s)
    | (.exhausted, s) => (.exhausted, s)

/-- Passes a new frame on. -/
def fresh (p : Frame → Behaviour ε α) : Behaviour ε α := fun c s =>
  let (frame, s) := s.openFrame
  p frame c s

/-- Logs where the cursor is. -/
def trace (name : String) : Behaviour ε Unit := fun c s => (.success () c, s.log (c.traceLine name))

/-- Logs the entry into `p` and its failures.  An empty failure becomes one with the message
`name`. -/
def traced (name : String) (p : Behaviour ε α) : Behaviour ε α := fun c s =>
  match p c (s.log (c.traceLine name)) with
  | (.failure offset error, s) =>
    if offset = c.offset then
      (.failure offset ⟨name, []⟩, s.log (c.traceLine (name ++ " backtracked")))
    else
      (.failure offset error,
        s.log (name ++ " failed after consuming input at offset " ++ toString offset))
  | reply => reply

/-- Notes in the journal where `p` is entered. -/
def visit (name : String) (p : Behaviour ε α) : Behaviour ε α := fun c s =>
  p c (s.record (.visited name c.offset))

end Behaviour

end Parsing
