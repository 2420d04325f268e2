import Parsing.Json.Printer
import Parsing.Json.Rules

/-!
# Reports on documents

What the command line says about a document: the document laid out anew, or the error.  A file is
read with its line ends made uniform.  The limit on the digits of integers is the standard one.
-/

namespace Parsing.Json

open Parsing.Decimal

/-- Makes every line end a line feed. -/
def unifyLineEnds : List Char → List Char
  | '\r' :: '\n' :: rest => '\n' :: unifyLineEnds rest
  | '\r' :: rest => '\n' :: unifyLineEnds rest
  | c :: rest => c :: unifyLineEnds rest
  | [] => []

/-- The document that is read if no file is named. -/
def sample : String := "\x7b\"a\": [1, 2.5, true, null], \"b\": \"x\\ny\"\x7d"

/-- What is said about a text, unless an exception is raised while it is read or printed. -/
def reportOf : Outcome TooManyDigits Json → Except TooManyDigits String
  | .success value _ => do
    let text ← print .standard value
    return "Successfully Parsed:\n" ++ String.ofList text ++ "\n"
  | .failure _ error => .ok ("Parsing Failed: " ++ error.text ++ "\n")
  | .thrown (.raised exception) => .error exception
  | .thrown _ | .exhausted => .ok ""

/-- The report on a text, and the journal of reading it. -/
def report (text : List Char) : Except TooManyDigits String × List Event :=
  let (outcome, session) := read .standard text.toArray
  (reportOf outcome, session.events)

/-- The report on the contents of a file, or on the sample. -/
def reportOn : Option String → Except TooManyDigits String × List Event
  | some contents => report (unifyLineEnds contents.toList)
  | none => report sample.toList

end Parsing.Json
