import Parsing.Json.Report

/-!
# The command line

Reads the JSON document in the file named first, or the sample document if none is named, and
prints the report on it.  An integer with too many digits ends the program with an error.
-/

open Parsing

/-- The contents of the file named first, if any is. -/
def contentsOfArguments : List String → IO (Option String)
  | [] => return none
  | file :: _ => return some (← IO.FS.readFile file)

def main (args : List String) : IO Unit := do
  let contents ← contentsOfArguments args
  let (report, _) := Json.reportOn contents
  match report with
  | .ok text => IO.print text
  | .error exception => throw (IO.userError exception.message)
