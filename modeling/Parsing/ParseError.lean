import Parsing.Text.Quoted
import Parsing.Text.Written

/-!
# Parse errors

A parse error is a message with the suggestions gathered on the way to it: texts that would have
been accepted, each with a hint for the reader.  Suggestions are only ever prepended
(`withSuggestions`).

Errors are ordered by message and then by suggestions, suggestions by completion and then by
hint; texts compare by code point and lists lexicographically, a proper initial segment being the
smaller one.
-/

namespace Parsing

open Parsing.Text

/-- A text that would have been accepted, with a hint for the reader. -/
structure Suggestion where
  completion : String
  hint : String := ""
  deriving DecidableEq, Inhabited

/-- Why a parser failed: a message, and what could have stood there instead. -/
structure ParseError where
  message : String
  suggestions : List Suggestion := []
  deriving DecidableEq, Inhabited

namespace Suggestion

/-- The completion, with its hint in brackets if it has one. -/
def text (s : Suggestion) : String :=
  if s.hint = "" then s.completion else s.completion ++ " (" ++ s.hint ++ ")"

/-- The suggestion with its fields, as messages show it. -/
def written (s : Suggestion) : String :=
  writtenRecord "Suggestion"
    [("auto_complete", quoted s.completion), ("completion_hint", quoted s.hint)]

instance : Ord Suggestion where
  compare a b := (compare a.completion b.completion).then (compare a.hint b.hint)

instance : LT Suggestion := ltOfOrd

instance : LE Suggestion := leOfOrd

end Suggestion

namespace ParseError

/-- Puts `earlier` in front of the error's suggestions, keeping both orders. -/
def withSuggestions (e : ParseError) (earlier : List Suggestion) : ParseError :=
  ⟨e.message, earlier ++ e.suggestions⟩

@[simp] theorem message_withSuggestions (e : ParseError) (earlier : List Suggestion) :
    (e.withSuggestions earlier).message = e.message := rfl

@[simp] theorem suggestions_withSuggestions (e : ParseError) (earlier : List Suggestion) :
    (e.withSuggestions earlier).suggestions = earlier ++ e.suggestions := rfl

@[simp] theorem withSuggestions_nil (e : ParseError) : e.withSuggestions [] = e := rfl

/-- What is put in front later comes first. -/
@[simp] theorem withSuggestions_withSuggestions (e : ParseError) (a b : List Suggestion) :
    (e.withSuggestions b).withSuggestions a = e.withSuggestions (a ++ b) := by
  simp only [withSuggestions, List.append_assoc]

/-- The text of an error: the message, and the suggestions if there are any. -/
def text (e : ParseError) : String :=
  match e.suggestions with
  | [] => "Parse error: " ++ e.message
  | suggestions =>
    "Parse error: " ++ e.message ++ " (suggestions: "
      ++ String.intercalate ", " (suggestions.map Suggestion.text) ++ ")"

/-- The error with its fields, as messages show it. -/
def written (e : ParseError) : String :=
  writtenRecord "ParseError"
    [("message", quoted e.message),
     ("suggestions", writtenTuple (e.suggestions.map Suggestion.written))]

instance : Ord ParseError where
  compare a b := (compare a.message b.message).then (compare a.suggestions b.suggestions)

instance : LT ParseError := ltOfOrd

instance : LE ParseError := leOfOrd

/-- Sorts errors, keeping equal ones in their order. -/
def sort (errors : List ParseError) : List ParseError :=
  errors.mergeSort fun a b => (compare a b).isLE

/-- The places of the errors of a list in sorted order, equal errors in order of place. -/
def sortedPlaces (errors : List ParseError) : List Nat :=
  (errors.zipIdx.mergeSort fun a b => (compare a.1 b.1).isLE).map Prod.snd

/-- The distinct errors of a list, sorted. -/
def sortDistinct (errors : List ParseError) : List ParseError :=
  sort errors.eraseDups

end ParseError

end Parsing
