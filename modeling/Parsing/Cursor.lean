import Parsing.Text.Quoted
import Parsing.Text.Written

/-!
# Cursors

A cursor is a place in a text, the end included.  Places are counted in characters.  A cursor
can only be made by `place`, which refuses an offset outside the text, so that every cursor
points into its text.

A text is an array of characters, and a character is a Unicode scalar value.  Strings with lone
surrogates, which are no scalar values, are therefore left out, as texts and as all other strings
of the library.
-/

namespace Parsing

open Parsing.Text

/-- A place in a text. -/
structure Cursor where
  text : Array Char
  offset : Nat
  offset_le : offset ≤ text.size
  deriving DecidableEq

/-- An offset that no cursor of a text of the given length can have. -/
structure RangeError where
  offset : Int
  length : Nat
  deriving DecidableEq

/-- The text of a range error. -/
def RangeError.message (e : RangeError) : String :=
  "cursor offset " ++ toString e.offset ++ " out of range for input of length "
    ++ toString e.length

namespace Cursor

/-- The beginning of a text. -/
def start (text : Array Char) : Cursor := ⟨text, 0, Nat.zero_le _⟩

/-- The place at an offset, which has to lie between zero and the length of the text. -/
def place (text : Array Char) (offset : Int) : Except RangeError Cursor :=
  if h : 0 ≤ offset ∧ offset ≤ text.size then .ok ⟨text, offset.toNat, by omega⟩
  else .error ⟨offset, text.size⟩

/-- Moves by a number of characters, backwards if it is negative. -/
def advance (c : Cursor) (n : Int) : Except RangeError Cursor := place c.text (c.offset + n)

/-- Whether no characters remain. -/
def atEnd (c : Cursor) : Bool := decide (c.text.size ≤ c.offset)

/-- The next character, if one remains. -/
def peek (c : Cursor) : Option Char := c.text[c.offset]?

/-- The characters that remain. -/
def remaining (c : Cursor) : List Char := c.text.toList.drop c.offset

/-- Whether the text has the given characters from an offset on. -/
def matchesFrom (text : Array Char) : Nat → List Char → Bool
  | _, [] => true
  | i, x :: xs => text[i]? == some x && matchesFrom text (i + 1) xs

/-- Whether the remaining characters start with a string. -/
def startsWith (c : Cursor) (s : String) : Bool := matchesFrom c.text c.offset s.toList

/-- The next thirty characters. -/
def excerpt (c : Cursor) : String :=
  String.ofList (c.text.extract c.offset (c.offset + 30)).toList

/-- Three dots if more than thirty characters remain. -/
def ellipsis (c : Cursor) : String := if c.text.size - c.offset > 30 then "..." else ""

/-- The cursor as messages show it: its offset and an excerpt of what remains. -/
def written (c : Cursor) : String :=
  writtenRecord "Cursor"
    [("offset", toString c.offset), ("rest", quoted c.excerpt ++ c.ellipsis)]

/-- The line that a trace writes for a cursor. -/
def traceLine (c : Cursor) (label : String) : String :=
  label ++ ": \"" ++ c.excerpt ++ c.ellipsis ++ "\" at offset " ++ toString c.offset

theorem peek_eq_none_iff (c : Cursor) : c.peek = none ↔ c.offset = c.text.size := by
  have := c.offset_le
  simp only [peek, Array.getElem?_eq_none_iff]
  omega

theorem peek_eq_head_remaining (c : Cursor) : c.peek = c.remaining.head? := by
  simp [peek, remaining]

/-- Only a place within the text, or at its end, is one. -/
theorem place_eq_ok_iff {text : Array Char} {offset : Int} {c : Cursor} :
    place text offset = .ok c ↔ c.text = text ∧ (c.offset : Int) = offset := by
  unfold place
  split
  · obtain ⟨t, o, h⟩ := c
    simp only [Except.ok.injEq, Cursor.mk.injEq]
    constructor
    · rintro ⟨rfl, rfl⟩
      exact ⟨rfl, by omega⟩
    · rintro ⟨rfl, rfl⟩
      exact ⟨rfl, by simp⟩
  · rename_i out
    simp only [reduceCtorEq, false_iff]
    rintro ⟨rfl, rfl⟩
    exact out ⟨by omega, by have := c.offset_le; omega⟩

/-- Characters that are compared one by one are a prefix of the text from there on. -/
theorem matchesFrom_iff {text : Array Char} {i : Nat} {s : List Char} :
    matchesFrom text i s = true ↔ s <+: text.toList.drop i := by
  induction s generalizing i with
  | nil => simp [matchesFrom]
  | cons x xs ih =>
    simp only [matchesFrom, Bool.and_eq_true, beq_iff_eq, ih]
    by_cases h : i < text.size
    · have hd : text.toList.drop i = text[i] :: text.toList.drop (i + 1) := by
        rw [List.drop_eq_getElem_cons (by simpa using h)]
        simp
      rw [hd, List.cons_prefix_cons, Array.getElem?_eq_getElem h]
      simp [eq_comm]
    · have hd : text.toList.drop i = [] := List.drop_eq_nil_of_le (by simp; omega)
      rw [hd, Array.getElem?_eq_none (by omega)]
      simp

/-- The text goes on with a string if that is a prefix of what remains. -/
theorem startsWith_iff (c : Cursor) (s : String) :
    c.startsWith s = true ↔ s.toList <+: c.remaining :=
  matchesFrom_iff

end Cursor

end Parsing
