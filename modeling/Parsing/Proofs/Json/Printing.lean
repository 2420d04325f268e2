import Parsing.Json.Printer

/-!
# What is printed

The printer is given the text that follows, and it gives up where an integer has too many digits.
`textAt` is the text that it writes if it does not, put together from the texts of the items and
entries, each on a line, between brackets (`bracketed`); it depends neither on the limit nor on what
follows.

A value is printed exactly if each of its integers may have as many digits as it has, and then its
text is written in front of what follows (`printAt_eq_ok_iff`).
-/

namespace Parsing.Json

open Parsing.Decimal Parsing.Text

variable {limit : DigitLimit}

/-! ### Integers of a value -/

/-- The integer stands in the value. -/
inductive Holds (n : Int) : Json → Prop where
  | int : Holds n (.int n)
  | item {items : List Json} {v : Json} (hv : v ∈ items) (h : Holds n v) : Holds n (.array items)
  | value {entries : List (String × Json)} {e : String × Json} (he : e ∈ entries)
      (h : Holds n e.2) : Holds n (.object entries)

/-- No integer of the value has too many digits. -/
def Writable (limit : DigitLimit) (v : Json) : Prop :=
  ∀ n, Holds n v → limit.Allows (digitCount n.natAbs)

theorem writable_null : Writable limit .null := nofun

theorem writable_bool (b : Bool) : Writable limit (.bool b) := nofun

theorem writable_float (x : Float) : Writable limit (.float x) := nofun

theorem writable_string (s : String) : Writable limit (.string s) := nofun

/-- An integer is written by itself if it has few enough digits. -/
theorem writable_int_iff {n : Int} :
    Writable limit (.int n) ↔ limit.Allows (digitCount n.natAbs) :=
  ⟨fun h => h n .int, fun h m hm => by cases hm; exact h⟩

/-- An array is written if its items are. -/
theorem writable_array_iff {items : List Json} :
    Writable limit (.array items) ↔ ∀ v ∈ items, Writable limit v :=
  ⟨fun h _ hv n hn => h n (.item hv hn),
    fun h n hn => by cases hn with | item hv hn => exact h _ hv n hn⟩

/-- An object is written if its values are; keys have no integers. -/
theorem writable_object_iff {entries : List (String × Json)} :
    Writable limit (.object entries) ↔ ∀ e ∈ entries, Writable limit e.2 :=
  ⟨fun h _ he n hn => h n (.value he hn),
    fun h n hn => by cases hn with | value he hn => exact h _ he n hn⟩

/-! ### The text -/

/-- Words on lines of their own, each behind a comma. -/
def lines (depth : Nat) (ws : List (List Char)) : List Char :=
  ws.flatMap fun w => ',' :: newline depth ++ w

/-- Words between brackets, each on a line of its own and with commas between them. -/
def bracketed (opening closing : Char) (depth : Nat) : List (List Char) → List Char
  | [] => [opening, closing]
  | w :: ws =>
    opening :: newline (depth + 1) ++ w ++ lines (depth + 1) ws ++ newline depth ++ [closing]

mutual

/-- The text of a value at a depth of nesting. -/
def textAt (depth : Nat) : Json → List Char
  | .null => "null".toList
  | .bool true => "true".toList
  | .bool false => "false".toList
  | .int n => numeralOfInt n
  | .float x => (writtenFloat numberNames x).toList
  | .string s => printString s
  | .array items => bracketed '[' ']' depth (itemTexts (depth + 1) items)
  | .object entries => bracketed '\x7b' '\x7d' depth (entryTexts (depth + 1) entries)

/-- The texts of the items of an array. -/
def itemTexts (depth : Nat) : List Json → List (List Char)
  | [] => []
  | item :: items => textAt depth item :: itemTexts depth items

/-- The texts of the entries of an object. -/
def entryTexts (depth : Nat) : List (String × Json) → List (List Char)
  | [] => []
  | (key, value) :: entries =>
    (printString key ++ ':' :: ' ' :: textAt depth value) :: entryTexts depth entries

end

/-- The text of an entry of an object at a depth of nesting. -/
def entryText (depth : Nat) (e : String × Json) : List Char :=
  printString e.1 ++ ':' :: ' ' :: textAt depth e.2

/-- The items of an array are written one by one. -/
theorem itemTexts_eq_map (depth : Nat) :
    ∀ items : List Json, itemTexts depth items = items.map (textAt depth)
  | [] => rfl
  | item :: items => by rw [itemTexts, itemTexts_eq_map depth items, List.map_cons]

/-- The entries of an object are written one by one. -/
theorem entryTexts_eq_map (depth : Nat) :
    ∀ entries : List (String × Json), entryTexts depth entries = entries.map (entryText depth)
  | [] => rfl
  | (key, value) :: entries => by
      rw [entryTexts, entryTexts_eq_map depth entries, List.map_cons, entryText]

theorem textAt_array (depth : Nat) (items : List Json) :
    textAt depth (.array items) =
      bracketed '[' ']' depth (items.map (textAt (depth + 1))) := by
  rw [textAt, itemTexts_eq_map]

theorem textAt_object (depth : Nat) (entries : List (String × Json)) :
    textAt depth (.object entries) =
      bracketed '\x7b' '\x7d' depth (entries.map (entryText (depth + 1))) := by
  rw [textAt, entryTexts_eq_map]

/-! ### The printer -/

/-- Two answers, the second of which depends on the first, are one answer if there is no exception
among them. -/
theorem bind_eq_ok_iff {ε α β : Type} {answer : Except ε α} {f : α → Except ε β} {y : β} :
    answer >>= f = .ok y ↔ ∃ x, answer = .ok x ∧ f x = .ok y := by
  cases answer <;> simp [bind, Except.bind]

/-- Two answers, each of which is known under a condition, are joined under both of them.  The
printer has the text that follows before the one that it follows. -/
theorem joined_eq_ok_iff {ε α β γ : Type} {P Q : Prop} {a : α} {f : α → β} {join : β → γ} {t : γ} :
    (∃ x, (P ∧ a = x) ∧ ∃ y, (Q ∧ f x = y) ∧ (pure (join y) : Except ε γ) = .ok t) ↔
      (Q ∧ P) ∧ join (f a) = t := by
  constructor
  · rintro ⟨_, ⟨hp, rfl⟩, _, ⟨hq, rfl⟩, ⟨⟩⟩
    exact ⟨⟨hq, hp⟩, rfl⟩
  · rintro ⟨⟨hq, hp⟩, rfl⟩
    exact ⟨_, ⟨hp, rfl⟩, _, ⟨hq, rfl⟩, rfl⟩

mutual

/-- A value is printed if none of its integers has too many digits, and its text comes in front of
what follows. -/
theorem printAt_eq_ok_iff (depth : Nat) : ∀ (v : Json) (rest : List Char) {t : List Char},
    printAt limit depth v rest = .ok t ↔ Writable limit v ∧ textAt depth v ++ rest = t
  | .null, _, _ | .bool true, _, _ | .bool false, _, _ | .float _, _, _ | .string _, _, _
  | .array [], _, _ | .object [], _, _ => by
      simp [printAt, textAt, itemTexts, entryTexts, bracketed, writable_null, writable_bool,
        writable_float, writable_string, writable_array_iff, writable_object_iff]
  | .int n, rest, t => by
      rw [printAt, bind_eq_ok_iff, writable_int_iff, textAt]
      constructor
      · rintro ⟨w, hw, ⟨⟩⟩
        obtain ⟨few, rfl⟩ := writeInt_eq_ok_iff.mp hw
        exact ⟨few, rfl⟩
      · rintro ⟨few, rfl⟩
        exact ⟨_, writeInt_eq_ok_iff.mpr ⟨few, rfl⟩, rfl⟩
  | .array (item :: items), rest, t => by
      simp only [printAt, bind_eq_ok_iff, printItems_eq_ok_iff (depth + 1) items,
        printAt_eq_ok_iff (depth + 1) item, joined_eq_ok_iff, writable_array_iff,
        List.forall_mem_cons, textAt, itemTexts, bracketed]
      simp
  | .object ((key, value) :: entries), rest, t => by
      simp only [printAt, bind_eq_ok_iff, printEntries_eq_ok_iff (depth + 1) entries,
        printAt_eq_ok_iff (depth + 1) value, joined_eq_ok_iff, writable_object_iff,
        List.forall_mem_cons, textAt, entryTexts, bracketed]
      simp

/-- Items behind the first have a comma and a new line before them. -/
theorem printItems_eq_ok_iff (depth : Nat) : ∀ (items : List Json) (rest : List Char)
    {t : List Char}, printItems limit depth items rest = .ok t ↔
      (∀ v ∈ items, Writable limit v) ∧ lines depth (itemTexts depth items) ++ rest = t
  | [], _, _ => by simp [printItems, lines, itemTexts]
  | item :: items, rest, t => by
      simp only [printItems, bind_eq_ok_iff, printItems_eq_ok_iff depth items,
        printAt_eq_ok_iff depth item, joined_eq_ok_iff, List.forall_mem_cons, lines, itemTexts,
        List.flatMap_cons]
      simp

/-- Entries behind the first have a comma and a new line before them. -/
theorem printEntries_eq_ok_iff (depth : Nat) : ∀ (entries : List (String × Json))
    (rest : List Char) {t : List Char}, printEntries limit depth entries rest = .ok t ↔
      (∀ e ∈ entries, Writable limit e.2) ∧ lines depth (entryTexts depth entries) ++ rest = t
  | [], _, _ => by simp [printEntries, lines, entryTexts]
  | (key, value) :: entries, rest, t => by
      simp only [printEntries, bind_eq_ok_iff, printEntries_eq_ok_iff depth entries,
        printAt_eq_ok_iff depth value, joined_eq_ok_iff, List.forall_mem_cons, lines, entryTexts,
        List.flatMap_cons]
      simp

end

/-- A document is printed if none of its integers has too many digits, and with its text. -/
theorem print_eq_ok_iff {v : Json} {t : List Char} :
    print limit v = .ok t ↔ Writable limit v ∧ textAt 0 v = t := by
  rw [print, printAt_eq_ok_iff, List.append_nil]

end Parsing.Json
