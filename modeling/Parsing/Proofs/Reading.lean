import Parsing.Cursor

/-!
# Reading from cursor to cursor

`c.Reads w d` says that reading the characters `w` leads from the cursor `c` to the cursor `d`.
Everything that is said about how far a parser gets is said with this relation: it composes
(`Reads.trans`), a reading of `u ++ v` passes through the place behind `u` (`Reads.split`), and
`w` determines `d` (`Reads.unique`).  `c.Reaches d` leaves open what is read.
-/

namespace Parsing.Cursor

/-- Reading `w` leads from `c` to `d`. -/
def Reads (c : Cursor) (w : List Char) (d : Cursor) : Prop :=
  d.text = c.text ∧ c.remaining = w ++ d.remaining

/-- What remains are the characters from the offset on. -/
theorem length_remaining (c : Cursor) : c.remaining.length = c.text.size - c.offset := by
  simp [remaining]

/-- In one text, a cursor is given by its offset. -/
theorem eq_of_offset {c d : Cursor} (ht : c.text = d.text) (ho : c.offset = d.offset) :
    c = d := by
  cases c
  cases d
  cases ht
  cases ho
  rfl

namespace Reads

variable {c d e : Cursor} {u v w : List Char}

theorem refl (c : Cursor) : c.Reads [] c := ⟨rfl, rfl⟩

/-- Texts that are read one after the other are read as one. -/
theorem trans (h₁ : c.Reads u d) (h₂ : d.Reads v e) : c.Reads (u ++ v) e :=
  ⟨h₂.1.trans h₁.1, by rw [h₁.2, h₂.2, List.append_assoc]⟩

/-- The offset grows by the length of what is read. -/
theorem offset_eq (h : c.Reads w d) : d.offset = c.offset + w.length := by
  have hl := congrArg List.length h.2
  rw [List.length_append, length_remaining, length_remaining, h.1] at hl
  have hc := c.offset_le
  have hd := d.offset_le
  rw [h.1] at hd
  omega

theorem length_eq (h : c.Reads w d) : c.remaining.length = w.length + d.remaining.length := by
  rw [h.2, List.length_append]

/-- Behind what is read remains the rest of what remained before. -/
theorem drop_eq (h : c.Reads w d) : c.remaining.drop w.length = d.remaining := by
  rw [h.2, List.drop_left]

/-- What remains behind a word is shorter by the word. -/
theorem remaining_lt (h : c.Reads w d) {n m : Nat} (hc : c.remaining.length < n)
    (hm : n ≤ m + w.length) : d.remaining.length < m := by
  have hlen := h.length_eq
  omega

/-- What is read decides where the cursor comes to. -/
theorem unique (h : c.Reads w d) (h' : c.Reads w e) : d = e :=
  eq_of_offset (h.1.trans h'.1.symm) (h.offset_eq.trans h'.offset_eq.symm)

/-- A cursor is reached by reading what stands before it. -/
theorem of_append {r : List Char} (h : c.remaining = w ++ r) :
    ∃ d, c.Reads w d ∧ d.remaining = r := by
  have hl := congrArg List.length h
  rw [List.length_append, length_remaining] at hl
  have hc := c.offset_le
  let d : Cursor := ⟨c.text, c.offset + w.length, by omega⟩
  have hd : d.remaining = r := by
    calc d.remaining = c.remaining.drop w.length := by simp [d, remaining, List.drop_drop]
      _ = r := by rw [h, List.drop_left]
  exact ⟨d, ⟨rfl, by rw [h, hd]⟩, hd⟩

/-- A text that is read in two parts has a place between them. -/
theorem split (h : c.Reads (u ++ v) e) : ∃ d, c.Reads u d ∧ d.Reads v e := by
  obtain ⟨d, hd, hr⟩ := of_append (c := c) (w := u) (r := v ++ e.remaining)
    (by rw [h.2, List.append_assoc])
  exact ⟨d, hd, h.1.trans hd.1.symm, hr⟩

/-- Reading nothing is staying in place. -/
theorem nil_iff : c.Reads [] d ↔ c = d :=
  ⟨fun h => (refl c).unique h, fun h => h ▸ refl c⟩

/-- Nothing has been read if the offset is the same. -/
theorem eq_nil_iff (h : c.Reads w d) : w = [] ↔ d.offset = c.offset := by
  rw [h.offset_eq, ← List.length_eq_zero_iff]
  omega

end Reads

/-- The end of the text. -/
def last (c : Cursor) : Cursor := ⟨c.text, c.text.size, Nat.le_refl _⟩

theorem last_remaining (c : Cursor) : c.last.remaining = [] :=
  List.drop_eq_nil_of_le (Nat.le_of_eq Array.length_toList)

/-- The whole rest of the text can be read, up to its end. -/
theorem reads_last (c : Cursor) : c.Reads c.remaining c.last :=
  ⟨rfl, by rw [last_remaining, List.append_nil]⟩

/-- Advancing by a number of characters that remain is reading them. -/
theorem Reads.advance {c d : Cursor} {w : List Char} (h : c.Reads w d) :
    c.advance w.length = .ok d :=
  place_eq_ok_iff.mpr ⟨h.1, by have := h.offset_eq; omega⟩

/-- A word is read where the text goes on with it, up to as many characters further. -/
theorem reads_iff {c d : Cursor} {w : List Char} :
    c.Reads w d ↔ w <+: c.remaining ∧ d.text = c.text ∧ d.offset = c.offset + w.length := by
  constructor
  · exact fun h => ⟨⟨d.remaining, h.2.symm⟩, h.1, h.offset_eq⟩
  · rintro ⟨⟨r, hr⟩, ht, ho⟩
    obtain ⟨e, he, -⟩ := Reads.of_append hr.symm
    rwa [eq_of_offset (ht.trans he.1.symm) (ho.trans he.offset_eq.symm)]

/-- `d` is reached from `c` by reading something or nothing. -/
def Reaches (c d : Cursor) : Prop := ∃ w, c.Reads w d

namespace Reaches

variable {c d e : Cursor}

theorem refl (c : Cursor) : c.Reaches c := ⟨[], .refl c⟩

/-- What is reached from a cursor that is reached is reached. -/
theorem trans (h₁ : c.Reaches d) (h₂ : d.Reaches e) : c.Reaches e := by
  obtain ⟨u, hu⟩ := h₁
  obtain ⟨v, hv⟩ := h₂
  exact ⟨u ++ v, hu.trans hv⟩

/-- The text stays the same, wherever the cursor is. -/
theorem text_eq (h : c.Reaches d) : d.text = c.text := by
  obtain ⟨w, hw⟩ := h
  exact hw.1

/-- A cursor that is reached is not before the one from where it is. -/
theorem offset_le (h : c.Reaches d) : c.offset ≤ d.offset := by
  obtain ⟨w, hw⟩ := h
  exact hw.offset_eq ▸ Nat.le_add_right _ _

end Reaches

/-- The next character is the one that can be read. -/
theorem peek_eq_some_iff {c : Cursor} {x : Char} : c.peek = some x ↔ ∃ d, c.Reads [x] d := by
  rw [peek_eq_head_remaining]
  constructor
  · intro h
    obtain ⟨r, hr⟩ := List.head?_eq_some_iff.mp h
    obtain ⟨d, hd, -⟩ := Reads.of_append (w := [x]) (r := r) hr
    exact ⟨d, hd⟩
  · rintro ⟨d, -, hr⟩
    rw [hr]
    rfl

/-- The text goes on with a string exactly if that can be read. -/
theorem startsWith_iff_reads {c : Cursor} {s : String} :
    c.startsWith s = true ↔ ∃ d, c.Reads s.toList d := by
  rw [startsWith_iff]
  constructor
  · rintro ⟨r, hr⟩
    obtain ⟨d, hd, -⟩ := Reads.of_append hr.symm
    exact ⟨d, hd⟩
  · rintro ⟨d, -, hr⟩
    exact ⟨d.remaining, hr.symm⟩

end Parsing.Cursor
