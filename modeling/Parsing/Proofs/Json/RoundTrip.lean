import Mathlib.Algebra.Group.Int.Defs
import Mathlib.Algebra.Group.Nat.Defs
import Parsing.Proofs.Json.Acceptance
import Parsing.Proofs.Json.Printing

/-!
# Printing and reading back

A document without floating-point numbers is printed unless one of its integers has too many digits
(`Writable`), and then it is printed as a text that the grammar gives the same value, if it can be
read at all.  It can if and only if the printer needs no numeric escape: the reader knows the short
escapes only, so each character of each string and each key has to be printable ASCII or one of
those that have a short escape (`Survives`).

That the text of a value with such characters is derived by the grammar goes by induction on the
value (`value_textAt`).  For the converse it would not do to follow the reader, which might
recover from what it cannot read in some alternative.  Instead an automaton runs over the text
that knows no more of it than where strings begin and end and which escapes are in them: every
document takes it back to where it started (`closed_value`), and a printed text with a numeric
escape, however deep, breaks it for good (`lexes_textAt`).  There the reader fails.  It does not
raise an exception, since outside of its strings the text has no more digits in a row than one of
the integers (`sparse_textAt`).
-/

namespace Parsing.Json

open Parsing.Decimal Parsing.Text Syntax
open Lexing (next)

variable {limit : DigitLimit}

/-- Values without floating-point numbers, in whose objects no key stands twice. -/
inductive Plain : Json → Prop where
  | null : Plain .null
  | bool (b : Bool) : Plain (.bool b)
  | int (n : Int) : Plain (.int n)
  | string (s : String) : Plain (.string s)
  | array {items : List Json} (h : ∀ v ∈ items, Plain v) : Plain (.array items)
  | object {entries : List (String × Json)} (keys : (entries.map Prod.fst).Nodup)
      (values : ∀ e ∈ entries, Plain e.2) : Plain (.object entries)

/-- The character stands in a string or in a key of the value. -/
inductive Occurs (c : Char) : Json → Prop where
  | string {s : String} (h : c ∈ s.toList) : Occurs c (.string s)
  | item {items : List Json} {v : Json} (hv : v ∈ items) (h : Occurs c v) :
      Occurs c (.array items)
  | key {entries : List (String × Json)} {e : String × Json} (he : e ∈ entries)
      (h : c ∈ e.1.toList) : Occurs c (.object entries)
  | value {entries : List (String × Json)} {e : String × Json} (he : e ∈ entries)
      (h : Occurs c e.2) : Occurs c (.object entries)

/-- The character is written without a numeric escape: it is printable ASCII, or one of those that
have a letter of their own behind the backslash. -/
def Survives (c : Char) : Prop :=
  (0x20 ≤ c.toNat ∧ c.toNat ≤ 0x7E) ∨ c ∈ ['\n', '\r', '\t', '\x0c', '\x08']

instance (c : Char) : Decidable (Survives c) := inferInstanceAs (Decidable (_ ∨ _))

/-- No character of the value needs a numeric escape. -/
def Readable (v : Json) : Prop := ∀ c, Occurs c v → Survives c

theorem readable_null : Readable .null := nofun

theorem readable_bool (b : Bool) : Readable (.bool b) := nofun

theorem readable_int (n : Int) : Readable (.int n) := nofun

/-- A string is read back if each of its characters is. -/
theorem readable_string_iff {s : String} : Readable (.string s) ↔ ∀ c ∈ s.toList, Survives c :=
  ⟨fun h c hc => h c (.string hc), fun h c hc => by cases hc with | string hc => exact h c hc⟩

theorem readable_array_iff {items : List Json} :
    Readable (.array items) ↔ ∀ v ∈ items, Readable v :=
  ⟨fun h _ hv c hc => h c (.item hv hc),
    fun h c hc => by cases hc with | item hv hc => exact h _ hv c hc⟩

/-- An object is read back if its keys and values are. -/
theorem readable_object_iff {entries : List (String × Json)} :
    Readable (.object entries) ↔
      ∀ e ∈ entries, (∀ c ∈ e.1.toList, Survives c) ∧ Readable e.2 := by
  constructor
  · exact fun h e he => ⟨fun c hc => h c (.key he hc), fun c hc => h c (.value he hc)⟩
  · intro h c hc
    cases hc with
    | key he hc => exact (h _ he).1 c hc
    | value he hc => exact (h _ he).2 c hc

/-! ### The printed text is derived -/

/-- A new line and its indentation are white space. -/
theorem blanks_newline (depth : Nat) : Blanks (newline depth) := by
  intro x hx
  rcases List.mem_cons.mp hx with rfl | hx
  · decide
  · rw [List.eq_of_mem_replicate hx]
    decide

/-- A character that survives is written as itself or as a short escape, which the grammar reads as
that character. -/
theorem escapeChar_of_survives {c : Char} (h : Survives c) : Character (escapeChar c) c := by
  rcases h with h | h
  · by_cases hq : c = '"'
    · exact hq ▸ .escaped .quote
    · by_cases hb : c = '\\'
      · exact hb ▸ .escaped .backslash
      · -- None of the characters with a short escape is printable.
        have ne {x : Char} (hx : ¬ (0x20 ≤ x.toNat ∧ x.toNat ≤ 0x7E)) : c ≠ x :=
          fun e => hx (e ▸ h)
        rw [escapeChar, if_neg hq, if_neg hb, if_neg (ne (by decide)), if_neg (ne (by decide)),
          if_neg (ne (by decide)), if_neg (ne (by decide)), if_neg (ne (by decide)), if_pos h]
        exact .plain hq hb
  · simp only [List.mem_cons, List.not_mem_nil, or_false] at h
    rcases h with rfl | rfl | rfl | rfl | rfl
    · exact .escaped .lineFeed
    · exact .escaped .carriageReturn
    · exact .escaped .tab
    · exact .escaped .formFeed
    · exact .escaped .backspace

theorem star_escapeChar : ∀ {cs : List Char}, (∀ c ∈ cs, Survives c) →
    Star Character (cs.flatMap escapeChar) cs
  | [], _ => .nil
  | _ :: _, h =>
      have ⟨hc, hcs⟩ := List.forall_mem_cons.mp h
      .cons (escapeChar_of_survives hc) (star_escapeChar hcs)

/-- A string whose characters survive is written as a string of the grammar. -/
theorem quoted_printString {s : String} (h : ∀ c ∈ s.toList, Survives c) :
    Quoted (printString s) s := by
  have := Quoted.mk (star_escapeChar h)
  rwa [String.ofList_toList] at this

theorem digits_toDigits (n : Nat) : Digits (Nat.toDigits 10 n) :=
  ⟨Nat.toDigits_ne_nil, fun _ hx => Nat.isDigit_of_mem_toDigits (by decide) (by decide) hx⟩

/-- The digits of a number are read as the number. -/
theorem natOfDigits_toDigits (n : Nat) : natOfDigits (Nat.toDigits 10 n) = n :=
  Nat.ofDigitChars_toDigits (by decide) (by decide)

/-- An integer that is written is a number of the grammar, with or without a minus. -/
theorem number_numeralOfInt : ∀ n : Int, limit.Allows (digitCount n.natAbs) →
    Number limit (numeralOfInt n) (.int n)
  | .ofNat n, few => by
      have := Number.nat (digits_toDigits n) few
      rwa [natOfDigits_toDigits] at this
  | .negSucc n, few => by
      have := Number.negative (digits_toDigits (n + 1)) few
      rwa [natOfDigits_toDigits] at this

/-! Entries whose keys are distinct do not override one another. -/

/-- An entry with a new key comes last. -/
theorem put_of_notMem {α : Type} {key : String} {value : α} :
    ∀ {entries : List (String × α)}, key ∉ entries.map Prod.fst →
      put key value entries = entries ++ [(key, value)]
  | [], _ => rfl
  | (k, v) :: entries, h => by
      rw [List.map_cons, List.mem_cons, not_or] at h
      rw [put, if_neg (Ne.symm h.1), put_of_notMem h.2, List.cons_append]

/-- Entries with new keys follow those that are there, in their order. -/
theorem foldl_put_of_nodup {α : Type} : ∀ {entries merged : List (String × α)},
    ((merged ++ entries).map Prod.fst).Nodup →
      entries.foldl (fun merged (key, value) => put key value merged) merged = merged ++ entries
  | [], _, _ => (List.append_nil _).symm
  | (key, value) :: entries, merged, h => by
      have absent : key ∉ merged.map Prod.fst := fun hk => by
        rw [List.map_append, List.nodup_append] at h
        exact h.2.2 key hk key List.mem_cons_self rfl
      rw [List.append_cons] at h ⊢
      simp only [List.foldl_cons, put_of_notMem absent]
      exact foldl_put_of_nodup h

/-- Where no key stands twice, nothing is overridden. -/
theorem overrides_self {α : Type} {entries : List (String × α)}
    (h : (entries.map Prod.fst).Nodup) : Overrides entries entries :=
  overrides_iff.mpr (@foldl_put_of_nodup α entries [] h).symm

section

variable {α : Type} {L : List Char → α → Prop} {word : α → List Char}

/-- Lines with commas between them.  The white space behind the last one belongs to it. -/
theorem separated_lines (depth : Nat) {b : List Char} (hb : Blanks b) :
    ∀ {xs : List α} {x : α}, (∀ y ∈ x :: xs, ∀ b, Blanks b → L (word y ++ b) y) →
      Separated L (word x ++ lines depth (xs.map word) ++ b) (x :: xs)
  | [], x, h => by
      have := Separated.some (h x List.mem_cons_self b hb) .nil
      simpa [lines] using this
  | y :: ys, x, h => by
      obtain ⟨hx, hys⟩ := List.forall_mem_cons.mp h
      have ih := separated_lines depth hb hys
      generalize hw : word y ++ lines depth (ys.map word) ++ b = w at ih
      cases ih with
      | some hy t =>
          have := Separated.some (hx [] blanks_nil) (.cons (.mk (blanks_newline depth) hy) t)
          simpa [lines, ← hw] using this

end

/-- Words that are items, whatever white space follows them, are items between brackets when they
stand on lines of their own. -/
theorem bracketed_eq {α : Type} {L : List Char → α → Prop} {word : α → List Char}
    (opening closing : Char) (depth : Nat) {xs : List α}
    (h : ∀ x ∈ xs, ∀ b, Blanks b → L (word x ++ b) x) :
    ∃ b w, Blanks b ∧ Separated L w xs ∧
      bracketed opening closing depth (xs.map word) = opening :: b ++ w ++ [closing] := by
  cases xs with
  | nil => exact ⟨[], [], blanks_nil, .none, rfl⟩
  | cons x xs =>
      have lines := separated_lines (depth + 1) (blanks_newline depth) h
      exact ⟨newline (depth + 1), _, blanks_newline _, lines, by simp [bracketed]⟩

/-- A key with a colon and a space and a value behind it is an entry, whose value may take in what
follows. -/
theorem entry_entryText {V : List Char → Json → Prop} {depth : Nat} {e : String × Json}
    {b : List Char} (hk : ∀ c ∈ e.1.toList, Survives c) (hv : V (textAt depth e.2 ++ b) e.2) :
    Entry V (entryText depth e ++ b) e := by
  have space : Blanks [' '] := List.forall_mem_singleton.mpr rfl
  simpa [entryText] using Entry.mk (b := []) (quoted_printString hk) blanks_nil space hv

/-- The text of a readable value is derived by the grammar, with that value. -/
theorem value_textAt {v : Json} (hv : Plain v) : ∀ (depth : Nat) {b : List Char},
    Writable limit v → Readable v → Blanks b → Value limit (textAt depth v ++ b) v := by
  induction hv with
  | null =>
      intro _ b _ _ hb
      exact .null hb
  | bool x =>
      intro _ b _ _ hb
      cases x with
      | true => exact .true hb
      | false => exact .false hb
  | int n =>
      intro _ b hw _ hb
      exact .number (number_numeralOfInt n (writable_int_iff.mp hw)) hb
  | string s =>
      intro _ b _ hr hb
      exact .string (quoted_printString (readable_string_iff.mp hr)) hb
  | array _ ih =>
      intro depth b hw hr hb
      obtain ⟨b', w, hb', items, he⟩ := bracketed_eq '[' ']' depth fun v hv b hb =>
        ih v hv (depth + 1) (writable_array_iff.mp hw v hv) (readable_array_iff.mp hr v hv) hb
      rw [textAt_array, he, List.append_assoc]
      exact .array hb' items hb
  | object keys _ ih =>
      intro depth b hw hr hb
      have entry := fun e he b (hb : Blanks b) => by
        obtain ⟨hk, hv⟩ := readable_object_iff.mp hr e he
        exact entry_entryText hk (ih e he (depth + 1) (writable_object_iff.mp hw e he) hv hb)
      obtain ⟨b', w, hb', entries, he⟩ := bracketed_eq '\x7b' '\x7d' depth entry
      rw [textAt_object, he, List.append_assoc]
      exact .object hb' entries (overrides_self keys) hb

/-! ### A numeric escape breaks the automaton -/

/-- The text takes the automaton back to where it started if `q` holds, and breaks it if not. -/
structure Lexes (w : List Char) (q : Prop) : Prop where
  closed : q → Closed w
  broken : ¬ q → w.foldl next .outside = .broken

namespace Lexes

variable {u v w : List Char} {p q : Prop}

theorem of_closed (h : Closed w) : Lexes w True := ⟨fun _ => h, fun n => absurd trivial n⟩

/-- The condition may be put in other words. -/
theorem of_iff (h : Lexes w p) (hq : q ↔ p) : Lexes w q :=
  ⟨fun hw => h.closed (hq.mp hw), fun hw => h.broken (mt hq.mpr hw)⟩

/-- A text breaks the automaton in its first part, or takes it back to the outside and breaks it in
the second. -/
theorem append (hu : Lexes u p) (hv : Lexes v q) : Lexes (u ++ v) (p ∧ q) where
  closed h := (hu.closed h.1).append (hv.closed h.2)
  broken h := by
    rw [List.foldl_append]
    by_cases hp : p
    · rw [hu.closed hp]
      exact hv.broken fun hq => h ⟨hp, hq⟩
    · rw [hu.broken hp, Lexing.foldl_broken]

/-- One word that breaks the automaton breaks it for all. -/
theorem flatMap {α : Type} {f : α → List Char} {q : α → Prop} :
    ∀ {xs : List α}, (∀ x ∈ xs, Lexes (f x) (q x)) → Lexes (xs.flatMap f) (∀ x ∈ xs, q x)
  | [], _ => ⟨fun _ => rfl, fun h => absurd nofun h⟩
  | _ :: _, h =>
      have ⟨hx, hxs⟩ := List.forall_mem_cons.mp h
      (hx.append (flatMap hxs)).of_iff List.forall_mem_cons

end Lexes

/-- A character that does not survive is written as a numeric escape. -/
theorem escapeChar_of_not_survives {c : Char} (h : ¬ Survives c) :
    ∃ r, escapeChar c = '\\' :: 'u' :: r := by
  have ne {x : Char} (hx : Survives x) : c ≠ x := fun e => h (e ▸ hx)
  rw [escapeChar, if_neg (ne (by decide)), if_neg (ne (by decide)), if_neg (ne (by decide)),
    if_neg (ne (by decide)), if_neg (ne (by decide)), if_neg (ne (by decide)),
    if_neg (ne (by decide)), if_neg fun hp => h (.inl hp)]
  split <;> exact ⟨_, rfl⟩

/-- A numeric escape breaks the automaton within a string, at the letter that marks it. -/
theorem foldl_escapeChar_of_not_survives {c : Char} (h : ¬ Survives c) :
    (escapeChar c).foldl next .inside = .broken := by
  obtain ⟨r, escape⟩ := escapeChar_of_not_survives h
  rw [escape]
  exact Lexing.foldl_broken r

/-- Up to the first character that does not survive the automaton stays within the string, and there
it breaks. -/
theorem foldl_escapes_of_not_survive : ∀ {cs : List Char}, (¬ ∀ c ∈ cs, Survives c) →
    (cs.flatMap escapeChar).foldl next .inside = .broken
  | [], h => absurd nofun h
  | c :: cs, h => by
      rw [List.flatMap_cons, List.foldl_append]
      by_cases hc : Survives c
      · rw [foldl_character (escapeChar_of_survives hc)]
        exact foldl_escapes_of_not_survive fun hcs => h (List.forall_mem_cons.mpr ⟨hc, hcs⟩)
      · rw [foldl_escapeChar_of_not_survives hc, Lexing.foldl_broken]

/-- A string breaks the automaton if one of its characters does not survive. -/
theorem lexes_printString (s : String) : Lexes (printString s) (∀ c ∈ s.toList, Survives c) where
  closed h := closed_quoted (quoted_printString h)
  broken h := by
    rw [printString, List.foldl_append, List.foldl_cons]
    show List.foldl next (List.foldl next .inside _) ['"'] = _
    rw [foldl_escapes_of_not_survive h]
    rfl

theorem lexes_lines {α : Type} {word : α → List Char} {q : α → Prop} (depth : Nat) {xs : List α}
    (h : ∀ x ∈ xs, Lexes (word x) (q x)) : Lexes (lines depth (xs.map word)) (∀ x ∈ xs, q x) := by
  have comma : Closed (',' :: newline depth) :=
    .cons (by decide) (closed_blanks (blanks_newline depth))
  rw [lines, List.flatMap_map]
  exact .flatMap fun x hx =>
    ((Lexes.of_closed comma).append (h x hx)).of_iff (true_and _).symm.to_iff

/-- Brackets, commas and white space neither open a string nor break the automaton. -/
theorem lexes_bracketed {α : Type} {word : α → List Char} {q : α → Prop} {opening closing : Char}
    (ho : opening ≠ '"') (hc : closing ≠ '"') (depth : Nat) {xs : List α}
    (h : ∀ x ∈ xs, Lexes (word x) (q x)) :
    Lexes (bracketed opening closing depth (xs.map word)) (∀ x ∈ xs, q x) := by
  have first : Lexes (opening :: newline (depth + 1)) True :=
    .of_closed (.cons ho (closed_blanks (blanks_newline _)))
  have last : Lexes (newline depth ++ [closing]) True :=
    .of_closed ((closed_blanks (blanks_newline depth)).append (.cons hc .nil))
  cases xs with
  | nil => exact (Lexes.of_closed (.cons ho (.cons hc .nil))).of_iff (by simp)
  | cons x xs =>
      obtain ⟨hx, hxs⟩ := List.forall_mem_cons.mp h
      rw [List.map_cons, bracketed, List.append_assoc]
      exact (((first.append hx).append (lexes_lines (depth + 1) hxs)).append last).of_iff (by simp)

/-- An integer has no quote in it. -/
theorem closed_numeralOfInt (n : Int) : Closed (numeralOfInt n) :=
  closed_numeral ((number_iff id).mp
    (number_numeralOfInt n (DigitLimit.allows_unlimited _))).1

/-- An entry breaks the automaton in its key or in its value. -/
theorem lexes_entryText {depth : Nat} {e : String × Json}
    (h : Lexes (textAt depth e.2) (Readable e.2)) :
    Lexes (entryText depth e) ((∀ c ∈ e.1.toList, Survives c) ∧ Readable e.2) := by
  have colon : Closed [':', ' '] := rfl
  simpa [entryText] using
    (((lexes_printString e.1).append (.of_closed colon)).append h).of_iff (and_true _ ▸ Iff.rfl)

/-- The text of a value is closed if the value is readable, and broken if it is not. -/
theorem lexes_textAt {v : Json} (hv : Plain v) :
    ∀ depth, Lexes (textAt depth v) (Readable v) := by
  induction hv with
  | null => exact fun _ => .of_iff (.of_closed rfl) (iff_true_intro readable_null)
  | bool b =>
      intro _
      cases b with
      | true | false => exact .of_iff (.of_closed rfl) (iff_true_intro (readable_bool _))
  | int n =>
      exact fun _ => .of_iff (.of_closed (closed_numeralOfInt n)) (iff_true_intro (readable_int n))
  | string s => exact fun _ => (lexes_printString s).of_iff readable_string_iff
  | array _ ih =>
      intro depth
      rw [textAt_array]
      exact (lexes_bracketed (by decide) (by decide) depth
        fun v hv => ih v hv (depth + 1)).of_iff readable_array_iff
  | object _ _ ih =>
      intro depth
      rw [textAt_object]
      exact (lexes_bracketed (by decide) (by decide) depth fun e he =>
        lexes_entryText (ih e he (depth + 1))).of_iff readable_object_iff

/-! ### Digits are only those of integers -/

/-- Behind such a text the automaton is not within a string. -/
theorem Lexes.ends {w : List Char} {q : Prop} (h : Lexes w q) :
    Closed w ∨ w.foldl next .outside = .broken := by
  by_cases hq : q
  · exact .inl (h.closed hq)
  · exact .inr (h.broken hq)

/-- Between its quotes a printed string does not take the automaton outside, however it is cut. -/
theorem inside_of_character {w : List Char} {c : Char} (h : Character w c) {u : List Char}
    (hu : u <+: w) : u.foldl next .inside ≠ .outside := by
  cases h with
  | plain hq hb =>
      simp only [List.prefix_cons_iff, List.prefix_nil] at hu
      rcases hu with rfl | ⟨_, rfl, rfl⟩
      · decide
      · simp [next, hq, hb]
  | escaped h =>
      simp only [List.prefix_cons_iff, List.prefix_nil] at hu
      rcases hu with rfl | ⟨_, rfl, rfl | ⟨_, rfl, rfl⟩⟩
      · decide
      · decide
      · cases h <;> decide

/-- The automaton does not leave a string in the course of a numeric escape. -/
theorem inside_of_unitEscape {r u : List Char} (hu : u <+: '\\' :: 'u' :: r) :
    u.foldl next .inside ≠ .outside := by
  simp only [List.prefix_cons_iff] at hu
  rcases hu with rfl | ⟨_, rfl, rfl | ⟨u, rfl, -⟩⟩
  · decide
  · decide
  · have broken : ('\\' :: 'u' :: u).foldl next .inside = .broken := Lexing.foldl_broken u
    rw [broken]
    decide

/-- Between the quotes of a printed string the automaton is never outside. -/
theorem inside_of_escapes : ∀ {cs u : List Char}, u <+: cs.flatMap escapeChar →
    u.foldl next .inside ≠ .outside
  | [], u, hu => by
      rw [List.flatMap_nil, List.prefix_nil] at hu
      rw [hu]
      decide
  | c :: cs, u, ⟨r, hr⟩ => by
      rw [List.flatMap_cons] at hr
      rcases List.append_eq_append_iff.mp hr with ⟨v, hv, -⟩ | ⟨v, rfl, hv⟩
      · by_cases hc : Survives c
        · exact inside_of_character (escapeChar_of_survives hc) ⟨v, hv.symm⟩
        · obtain ⟨r, escape⟩ := escapeChar_of_not_survives hc
          rw [escape] at hv
          exact inside_of_unitEscape ⟨v, hv.symm⟩
      · rw [List.foldl_append]
        by_cases hc : Survives c
        · rw [foldl_character (escapeChar_of_survives hc)]
          exact inside_of_escapes ⟨r, hv.symm⟩
        · rw [foldl_escapeChar_of_not_survives hc, Lexing.foldl_broken]
          decide

/-- A printed string may have any number of digits. -/
theorem sparse_printString (limit : DigitLimit) (s : String) : Sparse limit (printString s) := by
  rintro _ ⟨r, hr⟩ ⟨w, d, rfl, closed, digits, -⟩
  obtain ⟨x, d, rfl⟩ := List.exists_cons_of_ne_nil digits.1
  rw [List.append_assoc, printString] at hr
  cases w with
  | nil =>
      obtain ⟨rfl, -⟩ := List.cons.inj hr
      cases digits.2 _ List.mem_cons_self
  | cons y w =>
      obtain ⟨rfl, body⟩ := List.cons.inj hr
      -- The digits begin in front of the quote at the end, and so what stands before them ends
      -- between the quotes.
      rcases List.append_eq_append_iff.mp body with ⟨v, hv, -⟩ | ⟨v, rfl, hv⟩
      · exact inside_of_escapes ⟨v, hv.symm⟩ closed
      · cases v with
        | nil => exact inside_of_escapes (List.prefix_refl _) (by rwa [List.append_nil] at closed)
        | cons z v => simp at hv

/-- Each word on a line of its own has a comma before it, so that no digits meet, nor do they with
what follows. -/
theorem sparse_lines {α : Type} {word : α → List Char} {q : α → Prop} (depth : Nat)
    {rest : List Char} (hr : Sparse limit rest) (apart : Avoids Char.isDigit rest) :
    ∀ {xs : List α}, (∀ x ∈ xs, Lexes (word x) (q x) ∧ Sparse limit (word x)) →
      Sparse limit (lines depth (xs.map word) ++ rest) ∧
        Avoids Char.isDigit (lines depth (xs.map word) ++ rest)
  | [], _ => ⟨hr, apart⟩
  | x :: xs, h => by
      obtain ⟨⟨lexes, sparse⟩, hxs⟩ := List.forall_mem_cons.mp h
      obtain ⟨more, apart⟩ := sparse_lines depth hr apart hxs
      have line := (sparse.append lexes.ends more apart).append_of_blanks (blanks_newline depth)
      simp only [lines, List.map_cons, List.flatMap_cons, List.cons_append, List.append_assoc]
        at line ⊢
      exact ⟨.cons (by decide) rfl line, Avoids.cons_iff.mpr rfl⟩

/-- Digits of different words are kept apart by what stands between them. -/
theorem sparse_bracketed {α : Type} {word : α → List Char} {q : α → Prop} {opening closing : Char}
    (ho : opening ≠ '"' ∧ opening.isDigit = false) (hc : closing ≠ '"' ∧ closing.isDigit = false)
    (depth : Nat) {xs : List α} (h : ∀ x ∈ xs, Lexes (word x) (q x) ∧ Sparse limit (word x)) :
    Sparse limit (bracketed opening closing depth (xs.map word)) := by
  have last : Sparse limit [closing] := .cons hc.1 hc.2 .nil
  cases xs with
  | nil => exact .cons ho.1 ho.2 last
  | cons x xs =>
      obtain ⟨⟨lexes, sparse⟩, hxs⟩ := List.forall_mem_cons.mp h
      have closed : Sparse limit (newline depth ++ [closing]) :=
        last.append_of_blanks (blanks_newline depth)
      obtain ⟨more, apart⟩ := sparse_lines (depth + 1) closed (Avoids.cons_iff.mpr rfl) hxs
      have items := (sparse.append lexes.ends more apart).append_of_blanks
        (blanks_newline (depth + 1))
      simp only [List.map_cons, bracketed, List.cons_append, List.append_assoc] at items ⊢
      exact .cons ho.1 ho.2 items

/-- Outside of strings, the digits of the text are those of the integers of the value. -/
theorem sparse_textAt {v : Json} (hv : Plain v) :
    ∀ depth, Writable limit v → Sparse limit (textAt depth v) := by
  induction hv with
  | null => exact fun _ _ => Sparse.of_short (by decide : "null".toList.length ≤ 640)
  | bool b =>
      intro _ _
      cases b with
      | true => exact Sparse.of_short (by decide : "true".toList.length ≤ 640)
      | false => exact Sparse.of_short (by decide : "false".toList.length ≤ 640)
  | int n =>
      intro _ hw
      have few := writable_int_iff.mp hw
      cases n with
      | ofNat n => exact .of_length few
      | negSucc n => exact .cons (by decide) rfl (.of_length few)
  | string s => exact fun _ _ => sparse_printString limit s
  | array items ih =>
      intro depth hw
      rw [textAt_array]
      exact sparse_bracketed (by decide) (by decide) depth fun v hv =>
        ⟨lexes_textAt (items v hv) _, ih v hv _ (writable_array_iff.mp hw v hv)⟩
  | object keys values ih =>
      intro depth hw
      rw [textAt_object]
      have lexes (e) (he) := lexes_entryText (lexes_textAt (values e he) (depth + 1))
      refine sparse_bracketed (by decide) (by decide) depth fun e he => ⟨lexes e he, ?_⟩
      have value := ih e he (depth + 1) (writable_object_iff.mp hw e he)
      exact (sparse_printString limit e.1).append (lexes_printString e.1).ends
        (.cons (by decide) rfl (.cons (by decide) rfl value)) (Avoids.cons_iff.mpr rfl)

/-! ### Round trip -/

/-- A text with a line feed behind it. -/
def terminated (t : List Char) : Array Char := (t ++ ['\n']).toArray

/-- A printed value that can be read back is a document, with the new line behind it. -/
theorem document_text {v : Json} (hv : Plain v) (hw : Writable limit v) (hr : Readable v) :
    Document limit (terminated (textAt 0 v)).toList v := by
  have lineFeed : Blanks ['\n'] := List.forall_mem_singleton.mpr rfl
  exact .mk (b := []) blanks_nil (value_textAt hv 0 hw hr lineFeed)

/-- A text that is a document, with whatever value, has not broken the automaton. -/
theorem readable_of_document {v v' : Json} (hv : Plain v)
    (h : Document limit (terminated (textAt 0 v)).toList v') : Readable v := by
  have lexes : Lexes (terminated (textAt 0 v)).toList (Readable v ∧ True) :=
    (lexes_textAt hv 0).append (.of_closed rfl)
  have closed : Closed (terminated (textAt 0 v)).toList := by
    generalize (terminated (textAt 0 v)).toList = t at h
    obtain ⟨hb, hw⟩ := h
    exact (closed_blanks hb).append (closed_value hw)
  by_cases hr : Readable v
  · exact hr
  · cases closed.symm.trans (lexes.broken fun h => hr h.1)

/-- The grammar gives the text of a value that value and no other, or none at all. -/
theorem document_text_iff {v v' : Json} (hv : Plain v) (hw : Writable limit v) :
    Document limit (terminated (textAt 0 v)).toList v' ↔ v' = v ∧ Readable v := by
  constructor
  · intro h
    have hr := readable_of_document hv h
    exact ⟨document_unique h (document_text hv hw hr), hr⟩
  · rintro ⟨rfl, hr⟩
    exact document_text hv hw hr

/-- A printed value has nowhere too many digits outside of its strings. -/
theorem sparse_terminated {v : Json} (hv : Plain v) (hw : Writable limit v) :
    Sparse limit (terminated (textAt 0 v)).toList :=
  (sparse_textAt hv 0 hw).append (lexes_textAt hv 0).ends (.of_short (by decide))
    (Avoids.cons_iff.mpr rfl)

/-- **What is printed is read back as the same value, or not at all.**  A value without
floating-point numbers is printed if and only if none of its integers has too many digits.  A run on
its text succeeds with that value, its entries in their order, and with no other; and it succeeds if
and only if no character of the value needs a numeric escape.  Where one does, however deep in the
value, the run fails.

Without a limit (`DigitLimit.unlimited`), every such value is printed. -/
theorem run_print_iff (limit : DigitLimit) {v : Json} (hv : Plain v) (s : Session) :
    ((∃ t, print limit v = .ok t) ↔ ∀ n, Holds n v → limit.Allows (digitCount n.natAbs)) ∧
    ∀ t, print limit v = .ok t →
      (∀ v', (∃ rest s', (grammar limit).runText ((terminated t).size + 2) (parser limit)
        (terminated t) s = (.success v' rest, s')) ↔ v' = v ∧ ∀ c, Occurs c v → Survives c) ∧
      ((∃ c, Occurs c v ∧ ¬ Survives c) → ∃ offset error s',
        (grammar limit).runText ((terminated t).size + 2) (parser limit) (terminated t) s =
          (.failure offset error, s')) := by
  refine ⟨⟨fun ⟨t, ht⟩ => (print_eq_ok_iff.mp ht).1, fun hw => ⟨_, print_eq_ok_iff.mpr ⟨hw, rfl⟩⟩⟩,
    fun t ht => ?_⟩
  obtain ⟨hw, rfl⟩ := print_eq_ok_iff.mp ht
  have reads (v' : Json) :=
    (run_success_iff limit (terminated (textAt 0 v)) s v').trans (document_text_iff hv hw)
  refine ⟨reads, fun ⟨c, hc, hs⟩ => ?_⟩
  obtain ⟨v', success⟩ | failure | ⟨-, u, there, overruns⟩ :=
    run_ends limit (terminated (textAt 0 v)) s
  · exact absurd (((reads v').mp success).2 c hc) hs
  · exact failure
  · exact absurd overruns (sparse_terminated hv hw u there)

/-- An object with an array inside, whose second entry is given. -/
def nested (v : Json) : Json :=
  .object [("a\n", .array [.int (-12), .null, .array [], .bool true]), ("", v)]

theorem plain_nested {v : Json} (hv : Plain v) : Plain (nested v) := by
  refine .object (show ["a\n", ""].Nodup by decide) fun e he => ?_
  simp only [List.mem_cons, List.not_mem_nil, or_false] at he
  rcases he with rfl | rfl
  · refine .array fun v hv => ?_
    simp only [List.mem_cons, List.not_mem_nil, or_false] at hv
    rcases hv with rfl | rfl | rfl | rfl
    · exact .int _
    · exact .null
    · exact .array nofun
    · exact .bool _
  · exact hv

theorem readable_nested {s : String} (hs : ∀ c ∈ s.toList, Survives c) :
    Readable (nested (.string s)) := by
  refine readable_object_iff.mpr fun e he => ?_
  simp only [List.mem_cons, List.not_mem_nil, or_false] at he
  rcases he with rfl | rfl
  · refine ⟨by simp [Survives], readable_array_iff.mpr fun v hv => ?_⟩
    simp only [List.mem_cons, List.not_mem_nil, or_false] at hv
    rcases hv with rfl | rfl | rfl | rfl <;> nofun
  · exact ⟨nofun, readable_string_iff.mpr hs⟩

/-- Its integers have few digits, at every limit. -/
theorem writable_nested (s : String) : Writable limit (nested (.string s)) := by
  refine writable_object_iff.mpr fun e he => ?_
  simp only [List.mem_cons, List.not_mem_nil, or_false] at he
  rcases he with rfl | rfl
  · refine writable_array_iff.mpr fun v hv => ?_
    simp only [List.mem_cons, List.not_mem_nil, or_false] at hv
    rcases hv with rfl | rfl | rfl | rfl
    · exact writable_int_iff.mpr (DigitLimit.allows_of_le (by decide))
    all_goals nofun
  · exact writable_string s

/-- With a tab and a quote inside, the document is read back; with an e acute it is not. -/
theorem run_print_nested :
    (∃ t, print .standard (nested (.string "\t\"x")) = .ok t ∧ ∃ rest s',
      (grammar .standard).runText ((terminated t).size + 2) (parser .standard) (terminated t)
        .start = (.success (nested (.string "\t\"x")) rest, s')) ∧
    ∃ t, print .standard (nested (.string "\u00e9")) = .ok t ∧ ∃ offset error s',
      (grammar .standard).runText ((terminated t).size + 2) (parser .standard) (terminated t)
        .start = (.failure offset error, s') := by
  constructor
  · have ⟨printed, back⟩ := run_print_iff .standard
      (plain_nested (.string "\t\"x")) .start
    obtain ⟨t, ht⟩ := printed.mpr (writable_nested _)
    exact ⟨t, ht, ((back t ht).1 _).mpr ⟨rfl, readable_nested (by simp [Survives])⟩⟩
  · have ⟨printed, back⟩ := run_print_iff .standard
      (plain_nested (.string "\u00e9")) .start
    obtain ⟨t, ht⟩ := printed.mpr (writable_nested _)
    exact ⟨t, ht, (back t ht).2 ⟨'\u00e9', .value (.tail _ (.head _)) (.string (by decide)),
      by decide⟩⟩

/-! ### Too many digits -/

/-- A power of ten has one digit more than its exponent says. -/
theorem digitCount_pow (k : Nat) : digitCount (10 ^ k) = k + 1 := by
  have most : digitCount (10 ^ k) ≤ k + 1 :=
    (Nat.length_toDigits_le_iff (by decide) (Nat.succ_pos k)).mpr
      (Nat.pow_lt_pow_right (by decide) (Nat.lt_succ_self k))
  have least : ¬ digitCount (10 ^ k) ≤ k := fun few => by
    cases k with
    | zero => exact absurd few (by decide)
    | succ k =>
        exact Nat.lt_irrefl _ ((Nat.length_toDigits_le_iff (by decide) (Nat.succ_pos k)).mp few)
  omega

/-- An integer with too many digits is not printed, and the exception does not tell how many. -/
theorem print_int_of_exceeded {n : Int} {most : Nat}
    (many : limit.exceeded? (digitCount n.natAbs) = some most) :
    print limit (.int n) = .error ⟨most, none⟩ := by
  rw [print, printAt, printInt, writeInt, many]
  rfl

/-- A power of ten with too many digits is not printed, nor are its digits read. -/
theorem pow_overlong {k most : Nat} (many : limit.exceeded? (k + 1) = some most) (s : Session) :
    print limit (.int (10 ^ k)) = .error ⟨most, none⟩ ∧
    ∃ s', (grammar limit).runText ((terminated (textAt 0 (.int (10 ^ k)))).size + 2) (parser limit)
      (terminated (textAt 0 (.int (10 ^ k)))) s = (.thrown (.raised ⟨most, some (k + 1)⟩), s') := by
  have power : (10 ^ k : Int) = (10 ^ k : Nat) := (Int.natCast_pow 10 k).symm
  have count := digitCount_pow k
  rw [power]
  generalize 10 ^ k = n at count
  rw [← count] at many ⊢
  have text : (terminated (textAt 0 (.int n))).toList = Nat.toDigits 10 n ++ ['\n'] := rfl
  have raised := Grammar.runText_meets (parser_overlong limit (digits_toDigits n) many text) s
  refine ⟨print_int_of_exceeded many, ?_⟩
  generalize (grammar limit).runText _ (parser limit) _ s = reply at raised ⊢
  obtain ⟨o, s'⟩ := reply
  cases o with
  | thrown fault =>
      cases raised
      exact ⟨s', rfl⟩
  | success _ _ | failure _ _ | exhausted => cases raised

/-- The integer 10 to the 4300th has one digit too many.  It is a value without floating-point
numbers and without any character, but it is not printed, nor are its digits read back. -/
theorem print_overlong :
    let v := Json.int (10 ^ 4300)
    let text := terminated (textAt 0 v)
    Plain v ∧ (∀ c, Occurs c v → Survives c) ∧ print .standard v = .error ⟨4300, none⟩ ∧
      ∃ s', (grammar .standard).runText (text.size + 2) (parser .standard) text .start =
        (.thrown (.raised ⟨4300, some 4301⟩), s') :=
  ⟨.int _, readable_int _, pow_overlong (by decide) .start⟩

end Parsing.Json
