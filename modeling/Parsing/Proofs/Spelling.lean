import Parsing.Proofs.Meaning

/-!
# Strings and their characters

A string is read in one piece: the text is asked once whether it goes on with it.  The parsers of
its characters, one behind the other, ask character by character and may stop after any of them, or
at the end of the text.

For both there is one description (`Behaviour.Spells`): where the text goes on with the word they
succeed with it, and elsewhere they fail at a distance that depends on nothing but how many
characters of the word are there (`matched`).  For a string that distance is zero, and for its
characters it is that number.  Words that are spelled one behind the other spell the word that they
make up (`Behaviour.Spells.append`), and an attempt at them puts the distance to zero.  **So a
string is what an attempt at its characters is, and an attempt at any two parts of it**
(`Grammar.run_spelled`).
-/

namespace Parsing

variable {ε : Type} {ρ : Type → Type}

/-! ### How much of a word is there -/

/-- The number of characters of the word with which the text begins, up to the first other one. -/
def matched : List Char → List Char → Nat
  | x :: u, y :: r => if x = y then matched u r + 1 else 0
  | [], _ | _ :: _, [] => 0

theorem matched_append (u v r : List Char) :
    matched (u ++ v) (u ++ r) = u.length + matched v r := by
  induction u with
  | nil => simp
  | cons x u ih =>
      simp only [List.cons_append, matched, if_true, ih, List.length_cons]
      omega

theorem matched_lt_iff {u r : List Char} : matched u r < u.length ↔ ¬ u <+: r := by
  induction u generalizing r with
  | nil => simp
  | cons x u ih =>
      cases r with
      | nil => simp [matched]
      | cons y r =>
          by_cases h : x = y
          · simp [matched, h, ih]
          · simp [matched, h, List.cons_prefix_cons]

theorem matched_append_of_lt {u r : List Char} (h : matched u r < u.length) (v : List Char) :
    matched (u ++ v) r = matched u r := by
  induction u generalizing r with
  | nil => exact absurd h (Nat.not_lt_zero _)
  | cons x u ih =>
      cases r with
      | nil => rfl
      | cons y r =>
          by_cases hx : x = y
          · simp only [matched, hx, if_true, List.length_cons, Nat.add_lt_add_iff_right] at h
            simp only [List.cons_append, matched, hx, if_true, ih h]
          · simp only [List.cons_append, matched, hx, if_false]

/-! ### Characters and strings -/

namespace Parser

/-- The given character, as a string. -/
def single (x : Char) : Parser ε ρ String := (char x).map String.singleton

/-- The characters of a word, one behind the other from left to right. -/
def spelled : List Char → Parser ε ρ String
  | [] => pure ""
  | x :: xs => xs.foldl (fun p y => p ++ single y) (single x)

end Parser

namespace Behaviour

variable {c d : Cursor} {s t : Session}

/-- `p` reads the word and succeeds with it; where the text does not go on with the word it fails
as far on as `far` says of the number of its characters that are there. -/
structure Spells (p : Behaviour ε String) (u : List Char) (far : Nat → Nat) : Prop where
  success {c d : Cursor} (h : c.Reads u d) (s : Session) :
    p c s = (.success (String.ofList u) d, s)
  failure {c : Cursor} (h : ¬ u <+: c.remaining) (s : Session) :
    ∃ e, p c s = (.failure ↑(c.offset + far (matched u c.remaining)) e, s)

namespace Spells

variable {p q : Behaviour ε String} {u v : List Char} {far far' : Nat → Nat}

theorem pure : (pure "" : Behaviour ε String).Spells [] id where
  success h s := by
    cases Cursor.Reads.nil_iff.mp h
    rfl
  failure h := absurd (List.nil_prefix) h

theorem string (text : String) :
    (string text : Behaviour ε String).Spells text.toList fun _ => 0 where
  success h s := by rw [string_of_reads h, String.ofList_toList]
  failure h s := string_of_absent h s

/-- Words one behind the other: the second may fail as far as it does, behind the first. -/
theorem append (hp : p.Spells u far) (hq : q.Spells v far') :
    (bind p fun x => map (fun y => .ok (x ++ y)) q).Spells (u ++ v)
      fun n => if n < u.length then far n else u.length + far' (n - u.length) where
  success h s := by
    obtain ⟨d, hu, hv⟩ := h.split
    simp only [bind, hp.success hu, map_ok_eq, hq.success hv, Outcome.map, String.ofList_append]
  failure {c} h s := by
    by_cases first : u <+: c.remaining
    · obtain ⟨r, hr⟩ := first
      obtain ⟨d, hd, rfl⟩ := Cursor.Reads.of_append hr.symm
      have absent : ¬ v <+: d.remaining := fun hv =>
        h (by rw [← hr]; exact (List.prefix_append_right_inj u).mpr hv)
      obtain ⟨e, he⟩ := hq.failure absent s
      refine ⟨e, ?_⟩
      simp only [bind, hp.success hd, map_ok_eq, he, Outcome.map, hd.offset_eq]
      rw [← hr, matched_append, if_neg (by omega), Nat.add_sub_cancel_left, Nat.add_assoc]
    · obtain ⟨e, he⟩ := hp.failure first s
      have few := matched_lt_iff.mpr first
      exact ⟨e, by simp only [bind, he, matched_append_of_lt few, if_pos few]⟩

theorem attempt (hp : p.Spells u far) : (attempt p).Spells u fun _ => 0 where
  success h s := by simp only [Behaviour.attempt, hp.success h]
  failure h s := by
    obtain ⟨e, he⟩ := hp.failure h s
    exact ⟨e, by simp only [Behaviour.attempt, he]; rfl⟩

/-- What spells a word, as far on, cannot be told apart but by its errors. -/
theorem verdict_eq (hp : p.Spells u far) (hq : q.Spells u far) (c : Cursor) (s : Session) :
    (p c s).1.verdict = (q c s).1.verdict ∧ (p c s).2 = (q c s).2 := by
  by_cases h : u <+: c.remaining
  · obtain ⟨r, hr⟩ := h
    obtain ⟨d, hd, -⟩ := Cursor.Reads.of_append hr.symm
    rw [hp.success hd, hq.success hd]
    exact ⟨rfl, rfl⟩
  · obtain ⟨e, he⟩ := hp.failure h s
    obtain ⟨e', he'⟩ := hq.failure h s
    rw [he, he']
    exact ⟨rfl, rfl⟩

end Spells

end Behaviour

/-! ### The characters of a string -/

namespace Grammar

open Parsing.Parser (single spelled)

variable (g : Grammar ε ρ) (fuel : Nat)

section

variable {g fuel} {p q : Parser ε ρ String} {u v : List Char} {far far' : Nat → Nat}

theorem append_spells (hp : (g.run fuel p).Spells u far) (hq : (g.run fuel q).Spells v far') :
    (g.run fuel (p ++ q)).Spells (u ++ v)
      fun n => if n < u.length then far n else u.length + far' (n - u.length) := by
  rw [Parser.append_eq_combine, run_combine]
  exact hp.append hq

theorem attempt_spells (hp : (g.run fuel p).Spells u far) :
    (g.run fuel (.attempt p)).Spells u fun _ => 0 := by
  have run : g.run fuel (.attempt p) = .attempt (g.run fuel p) := by simp only [run_eq]; rfl
  rw [run]
  exact hp.attempt

end

theorem string_spells (text : String) :
    (g.run fuel (.string text)).Spells text.toList fun _ => 0 := by
  rw [run_eq]
  exact .string text

theorem single_spells (x : Char) : (g.run fuel (single x)).Spells [x] id := by
  let shown := "'" ++ String.singleton x ++ "'"
  have run : g.run fuel (single x) = .map (fun y => .ok (String.singleton y))
      (.suggest (.label (.satisfy fun y => (String.singleton x).toList == [y]) shown)
        ⟨String.singleton x, shown⟩) := by
    rw [run_eq]; rfl
  rw [run]
  constructor
  · intro c d h s
    have read := Behaviour.satisfy_of_reads (ε := ε)
      (fun y => (String.singleton x).toList == [y]) h (by simp) s
    simp only [Behaviour.map, Behaviour.suggest, Behaviour.label, read]
    rw [String.singleton_eq_ofList]
  · intro c h s
    have none : matched [x] c.remaining = 0 := by
      have := matched_lt_iff.mpr h
      simpa using this
    have absent (y : Char) (d : Cursor) (hd : c.Reads [y] d) :
        ((String.singleton x).toList == [y]) = false := by
      rw [String.toList_singleton, beq_eq_false_iff_ne]
      rintro hxy
      exact h (hxy ▸ ⟨d.remaining, hd.2.symm⟩)
    obtain ⟨e, he⟩ := Behaviour.satisfy_of_absent (ε := ε) _ absent s
    rw [none]
    exact ⟨_, by simp only [Behaviour.map, Behaviour.suggest, Behaviour.label, he, if_true]; rfl⟩

/-- Behind what spells a word, one character after the other spells the word with them. -/
theorem foldl_spells (xs : List Char) {p : Parser ε ρ String} {u : List Char}
    (h : (g.run fuel p).Spells u id) :
    (g.run fuel (xs.foldl (fun p y => p ++ single y) p)).Spells (u ++ xs) id := by
  induction xs generalizing p u with
  | nil => rwa [List.append_nil]
  | cons x xs ih =>
      rw [List.append_cons]
      refine ih ?_
      have both := append_spells h (g.single_spells fuel x)
      have far : (fun n => if n < u.length then id n else u.length + id (n - u.length)) = id := by
        funext n
        simp only [id]
        split
        · rfl
        · omega
      rwa [far] at both

theorem spelled_spells (u : List Char) : (g.run fuel (spelled u)).Spells u id := by
  cases u with
  | nil => rw [run_eq]; exact .pure
  | cons x xs => exact g.foldl_spells fuel xs (g.single_spells fuel x)

/-- **A string is the all-or-nothing form of its characters.**  From every cursor, a string and the
parsers of its characters from left to right succeed in the same runs, with the same value and at
the same place, which is behind the string.  Elsewhere the string fails where it was entered,
however much of it was there, and its characters fail behind those that were.

A string that is put together from two can be told from an attempt at the one and then the other by
nothing but its errors: they come to the same value and place, or fail at the same offset. -/
theorem run_spelled (c : Cursor) (s : Session) :
    (∀ text : String,
      (∀ y d t, g.run fuel (.string text) c s = (.success y d, t) ↔
        g.run fuel (spelled text.toList) c s = (.success y d, t)) ∧
      ((∃ d, c.Reads text.toList d ∧ g.run fuel (.string text) c s = (.success text d, s)) ∨
        ∃ e e', matched text.toList c.remaining < text.length ∧
          g.run fuel (.string text) c s = (.failure c.offset e, s) ∧
          g.run fuel (spelled text.toList) c s =
            (.failure ↑(c.offset + matched text.toList c.remaining) e', s))) ∧
    ∀ a b : String,
      let whole := g.run fuel (.string (a ++ b)) c s
      let parts := g.run fuel (.attempt (.string a ++ .string b)) c s
      whole.1.verdict = parts.1.verdict ∧ whole.2 = parts.2 := by
  refine ⟨fun text => ?_, fun a b => ?_⟩
  · have whole := g.string_spells fuel text
    have parts := g.spelled_spells fuel text.toList
    by_cases h : text.toList <+: c.remaining
    · obtain ⟨r, hr⟩ := h
      obtain ⟨d, hd, -⟩ := Cursor.Reads.of_append hr.symm
      have read := whole.success hd s
      rw [parts.success hd, read, String.ofList_toList]
      exact ⟨fun y d t => Iff.rfl, .inl ⟨d, hd, rfl⟩⟩
    · obtain ⟨e, he⟩ := whole.failure h s
      obtain ⟨e', he'⟩ := parts.failure h s
      rw [he, he']
      exact ⟨by simp, .inr ⟨e, e', matched_lt_iff.mpr h, rfl, rfl⟩⟩
  · have parts := attempt_spells (append_spells (g.string_spells fuel a) (g.string_spells fuel b))
    rw [← String.toList_append] at parts
    exact (g.string_spells fuel (a ++ b)).verdict_eq parts c s

end Grammar

end Parsing
