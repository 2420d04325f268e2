import Parsing.Decimal.Reading
import Parsing.Json.Value
import Parsing.Proofs.Recognition
import Parsing.Text.Blank

/-!
# The syntax of JSON documents

The context-free grammar of documents, with the value that each text stands for.  Alternatives
are not ordered and repetitions have any length, so that nothing here says how a document is
read:

    document = blanks value
    value    = 'null' blanks | 'true' blanks | 'false' blanks | string blanks | number blanks
             | '[' blanks [value (',' blanks value)*] ']' blanks
             | '{' blanks [entry (',' blanks entry)*] '}' blanks
    entry    = string blanks ':' blanks value
    string   = '"' (character | '\' letter)* '"'
    number   = '-'? digits ('.' digits)? (('e' | 'E') ('+' | '-')? digits)?

A number without a fraction and an exponent is an integer.  There is a limit on its digits, which
is the only thing about the grammar that is not context-free; at `DigitLimit.unlimited` there is
none.

The value of an object is given by what it has to satisfy (`Overrides`): its keys are those of the
entries, each once and in the order in which they first come, and the value of a key is the one that
comes last.  There is exactly one such object, the merge of the entries
(`overrides_iff`).
-/

namespace Parsing.Json.Syntax

open Parsing.Decimal Parsing.Text

variable {α : Type}

/-! ### Tokens -/

/-- White space of any length. -/
def Blanks (w : List Char) : Prop := ∀ x ∈ w, isBlank x = true

/-- The letters behind a backslash and the characters that they mean. -/
inductive Escape : Char → Char → Prop where
  | lineFeed : Escape 'n' '\n'
  | carriageReturn : Escape 'r' '\r'
  | tab : Escape 't' '\t'
  | backspace : Escape 'b' '\x08'
  | formFeed : Escape 'f' '\x0c'
  | slash : Escape '/' '/'
  | backslash : Escape '\\' '\\'
  | quote : Escape '"' '"'

/-- A character between quotes, as itself or escaped. -/
inductive Character : List Char → Char → Prop where
  | plain {x : Char} (hq : x ≠ '"') (hb : x ≠ '\\') : Character [x] x
  | escaped {letter x : Char} (h : Escape letter x) : Character ['\\', letter] x

/-- A string between quotes. -/
inductive Quoted : List Char → String → Prop where
  | mk {w xs : List Char} (h : Star Character w xs) :
      Quoted ('"' :: (w ++ ['"'])) (String.ofList xs)

/-- Decimal digits, one or more. -/
def Digits (w : List Char) : Prop := w ≠ [] ∧ ∀ x ∈ w, x.isDigit = true

/-- A minus sign or nothing. -/
inductive Minus : List Char → Prop where
  | none : Minus []
  | minus : Minus ['-']

/-- The part of a number behind the point, or nothing. -/
inductive Fraction : List Char → Prop where
  | none : Fraction []
  | point {w : List Char} (h : Digits w) : Fraction ('.' :: w)

/-- A sign of an exponent, or nothing. -/
inductive Sign : List Char → Prop where
  | none : Sign []
  | plus : Sign ['+']
  | minus : Sign ['-']

/-- The power of ten of a number, or nothing. -/
inductive Exponent : List Char → Prop where
  | none : Exponent []
  | power {x : Char} {s w : List Char} (hx : x = 'e' ∨ x = 'E') (hs : Sign s) (h : Digits w) :
      Exponent (x :: (s ++ w))

/-- A number.  Without a fraction and an exponent it is the integer that its digits write, if there
may be so many, and otherwise the floating-point number of the numeral. -/
inductive Number (limit : DigitLimit) : List Char → Json → Prop where
  | nat {w : List Char} (h : Digits w) (few : limit.Allows w.length) :
      Number limit w (.int (natOfDigits w))
  | negative {w : List Char} (h : Digits w) (few : limit.Allows w.length) :
      Number limit ('-' :: w) (.int (-natOfDigits w))
  | float {m w f e : List Char} (hm : Minus m) (h : Digits w) (hf : Fraction f) (he : Exponent e)
      (some : f ++ e ≠ []) :
      Number limit (m ++ w ++ f ++ e) (.float (floatOfNumeral (m ++ w ++ f ++ e)))

/-! ### Objects -/

/-- `merged` has the keys of the entries, each once, in the order in which they first come, and
the value of each key that comes last. -/
def Overrides (entries merged : List (String × α)) : Prop :=
  merged.map Prod.fst = (entries.map Prod.fst).eraseDups ∧
    ∀ key, merged.lookup key = entries.reverse.lookup key

/-- The last entry is put in when the others have been merged. -/
theorem mergeEntries_reverse_cons (key : String) (value : α) (entries : List (String × α)) :
    mergeEntries ((key, value) :: entries).reverse =
      put key value (mergeEntries entries.reverse) := by
  simp [mergeEntries]

theorem lookup_cons_of_ne {key k : String} (h : key ≠ k) (value : α)
    (entries : List (String × α)) : ((k, value) :: entries).lookup key = entries.lookup key := by
  rw [List.lookup_cons, beq_false_of_ne h]

/-- An entry that is put in changes nothing for the other keys. -/
theorem lookup_put_of_ne {key k : String} (h : k ≠ key) (value : α) :
    ∀ entries : List (String × α), (put key value entries).lookup k = entries.lookup k
  | [] => lookup_cons_of_ne h value []
  | (k', v) :: entries => by
      by_cases hk : k' = key
      · subst hk
        rw [put, if_pos rfl, lookup_cons_of_ne h, lookup_cons_of_ne h]
      · rw [put, if_neg hk, List.lookup_cons, List.lookup_cons, lookup_put_of_ne h value entries]

/-! The entries are merged in their order, so that the recursion goes from the last to the first. -/

/-- The keys stand in the order in which they come first. -/
theorem keys_mergeEntries_reverse : ∀ entries : List (String × α),
    (mergeEntries entries.reverse).map Prod.fst = (entries.reverse.map Prod.fst).eraseDups
  | [] => rfl
  | (key, value) :: entries => by
      have ih := keys_mergeEntries_reverse entries
      have mem : key ∈ (mergeEntries entries.reverse).map Prod.fst ↔
          key ∈ entries.reverse.map Prod.fst := by rw [ih, List.mem_eraseDups]
      rw [mergeEntries_reverse_cons, map_fst_put, List.reverse_cons, List.map_append,
        List.eraseDups_append, ← ih]
      by_cases h : key ∈ entries.reverse.map Prod.fst
      · rw [if_pos (mem.mpr h)]
        simp_all [List.removeAll]
      · rw [if_neg (mt mem.mp h)]
        simp_all [List.removeAll, List.eraseDups_cons]

/-- A key has the value that it was given last. -/
theorem lookup_mergeEntries_reverse (key : String) : ∀ entries : List (String × α),
    (mergeEntries entries.reverse).lookup key = entries.lookup key
  | [] => rfl
  | (k, value) :: entries => by
      rw [mergeEntries_reverse_cons]
      by_cases h : key = k
      · subst h
        rw [lookup_put_self, List.lookup_cons_self]
      · rw [lookup_put_of_ne h, lookup_cons_of_ne h, lookup_mergeEntries_reverse key entries]

/-- No key stands twice when the entries have been merged. -/
theorem nodup_mergeEntries_reverse : ∀ entries : List (String × α),
    ((mergeEntries entries.reverse).map Prod.fst).Nodup
  | [] => .nil
  | (key, value) :: entries => by
      have ih := nodup_mergeEntries_reverse entries
      rw [mergeEntries_reverse_cons, map_fst_put]
      split
      · exact ih
      · next h =>
          refine List.nodup_append.mpr ⟨ih, by simp, fun k hk k' hk' => ?_⟩
          rw [List.mem_singleton.mp hk']
          exact fun e => h (e ▸ hk)

/-- Entries with distinct keys are determined by the order of the keys and their values. -/
theorem eq_of_lookup : ∀ {a b : List (String × α)}, a.map Prod.fst = b.map Prod.fst →
    (a.map Prod.fst).Nodup → (∀ key, a.lookup key = b.lookup key) → a = b
  | [], [], _, _, _ => rfl
  | (k, v) :: a, (k', v') :: b, hk, hn, h => by
      obtain ⟨hkk, hab⟩ := List.cons.inj hk
      obtain ⟨hka, hna⟩ := List.nodup_cons.mp hn
      cases hkk
      have hv := h k
      simp only [List.lookup_cons_self, Option.some.injEq] at hv
      subst hv
      congr 1
      refine eq_of_lookup hab hna fun key => ?_
      by_cases hkey : key = k
      · subst hkey
        have absent {l : List (String × α)} (hl : key ∉ l.map Prod.fst) : l.lookup key = none :=
          List.lookup_eq_none_iff.mpr fun p hp => by
            simpa using fun e : key = p.1 => hl (e ▸ List.mem_map_of_mem hp)
        rw [absent hka, absent (hab ▸ hka)]
      · have hl := h key
        rwa [lookup_cons_of_ne hkey, lookup_cons_of_ne hkey] at hl

/-- The merge of the entries is the one object that they stand for. -/
theorem overrides_iff {entries merged : List (String × α)} :
    Overrides entries merged ↔ merged = mergeEntries entries := by
  have keys := keys_mergeEntries_reverse entries.reverse
  have lookup := fun key => lookup_mergeEntries_reverse key entries.reverse
  have nodup := nodup_mergeEntries_reverse entries.reverse
  rw [List.reverse_reverse] at keys nodup
  simp only [List.reverse_reverse] at lookup
  constructor
  · rintro ⟨hk, hl⟩
    exact (eq_of_lookup (keys.trans hk.symm) nodup fun key => (lookup key).trans (hl key).symm).symm
  · rintro rfl
    exact ⟨keys, lookup⟩

/-! ### Values -/

/-- A word behind a comma. -/
inductive Led (L : List Char → α → Prop) : List Char → α → Prop where
  | mk {b w : List Char} {x : α} (hb : Blanks b) (h : L w x) : Led L (',' :: (b ++ w)) x

/-- Words with commas between them, or nothing. -/
inductive Separated (L : List Char → α → Prop) : List Char → List α → Prop where
  | none : Separated L [] []
  | some {u v : List Char} {x : α} {xs : List α} (h : L u x) (t : Star (Led L) v xs) :
      Separated L (u ++ v) (x :: xs)

/-- An entry of an object. -/
inductive Entry (V : List Char → Json → Prop) : List Char → String × Json → Prop where
  | mk {k b b' w : List Char} {key : String} {v : Json} (hk : Quoted k key) (hb : Blanks b)
      (hb' : Blanks b') (h : V w v) : Entry V (k ++ b ++ ':' :: (b' ++ w)) (key, v)

/-- A value with the white space behind it. -/
inductive Value (limit : DigitLimit) : List Char → Json → Prop where
  | null {b : List Char} (hb : Blanks b) : Value limit ("null".toList ++ b) .null
  | true {b : List Char} (hb : Blanks b) : Value limit ("true".toList ++ b) (.bool Bool.true)
  | false {b : List Char} (hb : Blanks b) : Value limit ("false".toList ++ b) (.bool Bool.false)
  | string {w b : List Char} {s : String} (h : Quoted w s) (hb : Blanks b) :
      Value limit (w ++ b) (.string s)
  | number {w b : List Char} {v : Json} (h : Number limit w v) (hb : Blanks b) :
      Value limit (w ++ b) v
  | array {b w b' : List Char} {items : List Json} (hb : Blanks b)
      (h : Separated (Value limit) w items) (hb' : Blanks b') :
      Value limit ('[' :: b ++ w ++ ']' :: b') (.array items)
  | object {b w b' : List Char} {entries merged : List (String × Json)} (hb : Blanks b)
      (h : Separated (Entry (Value limit)) w entries) (hm : Overrides entries merged)
      (hb' : Blanks b') : Value limit ('\x7b' :: b ++ w ++ '\x7d' :: b') (.object merged)

/-- A whole document. -/
inductive Document (limit : DigitLimit) : List Char → Json → Prop where
  | mk {b w : List Char} {v : Json} (hb : Blanks b) (h : Value limit w v) :
      Document limit (b ++ w) v

end Parsing.Json.Syntax
