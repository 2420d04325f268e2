import Parsing.Json.Rules
import Parsing.Proofs.Json.Syntax

/-!
# The tokens of JSON

Each token parser recognises the tokens of its kind with the white space behind them.  Where the
choices and repetitions inside a token commit, the next character tells: a fraction begins with a
point, an exponent with a letter, and none of these is white space or ends a value (`Ends`).
-/

namespace Parsing.Json

open Behaviour (Recognises)
open Parsing.Parser hiding pure
open Syntax Text Decimal

variable {ε : Type} {ρ : Type → Type} {α : Type}
  {enter : {α : Type} → Cell → ρ α → Behaviour ε α} {rounds n : Nat} {L : List Char → α → Prop}
  {F F' N : List Char → Prop}

/-! ### Characters -/

theorem contains_singleton (cs : List Char) (x : Char) :
    (cs.map String.singleton).contains (String.singleton x) = cs.contains x := by
  rw [Bool.eq_iff_iff, List.contains_iff_mem, List.contains_iff_mem, List.mem_map]
  constructor
  · rintro ⟨y, hy, h⟩
    have hxy : [y] = [x] := by simpa using congrArg String.toList h
    cases hxy
    exact hy
  · exact fun h => ⟨x, h, rfl⟩

/-- A character of a class is read whatever stands behind it, and any other is refused. -/
theorem oneOf_recognises (cs : List Char) :
    Recognises n ((oneOf cs : Parser ε ρ Char).behaviour enter rounds)
      (fun w x => w = [x] ∧ cs.contains x = true) (fun _ => True) (Avoids cs.contains) := by
  refine (Recognises.satisfy _).label.imp (fun w x => ?_) (fun _ => id) fun r h x hx => ?_
  · rw [contains_singleton]
  · rw [contains_singleton]
    exact h x hx

/-- A character outside a class is read whatever stands behind it, and one inside is refused. -/
theorem noneOf_recognises (cs : List Char) :
    Recognises n ((noneOf cs : Parser ε ρ Char).behaviour enter rounds)
      (fun w x => w = [x] ∧ cs.contains x = false) (fun _ => True)
      (Avoids fun x => !cs.contains x) := by
  refine (Recognises.satisfy _).label.imp (fun w x => ?_) (fun _ => id) fun r h x hx => ?_
  · rw [contains_singleton, Bool.not_eq_true']
  · rw [contains_singleton]
    exact h x hx

/-! ### White space -/

/-- All the white space there is gets read, so that none may be left behind it; it is never refused.
-/
theorem spaces_recognises (hn : n ≤ rounds) :
    Recognises n ((spaces : Parser ε ρ Unit).behaviour enter rounds) (fun w _ => Blanks w)
      (Avoids isBlank) fun _ => False := by
  refine (skipMany_recognises (Recognises.satisfy isBlank).label ?_ (fun _ _ _ _ _ => trivial)
    (fun _ => id) hn).label.of_iff fun w _ => ?_
  · rintro w x ⟨rfl, -⟩
    exact List.cons_ne_nil x []
  · constructor
    · rintro ⟨xs, h⟩
      exact (star_class_iff.mp h).2
    · exact fun h => ⟨w, star_class_iff.mpr ⟨rfl, h⟩⟩

theorem blanks_nil : Blanks [] := List.forall_mem_nil _

/-- All the white space in front of a text is white space. -/
theorem blanks_takeWhile (r : List Char) : Blanks (r.takeWhile isBlank) := fun x hx =>
  List.all_eq_true.mp List.all_takeWhile x hx

/-- A token with the white space behind it. -/
def Lexeme (L : List Char → α → Prop) (w : List Char) (x : α) : Prop :=
  ∃ u b, L u x ∧ Blanks b ∧ w = u ++ b

/-- White space behind a word belongs to its lexeme, and has to be admitted behind the word. -/
theorem lexeme_recognises {p : Parser ε ρ α} (hp : Recognises n (p.behaviour enter rounds) L F N)
    (hn : n ≤ rounds) (hb : ∀ r, F' r → Avoids isBlank r)
    (hF : ∀ b r, Blanks b → F' r → F (b ++ r)) :
    Recognises n ((Rules.lexeme p).behaviour enter rounds) (Lexeme L) F' N := by
  have blanks : Recognises n ((spaces : Parser ε ρ Unit).behaviour enter rounds)
      (fun b _ => Blanks b) F' (fun _ => False) := (spaces_recognises hn).weaken hb fun _ => id
  refine (keepLeft_recognises hp blanks fun b _ => hF b).of_iff fun w x => ?_
  constructor
  · rintro ⟨u, b, _, hx, hb, rfl⟩
    exact ⟨u, b, hx, hb, rfl⟩
  · rintro ⟨u, b, hx, hb, rfl⟩
    exact ⟨u, b, (), hx, hb, rfl⟩

/-- A keyword or a sign is refused wherever the text does not go on with it. -/
theorem symbol_recognises (s : String) (hn : n ≤ rounds) :
    Recognises n ((Rules.symbol s : Parser ε ρ String).behaviour enter rounds)
      (Lexeme fun w x => w = s.toList ∧ x = s) (Avoids isBlank) fun r => ¬ s.toList <+: r :=
  lexeme_recognises (Recognises.string s) hn (fun _ => id) fun _ _ _ _ => trivial

/-! ### Strings -/

/-- The table of escapes holds the letters of the grammar's short escapes with their characters. -/
theorem escape_iff {letter x : Char} :
    Escape letter x ↔ (Rules.escapes.map Prod.fst).contains letter = true ∧
      Rules.unescape letter = x := by
  constructor
  · intro h
    cases h <;> exact ⟨by decide, by decide⟩
  · rintro ⟨h, rfl⟩
    rw [List.contains_iff_mem] at h
    simp only [Rules.escapes, List.map_cons, List.map_nil, List.mem_cons, List.not_mem_nil,
      or_false] at h
    rcases h with rfl | rfl | rfl | rfl | rfl | rfl | rfl | rfl
    · exact .lineFeed
    · exact .carriageReturn
    · exact .tab
    · exact .backspace
    · exact .formFeed
    · exact .slash
    · exact .backslash
    · exact .quote

/-- A backslash alone decides that an escape follows. -/
theorem escape_recognises :
    Recognises n ((Rules.escape : Parser ε ρ Char).behaviour enter rounds)
      (fun w x => ∃ letter, Escape letter x ∧ w = ['\\', letter]) (fun _ => True)
      (Avoids (· == '\\')) := by
  refine (keepRight_recognises (char_recognises '\\')
    (map_recognises Rules.unescape (oneOf_recognises (Rules.escapes.map Prod.fst)))
    fun _ _ _ _ _ => trivial).of_iff fun w x => ?_
  constructor
  · rintro ⟨_, _, _, ⟨rfl, rfl⟩, ⟨letter, ⟨rfl, hl⟩, hx⟩, rfl⟩
    exact ⟨letter, escape_iff.mpr ⟨hl, hx⟩, rfl⟩
  · rintro ⟨letter, h, rfl⟩
    obtain ⟨hl, hx⟩ := escape_iff.mp h
    exact ⟨['\\'], [letter], '\\', ⟨rfl, rfl⟩, ⟨letter, ⟨rfl, hl⟩, hx⟩, rfl⟩

/-- Anything but a quote begins a character of a string, and what is refused is a quote or the end
of the text. -/
theorem character_recognises :
    Recognises n (((noneOf ['"', '\\']).alt Rules.escape : Parser ε ρ Char).behaviour enter rounds)
      Character (fun _ => True) (Avoids (· != '"')) := by
  refine ((noneOf_recognises ['"', '\\']).alt escape_recognises ?_).imp (fun w x => ?_)
    (fun _ => id) fun r h => ?_
  · rintro w x r ⟨letter, -, rfl⟩ -
    exact Avoids.cons_iff.mpr rfl
  · constructor
    · rintro (⟨rfl, hx⟩ | ⟨letter, hl, rfl⟩)
      · simp only [List.contains_cons, List.contains_nil, Bool.or_false, Bool.or_eq_false_iff,
          beq_eq_false_iff_ne] at hx
        exact .plain hx.1 hx.2
      · exact .escaped hl
    · intro h
      cases h with
      | plain hq hb => exact .inl ⟨rfl, by simp [hq, hb]⟩
      | escaped hl => exact .inr ⟨_, hl, rfl⟩
  · have quote (x : Char) (hx : x ∈ r.head?) : x = '"' := by simpa using h x hx
    exact ⟨fun x hx => by rw [quote x hx]; decide, fun x hx => by rw [quote x hx]; decide⟩

/-- A string in quotes is a repetition of characters between them. -/
theorem quoted_iff {w : List Char} {s : String} :
    Quoted w s ↔ ∃ u xs, Star Character u xs ∧ w = '"' :: (u ++ ['"']) ∧ String.ofList xs = s := by
  constructor
  · rintro ⟨h⟩
    exact ⟨_, _, h, rfl, rfl⟩
  · rintro ⟨u, xs, h, rfl, rfl⟩
    exact .mk h

/-- A string is told by its opening quote. -/
theorem stringLiteral_recognises (hn : n ≤ rounds) :
    Recognises n ((Rules.stringLiteral : Parser ε ρ String).behaviour enter rounds)
      (Lexeme Quoted) (Avoids isBlank) (Avoids (· == '"')) := by
  have item : ∀ w x, Character w x → w ≠ [] := by
    rintro w x (_ | _) <;> exact List.cons_ne_nil _ _
  have text : Recognises n ((many ((noneOf ['"', '\\']).alt Rules.escape) :
      Parser ε ρ (List Char)).behaviour enter rounds) (Star Character) (Avoids (· != '"'))
      fun _ => False :=
    many_recognises character_recognises item (fun _ _ _ _ _ => trivial) (fun _ => id) hn
  have closed := keepLeft_recognises (map_recognises String.ofList text) (char_recognises '"')
    (by rintro _ _ r ⟨rfl, -⟩ -; exact Avoids.cons_iff.mpr rfl)
  have whole := keepRight_recognises (char_recognises '"') closed fun _ _ _ _ _ => trivial
  refine lexeme_recognises (whole.of_iff fun w s => ?_) hn (fun _ => id)
    fun _ _ _ _ => trivial
  rw [quoted_iff]
  constructor
  · rintro ⟨_, _, _, ⟨rfl, rfl⟩, ⟨u, _, _, ⟨xs, h, rfl⟩, ⟨rfl, rfl⟩, rfl⟩, rfl⟩
    exact ⟨u, xs, h, rfl, rfl⟩
  · rintro ⟨u, xs, h, rfl, rfl⟩
    exact ⟨['"'], u ++ ['"'], '"', ⟨rfl, rfl⟩, ⟨u, ['"'], '"', ⟨xs, h, rfl⟩, ⟨rfl, rfl⟩, rfl⟩, rfl⟩

/-! ### Numbers -/

/-- A word of a language, as a string. -/
def Spelt (A : List Char → Prop) (w : List Char) (s : String) : Prop := A w ∧ String.ofList w = s

section

variable {p q : Parser ε ρ String} {A B : List Char → Prop} {F₂ N₂ : List Char → Prop}

/-- Words with their own spelling as values stay so when they are put together. -/
theorem spelt_append_iff {w : List Char} {s : String} :
    (∃ u v x y, Spelt A u x ∧ Spelt B v y ∧ w = u ++ v ∧ x ++ y = s) ↔
      Spelt (fun w => ∃ u v, A u ∧ B v ∧ w = u ++ v) w s := by
  constructor
  · rintro ⟨u, v, _, _, ⟨hu, rfl⟩, ⟨hv, rfl⟩, rfl, rfl⟩
    exact ⟨⟨u, v, hu, hv, rfl⟩, String.ofList_append⟩
  · rintro ⟨⟨u, v, hu, hv, rfl⟩, rfl⟩
    exact ⟨u, v, _, _, ⟨hu, rfl⟩, ⟨hv, rfl⟩, rfl, String.ofList_append.symm⟩

/-- Appending two parsers of spellings recognises the words put together. -/
theorem append_recognises (hp : Recognises n (p.behaviour enter rounds) (Spelt A) F N)
    (hq : Recognises n (q.behaviour enter rounds) (Spelt B) F₂ N₂)
    (hF : ∀ v r, B v → F₂ r → F (v ++ r)) :
    Recognises n ((p ++ q).behaviour enter rounds)
      (Spelt fun w => ∃ u v, A u ∧ B v ∧ w = u ++ v) F₂ N :=
  (combine_recognises hp hq (fun v _ r hv => hF v r hv.1) (· ++ ·)).of_iff fun _ _ =>
    spelt_append_iff

/-- Where the first word may be empty, the two refuse a text together only if both refuse it. -/
theorem append_recognises_of_nil (hp : Recognises n (p.behaviour enter rounds) (Spelt A) F N)
    (hq : Recognises n (q.behaviour enter rounds) (Spelt B) F₂ N₂)
    (hF : ∀ v r, B v → F₂ r → F (v ++ r)) (hA : A []) :
    Recognises n ((p ++ q).behaviour enter rounds)
      (Spelt fun w => ∃ u v, A u ∧ B v ∧ w = u ++ v) F₂ fun r => F r ∧ N₂ r :=
  (combine_recognises_of_nil hp hq (fun v _ r hv => hF v r hv.1) (· ++ ·) ⟨hA, rfl⟩).of_iff
    fun _ _ => spelt_append_iff

/-- A spelling that may be left out is the empty word then.  What follows has to refuse it. -/
theorem option_spelt (hp : Recognises n (p.behaviour enter rounds) (Spelt A) F N)
    (hF : ∀ r, F₂ r → F r) (hN : ∀ r, F₂ r → N r) :
    Recognises n ((option "" p).behaviour enter rounds) (Spelt fun w => A w ∨ w = []) F₂
      fun _ => False := by
  refine (option_recognises "" hp hF hN).of_iff fun w s => ?_
  constructor
  · rintro (⟨hw, rfl⟩ | ⟨rfl, rfl⟩)
    · exact ⟨.inl hw, rfl⟩
    · exact ⟨.inr rfl, rfl⟩
  · rintro ⟨hw | rfl, rfl⟩
    · exact .inl ⟨hw, rfl⟩
    · exact .inr ⟨rfl, rfl⟩

end

theorem char_spelt (c : Char) :
    Recognises n (((char c).map String.singleton : Parser ε ρ String).behaviour enter rounds)
      (Spelt (· = [c])) (fun _ => True) (Avoids (· == c)) := by
  refine (map_recognises String.singleton (char_recognises c)).of_iff fun w s => ?_
  constructor
  · rintro ⟨_, ⟨rfl, rfl⟩, rfl⟩
    exact ⟨rfl, rfl⟩
  · rintro ⟨rfl, rfl⟩
    exact ⟨c, ⟨rfl, rfl⟩, rfl⟩

theorem oneOf_spelt (cs : List Char) :
    Recognises n (((oneOf cs).map String.singleton : Parser ε ρ String).behaviour enter rounds)
      (Spelt fun w => ∃ x, w = [x] ∧ cs.contains x = true) (fun _ => True)
      (Avoids cs.contains) := by
  refine (map_recognises String.singleton (oneOf_recognises cs)).of_iff fun w s => ?_
  constructor
  · rintro ⟨x, ⟨rfl, hx⟩, rfl⟩
    exact ⟨⟨x, rfl, hx⟩, rfl⟩
  · rintro ⟨⟨x, rfl, hx⟩, rfl⟩
    exact ⟨x, ⟨rfl, hx⟩, rfl⟩

theorem digit_recognises : Recognises n ((digit : Parser ε ρ Char).behaviour enter rounds)
    (fun w x => w = [x] ∧ x.isDigit = true) (fun _ => True) (Avoids Char.isDigit) :=
  (Recognises.satisfy _).label

/-- A number of digits is read to its end, at which no further digit may stand. -/
theorem digits_recognises (hn : n ≤ rounds) :
    Recognises n ((Rules.digits : Parser ε ρ String).behaviour enter rounds) (Spelt Digits)
      (Avoids Char.isDigit) (Avoids Char.isDigit) := by
  refine (map_recognises String.ofList (many1_recognises digit_recognises ?_
    (fun _ _ _ _ _ => trivial) (fun _ => id) hn)).of_iff fun w s => ?_
  · rintro w x ⟨rfl, -⟩
    exact List.cons_ne_nil x []
  · constructor
    · rintro ⟨_, ⟨_, _, x, _, ⟨rfl, hx⟩, hxs, rfl, rfl⟩, rfl⟩
      obtain ⟨rfl, hds⟩ := star_class_iff.mp hxs
      exact ⟨⟨List.cons_ne_nil _ _, List.forall_mem_cons.mpr ⟨hx, hds⟩⟩, rfl⟩
    · rintro ⟨⟨hw, hd⟩, rfl⟩
      obtain ⟨x, xs, rfl⟩ := List.exists_cons_of_ne_nil hw
      obtain ⟨hx, hxs⟩ := List.forall_mem_cons.mp hd
      exact ⟨_, ⟨[x], xs, x, xs, ⟨rfl, hx⟩, star_class_iff.mpr ⟨rfl, hxs⟩, rfl, rfl⟩, rfl⟩

/-- The characters that a number may go on with. -/
def numeric (x : Char) : Bool := x.isDigit || x == '.' || x == 'e' || x == 'E'

theorem minus_recognises :
    Recognises n ((option "" (.string "-") : Parser ε ρ String).behaviour enter rounds)
      (Spelt Minus) (Avoids (· == '-')) fun _ => False := by
  refine (option_recognises "" (Recognises.string "-") (fun _ _ => trivial) ?_).of_iff
    fun w s => ?_
  · rintro r hr ⟨t, rfl⟩
    have h : ('-' == '-') = false := hr '-' rfl
    cases h
  · constructor
    · rintro (⟨rfl, rfl⟩ | ⟨rfl, rfl⟩)
      · exact ⟨.minus, rfl⟩
      · exact ⟨.none, rfl⟩
    · rintro ⟨hm, rfl⟩
      cases hm with
      | none => exact .inr ⟨rfl, rfl⟩
      | minus => exact .inl ⟨rfl, rfl⟩

/-- Digits behind a point, or nothing.  Where there is none, no point may follow either. -/
theorem fraction_recognises (hn : n ≤ rounds) :
    Recognises n ((Rules.fraction : Parser ε ρ String).behaviour enter rounds) (Spelt Fraction)
      (Avoids fun x => x.isDigit || x == '.') fun _ => False := by
  refine (option_spelt (append_recognises (char_spelt '.') (digits_recognises hn)
      fun _ _ _ _ => trivial)
    (fun r hr => hr.mono fun x hx => (Bool.or_eq_false_iff.mp hx).1)
    fun r hr => hr.mono fun x hx => (Bool.or_eq_false_iff.mp hx).2).of_iff
    fun w s => and_congr_left fun _ => ?_
  constructor
  · rintro (⟨_, v, rfl, hv, rfl⟩ | rfl)
    · exact .point hv
    · exact .none
  · rintro (_ | hv)
    · exact .inr rfl
    · exact .inl ⟨['.'], _, rfl, hv, rfl⟩

theorem sign_recognises :
    Recognises n ((option "" ((oneOf ['+', '-']).map String.singleton) :
      Parser ε ρ String).behaviour enter rounds) (Spelt Sign) (Avoids ['+', '-'].contains)
      fun _ => False := by
  refine (option_spelt (oneOf_spelt ['+', '-']) (fun _ _ => trivial) fun _ => id).of_iff
    fun w s => and_congr_left fun _ => ?_
  constructor
  · rintro (⟨x, rfl, hx⟩ | rfl)
    · rw [List.contains_iff_mem, List.mem_cons, List.mem_singleton] at hx
      rcases hx with rfl | rfl
      · exact .plus
      · exact .minus
    · exact .none
  · rintro (_ | _ | _)
    · exact .inr rfl
    · exact .inl ⟨'+', rfl, rfl⟩
    · exact .inl ⟨'-', rfl, rfl⟩

theorem digits_zero : Digits ['0'] := ⟨List.cons_ne_nil _ _, List.forall_mem_singleton.mpr rfl⟩

/-- A class without digits is avoided where digits stand. -/
theorem avoids_of_digits {w : List Char} (h : Digits w) {f : Char → Bool}
    (hf : ∀ x, x.isDigit = true → f x = false) (r : List Char) : Avoids f (w ++ r) := by
  obtain ⟨x, xs, rfl⟩ := List.exists_cons_of_ne_nil h.1
  exact Avoids.cons_iff.mpr (hf x (h.2 x List.mem_cons_self))

theorem ne_of_isDigit {x y : Char} (hx : x.isDigit = true) (hy : y.isDigit = false) : x ≠ y := by
  rintro rfl
  rw [hx] at hy
  cases hy

/-- An exponent, or nothing.  Behind it no character of a number may stand, lest it be taken for
more of it. -/
theorem exponent_recognises (hn : n ≤ rounds) :
    Recognises n ((Rules.exponent : Parser ε ρ String).behaviour enter rounds) (Spelt Exponent)
      (Avoids numeric) fun _ => False := by
  have signed (v r : List Char) (hv : Digits v) : Avoids ['+', '-'].contains (v ++ r) :=
    avoids_of_digits hv (fun x hx => by
      simp [ne_of_isDigit hx (rfl : '+'.isDigit = false),
        ne_of_isDigit hx (rfl : '-'.isDigit = false)]) r
  refine (option_spelt (append_recognises
    (append_recognises (oneOf_spelt ['e', 'E']) sign_recognises fun _ _ _ _ => trivial)
    (digits_recognises hn) fun v r hv _ => signed v r hv) (fun r hr => hr.mono fun x hx => ?_)
    fun r hr => hr.mono fun x hx => ?_).of_iff fun w s => and_congr_left fun _ => ?_
  · constructor
    · rintro (⟨_, d, ⟨_, v, ⟨x, rfl, hx⟩, hv, rfl⟩, hd, rfl⟩ | rfl)
      · rw [List.contains_iff_mem, List.mem_cons, List.mem_singleton] at hx
        exact .power hx hv hd
      · exact .none
    · rintro (_ | ⟨hx, hs, hd⟩)
      · exact .inr rfl
      · refine .inl ⟨_, _, ⟨[_], _, ⟨_, rfl, ?_⟩, hs, rfl⟩, hd, rfl⟩
        rwa [List.contains_iff_mem, List.mem_cons, List.mem_singleton]
  · simp only [numeric, Bool.or_eq_false_iff] at hx
    exact hx.1.1.1
  · simp only [numeric, Bool.or_eq_false_iff] at hx
    simp [beq_eq_false_iff_ne.mp hx.1.2, beq_eq_false_iff_ne.mp hx.2]

/-- The words that the parser of a number hands to `ofNumeral`. -/
def Numeral (w : List Char) : Prop :=
  ∃ m d f e, Minus m ∧ Digits d ∧ Fraction f ∧ Exponent e ∧ w = m ++ d ++ f ++ e

/-- The characters of a numeral are digits, signs, points and the letters of an exponent. -/
theorem mem_numeral {w : List Char} (h : Numeral w) {x : Char} (hx : x ∈ w) :
    x.isDigit = true ∨ x ∈ ['-', '+', '.', 'e', 'E'] := by
  obtain ⟨m, d, f, e, hm, hd, hf, he, rfl⟩ := h
  have minus : x ∈ m → x ∈ ['-', '+', '.', 'e', 'E'] := by
    cases hm <;> simp +contextual
  have fraction : x ∈ f → x.isDigit = true ∨ x ∈ ['-', '+', '.', 'e', 'E'] := by
    cases hf with
    | none => nofun
    | point h => exact fun hx => (List.mem_cons.mp hx).symm.imp (h.2 x) fun e => by simp [e]
  have exponent : x ∈ e → x.isDigit = true ∨ x ∈ ['-', '+', '.', 'e', 'E'] := by
    cases he with
    | none => nofun
    | @power y s w hy hs h =>
        have sign : x ∈ s → x ∈ ['-', '+', '.', 'e', 'E'] := by
          cases hs <;> simp +contextual
        intro hx
        rcases List.mem_cons.mp hx with rfl | hx
        · exact .inr (by rcases hy with rfl | rfl <;> decide)
        · exact (List.mem_append.mp hx).symm.imp (h.2 x) sign
  simp only [List.mem_append] at hx
  rcases hx with ((hx | hx) | hx) | hx
  · exact .inr (minus hx)
  · exact .inl (hd.2 x hx)
  · exact fraction hx
  · exact exponent hx

/-- Whether a character makes a numeral one of a floating-point number. -/
def pointed (x : Char) : Bool := x == '.' || x == 'e' || x == 'E'

/-- A numeral has a point or an exponent mark exactly if it has a fraction or an exponent. -/
theorem any_pointed_iff {m d f e : List Char} (hm : Minus m) (hd : Digits d) (hf : Fraction f)
    (he : Exponent e) : (m ++ d ++ f ++ e).any pointed = true ↔ f ++ e ≠ [] := by
  have hm' : m.any pointed = false := by cases hm <;> rfl
  have hd' : d.any pointed = false := by
    refine List.any_eq_false.mpr fun x hx => ?_
    have hx := hd.2 x hx
    simp [pointed, ne_of_isDigit hx (rfl : '.'.isDigit = false),
      ne_of_isDigit hx (rfl : 'e'.isDigit = false), ne_of_isDigit hx (rfl : 'E'.isDigit = false)]
  have hf' : f.any pointed = true ↔ f ≠ [] := by
    cases hf with
    | none => simp
    | point h => simp [pointed]
  have he' : e.any pointed = true ↔ e ≠ [] := by
    cases he with
    | none => simp
    | power hx hs h => rcases hx with rfl | rfl <;> simp [pointed]
  rw [List.any_append, List.any_append, List.any_append, hm', hd', Bool.false_or, Bool.false_or,
    Bool.or_eq_true, hf', he', ← Classical.not_and_iff_not_or_not, ← List.append_eq_nil_iff]

/-- Digits without a sign are read as the natural number that they stand for. -/
theorem intOfNumeral_of_digits {w : List Char} (h : Digits w) :
    intOfNumeral w = natOfDigits w := by
  obtain ⟨x, xs, rfl⟩ := List.exists_cons_of_ne_nil h.1
  have hx := h.2 x List.mem_cons_self
  unfold intOfNumeral
  split
  · next heq => cases heq; cases hx
  · next heq => cases heq; cases hx
  · rfl

/-- The digits of a numeral without a fraction and an exponent are all that is behind its sign. -/
theorem countP_isDigit {m d : List Char} (hm : Minus m) (hd : Digits d) :
    (m ++ d).countP Char.isDigit = d.length := by
  have none : m.countP Char.isDigit = 0 := by cases hm <;> rfl
  rw [List.countP_append, none, Nat.zero_add, List.countP_eq_length]
  exact hd.2

section

variable (toInt : List Char → Except ε Int) {m d f e : List Char} (hm : Minus m) (hd : Digits d)

include hm hd

/-- A numeral without a fraction and an exponent is read as an integer. -/
theorem ofNumeral_integer :
    Rules.ofNumeral toInt (String.ofList (m ++ d)) = (toInt (m ++ d)).map .int := by
  have plain := any_pointed_iff hm hd .none .none
  rw [List.append_nil, List.append_nil] at plain
  rw [Rules.ofNumeral, String.toList_ofList]
  exact if_neg (mt plain.mp (not_not_intro rfl))

/-- A numeral with a fraction or an exponent is read as a floating-point number. -/
theorem ofNumeral_float (hf : Fraction f) (he : Exponent e) (some : f ++ e ≠ []) :
    Rules.ofNumeral toInt (String.ofList (m ++ d ++ f ++ e)) =
      .ok (.float (floatOfNumeral (m ++ d ++ f ++ e))) := by
  rw [Rules.ofNumeral, String.toList_ofList]
  exact if_pos ((any_pointed_iff hm hd hf he).mpr some)

/-- An integer is read if it does not have too many digits. -/
theorem ofNumeral_integer_eq_ok_iff {limit : DigitLimit} {refuse : TooManyDigits → ε} {v : Json} :
    Rules.ofNumeral (readInt limit refuse) (String.ofList (m ++ d)) = .ok v ↔
      limit.Allows d.length ∧ .int (intOfNumeral (m ++ d)) = v := by
  rw [ofNumeral_integer _ hm hd, ← countP_isDigit hm hd, readInt,
    ← DigitLimit.exceeded?_eq_none_iff]
  cases limit.exceeded? ((m ++ d).countP Char.isDigit) with
  | none => simp [Except.map]
  | some most => simp [Except.map]

end

/-- The grammar's numbers are the numerals that are converted without exception. -/
theorem number_iff {limit : DigitLimit} (refuse : TooManyDigits → ε) {w : List Char} {v : Json} :
    Number limit w v ↔
      Numeral w ∧ Rules.ofNumeral (readInt limit refuse) (String.ofList w) = .ok v := by
  constructor
  · intro h
    cases h with
    | nat h few =>
        have value := intOfNumeral_of_digits h
        exact ⟨⟨[], w, [], [], .none, h, .none, .none, by simp⟩,
          (ofNumeral_integer_eq_ok_iff (m := []) .none h).mpr ⟨few, congrArg Json.int value⟩⟩
    | @negative d h few =>
        exact ⟨⟨['-'], d, [], [], .minus, h, .none, .none, by simp⟩,
          (ofNumeral_integer_eq_ok_iff (m := ['-']) .minus h).mpr ⟨few, rfl⟩⟩
    | float hm h hf he some =>
        exact ⟨⟨_, _, _, _, hm, h, hf, he, rfl⟩, ofNumeral_float _ hm h hf he some⟩
  · rintro ⟨⟨m, d, f, e, hm, hd, hf, he, rfl⟩, hv⟩
    by_cases none : f ++ e = []
    · obtain ⟨rfl, rfl⟩ := List.append_eq_nil_iff.mp none
      rw [List.append_nil, List.append_nil] at hv ⊢
      obtain ⟨few, rfl⟩ := (ofNumeral_integer_eq_ok_iff hm hd).mp hv
      cases hm with
      | none => exact intOfNumeral_of_digits hd ▸ .nat hd few
      | minus => exact .negative hd few
    · cases (ofNumeral_float _ hm hd hf he none).symm.trans hv
      exact .float hm hd hf he none

/-- A numeral is read to its end, and it is refused where neither a minus nor a digit stands. -/
theorem numeral_recognises (hn : n ≤ rounds) :
    Recognises n ((option "" (.string "-") ++ Rules.digits ++ Rules.fraction ++ Rules.exponent :
      Parser ε ρ String).behaviour enter rounds) (Spelt Numeral) (Avoids numeric)
      (Avoids fun x => x == '-' || x.isDigit) := by
  -- No part can be read on into what stands behind it, which is another part or ends the number.
  have minus (v r : List Char) (hv : Digits v) : Avoids (· == '-') (v ++ r) :=
    avoids_of_digits hv (fun x hx => by simp [ne_of_isDigit hx (rfl : '-'.isDigit = false)]) r
  have fraction (v r : List Char) (hv : Fraction v)
      (hr : Avoids (fun x => x.isDigit || x == '.') r) : Avoids Char.isDigit (v ++ r) := by
    cases hv with
    | none => exact hr.mono fun x hx => (Bool.or_eq_false_iff.mp hx).1
    | point _ => exact Avoids.cons_iff.mpr rfl
  have exponent (v r : List Char) (hv : Exponent v) (hr : Avoids numeric r) :
      Avoids (fun x => x.isDigit || x == '.') (v ++ r) := by
    cases hv with
    | none =>
        refine hr.mono fun x hx => ?_
        simp only [numeric, Bool.or_eq_false_iff] at hx
        exact Bool.or_eq_false_iff.mpr hx.1.1
    | power hx _ _ => rcases hx with rfl | rfl <;> exact Avoids.cons_iff.mpr rfl
  refine (append_recognises (append_recognises (append_recognises_of_nil minus_recognises
    (digits_recognises hn) (fun v r hv _ => minus v r hv) .none) (fraction_recognises hn) fraction)
    (exponent_recognises hn) exponent).imp (fun w s => and_congr_left fun _ => ?_) (fun _ => id)
    fun r hr => ?_
  · constructor
    · rintro ⟨_, e, ⟨_, f, ⟨m, d, hm, hd, rfl⟩, hf, rfl⟩, he, rfl⟩
      exact ⟨m, d, f, e, hm, hd, hf, he, rfl⟩
    · rintro ⟨m, d, f, e, hm, hd, hf, he, rfl⟩
      exact ⟨_, e, ⟨_, f, ⟨m, d, hm, hd, rfl⟩, hf, rfl⟩, he, rfl⟩
  · exact ⟨hr.mono fun x hx => (Bool.or_eq_false_iff.mp hx).1,
      hr.mono fun x hx => (Bool.or_eq_false_iff.mp hx).2⟩

/-! ### What ends a value -/

/-- What may stand behind a value: nothing, a comma or a closing bracket. -/
def Ends (r : List Char) : Prop := Begins [',', ']', '\x7d'] r

/-- No character of a number is white space. -/
theorem isBlank_eq_false_of_numeric {x : Char} (h : numeric x = true) : isBlank x = false := by
  simp only [numeric, Bool.or_eq_true, beq_iff_eq] at h
  rcases h with ((hd | rfl) | rfl) | rfl
  · simp only [Char.isDigit, Bool.and_eq_true, decide_eq_true_eq] at hd
    have low : 48 ≤ x.toNat := hd.1
    have high : x.toNat ≤ 57 := hd.2
    unfold isBlank blankRanges
    rw [CodeRanges.covers, if_neg (by omega), CodeRanges.covers, if_neg (by omega),
      CodeRanges.covers, if_pos (by omega)]
    exact decide_eq_false (by omega)
  · decide
  · decide
  · decide

theorem isBlank_of_isDigit {x : Char} (h : x.isDigit = true) : isBlank x = false :=
  isBlank_eq_false_of_numeric (by simp [numeric, h])

/-- A number, followed by what can stand behind a value, is read with its value; where it has too
many digits, an exception is raised instead. -/
theorem number_recognises (limit : DigitLimit) (refuse : TooManyDigits → ε) (hn : n ≤ rounds) :
    Recognises n ((Rules.number (readInt limit refuse) : Parser ε ρ Json).behaviour enter rounds)
      (Lexeme (Number limit)) Ends (Avoids fun x => x == '-' || x.isDigit) := by
  have blank (r : List Char) (hr : Ends r) : Avoids isBlank r := hr.avoids rfl
  have numeral (b r : List Char) (hb : Blanks b) (hr : Ends r) : Avoids numeric (b ++ r) :=
    .append (fun x hx => by
      cases h : numeric x with
      | false => rfl
      | true =>
          have hx' := hb x hx
          rw [isBlank_eq_false_of_numeric h] at hx'
          cases hx') (hr.avoids rfl)
  refine (Recognises.mapM (Rules.ofNumeral (readInt limit refuse))
    (lexeme_recognises (numeral_recognises hn) hn blank numeral)).of_iff fun w v => ?_
  constructor
  · rintro ⟨_, ⟨u, b, ⟨hu, rfl⟩, hb, rfl⟩, hv⟩
    exact ⟨u, b, (number_iff refuse).mpr ⟨hu, hv⟩, hb, rfl⟩
  · rintro ⟨u, b, h, hb, rfl⟩
    obtain ⟨hu, hv⟩ := (number_iff refuse).mp h
    exact ⟨String.ofList u, ⟨u, b, ⟨hu, rfl⟩, hb, rfl⟩, hv⟩

end Parsing.Json
