import Parsing.Proofs.Json.Documents
import Parsing.Proofs.Json.Lexing
import Parsing.Proofs.Json.Numbers
import Parsing.Proofs.Stops

/-!
# What has been read where a parser of JSON fails

Each parser of the grammar stops at a *prospect*: what it has read where it succeeds is a word of
its language, and what it has read where it fails is the beginning of one (`Prospects`).  So the
text before a failure can always be completed, at any depth of nesting.  A run is broken off only
behind an integer with too many digits (`Overruns`).

Besides, neither ends within one of the keywords `null`, `true` and `false`, which are read as a
whole or not at all (`Whole`); only a string may be broken off within such a word, and then the text
ends there.  What has been read with success does not end within a string either.  Words of tokens
and their beginnings that do not end within a keyword can be put one behind the other
(`Whole.append`), which is why the second part of a sequence may be looked at by itself.
-/

namespace Parsing.Json

open Behaviour (Stops)
open Parsing.Parser hiding pure
open Decimal Syntax Text

variable {ε : Type} {ρ : Type → Type} {α β γ σ : Type} {limit : DigitLimit}

/-! ### Keywords -/

/-- The words that are read as a whole. -/
def keywords : List String := ["null", "true", "false"]

/-- The characters that these words begin with. -/
def initials : List Char := ['n', 't', 'f']

/-- A keyword that has been begun and not finished, or nothing. -/
def Cut (w : List Char) : Prop := ∃ s ∈ keywords, w <+: s.toList ∧ w ≠ s.toList

instance (w : List Char) : Decidable (Cut w) :=
  inferInstanceAs (Decidable (∃ s ∈ keywords, w <+: s.toList ∧ w ≠ s.toList))

namespace Cut

theorem nil : Cut [] := by decide

/-- What is cut is cut earlier too. -/
theorem of_append {u v : List Char} (h : Cut (u ++ v)) : Cut u := by
  obtain ⟨s, hs, there, unfinished⟩ := h
  refine ⟨s, hs, (List.prefix_append u v).trans there, ?_⟩
  rintro rfl
  exact unfinished (there.eq_of_length_le (by simp))

/-- The longest keyword has five characters, and one of them at least is missing. -/
theorem length_le {w : List Char} (h : Cut w) : w.length ≤ 4 := by
  obtain ⟨s, hs, there, unfinished⟩ := h
  have short : ∀ s ∈ keywords, s.toList.length ≤ 5 := by decide
  have longer : w.length ≠ s.toList.length := fun e => unfinished (there.eq_of_length e)
  have := there.length_le
  have := short s hs
  omega

end Cut

/-- The text does not end within a keyword. -/
def Whole (u : List Char) : Prop := ∀ n < u.length, ¬ Cut (u.drop n)

instance (u : List Char) : Decidable (Whole u) :=
  inferInstanceAs (Decidable (∀ n < u.length, ¬ Cut (u.drop n)))

namespace Whole

theorem nil : Whole [] := by decide

/-- A keyword that is cut at the end of both would be cut at the end of the second alone, or at the
place where they meet. -/
theorem append {u v : List Char} (hu : Whole u) (hv : Whole v) : Whole (u ++ v) := by
  intro n hn cut
  by_cases h : n < u.length
  · rw [List.drop_append_of_le_length (Nat.le_of_lt h)] at cut
    exact hu n h cut.of_append
  · rw [List.drop_append, List.drop_eq_nil_of_le (Nat.le_of_not_lt h), List.nil_append] at cut
    rw [List.length_append] at hn
    exact hv _ (by omega) cut

/-- No keyword has the last character. -/
theorem of_last (u : List Char) {x : Char} (h : ∀ s ∈ keywords, x ∉ s.toList) :
    Whole (u ++ [x]) := by
  rintro n hn ⟨s, hs, there, -⟩
  rw [List.length_append, List.length_singleton] at hn
  rw [List.drop_append_of_le_length (Nat.le_of_lt_succ hn)] at there
  exact h s hs (there.subset (by simp))

/-- No keyword begins with the character. -/
theorem singleton {x : Char} (h : x ∉ initials) : Whole [x] := by
  have first : ∀ s ∈ keywords, ∀ y ∈ s.toList.head?, y ∈ initials := by
    simp [keywords, initials]
  rintro n hn ⟨s, hs, ⟨rest, there⟩, -⟩
  obtain rfl : n = 0 := Nat.lt_one_iff.mp hn
  exact h (first s hs x (by rw [← there]; rfl))

/-- No keyword begins with any of the characters. -/
theorem of_forall_notMem : ∀ {u : List Char}, (∀ x ∈ u, x ∉ initials) → Whole u
  | [], _ => nil
  | _ :: _, h =>
      have ⟨hx, hu⟩ := List.forall_mem_cons.mp h
      (singleton hx).append (of_forall_notMem hu)

end Whole

/-- The text ends neither within a keyword nor within a string. -/
def Settled (w : List Char) : Prop := Whole w ∧ Closed w

instance (w : List Char) : Decidable (Settled w) :=
  inferInstanceAs (Decidable (Whole w ∧ Closed w))

namespace Settled

theorem nil : Settled [] := ⟨.nil, .nil⟩

/-- Texts that are settled can be put one behind the other. -/
theorem append {u v : List Char} (hu : Settled u) (hv : Settled v) : Settled (u ++ v) :=
  ⟨hu.1.append hv.1, hu.2.append hv.2⟩

/-- Only a quote or the first letter of a keyword can unsettle a text by itself. -/
theorem singleton {x : Char} (h : x ∉ initials) (hq : x ≠ '"') : Settled [x] :=
  ⟨.singleton h, .cons hq .nil⟩

end Settled

/-! ### Prospects -/

/-- Words of `A` with words of `B` behind them. -/
def Sequence (A B : List Char → Prop) (w : List Char) : Prop := ∃ u v, A u ∧ B v ∧ w = u ++ v

/-- The words of a language, whatever their values. -/
def Spelled (L : List Char → α → Prop) (w : List Char) : Prop := ∃ x, L w x

/-- The behaviour reads words of `A`, and where it fails it has read the beginning of one; it does
not stop within a keyword, unless the text ends there, nor succeed within a string.  It is broken
off only where what has been read overruns the limit. -/
def Prospects (limit : DigitLimit) (A : List Char → Prop) (p : Behaviour ε α) : Prop :=
  p.Stops (fun w _ => A w ∧ Settled w) (fun u r => (∃ v, A (u ++ v)) ∧ (Whole u ∨ r = []))
    (Overruns limit)

namespace Prospects

variable {p : Behaviour ε α} {A B : List Char → Prop}

/-- A language may be taken for a larger one. -/
theorem mono (h : Prospects limit A p) (hA : ∀ w, A w → B w) : Prospects limit B p := by
  refine Stops.mono h (fun w _ hw => ⟨hA w hw.1, hw.2⟩) ?_ fun _ => id
  rintro u _ ⟨⟨v, hv⟩, whole⟩
  exact ⟨⟨v, hA _ hv⟩, whole⟩

theorem pure (x : α) : Prospects limit (· = []) (Behaviour.pure x : Behaviour ε α) :=
  Stops.pure x fun _ => ⟨rfl, .nil⟩

/-- No keyword begins with a character of the class, which has some character `x`; nor is a quote
one. -/
theorem satisfy {accepts : Char → Bool} (h : ∀ x ∈ '"' :: initials, accepts x = false) {x : Char}
    (hx : accepts x = true) :
    Prospects limit (fun w => ∃ x, w = [x] ∧ accepts x = true)
      (Behaviour.satisfy accepts : Behaviour ε Char) := by
  refine Stops.satisfy (fun y _ hy => ?_) fun _ _ => ⟨⟨[x], x, rfl, hx⟩, .inl .nil⟩
  have other : y ∉ '"' :: initials := fun hm => Bool.false_ne_true ((h y hm).symm.trans hy)
  rw [List.mem_cons, not_or] at other
  exact ⟨⟨y, rfl, hy⟩, .singleton other.2 other.1⟩

/-- A sign is read as a whole, and where it is not there nothing of it has been read. -/
theorem string {s : String} (hs : Settled s.toList) :
    Prospects limit (· = s.toList) (Behaviour.string s : Behaviour ε String) :=
  Stops.string (fun _ => ⟨rfl, hs⟩) fun _ => ⟨⟨s.toList, rfl⟩, .inl .nil⟩

/-- The first part is settled where it succeeds, so that the second one stops at a prospect of the
whole.  What is missing where the first part fails is completed by some word of the second. -/
theorem bind {f : α → Behaviour ε β} (hp : Prospects limit A p)
    (hf : ∀ x, Prospects limit B (f x)) (hB : ∃ v, B v) :
    Prospects limit (Sequence A B) (Behaviour.bind p f) := by
  refine Stops.bind hp hf ?_ ?_ ?_ ?_
  · rintro u v - ⟨hu, wu⟩ ⟨hv, wv⟩
    exact ⟨⟨u, v, hu, hv, rfl⟩, wu.append wv⟩
  · rintro u r ⟨⟨v, hv⟩, whole⟩
    obtain ⟨w, hw⟩ := hB
    exact ⟨⟨v ++ w, u ++ v, w, hv, hw, by rw [List.append_assoc]⟩, whole⟩
  · rintro w u r ⟨hw, ww⟩ ⟨⟨v, hv⟩, whole⟩
    exact ⟨⟨v, w, u ++ v, hw, hv, by rw [List.append_assoc]⟩, whole.imp_left ww.1.append⟩
  · rintro w u - ⟨-, ww⟩ many
    exact many.append ww.2

/-- The second part is tried only where the first has read nothing. -/
theorem alt {q : Behaviour ε α} (hp : Prospects limit A p) (hq : Prospects limit A q) :
    Prospects limit A (Behaviour.alt p q) :=
  Stops.alt hp hq (fun _ _ _ => id) fun _ _ _ => id

/-- The language of a repetition has nothing, and a word more behind each of its words. -/
theorem gather (next : σ → α → σ) (hp : Prospects limit A p) (nil : B [])
    (more : ∀ u v, B u → A v → B (u ++ v)) (rounds : Nat) (initial : σ) :
    Prospects limit B (Behaviour.loop (fun state =>
      .alt (.map (fun x => .ok (.loop (next state x))) (.advancing p)) (.pure (.done state)))
      rounds initial) := by
  refine Stops.mono (Stops.gather next (I := fun w => B w ∧ Settled w) hp ⟨nil, .nil⟩ ?_ ?_ rounds
    initial) (fun _ _ h => h.1) ?_ fun _ => id
  · rintro u v - ⟨hu, wu⟩ ⟨hv, wv⟩
    exact ⟨more u v hu hv, wu.append wv⟩
  · rintro w u ⟨-, ww⟩ many
    exact many.append ww.2
  · rintro _ r ⟨w, u, rfl, -, ⟨hw, ww⟩, ⟨v, hv⟩, whole⟩
    refine ⟨⟨v, ?_⟩, whole.imp_left ww.1.append⟩
    rw [List.append_assoc]
    exact more w _ hw hv

end Prospects

/-! ### Combinators -/

section

variable {enter : {α : Type} → Cell → ρ α → Behaviour ε α} {rounds : Nat} {p : Parser ε ρ α}
  {q : Parser ε ρ β} {A B : List Char → Prop}

/-- Which result is kept makes no difference to what is read. -/
theorem keepRight_prospects (hp : Prospects limit A (p.behaviour enter rounds))
    (hq : Prospects limit B (q.behaviour enter rounds)) (hB : ∃ v, B v) :
    Prospects limit (Sequence A B) ((p.keepRight q).behaviour enter rounds) :=
  hp.bind (fun _ => hq) hB

theorem keepLeft_prospects (hp : Prospects limit A (p.behaviour enter rounds))
    (hq : Prospects limit B (q.behaviour enter rounds)) (hB : ∃ v, B v) :
    Prospects limit (Sequence A B) ((p.keepLeft q).behaviour enter rounds) :=
  hp.bind (fun _ => Stops.map hq) hB

/-- Repetitions read words of a language that contains the empty one and grows at the end. -/
theorem manyReversed_prospects (hp : Prospects limit A (p.behaviour enter rounds)) (nil : B [])
    (more : ∀ u v, B u → A v → B (u ++ v)) :
    Prospects limit B ((manyReversed p).behaviour enter rounds) :=
  hp.gather (fun xs x => x :: xs) nil more rounds []

/-! ### White space -/

/-- White space begins neither a keyword nor a string. -/
theorem not_initial_of_blank : ∀ x ∈ '"' :: initials, isBlank x = false := by
  simp only [initials, List.forall_mem_cons]
  exact ⟨rfl, rfl, rfl, rfl, List.forall_mem_nil _⟩

theorem spaces_prospects :
    Prospects limit Blanks ((spaces : Parser ε ρ Unit).behaviour enter rounds) := by
  have space : Prospects limit _ ((space : Parser ε ρ Char).behaviour enter rounds) :=
    Stops.label (Prospects.satisfy not_initial_of_blank (x := ' ') rfl) _
  refine Stops.label (Prospects.gather (fun (_ : Unit) _ => ()) space ?_ ?_ rounds ()) _
  · exact List.forall_mem_nil _
  · rintro u _ hu ⟨x, rfl, hx⟩
    exact List.forall_mem_append.mpr ⟨hu, List.forall_mem_singleton.mpr hx⟩

/-- White space leaves a text settled. -/
theorem settled_of_blanks {b : List Char} (h : Blanks b) : Settled b := by
  refine ⟨.of_forall_notMem fun x hx initial => ?_, closed_blanks h⟩
  have other := not_initial_of_blank x (List.mem_cons_of_mem _ initial)
  exact Bool.false_ne_true (other.symm.trans (h x hx))

/-- A token with white space behind it stops where the token does, or behind it. -/
theorem lexeme_prospects {L : List Char → α → Prop}
    (hp : Prospects limit (Spelled L) (p.behaviour enter rounds)) :
    Prospects limit (Spelled (Lexeme L)) ((Rules.lexeme p).behaviour enter rounds) := by
  refine (keepLeft_prospects hp spaces_prospects ⟨[], blanks_nil⟩).mono ?_
  rintro _ ⟨u, b, ⟨x, hx⟩, hb, rfl⟩
  exact ⟨x, u, b, hx, hb, rfl⟩

/-- A keyword or a sign that is settled as a whole, with white space behind it. -/
theorem symbol_prospects (s : String) (hs : Settled s.toList) :
    Prospects limit (fun w => ∃ b, Blanks b ∧ w = s.toList ++ b)
      ((Rules.symbol s : Parser ε ρ String).behaviour enter rounds) := by
  have whole : Prospects limit _ ((.string s : Parser ε ρ String).behaviour enter rounds) :=
    Prospects.string hs
  refine (keepLeft_prospects whole spaces_prospects ⟨[], blanks_nil⟩).mono ?_
  rintro _ ⟨_, b, rfl, hb, rfl⟩
  exact ⟨b, hb, rfl⟩

theorem constant_prospects (s : String) (hs : Settled s.toList) (v : Json) :
    Prospects limit (fun w => ∃ b, Blanks b ∧ w = s.toList ++ b)
      (((Rules.symbol s).keepRight (.pure v) : Parser ε ρ Json).behaviour enter rounds) := by
  have nothing : Prospects limit _ ((.pure v : Parser ε ρ Json).behaviour enter rounds) :=
    Prospects.pure v
  refine (keepRight_prospects (symbol_prospects s hs) nothing ⟨[], rfl⟩).mono ?_
  rintro _ ⟨_, _, ⟨b, hb, rfl⟩, rfl, rfl⟩
  exact ⟨b, hb, List.append_nil _⟩

/-! ### Strings

Inside a string a keyword may be cut by the end of the text.  What is read between the quotes fails
there or behind a backslash, and nowhere else. -/

theorem contains_map_singleton (cs : List Char) (x : Char) :
    (cs.map String.singleton).contains (String.singleton x) = true ↔ x ∈ cs := by
  rw [contains_singleton, List.contains_iff_mem]

variable {T : List Char → Prop}

theorem oneOf_stops (cs : List Char) : Stops ((oneOf cs : Parser ε ρ Char).behaviour enter rounds)
    (fun w _ => ∃ x ∈ cs, w = [x]) (fun u _ => u = []) T :=
  .label (.satisfy (fun x _ hx => ⟨x, (contains_map_singleton cs x).mp hx, rfl⟩) fun _ _ => rfl) _

/-- A character outside a class fails at one inside the class and at the end of the text. -/
theorem noneOf_stops (cs : List Char) : Stops ((noneOf cs : Parser ε ρ Char).behaviour enter rounds)
    (fun w _ => ∃ x, x ∉ cs ∧ w = [x]) (fun u r => u = [] ∧ ∀ x ∈ r.head?, x ∈ cs) T := by
  refine .label (.satisfy (fun x _ hx => ⟨x, ?_, rfl⟩) fun r hr => ⟨rfl, fun x hx => ?_⟩) _
  · intro hm
    rw [(contains_map_singleton cs x).mpr hm] at hx
    cases hx
  · exact (contains_map_singleton cs x).mp (by simpa using hr x hx)

/-- An escape fails where there is no backslash, or right behind one. -/
theorem escape_stops : Stops ((Rules.escape : Parser ε ρ Char).behaviour enter rounds)
    (fun w _ => Spelled Character w)
    (fun u r => (u = [] ∧ ∀ x ∈ r.head?, x ≠ '\\') ∨ u = ['\\']) fun _ => False := by
  refine .bind (char_stops '\\') (fun _ => .map (oneOf_stops (Rules.escapes.map Prod.fst)))
    ?_ (fun _ _ => .inl) ?_ fun _ _ _ _ => id
  · rintro _ _ _ rfl ⟨letter, hl, rfl⟩
    exact ⟨_, .escaped (escape_iff.mpr ⟨List.contains_iff_mem.mpr hl, rfl⟩)⟩
  · rintro _ _ _ rfl rfl
    exact .inr rfl

/-- A character of a string fails at a quote, at the end of the text, or right behind a backslash.
-/
theorem character_stops : Stops
    (((noneOf ['"', '\\']).alt Rules.escape : Parser ε ρ Char).behaviour enter rounds)
    (fun w _ => Spelled Character w)
    (fun u r => (u = [] ∧ ∀ x ∈ r.head?, x = '"') ∨ u = ['\\']) fun _ => False := by
  have plain : Stops ((noneOf ['"', '\\'] : Parser ε ρ Char).behaviour enter rounds)
      (fun w _ => Spelled Character w) (fun u r => u = [] ∧ ∀ x ∈ r.head?, x ∈ ['"', '\\'])
      fun _ => False := by
    refine (noneOf_stops ['"', '\\']).mono ?_ (fun _ _ => id) fun _ => id
    rintro _ _ ⟨x, hx, rfl⟩
    simp only [List.mem_cons, List.not_mem_nil, or_false, not_or] at hx
    exact ⟨x, .plain hx.1 hx.2⟩
  refine .alt plain escape_stops (fun u _ hu h => absurd h.1 hu) ?_
  rintro u r ⟨-, first⟩ (⟨rfl, second⟩ | rfl)
  · refine .inl ⟨rfl, fun x hx => ?_⟩
    rcases List.mem_cons.mp (first x hx) with rfl | h
    · rfl
    · exact absurd (List.mem_singleton.mp h) (second x hx)
  · exact .inr rfl

/-- The characters of a string end at a quote or at the end of the text; they fail only behind a
backslash. -/
theorem characters_stops : Stops
    ((many ((noneOf ['"', '\\']).alt Rules.escape) : Parser ε ρ (List Char)).behaviour enter
      rounds)
    (fun w r => Spelled (Star Character) w ∧ ∀ x ∈ r.head?, x = '"')
    (fun u _ => ∃ w, Spelled (Star Character) w ∧ u = w ++ ['\\']) fun _ => False := by
  refine .map ((Stops.gather (fun xs x => x :: xs) (I := Spelled (Star Character)) character_stops
    ⟨[], .nil⟩ ?_ (fun _ _ _ => False.elim) rounds []).mono ?_ ?_ fun _ => id)
  · rintro u w - ⟨xs, hu⟩ ⟨x, hw⟩
    exact ⟨xs ++ [x], hu.concat hw⟩
  · rintro w r ⟨hw, (⟨-, quote⟩ | h) | ⟨x, h⟩⟩
    · exact ⟨hw, quote⟩
    · cases h
    · cases h
  · rintro _ r ⟨w, u, rfl, hu, hw, ⟨rfl, -⟩ | rfl⟩
    · exact absurd rfl hu
    · exact ⟨w, hw, rfl⟩

/-- A string that has been opened can be closed wherever it fails: behind a backslash by an escape,
at the end of the text by a quote. -/
theorem quoted_prospects : Prospects limit (Spelled Quoted)
    ((between (char '"') (char '"') ((many ((noneOf ['"', '\\']).alt Rules.escape)).map
      String.ofList) : Parser ε ρ String).behaviour enter rounds) := by
  have closed : Stops ((((many ((noneOf ['"', '\\']).alt Rules.escape)).map
      String.ofList).keepLeft (char '"') : Parser ε ρ String).behaviour enter rounds)
      (fun w _ => ∃ u, Spelled (Star Character) u ∧ w = u ++ ['"'])
      (fun u r => ∃ w, Spelled (Star Character) w ∧ (u = w ++ ['\\'] ∨ u = w ∧ r = []))
      fun _ => False := by
    refine .bind (.map characters_stops) (fun _ => .map (char_stops '"')) ?_ ?_ ?_
      fun _ _ _ _ => id
    · rintro u _ _ ⟨hu, -⟩ rfl
      exact ⟨u, hu, rfl⟩
    · rintro _ r ⟨w, hw, rfl⟩
      exact ⟨w, hw, .inl rfl⟩
    · rintro w _ r ⟨hw, quote⟩ ⟨rfl, other⟩
      -- What stands behind the characters can only be a quote, and it is not.
      refine ⟨w, hw, .inr ⟨List.append_nil w, ?_⟩⟩
      cases r with
      | nil => rfl
      | cons x r => exact absurd (quote x rfl) (other x rfl)
  have quote : ∀ s ∈ keywords, '"' ∉ s.toList := by decide
  have slash : ∀ s ∈ keywords, '\\' ∉ s.toList := by decide
  refine Stops.bind (char_stops '"') (fun _ => closed) ?_ ?_ ?_ fun _ _ _ _ => False.elim
  · rintro _ _ _ rfl ⟨u, ⟨xs, hu⟩, rfl⟩
    exact ⟨⟨_, .mk hu⟩, .of_last ('"' :: u) quote, closed_quoted (.mk hu)⟩
  · rintro _ _ ⟨rfl, -⟩
    exact ⟨⟨['"', '"'], _, .mk .nil⟩, .inl .nil⟩
  · rintro _ _ r rfl ⟨w, ⟨xs, hw⟩, rfl | ⟨rfl, rfl⟩⟩
    · have escaped := Quoted.mk (hw.concat (.escaped .lineFeed))
      exact ⟨⟨['n', '"'], _, by simpa using escaped⟩, .inl (.of_last ('"' :: w) slash)⟩
    · exact ⟨⟨['"'], _, .mk hw⟩, .inr rfl⟩

theorem stringLiteral_prospects : Prospects limit (Spelled (Lexeme Quoted))
    ((Rules.stringLiteral : Parser ε ρ String).behaviour enter rounds) :=
  lexeme_prospects quoted_prospects

/-! ### Numbers -/

/-- A numeral has nothing of a keyword. -/
theorem whole_of_numeral {u v : List Char} (h : Numeral (u ++ v)) : Whole u := by
  refine .of_forall_notMem fun x hx initial => ?_
  have other : ∀ x ∈ initials, x.isDigit = false ∧ x ∉ ['-', '+', '.', 'e', 'E'] := by
    simp [initials]
  obtain ⟨digit, sign⟩ := other x initial
  rcases mem_numeral h (List.mem_append_left v hx) with h | h
  · exact Bool.false_ne_true (digit.symm.trans h)
  · exact sign h

/-- Digits and the signs of a numeral belong neither to a keyword nor to a string. -/
theorem settled_of_numeral {w : List Char} (h : Numeral w) : Settled w :=
  ⟨whole_of_numeral (v := []) (by rwa [List.append_nil]), closed_numeral h⟩

/-- The beginning of a numeral can be completed to a number at every limit: with a fraction it is
the beginning of a floating-point number. -/
theorem number_of_numeral (limit : DigitLimit) {u v : List Char} (h : Numeral (u ++ v)) :
    ∃ w, Spelled (Number limit) (u ++ w) := by
  obtain ⟨m, d, f, e, hm, hd, hf, he, parts⟩ := h
  by_cases none : f ++ e = []
  · obtain ⟨rfl, rfl⟩ := List.append_eq_nil_iff.mp none
    have float : Number limit _ _ := .float hm hd (.point digits_zero) .none
      (List.cons_ne_nil _ _)
    rw [List.append_nil] at float parts
    refine ⟨v ++ ['.', '0'], ?_⟩
    rw [← List.append_assoc, parts, List.append_nil]
    exact ⟨_, float⟩
  · exact ⟨v, by rw [parts]; exact ⟨_, .float hm hd hf he none⟩⟩

/-- A scanned numeral is a number, unless it has too many digits. -/
theorem number_of_parts (limit : DigitLimit) {t : Scan.Parts} (hm : Minus t.sign)
    (hd : Digits t.whole) (hf : Fraction t.fraction) (he : Exponent t.exponent) :
    match t.value limit with
    | .ok v => Number limit t.chars v
    | .error _ => ¬ limit.Allows t.whole.length := by
  cases ht : t.value limit with
  | ok v =>
      refine (number_iff id).mpr ⟨⟨_, _, _, _, hm, hd, hf, he, rfl⟩, ?_⟩
      rw [Scan.Parts.ofNumeral_chars limit id hm hd hf he, ht]
      rfl
  | error e =>
      intro few
      rw [← DigitLimit.exceeded?_eq_none_iff] at few
      rw [Scan.Parts.value, few] at ht
      split at ht <;> cases ht

/-- A number stops where its scan does: behind the beginning of a numeral if it fails, and behind
too many digits if it is broken off. -/
theorem number_prospects (refuse : TooManyDigits → ε) :
    Prospects limit (Spelled (Lexeme (Number limit)))
      ((Rules.number (readInt limit refuse) : Parser ε ρ Json).behaviour enter rounds) := by
  -- The meaning of the parser is the same in every grammar.
  let g : Grammar ε ρ := ⟨fun _ _ => .ok Parser.empty, fun _ => none⟩
  refine Stops.of_below (number_below g limit refuse) fun c => ?_
  have scanned := number_meets g limit refuse c
  have taken := Scan.Answers.numeral c.remaining
  cases hr : Scan.number c.remaining with
  | error n =>
      rw [hr] at scanned taken
      obtain ⟨u, v, r, here, rfl, numeral⟩ := taken
      obtain ⟨d, read, -⟩ := Cursor.Reads.of_append here
      refine scanned.of_eq ⟨u, d, read, ?_, ?_, .inl (whole_of_numeral numeral)⟩
      · rw [read.offset_eq]
        rfl
      · obtain ⟨w, v, hw⟩ := number_of_numeral limit numeral
        exact ⟨w, v, _, [], hw, blanks_nil, (List.append_nil _).symm⟩
  | ok a =>
      obtain ⟨t, r⟩ := a
      rw [hr] at scanned
      obtain ⟨d, read, scanned⟩ := scanned
      obtain ⟨hm, hd, hf, he⟩ := Scan.number_sound hr
      have number := number_of_parts limit hm hd hf he
      refine scanned.of_eq ?_
      cases ht : t.value limit with
      | ok v =>
          rw [ht] at number
          have numeral : Numeral t.chars := ⟨_, _, _, _, hm, hd, hf, he, rfl⟩
          have blanks := blanks_takeWhile r
          exact ⟨_, read, ⟨v, _, _, number, blanks, rfl⟩,
            (settled_of_numeral numeral).append (settled_of_blanks blanks)⟩
      | error e =>
          rw [ht] at number
          -- The digits are only the first part of what has been read.
          rw [Scan.Parts.chars, List.append_assoc, List.append_assoc] at read
          obtain ⟨d', read, -⟩ := read.split
          exact ⟨_, d', read, t.sign, t.whole, rfl, closed_minus hm, hd, number⟩

/-! ### Items between brackets -/

/-- Behind a comma another item completes what has been read. -/
theorem separated_prospects {L : List Char → α → Prop}
    (hp : Prospects limit (Spelled L) (p.behaviour enter rounds)) (some : ∃ v, Spelled L v) :
    Prospects limit (Spelled (Separated L))
      ((sepBy p (Rules.symbol ",")).behaviour enter rounds) := by
  have led : Prospects limit (Spelled (Led L))
      (((Rules.symbol ",").keepRight p).behaviour enter rounds) := by
    refine (keepRight_prospects (symbol_prospects "," (by decide)) hp some).mono ?_
    rintro _ ⟨_, v, ⟨b, hb, rfl⟩, ⟨x, hv⟩, rfl⟩
    exact ⟨x, .mk hb hv⟩
  have others : Prospects limit (Spelled (Star (Led L)))
      ((manyReversed ((Rules.symbol ",").keepRight p)).behaviour enter rounds) := by
    refine manyReversed_prospects led ⟨[], .nil⟩ ?_
    rintro u v ⟨xs, hu⟩ ⟨x, hv⟩
    exact ⟨xs ++ [x], hu.concat hv⟩
  have items : Prospects limit (Spelled (Separated L))
      ((sepBy1 p (Rules.symbol ",")).behaviour enter rounds) := by
    refine (hp.bind (fun _ => Stops.map others) ⟨[], [], .nil⟩).mono ?_
    rintro _ ⟨u, v, ⟨x, hu⟩, ⟨xs, hv⟩, rfl⟩
    exact ⟨x :: xs, .some hu hv⟩
  refine items.alt ((Prospects.pure []).mono ?_)
  rintro _ rfl
  exact ⟨[], .none⟩

/-- What has been read of items behind an opening bracket is completed by the closing one. -/
theorem bracketed_prospects {L : List Char → α → Prop} (s t : String) {x y : Char}
    (hs : s.toList = [x]) (ht : t.toList = [y]) (hx : Settled [x])
    (hy : Settled [y]) (hp : Prospects limit (Spelled L) (p.behaviour enter rounds))
    (some : ∃ v, Spelled L v) :
    Prospects limit (Spelled (Bracketed L x y)) ((between (Rules.symbol s) (Rules.symbol t)
      (sepBy p (Rules.symbol ","))).behaviour enter rounds) := by
  have opening : Prospects limit _ ((Rules.symbol s : Parser ε ρ String).behaviour enter rounds) :=
    symbol_prospects s (hs ▸ hx)
  have closing : Prospects limit _ ((Rules.symbol t : Parser ε ρ String).behaviour enter rounds) :=
    symbol_prospects t (ht ▸ hy)
  refine (keepRight_prospects opening (keepLeft_prospects (separated_prospects hp some) closing
    ⟨_, [], blanks_nil, rfl⟩) ⟨_, [], _, ⟨[], .none⟩, ⟨[], blanks_nil, rfl⟩, rfl⟩).mono ?_
  rintro _ ⟨_, _, ⟨b, hb, rfl⟩, ⟨v, _, ⟨xs, hv⟩, ⟨b', hb', rfl⟩, rfl⟩, rfl⟩
  exact ⟨xs, b, v, b', hb, hv, hb', by simp [hs, ht]⟩

/-! ### Values -/

/-- There is a value at every limit, with which to complete what expects one. -/
theorem value_spelled (limit : DigitLimit) : ∃ v, Spelled (Value limit) v :=
  ⟨_, _, .null blanks_nil⟩

section

variable {value : ρ Json} (hv : ∀ cell, Prospects limit (Spelled (Value limit)) (enter cell value))

include hv

/-- An entry may fail in its key, at the colon or in its value, and can be completed behind each. -/
theorem entry_prospects : Prospects limit (Spelled (Entry (Value limit)))
    ((Rules.entry value).behaviour enter rounds) := by
  have item (frame : Frame) :
      Prospects limit _ ((deferred ⟨frame, 0⟩ value : Parser ε ρ Json).behaviour enter rounds) :=
    hv ⟨frame, 0⟩
  have colon : Prospects limit _ ((Rules.symbol ":" : Parser ε ρ String).behaviour enter rounds) :=
    symbol_prospects ":" (by decide)
  have rest (key : String) (frame : Frame) := keepRight_prospects colon
    (q := (deferred ⟨frame, 0⟩ value).map fun v => (key, v)) (Stops.map (item frame))
    (value_spelled limit)
  refine (stringLiteral_prospects.bind (fun key => Stops.fresh (rest key)) ?_).mono ?_
  · exact ⟨_, _, _, ⟨[], blanks_nil, rfl⟩, ⟨_, .null blanks_nil⟩, rfl⟩
  · rintro _ ⟨_, _, ⟨key, k, b, hk, hb, rfl⟩, ⟨_, v, ⟨b', hb', rfl⟩, ⟨x, hx⟩, rfl⟩, rfl⟩
    exact ⟨(key, x), .mk hk hb hb' hx⟩

/-- Each kind of value stops at a prospect of its own, and so does the choice among them. -/
theorem element_prospects (refuse : TooManyDigits → ε) (cell : Cell) :
    Prospects limit (Spelled (Value limit))
      ((Rules.element (readInt limit refuse) value cell).behaviour enter rounds) := by
  have item : Prospects limit _ ((deferred cell value : Parser ε ρ Json).behaviour enter rounds) :=
    hv cell
  have null : Prospects limit (Spelled (Value limit))
      ((Rules.nullValue : Parser ε ρ Json).behaviour enter rounds) := by
    refine (constant_prospects "null" (by decide) .null).mono ?_
    rintro _ ⟨b, hb, rfl⟩
    exact ⟨_, .null hb⟩
  have true : Prospects limit (Spelled (Value limit))
      ((Rules.trueValue : Parser ε ρ Json).behaviour enter rounds) := by
    refine (constant_prospects "true" (by decide) _).mono ?_
    rintro _ ⟨b, hb, rfl⟩
    exact ⟨_, .true hb⟩
  have false : Prospects limit (Spelled (Value limit))
      ((Rules.falseValue : Parser ε ρ Json).behaviour enter rounds) := by
    refine (constant_prospects "false" (by decide) _).mono ?_
    rintro _ ⟨b, hb, rfl⟩
    exact ⟨_, .false hb⟩
  have string : Prospects limit (Spelled (Value limit))
      ((Rules.stringValue : Parser ε ρ Json).behaviour enter rounds) := by
    refine Prospects.mono (Stops.map stringLiteral_prospects) ?_
    rintro _ ⟨s, u, b, hu, hb, rfl⟩
    exact ⟨_, .string hu hb⟩
  have number : Prospects limit (Spelled (Value limit))
      ((Rules.number (readInt limit refuse) : Parser ε ρ Json).behaviour enter rounds) := by
    refine (number_prospects refuse).mono ?_
    rintro _ ⟨v, u, b, hu, hb, rfl⟩
    exact ⟨v, .number hu hb⟩
  have object : Prospects limit (Spelled (Value limit))
      ((Rules.object value).behaviour enter rounds) := by
    refine Prospects.mono (Stops.map (bracketed_prospects "\x7b" "\x7d" rfl rfl (by decide)
      (by decide) (entry_prospects hv) ?_)) ?_
    · exact ⟨_, _, .mk (.mk .nil) blanks_nil blanks_nil (.null blanks_nil)⟩
    · rintro _ ⟨entries, b, v, b', hb, hv, hb', rfl⟩
      exact ⟨_, .object hb hv (overrides_iff.mpr rfl) hb'⟩
  have array : Prospects limit (Spelled (Value limit))
      ((Rules.array value cell).behaviour enter rounds) := by
    refine Prospects.mono (Stops.map (bracketed_prospects "[" "]" rfl rfl (by decide)
      (by decide) item (value_spelled limit))) ?_
    rintro _ ⟨items, b, v, b', hb, hv, hb', rfl⟩
    exact ⟨_, .array hb hv hb'⟩
  exact (((((null.alt true).alt false).alt string).alt number).alt object).alt array

end

end

/-! ### Documents -/

/-- With the fuel to defer less deep the values stop at prospects; one level more adds the brackets
around them. -/
theorem entered_prospects : ∀ (n : Nat) (cell : Cell),
    Prospects limit (Spelled (Value limit)) ((grammar limit).entered n cell .value)
  | 0, _ => fun _ _ => trivial
  | n + 1, _ => fun c => entered_meets fun frame =>
      element_prospects (entered_prospects n) id ⟨frame, 0⟩ c

/-- The end of the text reads nothing, and where it fails nothing has been read. -/
theorem eof_prospects {enter : {α : Type} → Cell → ρ α → Behaviour ε α} {rounds : Nat} :
    Prospects limit (· = []) ((eof : Parser ε ρ Unit).behaviour enter rounds) := by
  refine fun c => eof_meets.mono fun v hv => ?_
  split at hv
  · cases hv
    exact ⟨[], .refl c, rfl, .nil⟩
  · cases hv
    exact ⟨[], c, .refl c, rfl, ⟨[], rfl⟩, .inl .nil⟩

/-- A run of the parser of documents stops at a prospect of a document, whatever its fuel. -/
theorem run_prospects (limit : DigitLimit) (fuel : Nat) :
    Prospects limit (Spelled (Document limit)) ((grammar limit).run fuel (parser limit)) := by
  rw [Grammar.run_eq, parser_behaviour]
  refine (spaces_prospects.bind (fun _ => (element_prospects (entered_prospects fuel) id _).bind
    (fun _ => Stops.map eof_prospects) ⟨[], rfl⟩) ?_).mono ?_
  · exact ⟨_, _, _, ⟨_, .null blanks_nil⟩, rfl, rfl⟩
  · rintro _ ⟨b, _, hb, ⟨w, _, ⟨v, hw⟩, rfl, rfl⟩, rfl⟩
    exact ⟨v, by simpa using Document.mk hb hw⟩

end Parsing.Json
