import Parsing.Proofs.Fuel
import Parsing.Proofs.Json.Tokens

/-!
# Documents are recognised

The parser of documents recognises the language of its grammar: what it succeeds with is a value
that the grammar gives the text (`parser_sound`), and it succeeds on every text that the grammar
derives (`parser_complete`).  Hence the grammar is unambiguous (`document_unique`).

The values inside an array or an object are deferred to the rule of values.  Each stands behind a
bracket, so that fewer characters remain where it is entered, and the induction is on the number
of characters that remain, which the fuel of a run exceeds (`entered_recognises`).
-/

namespace Parsing.Json

open Behaviour (Recognises Meets)
open Parsing.Parser hiding pure
open Syntax Text Decimal

variable {ε : Type} {ρ : Type → Type} {α : Type}
  {enter : {α : Type} → Cell → ρ α → Behaviour ε α} {rounds n : Nat} {L : List Char → α → Prop}
  {F N : List Char → Prop} {limit : DigitLimit}

/-! ### Constants -/

/-- A word is not there where its first character is not. -/
theorem not_prefix_of_avoids {s : String} {x : Char} {r : List Char}
    (hs : s.toList.head? = some x) (h : Avoids (· == x) r) : ¬ s.toList <+: r := by
  obtain ⟨t, ht⟩ := List.head?_eq_some_iff.mp hs
  rw [ht]
  rintro ⟨u, rfl⟩
  simpa using Avoids.cons_iff.mp h

/-- A token that stands for one value. -/
theorem constant_recognises (s : String) (x : Char) (hs : s.toList.head? = some x) (v : Json)
    (hn : n ≤ rounds) :
    Recognises n (((Rules.symbol s).keepRight (.pure v) : Parser ε ρ Json).behaviour enter rounds)
      (fun w y => ∃ b, Blanks b ∧ w = s.toList ++ b ∧ v = y) Ends (Avoids (· == x)) := by
  have nothing : Recognises n ((.pure v : Parser ε ρ Json).behaviour enter rounds)
      (fun w y => w = [] ∧ y = v) Ends fun _ => False :=
    (Recognises.pure v).weaken (fun _ _ => trivial) fun _ => id
  refine (keepRight_recognises (symbol_recognises s hn) nothing ?_).imp (fun w y => ?_)
    (fun _ => id) fun _ => not_prefix_of_avoids hs
  · rintro _ _ r ⟨rfl, -⟩ hr
    exact hr.avoids rfl
  · constructor
    · rintro ⟨_, _, _, ⟨_, b, ⟨rfl, rfl⟩, hb, rfl⟩, ⟨rfl, rfl⟩, rfl⟩
      exact ⟨b, hb, List.append_nil _, rfl⟩
    · rintro ⟨b, hb, rfl, rfl⟩
      exact ⟨_, [], s, ⟨_, b, ⟨rfl, rfl⟩, hb, rfl⟩, ⟨rfl, rfl⟩, (List.append_nil _).symm⟩

/-! ### Items between brackets -/

/-- What may stand behind the items of an array or an object. -/
def Shuts (r : List Char) : Prop := Begins [']', '\x7d'] r

/-- What shuts a list ends a value in it. -/
theorem Shuts.ends {r : List Char} (h : Shuts r) : Ends r := fun x hx =>
  List.mem_cons_of_mem _ (h x hx)

/-- An item behind a comma is read as a comma and an item. -/
theorem led_iff {w : List Char} {y : α} :
    (∃ u v x, Lexeme (fun w x => w = ",".toList ∧ x = ",") u x ∧ L v y ∧ w = u ++ v) ↔
      Led L w y := by
  constructor
  · rintro ⟨_, v, _, ⟨_, b, ⟨rfl, rfl⟩, hb, rfl⟩, hv, rfl⟩
    exact .mk hb hv
  · rintro ⟨hb, h⟩
    exact ⟨_, _, ",", ⟨_, _, ⟨rfl, rfl⟩, hb, rfl⟩, h, rfl⟩

/-- Behind an item there is a comma, or what shuts the list. -/
theorem ends_of_star_led (w : List Char) (xs : List α) (r : List Char) (h : Star (Led L) w xs)
    (hr : Shuts r) : Ends (w ++ r) := by
  cases h with
  | nil => exact hr.ends
  | cons h _ =>
      cases h with
      | mk hb h => exact .cons (by decide)

/-- Items with commas between them.  An item begins with a character that is not blank. -/
theorem separated_recognises {p : Parser ε ρ α}
    (hp : Recognises n (p.behaviour enter rounds) L Ends N) (hn : n ≤ rounds)
    (hb : ∀ w x r, L w x → Avoids isBlank (w ++ r)) (hN : ∀ r, Shuts r → N r) :
    Recognises n ((sepBy p (Rules.symbol ",")).behaviour enter rounds) (Separated L) Shuts
      fun _ => False := by
  have led : Recognises n (((Rules.symbol ",").keepRight p).behaviour enter rounds) (Led L) Ends
      (Avoids (· == ',')) :=
    (keepRight_recognises (symbol_recognises "," hn) hp fun v y r hv _ => hb v y r hv).imp
      (fun _ _ => led_iff) (fun _ => id) fun _ => not_prefix_of_avoids rfl
  -- Behind a comma the parser is committed; but no closing bracket is a comma, so that the
  -- repetition does not start on what ends it.
  have others : Recognises n
      ((manyReversed ((Rules.symbol ",").keepRight p)).behaviour enter rounds)
      (fun w xs => Star (Led L) w xs.reverse) Shuts fun _ => False := by
    refine manyReversed_recognises led ?_ ends_of_star_led (fun _ hr => hr.avoids rfl) hn
    rintro _ _ ⟨_, _⟩
    exact List.cons_ne_nil _ _
  have some : Recognises n ((sepBy1 p (Rules.symbol ",")).behaviour enter rounds)
      (fun w zs => ∃ u v x ys, L u x ∧ Star (Led L) v (List.reverse ys) ∧ w = u ++ v ∧
        x :: ys.reverse = zs) Shuts N :=
    hp.both others (fun v _ r => ends_of_star_led v _ r) fun x ys => x :: ys.reverse
  refine (option_recognises [] some (fun _ => id) hN).of_iff fun w xs => ?_
  constructor
  · rintro (⟨u, v, x, ys, hx, hys, rfl, rfl⟩ | ⟨rfl, rfl⟩)
    · exact .some hx hys
    · exact .none
  · intro h
    cases h with
    | none => exact .inr ⟨rfl, rfl⟩
    | @some u v x xs hx hxs =>
        rw [← List.reverse_reverse xs] at hxs ⊢
        exact .inl ⟨u, v, x, xs.reverse, hx, hxs, rfl, rfl⟩

/-- Items between brackets, with the white space behind the brackets. -/
def Bracketed (L : List Char → α → Prop) (x y : Char) (w : List Char) (items : List α) : Prop :=
  ∃ b v b', Blanks b ∧ Separated L v items ∧ Blanks b' ∧ w = x :: b ++ v ++ y :: b'

/-- Brackets with white space behind them, and items between them. -/
theorem bracketed_iff {s t : String} {x y : Char} (hs : s.toList = [x]) (ht : t.toList = [y])
    {w : List Char} {items : List α} :
    (∃ u v z, Lexeme (fun w x => w = s.toList ∧ x = s) u z ∧
      (∃ u' v' z', Separated L u' items ∧ Lexeme (fun w x => w = t.toList ∧ x = t) v' z' ∧
        v = u' ++ v') ∧ w = u ++ v) ↔ Bracketed L x y w items := by
  constructor
  · rintro ⟨_, _, _, ⟨_, b, ⟨rfl, rfl⟩, hb, rfl⟩,
      ⟨v, _, _, hv, ⟨_, b', ⟨rfl, rfl⟩, hb', rfl⟩, rfl⟩, rfl⟩
    exact ⟨b, v, b', hb, hv, hb', by simp [hs, ht]⟩
  · rintro ⟨b, v, b', hb, hv, hb', rfl⟩
    refine ⟨s.toList ++ b, v ++ (t.toList ++ b'), s, ⟨_, b, ⟨rfl, rfl⟩, hb, rfl⟩,
      ⟨v, _, t, hv, ⟨_, b', ⟨rfl, rfl⟩, hb', rfl⟩, rfl⟩, by simp [hs, ht]⟩

/-- The items between brackets are read where fewer characters remain than before the opening
bracket. -/
theorem bracketed_recognises {p : Parser ε ρ α} (s t : String) {x y : Char}
    (hs : s.toList = [x]) (ht : t.toList = [y]) (hy : y ∈ [']', '\x7d'])
    (hp : Recognises n (p.behaviour enter rounds) L Ends N) (hn : n + 1 ≤ rounds)
    (hb : ∀ w x r, L w x → Avoids isBlank (w ++ r)) (hN : ∀ r, Shuts r → N r) :
    Recognises (n + 1) ((between (Rules.symbol s) (Rules.symbol t)
        (sepBy p (Rules.symbol ","))).behaviour enter rounds)
      (Bracketed L x y) Ends (Avoids (· == x)) := by
  have hn' : n ≤ rounds := Nat.le_of_succ_le hn
  have shut (r : List Char) : Shuts (y :: r) := .cons hy
  have closed := keepLeft_recognises (separated_recognises hp hn' hb hN)
    (symbol_recognises t hn') (by
      rintro _ _ r ⟨_, b, ⟨rfl, rfl⟩, -, rfl⟩ -
      rw [ht]
      exact shut _)
  refine (keepRight_recognises_behind (symbol_recognises s hn) closed ?_ ?_).imp
    (fun _ _ => bracketed_iff hs ht) (fun _ hr => hr.avoids rfl)
    fun _ => not_prefix_of_avoids (by rw [hs]; rfl)
  · rintro _ _ ⟨_, b, ⟨rfl, rfl⟩, -, rfl⟩
    simp [hs]
  · rintro _ xs r ⟨v, _, _, hv, ⟨_, b, ⟨rfl, rfl⟩, -, rfl⟩, rfl⟩ -
    rw [ht]
    -- Behind the opening bracket comes the closing one or an item, and neither is blank.
    cases hv with
    | none => exact (shut _).avoids rfl
    | some h _ =>
        rw [List.append_assoc, List.append_assoc]
        exact hb _ _ _ h

/-! ### Values -/

/-- A number begins with a minus or a digit. -/
theorem Number.head {w : List Char} {v : Json} (h : Number limit w v) {f : Char → Bool}
    (hm : f '-' = false) (hd : ∀ x, x.isDigit = true → f x = false) (r : List Char) :
    Avoids f (w ++ r) := by
  cases h with
  | nat h _ => exact avoids_of_digits h hd r
  | negative h _ => exact Avoids.cons_iff.mpr hm
  | float hs h _ _ _ =>
      rw [List.append_assoc, List.append_assoc, List.append_assoc]
      cases hs with
      | none => exact avoids_of_digits h hd _
      | minus => exact Avoids.cons_iff.mpr hm

/-- A value does not begin with white space. -/
theorem not_blank_of_value {w : List Char} {v : Json} (h : Value limit w v) (r : List Char) :
    Avoids isBlank (w ++ r) := by
  cases h with
  | null _ | true _ | false _ => exact Avoids.cons_iff.mpr rfl
  | string h _ =>
      cases h
      exact Avoids.cons_iff.mpr rfl
  | number h _ =>
      rw [List.append_assoc]
      exact Number.head h rfl (fun _ => isBlank_of_isDigit) _
  | array _ _ _ | object _ _ _ _ => exact Avoids.cons_iff.mpr rfl

/-- An entry is read as a key, a colon and a value. -/
theorem entry_iff {w : List Char} {y : String × Json} :
    (∃ u v key, Lexeme Quoted u key ∧
      (∃ u' v' x, Lexeme (fun w x => w = ":".toList ∧ x = ":") u' x ∧
        (∃ j, Value limit v' j ∧ (key, j) = y) ∧ v = u' ++ v') ∧ w = u ++ v) ↔
      Entry (Value limit) w y := by
  constructor
  · rintro ⟨_, _, key, ⟨k, b, hk, hb, rfl⟩,
      ⟨_, v, _, ⟨_, b', ⟨rfl, rfl⟩, hb', rfl⟩, ⟨j, hj, rfl⟩, rfl⟩, rfl⟩
    exact .mk hk hb hb' hj
  · rintro ⟨hk, hb, hb', hv⟩
    exact ⟨_, _, _, ⟨_, _, hk, hb, rfl⟩,
      ⟨_, _, ":", ⟨_, _, ⟨rfl, rfl⟩, hb', rfl⟩, ⟨_, hv, rfl⟩, rfl⟩, rfl⟩

/-- The alternatives of the rule for values, in its order, are the values of the grammar. -/
theorem value_iff {w : List Char} {y : Json} :
    ((((((∃ b, Blanks b ∧ w = "null".toList ++ b ∧ .null = y) ∨
      (∃ b, Blanks b ∧ w = "true".toList ++ b ∧ .bool true = y)) ∨
      (∃ b, Blanks b ∧ w = "false".toList ++ b ∧ .bool false = y)) ∨
      (∃ s, Lexeme Quoted w s ∧ .string s = y)) ∨ Lexeme (Number limit) w y) ∨
      (∃ entries, Bracketed (Entry (Value limit)) '\x7b' '\x7d' w entries ∧
        .object (mergeEntries entries) = y)) ∨
      (∃ items, Bracketed (Value limit) '[' ']' w items ∧ .array items = y) ↔ Value limit w y := by
  constructor
  · rintro ((((((⟨b, hb, rfl, rfl⟩ | ⟨b, hb, rfl, rfl⟩) | ⟨b, hb, rfl, rfl⟩) |
      ⟨s, ⟨u, b, hs, hb, rfl⟩, rfl⟩) | ⟨u, b, hu, hb, rfl⟩) |
      ⟨entries, ⟨b, v, b', hb, hv, hb', rfl⟩, rfl⟩) | ⟨items, ⟨b, v, b', hb, hv, hb', rfl⟩, rfl⟩)
    · exact .null hb
    · exact .true hb
    · exact .false hb
    · exact .string hs hb
    · exact .number hu hb
    · exact .object hb hv (overrides_iff.mpr rfl) hb'
    · exact .array hb hv hb'
  · intro h
    cases h with
    | null hb => exact .inl (.inl (.inl (.inl (.inl (.inl ⟨_, hb, rfl, rfl⟩)))))
    | true hb => exact .inl (.inl (.inl (.inl (.inl (.inr ⟨_, hb, rfl, rfl⟩)))))
    | false hb => exact .inl (.inl (.inl (.inl (.inr ⟨_, hb, rfl, rfl⟩))))
    | string h hb => exact .inl (.inl (.inl (.inr ⟨_, ⟨_, _, h, hb, rfl⟩, rfl⟩)))
    | number h hb => exact .inl (.inl (.inr ⟨_, _, h, hb, rfl⟩))
    | object hb h hm hb' =>
        cases overrides_iff.mp hm
        exact .inl (.inr ⟨_, ⟨_, _, _, hb, h, hb', rfl⟩, rfl⟩)
    | array hb h hb' => exact .inr ⟨_, ⟨_, _, _, hb, h, hb', rfl⟩, rfl⟩

/-- The characters that constants and strings begin with. -/
def wordy (x : Char) : Bool := ((x == 'n' || x == 't') || x == 'f') || x == '"'

/-- No word begins with a digit. -/
theorem not_word_of_isDigit {x : Char} (h : x.isDigit = true) : wordy x = false := by
  simp [wordy, ne_of_isDigit h (rfl : 'n'.isDigit = false),
    ne_of_isDigit h (rfl : 't'.isDigit = false), ne_of_isDigit h (rfl : 'f'.isDigit = false),
    ne_of_isDigit h (rfl : '"'.isDigit = false)]

/-- Constants and strings are told apart by their first characters. -/
theorem words_recognises (hn : n ≤ rounds) :
    Recognises n ((((Rules.nullValue.alt Rules.trueValue).alt Rules.falseValue).alt
      Rules.stringValue : Parser ε ρ Json).behaviour enter rounds)
      (fun w y => (((∃ b, Blanks b ∧ w = "null".toList ++ b ∧ Json.null = y) ∨
        (∃ b, Blanks b ∧ w = "true".toList ++ b ∧ Json.bool true = y)) ∨
        (∃ b, Blanks b ∧ w = "false".toList ++ b ∧ Json.bool false = y)) ∨
        (∃ s, Lexeme Quoted w s ∧ Json.string s = y)) Ends (Avoids wordy) := by
  have null : Recognises n ((Rules.nullValue : Parser ε ρ Json).behaviour enter rounds) _ _ _ :=
    constant_recognises "null" 'n' rfl .null hn
  have true : Recognises n ((Rules.trueValue : Parser ε ρ Json).behaviour enter rounds) _ _ _ :=
    constant_recognises "true" 't' rfl (.bool Bool.true) hn
  have false : Recognises n ((Rules.falseValue : Parser ε ρ Json).behaviour enter rounds) _ _ _ :=
    constant_recognises "false" 'f' rfl (.bool Bool.false) hn
  have string : Recognises n ((Rules.stringValue : Parser ε ρ Json).behaviour enter rounds)
      (fun w y => ∃ s, Lexeme Quoted w s ∧ Json.string s = y) Ends (Avoids (· == '"')) :=
    map_recognises Json.string ((stringLiteral_recognises hn).weaken
      (fun _ hr => hr.avoids rfl) fun _ => id)
  refine alt_recognises (alt_recognises (alt_recognises null true ?_) false ?_) string ?_
  · rintro _ _ r ⟨b, -, rfl, -⟩
    exact Avoids.cons_iff.mpr rfl
  · rintro _ _ r ⟨b, -, rfl, -⟩
    exact Avoids.cons_iff.mpr rfl
  · rintro _ _ r ⟨s, ⟨_, b, ⟨_⟩, -, rfl⟩, -⟩
    exact Avoids.cons_iff.mpr rfl

section

variable {value : ρ Json}
  (hv : ∀ cell, Recognises n (enter cell value) (Value limit) Ends Ends) (hn : n + 1 ≤ rounds)

include hv hn

theorem entry_recognises : Recognises n ((Rules.entry value).behaviour enter rounds)
    (Entry (Value limit)) Ends (Avoids (· == '"')) := by
  have hn' : n ≤ rounds := Nat.le_of_succ_le hn
  have item (cell : Cell) : Recognises n
      ((deferred cell value : Parser ε ρ Json).behaviour enter rounds) (Value limit) Ends Ends :=
    hv cell
  have rest (key : String) (frame : Frame) := keepRight_recognises (symbol_recognises ":" hn')
    (map_recognises (fun j => (key, j)) (item ⟨frame, 0⟩)) (by
      rintro v _ r ⟨j, hj, -⟩ -
      exact not_blank_of_value hj r)
  refine ((stringLiteral_recognises hn').bind (fun key => .fresh (rest key))
    (fun _ _ _ => Nat.le_add_right _ _) ?_).of_iff fun _ _ => entry_iff
  rintro _ _ _ r ⟨_, _, _, ⟨_, _, ⟨rfl, rfl⟩, _, rfl⟩, _, rfl⟩ _
  exact Avoids.cons_iff.mpr rfl

/-- An array is told by its bracket.  The text behind that is shorter, which makes up for the level
of nesting. -/
theorem array_recognises (cell : Cell) :
    Recognises (n + 1) ((Rules.array value cell).behaviour enter rounds)
      (fun w y => ∃ items, Bracketed (Value limit) '[' ']' w items ∧ Json.array items = y) Ends
      (Avoids (· == '[')) := by
  have item : Recognises n ((deferred cell value : Parser ε ρ Json).behaviour enter rounds)
      (Value limit) Ends Ends := hv cell
  exact map_recognises Json.array (bracketed_recognises "[" "]" rfl rfl (by decide) item hn
    (fun _ _ r h => not_blank_of_value h r) fun _ => Shuts.ends)

/-- An object is told by its brace, as an array is by its bracket. -/
theorem object_recognises :
    Recognises (n + 1) ((Rules.object value).behaviour enter rounds)
      (fun w y => ∃ entries, Bracketed (Entry (Value limit)) '\x7b' '\x7d' w entries ∧
        Json.object (mergeEntries entries) = y) Ends (Avoids (· == '\x7b')) := by
  refine map_recognises (fun entries => Json.object (mergeEntries entries))
    (bracketed_recognises "\x7b" "\x7d" rfl rfl (by decide) (entry_recognises hv hn) hn ?_
      fun _ hr => hr.avoids rfl)
  rintro _ _ r ⟨⟨_⟩, _, _, _⟩
  exact Avoids.cons_iff.mpr rfl

/-- No two kinds of value begin with the same character, so that the choice has never to go back. -/
theorem element_recognises (refuse : TooManyDigits → ε) (cell : Cell) :
    Recognises (n + 1) ((Rules.element (readInt limit refuse) value cell).behaviour enter rounds)
      (Value limit) Ends Ends := by
  -- The alternatives are told apart by the first character of their words.
  refine (alt_recognises (alt_recognises (alt_recognises (words_recognises hn)
    (number_recognises limit refuse hn) ?_) (object_recognises hv hn) ?_)
    (array_recognises hv hn cell) ?_).imp (fun _ _ => value_iff) (fun _ => id)
    fun r (hr : Ends r) => hr.avoids rfl
  · rintro _ _ r ⟨u, b, h, -, rfl⟩
    rw [List.append_assoc]
    exact Number.head h rfl (fun x hx => not_word_of_isDigit hx) _
  · rintro _ _ r ⟨entries, ⟨b, v, b', -, -, -, rfl⟩, -⟩
    exact Avoids.cons_iff.mpr rfl
  · rintro _ _ r ⟨items, ⟨b, v, b', -, -, -, rfl⟩, -⟩
    exact Avoids.cons_iff.mpr rfl

end

/-! ### Documents -/

/-- A rule that is deferred is built in some frame, and does what it does there. -/
theorem entered_meets {n : Nat} {cell : Cell} {c : Cursor}
    {Q : Verdict TooManyDigits Json → Prop}
    (h : ∀ frame, ((Rules.element (readInt limit id) .value ⟨frame, 0⟩).behaviour
      ((grammar limit).entered n) n).Meets c Q) :
    ((grammar limit).entered (n + 1) cell .value).Meets c Q := by
  refine Grammar.enter_meets (fun frame p hp => ?_) fun _ _ hp => nomatch hp
  cases hp
  rw [Grammar.run_eq]
  exact h frame

/-- The values that are entered in a run are recognised where the fuel exceeds the number of
characters that remain. -/
theorem entered_recognises : ∀ (n : Nat) (cell : Cell),
    Recognises n ((grammar limit).entered (n + 1) cell .value) (Value limit) Ends Ends
  | 0, _ => .zero ..
  | n + 1, _ => by
      -- An array or an object enters its values behind its bracket, where one character less
      -- remains, so one unit of fuel less is enough.
      have h (frame : Frame) :=
        element_recognises (entered_recognises n) (Nat.le_refl (n + 1)) id ⟨frame, 0⟩
      exact ⟨fun c hc => entered_meets fun frame => (h frame).sound c hc,
        fun hc hw hr hd => entered_meets fun frame => (h frame).complete hc hw hr hd,
        fun c hc hN => entered_meets fun frame => (h frame).absent c hc hN⟩

/-- The end of the text is there or it is refused. -/
theorem eof_meets {c : Cursor} : ((eof : Parser ε ρ Unit).behaviour enter rounds).Meets c
    fun v => if c.remaining = [] then v = .success () c else v = .failure c.offset := by
  refine .label (.notFollowedBy (.label (.satisfy (fun x d hd _ => ?_) fun h => ?_)))
  · refine (if_neg fun hc => ?_).mpr rfl
    rw [hd.2] at hc
    cases hc
  · refine (if_pos ?_).mpr rfl
    cases hc : c.remaining with
    | nil => rfl
    | cons x r =>
        obtain ⟨d, hd, -⟩ := Cursor.Reads.of_append (w := [x]) hc
        cases h x d hd

/-- A document is read as white space, a value and the end of the text. -/
theorem parser_behaviour (enter : {α : Type} → Cell → Rule α → Behaviour TooManyDigits α)
    (rounds : Nat) :
    (parser limit).behaviour enter rounds = .bind (spaces.behaviour enter rounds) fun _ =>
      .bind ((Rules.element (readInt limit id) .value ⟨0, 0⟩).behaviour enter rounds) fun v =>
        .map (fun _ => .ok v) (eof.behaviour enter rounds) := rfl

theorem remaining_start (text : Array Char) : (Cursor.start text).remaining = text.toList := rfl

section

variable (limit : DigitLimit) (text : Array Char)

/-- There is fuel for one level of nesting more than there are characters. -/
theorem length_start : (Cursor.start text).remaining.length < text.size + 2 := by
  rw [remaining_start, Array.length_toList]
  omega

theorem spaces_run_recognises : Recognises (text.size + 2)
    ((spaces : Parser TooManyDigits Rule Unit).behaviour
      ((grammar limit).entered (text.size + 2)) (text.size + 2))
    (fun w _ => Blanks w) (Avoids isBlank) fun _ => False :=
  spaces_recognises (Nat.le_refl _)

theorem element_run_recognises (cell : Cell) : Recognises (text.size + 2)
    ((Rules.element (readInt limit id) .value cell : Parser TooManyDigits Rule Json).behaviour
      ((grammar limit).entered (text.size + 2)) (text.size + 2)) (Value limit) Ends Ends :=
  element_recognises (entered_recognises (text.size + 1)) (Nat.le_refl _) id cell

/-- A run on a whole text comes to an end, be it by an exception, and it succeeds only with a value
that the grammar gives the text. -/
theorem parser_sound : ((grammar limit).run (text.size + 2) (parser limit)).Meets (.start text) fun
    | .success v _ => Document limit text.toList v
    | .failure _ => True
    | .thrown fault => ∃ exception, fault = .raised exception
    | .exhausted => False := by
  rw [Grammar.run_eq, parser_behaviour]
  refine .bind (((spaces_run_recognises limit text).sound _ (length_start text)).mono
    fun r hr => ?_)
  cases r with
  | success x d =>
      obtain ⟨b, hb, blanks⟩ := hr
      have hd : d.remaining.length < text.size + 2 :=
        hb.remaining_lt (length_start text) (Nat.le_add_right _ _)
      simp only [Verdict.Continues]
      refine .bind (((element_run_recognises limit text _).sound d hd).mono fun r hr => ?_)
      cases r with
      | success v e =>
          obtain ⟨w, hw, value⟩ := hr
          simp only [Verdict.Continues]
          refine .map (eof_meets.mono fun r hr => ?_)
          split at hr
          · next he =>
              cases hr
              have hall := (hb.trans hw).2
              rw [he, List.append_nil, remaining_start] at hall
              exact hall ▸ .mk blanks value
          · cases hr
            trivial
      | failure _ | thrown _ | exhausted => exact hr
  | failure _ | thrown _ | exhausted => exact hr

variable {limit} in
/-- A run on a text that the grammar derives succeeds with the value that it gives. -/
theorem parser_complete {v : Json} (h : Document limit text.toList v) :
    ((grammar limit).run (text.size + 2) (parser limit)).Meets (.start text) fun r =>
      ∃ d, r = .success v d := by
  rw [Grammar.run_eq, parser_behaviour]
  obtain ⟨e, hall, he⟩ := Cursor.Reads.of_append (c := .start text) (w := text.toList) (r := [])
    (List.append_nil _).symm
  generalize text.toList = t at h hall
  obtain ⟨blanks, value⟩ := h
  obtain ⟨d, hb, hw⟩ := hall.split
  have hd : d.remaining.length < text.size + 2 :=
    hb.remaining_lt (length_start text) (Nat.le_add_right _ _)
  have spaces := (spaces_run_recognises limit text).complete (length_start text) (x := ()) blanks
    hb (hw.2 ▸ not_blank_of_value value _)
  have element := (element_run_recognises limit text ⟨0, 0⟩).complete hd value hw fun x hx => by
    rw [he] at hx
    cases hx
  refine .bind (spaces.of_eq ?_)
  simp only [Verdict.Continues]
  refine .bind (element.of_eq ?_)
  simp only [Verdict.Continues]
  refine .map (eof_meets.mono fun r hr => ?_)
  rw [if_pos he] at hr
  cases hr
  exact ⟨e, rfl⟩

end

/-- The grammar gives a text at most one value. -/
theorem document_unique {t : List Char} {v v' : Json} (h : Document limit t v)
    (h' : Document limit t v') : v = v' := by
  -- The run of the parser is one, and it gives both values.
  obtain ⟨d, hd⟩ := parser_complete t.toArray h .start
  obtain ⟨d', hd'⟩ := parser_complete t.toArray h' .start
  cases hd.symm.trans hd'
  rfl

end Parsing.Json
