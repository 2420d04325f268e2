import Mathlib.Data.Nat.Find
import Mathlib.Order.Bounds.Defs
import Parsing.Proofs.Foresight
import Parsing.Proofs.Json.Acceptance

/-!
# Where the parser of JSON fails

`run_failure_position`: a text that is not a document fails at the first character that makes it
impossible for the text to become one, or, if the text goes wrong within one of the keywords `null`,
`true` and `false`, at the first character of that keyword.  So the text before a failure can be
completed to a document, and the failure is at most four characters before the character that is
wrong.

That the text before the failure can be completed is what the grammar gives (`run_prospects`).  For
the other part let `w` be the longest beginning of the text that some document has as well.  The
parser of JSON only goes forward, and the two texts look alike up to the end of `w`, or up to a
keyword that `w` ends within: a run on the text that failed earlier would fail on the document as
well (`Grammar.run_foresight`).
-/

namespace Parsing.Json

open Parsing.Parser hiding pure
open Decimal Syntax

/-! ### The grammar goes forward -/

/-- The strings that are read as a whole. -/
def tokens : List String := keywords ++ ["-", "[", "]", "\x7b", "\x7d", ",", ":"]

section

variable {ε : Type} {ρ : Type → Type} {α β : Type} {p : Parser ε ρ α}

theorem spaces_forward : (spaces : Parser ε ρ Unit).Forward tokens :=
  fun _ => ⟨trivial, trivial⟩

theorem lexeme_forward (hp : p.Forward tokens) : (Rules.lexeme p).Forward tokens :=
  ⟨hp, fun _ => spaces_forward⟩

/-- A keyword or a sign is one of the tokens. -/
theorem symbol_forward {s : String} (hs : s ∈ tokens) :
    (Rules.symbol s : Parser ε ρ String).Forward tokens := lexeme_forward hs

theorem stringLiteral_forward : (Rules.stringLiteral : Parser ε ρ String).Forward tokens :=
  lexeme_forward ⟨trivial, fun _ => ⟨fun _ => ⟨⟨trivial, trivial, fun _ => trivial⟩, trivial⟩,
    fun _ => trivial⟩⟩

theorem digits_forward : (Rules.digits : Parser ε ρ String).Forward tokens :=
  ⟨trivial, fun _ _ => ⟨trivial, trivial⟩⟩

theorem append_forward {p q : Parser ε ρ String} (hp : p.Forward tokens) (hq : q.Forward tokens) :
    (p ++ q).Forward tokens := ⟨hp, hq⟩

/-- Numbers are read with tests and one sign. -/
theorem number_forward (toInt : List Char → Except ε Int) :
    (Rules.number toInt : Parser ε ρ Json).Forward tokens := by
  have minus : (option "" (.string "-") : Parser ε ρ String).Forward tokens :=
    ⟨(by decide : "-" ∈ tokens), trivial⟩
  have fraction : (Rules.fraction : Parser ε ρ String).Forward tokens :=
    ⟨append_forward trivial digits_forward, trivial⟩
  have exponent : (Rules.exponent : Parser ε ρ String).Forward tokens :=
    ⟨append_forward (append_forward trivial ⟨trivial, trivial⟩) digits_forward, trivial⟩
  exact lexeme_forward
    (append_forward (append_forward (append_forward minus digits_forward) fraction) exponent)

theorem bracketed_forward {s t : String} (hs : s ∈ tokens) (ht : t ∈ tokens)
    (hp : p.Forward tokens) :
    (between (Rules.symbol s) (Rules.symbol t) (sepBy p (Rules.symbol ","))).Forward tokens := by
  have comma : (Rules.symbol "," : Parser ε ρ String).Forward tokens := symbol_forward (by decide)
  have led : ((Rules.symbol ",").keepRight p).Forward tokens := ⟨comma, fun _ => hp⟩
  have items : (sepBy p (Rules.symbol ",")).Forward tokens :=
    ⟨⟨hp, fun _ _ => ⟨led, trivial⟩⟩, trivial⟩
  exact ⟨symbol_forward hs, fun _ => ⟨items, fun _ => symbol_forward ht⟩⟩

/-- The rule for values looks for tokens alone, and defers to a cell. -/
theorem element_forward (toInt : List Char → Except ε Int) (value : ρ Json) (cell : Cell) :
    (Rules.element toInt value cell : Parser ε ρ Json).Forward tokens := by
  have constant {s : String} (hs : s ∈ tokens) (v : Json) :
      ((Rules.symbol s).keepRight (.pure v) : Parser ε ρ Json).Forward tokens :=
    ⟨symbol_forward hs, fun _ => trivial⟩
  have entry : (Rules.entry value : Parser ε ρ (String × Json)).Forward tokens :=
    ⟨stringLiteral_forward, fun _ _ => ⟨symbol_forward (by decide), fun _ => trivial⟩⟩
  have object : (Rules.object value : Parser ε ρ Json).Forward tokens :=
    bracketed_forward (s := "\x7b") (t := "\x7d") (by decide) (by decide) entry
  have item : (deferred cell value : Parser ε ρ Json).Forward tokens := trivial
  have array : (Rules.array value cell : Parser ε ρ Json).Forward tokens :=
    bracketed_forward (s := "[") (t := "]") (by decide) (by decide) item
  exact ⟨⟨⟨⟨⟨⟨constant (s := "null") (by decide) _, constant (s := "true") (by decide) _⟩,
    constant (s := "false") (by decide) _⟩, stringLiteral_forward⟩, number_forward toInt⟩, object⟩,
    array⟩

end

theorem grammar_forward (limit : DigitLimit) : (grammar limit).Forward tokens := by
  intro _ rule frame p hp
  cases rule
  cases hp
  exact element_forward _ _ _

/-- Documents are read without going back. -/
theorem parser_forward (limit : DigitLimit) : (parser limit).Forward tokens :=
  ⟨spaces_forward, fun _ => ⟨element_forward _ _ _, fun _ => trivial⟩⟩

/-! ### Beginnings of documents -/

variable {limit : DigitLimit}

/-- The text can be completed to one that the parser accepts. -/
def Viable (limit : DigitLimit) (w : List Char) : Prop := ∃ r, Accepts limit (w ++ r)

/-- If the first `n` characters of a text do not end within a keyword that begins before `i`, then
up to `i` the text looks like any other that begins with these. -/
theorem lookAlike_take {t : Array Char} {n i : Nat} (hn : n ≤ t.size) (hi : i ≤ n)
    (whole : ∀ j < i, ¬ Cut ((t.toList.take n).drop j)) (r : List Char) :
    LookAlike tokens i t (t.toList.take n ++ r).toArray where
  char j hj := by
    have inside : j < (t.toList.take n).length := by
      rw [List.length_take, Array.length_toList]
      omega
    calc t[j]? = t.toList[j]? := Array.getElem?_toList.symm
      _ = (t.toList.take n)[j]? := (List.getElem?_take_of_lt (by omega)).symm
      _ = (t.toList.take n ++ r)[j]? := (List.getElem?_append_left inside).symm
      _ = (t.toList.take n ++ r).toArray[j]? := List.getElem?_toArray.symm
  string s hs j hj there := by
    have length : (t.toList.take n).length = n := by
      rw [List.length_take, Array.length_toList, Nat.min_eq_left hn]
    rw [List.drop_append_of_le_length (by omega)] at there
    have own : (t.toList.take n).drop j <+: t.toList.drop j := by
      rw [List.drop_take]
      exact List.take_prefix _ _
    -- The string is in the first `n` characters, or they end within it.
    rcases List.prefix_or_prefix_of_prefix there (List.prefix_append _ r) with inside | cut
    · exact inside.trans own
    · by_cases all : (t.toList.take n).drop j = s.toList
      · exact all ▸ own
      · have some : 0 < ((t.toList.take n).drop j).length := by
          rw [List.length_drop]
          omega
        rcases List.mem_append.mp hs with keyword | sign
        · exact absurd ⟨s, keyword, cut, all⟩ (whole j hj)
        · have single : ∀ s ∈ ["-", "[", "]", "\x7b", "\x7d", ",", ":"], s.toList.length = 1 := by
            decide
          exact absurd (cut.eq_of_length_le (by rw [single s sign]; exact some)) all

/-- A run on a text whose first `n` characters can be completed does not fail before `i`, if these
characters do not end within a keyword that begins before `i`. -/
theorem le_failure {t : Array Char} {n i : Nat} (hn : n ≤ t.size) (hi : i ≤ n)
    (viable : Viable limit (t.toList.take n)) (whole : ∀ j < i, ¬ Cut ((t.toList.take n).drop j))
    {fuel k : Nat} {s s' : Session} {e : ParseError}
    (failed : (grammar limit).run fuel (parser limit) (.start t) s = (.failure k e, s')) :
    i ≤ k := by
  obtain ⟨r, accepted⟩ := viable
  by_contra early
  have more := Nat.le_max_left fuel ((t.toList.take n ++ r).length + 2)
  have failed' : (grammar limit).run (max fuel ((t.toList.take n ++ r).length + 2)) (parser limit)
      (.start t) s = (.failure k e, s') := by
    rw [Grammar.run_mono more (by simp [failed]), failed]
  obtain ⟨s₂, again⟩ := Grammar.run_foresight (grammar_forward limit) (parser_forward limit)
    (lookAlike_take hn hi whole r) failed' (by omega)
  obtain ⟨v, d, success⟩ := accepted.run (Nat.le_max_right fuel _) s
  rw [again] at success
  cases success

/-- What stands before a failure can be completed.  It does not end within a keyword, unless the
text ends there too. -/
theorem failure_viable {fuel : Nat} {t : Array Char} {s s' : Session} {offset : Int}
    {e : ParseError}
    (failed : (grammar limit).run fuel (parser limit) (.start t) s = (.failure offset e, s')) :
    ∃ k : Nat, offset = k ∧ k ≤ t.size ∧ Viable limit (t.toList.take k) ∧
      (Whole (t.toList.take k) ∨ k = t.size) := by
  have stopped := run_prospects limit fuel (.start t) s
  rw [failed] at stopped
  obtain ⟨u, d, hu, ho, ⟨v, hv⟩, whole⟩ := stopped
  have text : t.toList = u ++ d.remaining := hu.2
  have behind : d.offset = u.length := hu.offset_eq.trans (Nat.zero_add _)
  have size : t.size = u.length + d.remaining.length := by
    rw [← Array.length_toList, text, List.length_append]
  have before : t.toList.take d.offset = u := by rw [behind, text, List.take_left]
  refine ⟨d.offset, ho, by omega, ⟨v, accepts_iff.mpr (before ▸ hv)⟩, whole.imp ?_ fun ended => ?_⟩
  · exact fun h => before ▸ h
  · rw [size, ended, List.length_nil, behind, Nat.add_zero]

/-- If a text is cut at `n` within a keyword that begins at `i`, and a part of it that does not end
within a keyword ends between, then there is nothing left of the keyword. -/
theorem cut_between {w : List Char} {i k n : Nat} (hn : n ≤ w.length)
    (cut : Cut ((w.take n).drop i)) (hi : i ≤ k) (hk : k ≤ n)
    (whole : Whole (w.take k) ∨ k = w.length) : Cut ((w.take n).drop k) := by
  rcases Nat.eq_or_lt_of_le hi with rfl | hi
  · exact cut
  · rcases whole with whole | rfl
    · have length : (w.take k).length = k := by
        rw [List.length_take, Nat.min_eq_left (Nat.le_trans hk hn)]
      have parts : w.take k ++ (w.take n).drop k = w.take n := by
        calc w.take k ++ (w.take n).drop k = (w.take n).take k ++ (w.take n).drop k := by
              rw [List.take_take, Nat.min_eq_left hk]
          _ = w.take n := List.take_append_drop k _
      rw [← parts, List.drop_append_of_le_length (by omega)] at cut
      exact absurd cut.of_append (whole i (by omega))
    · rw [List.drop_eq_nil_of_le (List.length_take_le' n w)]
      exact .nil

/-- **The parser fails where the text goes wrong.**  If a run on a text fails, let `L` be the length
of the longest beginning of the text that can be completed to a text that the parser accepts.  The
run fails at an offset `k` that is not behind `L`, and what stands between `k` and `L` is a keyword
that has been begun and not finished, or nothing.  So `k` is at most four characters before `L`. -/
theorem run_failure_position {fuel : Nat} {t : Array Char} {s s' : Session} {offset : Int}
    {e : ParseError}
    (failed : (grammar limit).run fuel (parser limit) (.start t) s = (.failure offset e, s')) :
    ∃ k L : Nat, offset = k ∧ IsGreatest {n | n ≤ t.size ∧ Viable limit (t.toList.take n)} L ∧
      k ≤ L ∧ L ≤ k + 4 ∧ Cut ((t.toList.take L).drop k) := by
  classical
  obtain ⟨k, rfl, hk, viable, whole⟩ := failure_viable failed
  let P (n : Nat) : Prop := Viable limit (t.toList.take n)
  let L := Nat.findGreatest P t.size
  have hL : L ≤ t.size := Nat.findGreatest_le t.size
  have completable : Viable limit (t.toList.take L) := Nat.findGreatest_spec (P := P) hk viable
  have greatest {n : Nat} (hn : n ≤ t.size) (h : Viable limit (t.toList.take n)) : n ≤ L :=
    Nat.le_findGreatest hn h
  -- The first place from which only a cut keyword is left, which is `L` itself at the latest.
  have last : Cut ((t.toList.take L).drop L) := by
    rw [List.drop_eq_nil_of_le (List.length_take_le L _)]
    exact .nil
  have ends : ∃ i, Cut ((t.toList.take L).drop i) := ⟨L, last⟩
  have reached : Nat.find ends ≤ k :=
    le_failure hL (Nat.find_min' ends last) completable (fun j hj => Nat.find_min ends hj) failed
  have cut : Cut ((t.toList.take L).drop k) :=
    cut_between (by rwa [Array.length_toList]) (Nat.find_spec ends) reached (greatest hk viable)
      (by rwa [Array.length_toList])
  have short := cut.length_le
  rw [List.length_drop, List.length_take, Array.length_toList] at short
  exact ⟨k, L, rfl, ⟨⟨hL, completable⟩, fun n h => greatest h.1 h.2⟩, greatest hk viable, by omega,
    cut⟩

/-- In `[nul]` a keyword is broken off: the parser fails where it begins, and the text goes wrong
three characters later. -/
theorem run_failure_position_keyword : ∃ s' e,
    (grammar .standard).run 7 (parser .standard) (.start "[nul]".toList.toArray) .start =
      (.failure 1 e, s') ∧
    IsGreatest {n | n ≤ 5 ∧ Viable .standard ("[nul]".toList.take n)} 4 ∧
    Cut (("[nul]".toList.take 4).drop 1) := by
  have failed : (grammar .standard).run 7 (parser .standard) (.start "[nul]".toList.toArray)
      .start = (.failure 1 _, _) := rfl
  obtain ⟨k, L, hk, greatest, -, -, cut⟩ := run_failure_position failed
  obtain rfl : k = 1 := (Int.ofNat_inj.mp hk).symm
  have completed : Viable .standard ("[nul]".toList.take 4) := ⟨['l', ']'], _, _, rfl⟩
  have reached : 4 ≤ L := greatest.2 ⟨by decide, completed⟩
  have wrong : L ≠ 5 := by
    rintro rfl
    exact absurd cut (by decide)
  obtain rfl : L = 4 := by
    have : L ≤ 5 := greatest.1.1
    omega
  exact ⟨_, _, failed, greatest, cut⟩

end Parsing.Json
