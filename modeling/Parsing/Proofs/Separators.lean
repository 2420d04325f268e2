import Parsing.Parser.Separated
import Parsing.Proofs.Items

/-!
# Separators

`Parser.sepBy1` reads an item and then repeats a separator with an item behind it.
`Parser.sepEndBy1` has a loop of its own, since behind a separator the item may be missing.  The two
loops go round together, and in a round they do different things in one case only: a separator has
moved, and `p` fails empty behind it (`Behaviour.Dangles`).  There the one fails and the other ends.

**The ways of separating items agree** (`Grammar.run_separated`): with each other, up to such a
separator, and with a separator behind every item (`Parser.endBy`).
-/

namespace Parsing

variable {ε : Type} {ρ : Type → Type} {α β : Type}

namespace Behaviour

variable {p : Behaviour ε α} {separator : Behaviour ε β} {c d : Cursor} {s s' t : Session}
  {e : ParseError} {items : List α}

/-- A separator and then an item. -/
abbrev separated (p : Behaviour ε α) (separator : Behaviour ε β) : Behaviour ε α :=
  .bind separator fun _ => p

/-- A round of `Parser.sepEndBy1`: a separator, and behind it perhaps an item. -/
def trailing (p : Behaviour ε α) (separator : Behaviour ε β) (items : List α) :
    Behaviour ε (Step (List α) (List α)) :=
  .alt (.advancing (.bind separator fun _ =>
    .alt (.map (fun x => .ok (.loop (x :: items))) p) (.pure (.done items)))) (.pure (.done items))

/-- At `c` there is a separator that moves, to `d`, and behind it `p` fails empty. -/
def Dangles (p : Behaviour ε α) (separator : Behaviour ε β) (c : Cursor) (s : Session) (d : Cursor)
    (e : ParseError) (s' : Session) : Prop :=
  ∃ y t, separator c s = (.success y d, t) ∧ d.offset ≠ c.offset ∧
    p d t = (.failure d.offset e, s')

theorem Dangles.separated (h : p.Dangles separator c s d e s') :
    p.separated separator c s = (.failure d.offset e, s') := by
  obtain ⟨y, t, hs, _, hp⟩ := h
  simp only [Behaviour.separated, bind, hs, hp]

theorem Dangles.moved (h : p.Dangles separator c s d e s') : (d.offset : Int) ≠ c.offset := by
  obtain ⟨_, _, _, moved, _⟩ := h
  exact mt Int.ofNat_inj.mp moved

theorem Dangles.trailing (h : p.Dangles separator c s d e s') :
    p.trailing separator items c s = (.success (.done items) d, s') := by
  obtain ⟨y, t, hs, moved, hp⟩ := h
  simp [Behaviour.trailing, alt, advancing, bind, map, pure, hs, hp, moved]

/-- The two loops do the same in a round, unless a separator dangles. -/
theorem trailing_eq_item (h : ∀ d e s', ¬ p.Dangles separator c s d e s') :
    p.trailing separator items c s = item (p.separated separator) (· :: items) items c s := by
  simp only [Behaviour.trailing, item, alt, advancing, Behaviour.separated, bind, map]
  cases hs : separator c s with
  | mk o t =>
      cases o with
      | success y d =>
          cases hp : p d t with
          | mk o s' =>
              cases o with
              | success x f =>
                  by_cases hf : f.offset = c.offset
                  · simp [hp, hf]
                  · simp [hp, hf]
              | failure o e =>
                  by_cases ho : o = d.offset
                  · subst ho
                    have still : d.offset = c.offset :=
                      Classical.not_not.mp fun moved => h d e s' ⟨y, t, hs, moved, hp⟩
                    simp [hp, still, pure]
                  · simp [hp, ho]
              | thrown _ | exhausted => simp [hp]
      | failure _ _ | thrown _ | exhausted => rfl

/-- The two loops go round again in the same cases. -/
theorem trailing_eq_loop_iff {items' : List α} :
    p.trailing separator items c s = (.success (.loop items') d, t) ↔
      item (p.separated separator) (· :: items) items c s = (.success (.loop items') d, t) := by
  by_cases h : ∃ d e s', p.Dangles separator c s d e s'
  · obtain ⟨f, e, s', h⟩ := h
    have fails : item (p.separated separator) (· :: items) items c s =
        (.failure f.offset e, s') := item_of_committed h.separated h.moved
    simp [h.trailing, fails]
  · rw [trailing_eq_item fun d e s' hd => h ⟨d, e, s', hd⟩]

theorem trailing_of_noItem (h : (p.separated separator).NoItem c s t) :
    p.trailing separator items c s = (.success (.done items) c, t) := by
  rw [trailing_eq_item, item_of_noItem h]
  rintro d e s' dangles
  obtain ⟨f, h⟩ | ⟨x, f, h, _⟩ := h
  · have hd := dangles.separated.symm.trans h
    simp only [Prod.mk.injEq, Outcome.failure.injEq] at hd
    exact dangles.moved hd.1.1
  · have hd := dangles.separated.symm.trans h
    simp at hd

theorem rounds_trailing_iff {items' : List α} :
    Rounds (p.trailing separator) items c s items' d t ↔
      ∃ xs, (p.separated separator).Items c s xs d t ∧ items' = xs.reverse ++ items := by
  rw [← rounds_item_iff]
  exact ⟨fun r => r.imp trailing_eq_loop_iff.mp, fun r => r.imp trailing_eq_loop_iff.mpr⟩

/-- From `c` on, items with separators between them are read, `xs`, and then a separator that
dangles: it moves to `d`, and `p` fails empty behind it. -/
inductive Hanging (p : Behaviour ε α) (separator : Behaviour ε β) (c : Cursor) (s : Session) :
    List α → Cursor → ParseError → Session → Prop where
  | mk {x : α} {xs : List α} {c' d' d : Cursor} {s₁ t s' : Session} {e : ParseError}
      (first : p c s = (.success x c', s₁)) (read : (p.separated separator).Items c' s₁ xs d' t)
      (last : p.Dangles separator d' t d e s') : Hanging p separator c s (x :: xs) d e s'

/-! ### A separator behind every item -/

/-- An item and then a separator. -/
abbrev ended (p : Behaviour ε α) (separator : Behaviour ε β) : Behaviour ε α :=
  .bind p fun x => .map (fun _ => .ok x) separator

/-- No success of the behaviour stays where it is. -/
def Moving (p : Behaviour ε α) : Prop :=
  ∀ ⦃c s x d t⦄, p c s = (.success x d, t) → d.offset ≠ c.offset

theorem ended_eq_success_iff {x : α} : p.ended separator c s = (.success x d, t) ↔
    ∃ c' s' y, p c s = (.success x c', s') ∧ separator c' s' = (.success y d, t) := by
  simp only [ended, bind_eq_success_iff, map_eq_success_iff]
  constructor
  · rintro ⟨_, c', s', hx, y, hy, rfl⟩
    exact ⟨c', s', y, hx, hy⟩
  · rintro ⟨c', s', y, hx, hy⟩
    exact ⟨x, c', s', hx, y, hy, rfl⟩

/-- If items move, and nothing goes back, then there is no item with a separator behind it only
because there is no item. -/
theorem NoItem.of_ended (hp : p.Onward) (hs : separator.Onward) (moving : p.Moving)
    (h : (p.ended separator).NoItem c s t) : ∃ e, p c s = (.failure c.offset e, t) := by
  obtain ⟨e, h⟩ | ⟨x, d, h, hd⟩ := h
  · obtain h | ⟨x, c', s', hx, hy⟩ := bind_eq_failure_iff.mp h
    · exact ⟨e, h⟩
    · have forward := hp.success hx
      have moved := moving hx
      have further := hs.failure (map_eq_failure_iff.mp hy)
      omega
  · obtain ⟨c', s', y, hx, hy⟩ := ended_eq_success_iff.mp h
    have forward := hp.success hx
    have moved := moving hx
    have further := hs.success hy
    omega

end Behaviour

open Behaviour (Dangles Hanging Items Onward)

/-! ### The two loops -/

namespace Parser

/-- The items of as many `p` as there are, newest first, and behind them `items`. -/
def manyOnto (p : Parser ε ρ α) (items : List α) : Parser ε ρ (List α) :=
  tailRec (fun items => .alt (.map (fun x => .loop (x :: items)) (.advancing p))
    (.pure (.done items))) items

/-- The loop of `sepEndBy1`. -/
def trailing (p : Parser ε ρ α) (separator : Parser ε ρ β) (items : List α) :
    Parser ε ρ (List α) :=
  tailRec (fun items => .alt (.advancing (separator.keepRight
    (.alt (p.map fun y => .loop (y :: items)) (.pure (.done items))))) (.pure (.done items))) items

end Parser

namespace Grammar

open Parsing.Decimal (TooManyDigits)
open Parsing.Parser (endBy many manyOnto manyReversed sepBy sepBy1 sepEndBy sepEndBy1 trailing)

variable {g : Grammar ε ρ} {p : Parser ε ρ α} {separator : Parser ε ρ β} {c d : Cursor}
  {s s' t : Session} {items : List α}

theorem meaning_trailing_step (p : Parser ε ρ α) (separator : Parser ε ρ β) (items : List α) :
    g.meaning (.alt (.advancing (separator.keepRight
      (.alt (p.map fun y => .loop (y :: items)) (.pure (.done items))))) (.pure (.done items))) =
        .trailing (g.meaning p) (g.meaning separator) items := by
  rw [meaning_alt, meaning_advancing, meaning_keepRight, meaning_alt, meaning_map, meaning_pure]
  rfl

/-- The loop of `sepEndBy1` unrolled once. -/
theorem meaning_trailing (p : Parser ε ρ α) (separator : Parser ε ρ β) (items : List α) :
    g.meaning (trailing p separator items) =
      .round (.trailing (g.meaning p) (g.meaning separator) items) fun items =>
        g.meaning (trailing p separator items) := by
  rw [trailing, meaning_tailRec, meaning_trailing_step]
  rfl

/-- Unless a separator dangles behind the items, the two loops are the same. -/
theorem meaning_trailing_eq (h : ∀ xs d t,
    ((g.meaning p).separated (g.meaning separator)).Items c s xs d t →
      ∀ f e s', ¬ (g.meaning p).Dangles (g.meaning separator) d t f e s') :
    g.meaning (trailing p separator items) c s =
      g.meaning (manyOnto (separator.keepRight p) items) c s := by
  refine meaning_ext fun r hr => ?_
  rw [trailing, manyOnto, meaning_tailRec_iff hr, meaning_tailRec_iff hr]
  simp only [meaning_trailing_step, meaning_item, meaning_keepRight,
    Behaviour.rounds_trailing_iff, Behaviour.rounds_item_iff]
  refine exists_congr fun items' => exists_congr fun d => exists_congr fun t =>
    and_congr_right fun ⟨xs, read, _⟩ => ?_
  simp only [Behaviour.round, Behaviour.bind, Behaviour.trailing_eq_item (h xs d t read)]

/-- A separator that dangles behind the items ends the loop of `sepEndBy1`. -/
theorem meaning_trailing_of_dangles {xs : List α} {d' : Cursor} {e : ParseError}
    (read : ((g.meaning p).separated (g.meaning separator)).Items c s xs d' t)
    (last : (g.meaning p).Dangles (g.meaning separator) d' t d e s') :
    g.meaning (trailing p separator items) c s = (.success (xs.reverse ++ items) d, s') := by
  rw [trailing, meaning_tailRec_iff (by simp)]
  simp only [meaning_trailing_step, Behaviour.round_eq_success_iff]
  exact ⟨_, d', t, Behaviour.rounds_trailing_iff.mpr ⟨xs, read, rfl⟩, last.trailing⟩

theorem meaning_sepEndBy1 (p : Parser ε ρ α) (separator : Parser ε ρ β) :
    g.meaning (sepEndBy1 p separator) = .map (fun items => .ok items.reverse)
      (.bind (g.meaning p) fun x => g.meaning (trailing p separator [x])) := by
  rw [sepEndBy1, meaning_map, meaning_bind]
  rfl

theorem sepBy1_indistinct (g : Grammar ε ρ) (p : Parser ε ρ α) (separator : Parser ε ρ β) :
    g.Indistinct (sepBy1 p separator)
      (p.bind fun x => (many (separator.keepRight p)).map fun xs => x :: xs) := by
  refine g.indistinct_of_behaviour fun enter n => ?_
  show Behaviour.bind (p.behaviour enter n) _ = Behaviour.bind (p.behaviour enter n) fun x =>
    .map (fun xs => .ok (x :: xs)) (.map (fun items => .ok items.reverse)
      ((manyReversed (separator.keepRight p)).behaviour enter n))
  simp only [Behaviour.map_map]
  rfl

theorem manyOnto_indistinct (g : Grammar ε ρ) (p : Parser ε ρ α) (items : List α) :
    g.Indistinct (manyOnto p items) ((many p).map fun xs => xs.reverse ++ items) := by
  have onto := g.loop_indistinct p (fun items x => x :: items) (fun items => items) items
  simp only [List.foldl_flip_cons_eq_append, List.map_id'] at onto
  exact onto

/-- The items of `sepBy1` may as well be put in front of the first one, as they are read. -/
theorem meaning_sepBy1 (p : Parser ε ρ α) (separator : Parser ε ρ β) :
    g.meaning (sepBy1 p separator) = .map (fun items => .ok items.reverse)
      (.bind (g.meaning p) fun x => g.meaning (manyOnto (separator.keepRight p) [x])) := by
  rw [(g.sepBy1_indistinct p separator).meaning_eq, meaning_bind, Behaviour.map_bind]
  congr 1
  funext x
  rw [(g.manyOnto_indistinct _ [x]).meaning_eq, meaning_map, meaning_map, Behaviour.map_map]
  congr 1
  funext xs
  show Except.ok (x :: xs) = Except.ok (xs.reverse ++ [x]).reverse
  rw [List.reverse_append, List.reverse_reverse, List.reverse_singleton, List.singleton_append]

theorem meaning_sepBy1_of_hanging {xs : List α} {e : ParseError}
    (h : (g.meaning p).Hanging (g.meaning separator) c s xs d e s') :
    g.meaning (sepBy1 p separator) c s = (.failure d.offset e, s') := by
  obtain ⟨first, read, last⟩ := h
  have parts : g.meaning (separator.keepRight p) =
      (g.meaning p).separated (g.meaning separator) := meaning_keepRight separator p
  rw [← parts] at read
  have next := last.separated
  rw [← parts] at next
  have fails := meaning_many_failure_iff.mpr ⟨_, _, _, read, next, last.moved⟩
  rw [(g.sepBy1_indistinct p separator).meaning_eq, meaning_bind]
  simp only [Behaviour.bind, first, meaning_map, Behaviour.map_ok_eq, fails, Outcome.map]

theorem meaning_sepEndBy1_of_hanging {xs : List α} {e : ParseError}
    (h : (g.meaning p).Hanging (g.meaning separator) c s xs d e s') :
    g.meaning (sepEndBy1 p separator) c s = (.success xs d, s') := by
  obtain ⟨first, read, last⟩ := h
  rw [meaning_sepEndBy1, Behaviour.map_ok_eq]
  simp [Behaviour.bind, first, meaning_trailing_of_dangles read last, Outcome.map]

/-- Where no separator is left hanging, one behind the last item makes no difference. -/
theorem meaning_sepEndBy1_eq
    (h : ∀ xs d e s', ¬ (g.meaning p).Hanging (g.meaning separator) c s xs d e s') :
    g.meaning (sepEndBy1 p separator) c s = g.meaning (sepBy1 p separator) c s := by
  rw [meaning_sepEndBy1, meaning_sepBy1, Behaviour.map_ok_eq, Behaviour.map_ok_eq]
  simp only [Behaviour.bind]
  cases first : g.meaning p c s with
  | mk o s₁ =>
      cases o with
      | success x c' =>
          have same : g.meaning (trailing p separator [x]) c' s₁ =
              g.meaning (manyOnto (separator.keepRight p) [x]) c' s₁ :=
            meaning_trailing_eq fun xs d' t read d e s' last =>
              h (x :: xs) d e s' ⟨first, read, last⟩
          simp only [same]
      | failure _ _ | thrown _ | exhausted => rfl

/-- From a separator on, the loop of `sepEndBy1` reads what stands behind it as `endBy` does. -/
theorem meaning_trailing_of_ended (hp : (g.meaning p).Onward) (hs : (g.meaning separator).Onward)
    (moving : (g.meaning p).Moving) (items : List α) {xs : List α} {e : ParseError}
    (read : ((g.meaning p).ended (g.meaning separator)).Items c s xs d t)
    (last : g.meaning p d t = (.failure d.offset e, s')) {c₀ : Cursor} {s₀ : Session} {y : β}
    (hy : g.meaning separator c₀ s₀ = (.success y c, s)) :
    ∃ d', g.meaning (trailing p separator items) c₀ s₀ = (.success (xs.reverse ++ items) d', s') ∧
      d'.offset = d.offset := by
  induction read generalizing items c₀ s₀ y with
  | nil c s =>
      rw [meaning_trailing]
      by_cases moved : c.offset = c₀.offset
      · -- The separator has not moved either, so that the loop ends in front of it.
        have missing : ((g.meaning p).separated (g.meaning separator)) c₀ s₀ =
            (.failure c₀.offset e, s') := by
          simp only [Behaviour.separated, Behaviour.bind, hy, last, moved]
        exact ⟨c₀, Behaviour.round_of_done (Behaviour.trailing_of_noItem (.inl ⟨e, missing⟩)),
          moved.symm⟩
      · have dangles : (g.meaning p).Dangles (g.meaning separator) c₀ s₀ c e s' :=
          ⟨y, s, hy, moved, last⟩
        exact ⟨c, Behaviour.round_of_done dangles.trailing, rfl⟩
  | @cons c c' d s s₂ t x xs h _ _ ih =>
      obtain ⟨c₁, s₁, z, hx, hz⟩ := Behaviour.ended_eq_success_iff.mp h
      have beyond : c₁.offset ≠ c₀.offset := by
        have forward := hs.success hy
        have further := hp.success hx
        have moved := moving hx
        omega
      have read : ((g.meaning p).separated (g.meaning separator)) c₀ s₀ = (.success x c₁, s₁) := by
        simp only [Behaviour.separated, Behaviour.bind, hy, hx]
      have goes : (g.meaning p).trailing (g.meaning separator) items c₀ s₀ =
          (.success (.loop (x :: items)) c₁, s₁) :=
        Behaviour.trailing_eq_loop_iff.mpr (Behaviour.item_of_moved read beyond)
      obtain ⟨d', ends, same⟩ := ih (x :: items) last hz
      rw [meaning_trailing, Behaviour.round_of_loop goes, ends]
      exact ⟨d', by simp, same⟩

/-- Where `endBy` reads items that move, `sepEndBy` reads them too. -/
theorem meaning_sepEndBy_of_endBy (hp : (g.meaning p).Onward) (hs : (g.meaning separator).Onward)
    (moving : (g.meaning p).Moving) {xs : List α}
    (h : g.meaning (endBy p separator) c s = (.success xs d, s')) :
    ∃ d', g.meaning (sepEndBy p separator) c s = (.success xs d', s') ∧ d'.offset = d.offset := by
  rw [endBy, meaning_many_success_iff, meaning_keepLeft] at h
  obtain ⟨t, read, none⟩ := h
  obtain ⟨e, last⟩ := none.of_ended hp hs moving
  rw [sepEndBy, meaning_alt, meaning_pure, Behaviour.alt_pure, meaning_sepEndBy1,
    Behaviour.map_ok_eq]
  cases read with
  | nil => exact ⟨c, by simp [Behaviour.bind, last, Outcome.map, Outcome.orDefault], rfl⟩
  | @cons _ _ _ _ _ _ x xs h _ rest =>
      obtain ⟨c₁, s₁, y, hx, hy⟩ := Behaviour.ended_eq_success_iff.mp h
      obtain ⟨d', ends, same⟩ := meaning_trailing_of_ended hp hs moving [x] rest last hy
      exact ⟨d', by simp [Behaviour.bind, hx, ends, Outcome.map, Outcome.orDefault], same⟩

/-- **The ways of separating items agree.**  `sepBy1` reads an item and then repeats a separator
with an item behind it.  `sepEndBy1` does the same, whether it succeeds or fails, but for one case:
a separator has moved and `p` fails empty behind it.  There `sepBy1` fails, and `sepEndBy1` succeeds
with the items before the separator, behind it.  `sepBy` and `sepEndBy` are the two with the empty
list in place of an empty failure.

If neither parser goes back and items move, then `sepEndBy` reads what `endBy` reads. -/
theorem run_separated (g : Grammar ε ρ) (p : Parser ε ρ α) (separator : Parser ε ρ β) :
    g.Indistinct (sepBy1 p separator)
      (p.bind fun x => (many (separator.keepRight p)).map fun xs => x :: xs) ∧
    (∀ c s,
      (∀ xs d e s', (g.meaning p).Hanging (g.meaning separator) c s xs d e s' →
        g.meaning (sepBy1 p separator) c s = (.failure d.offset e, s') ∧
          g.meaning (sepEndBy1 p separator) c s = (.success xs d, s')) ∧
      ((∀ xs d e s', ¬ (g.meaning p).Hanging (g.meaning separator) c s xs d e s') →
        g.meaning (sepEndBy1 p separator) c s = g.meaning (sepBy1 p separator) c s)) ∧
    (∀ c s,
      g.meaning (sepBy p separator) c s = ((g.meaning (sepBy1 p separator) c s).1.orDefault [] c,
        (g.meaning (sepBy1 p separator) c s).2) ∧
      g.meaning (sepEndBy p separator) c s =
        ((g.meaning (sepEndBy1 p separator) c s).1.orDefault [] c,
          (g.meaning (sepEndBy1 p separator) c s).2)) ∧
    ((g.meaning p).Onward → (g.meaning separator).Onward → (g.meaning p).Moving →
      ∀ c s xs d s', g.meaning (endBy p separator) c s = (.success xs d, s') →
        ∃ d', g.meaning (sepEndBy p separator) c s = (.success xs d', s') ∧
          d'.offset = d.offset) := by
  refine ⟨g.sepBy1_indistinct p separator, fun c s => ⟨fun xs d e s' h => ?_, fun h => ?_⟩,
    fun c s => ⟨?_, ?_⟩, fun hp hs moving c s xs d s' h => ?_⟩
  · exact ⟨meaning_sepBy1_of_hanging h, meaning_sepEndBy1_of_hanging h⟩
  · exact meaning_sepEndBy1_eq h
  · rw [sepBy, meaning_alt, meaning_pure, Behaviour.alt_pure]
  · rw [sepEndBy, meaning_alt, meaning_pure, Behaviour.alt_pure]
  · exact meaning_sepEndBy_of_endBy hp hs moving h

theorem satisfy_moving (g : Grammar ε ρ) (accepts : Char → Bool) :
    (g.meaning (.satisfy accepts)).Moving := by
  intro c s x d t h
  obtain ⟨n, hn⟩ := (meaning_eq_iff (by simp)).mp h
  have moves : (g.run n (.satisfy accepts)).Meets c fun r =>
      ∀ x d, r = .success x d → d.offset ≠ c.offset := by
    rw [run_eq]
    refine .satisfy (fun x d hd _ y e same => ?_) fun _ _ _ => nofun
    cases same
    have next := hd.offset_eq
    simp only [List.length_singleton] at next
    omega
  exact moves s x d (by rw [hn]; rfl)

/-- Digits with a comma behind each of them: behind the last one `sepBy1` fails. -/
theorem run_separated_digits :
    let g := Json.grammar .standard
    let digit : Parser TooManyDigits Json.Rule Char := .satisfy Char.isDigit
    let comma : Parser TooManyDigits Json.Rule Char := .satisfy (· == ',')
    let text := #['1', ',', '2', ',']
    let c : Cursor := .start text
    let d : Cursor := ⟨text, 4, by decide⟩
    let e : ParseError := ⟨"unexpected end of input", []⟩
    (g.meaning digit).Onward ∧ (g.meaning comma).Onward ∧
    (g.meaning digit).Moving ∧
    g.meaning (endBy digit comma) c .start = (.success ['1', '2'] d, .start) ∧
    (g.meaning digit).Hanging (g.meaning comma) c .start ['1', '2'] d e
      .start ∧
    g.meaning (sepBy1 digit comma) c .start = (.failure 4 e, .start) ∧
    g.meaning (sepEndBy1 digit comma) c .start = (.success ['1', '2'] d, .start) ∧
    ∃ d', g.meaning (sepEndBy digit comma) c .start = (.success ['1', '2'] d', .start) ∧
      d'.offset = 4 := by
  intro g digit comma text c d e
  have onward (accepts : Char → Bool) : (g.meaning (.satisfy accepts)).Onward :=
    Json.grammar_composed.meaning_onward trivial
  have moving : (g.meaning digit).Moving := g.satisfy_moving Char.isDigit
  have items : g.meaning (endBy digit comma) c .start =
      (.success ['1', '2'] d, .start) := (meaning_eq_iff (by simp)).mpr ⟨5, rfl⟩
  let place (k : Nat) (h : k ≤ 4) : Cursor := ⟨text, k, h⟩
  have first : g.meaning digit c .start = (.success '1' (place 1 (by decide)), .start) :=
    (meaning_eq_iff (by simp)).mpr ⟨0, rfl⟩
  have second : (g.meaning digit).separated (g.meaning comma)
      (place 1 (by decide)) .start = (.success '2' (place 3 (by decide)), .start) := by
    rw [Behaviour.separated, ← meaning_keepRight]
    exact (meaning_eq_iff (by simp)).mpr ⟨0, rfl⟩
  have last : (g.meaning digit).Dangles (g.meaning comma)
      (place 3 (by decide)) .start d e .start :=
    ⟨',', .start, (meaning_eq_iff (by simp)).mpr ⟨0, rfl⟩, by decide,
      (meaning_eq_iff (by simp)).mpr ⟨0, rfl⟩⟩
  have hanging : (g.meaning digit).Hanging (g.meaning comma) c .start
      ['1', '2'] d e .start := ⟨first, .cons second (by decide) (.nil _ _), last⟩
  obtain ⟨_, loops, _, ended⟩ := run_separated g digit comma
  obtain ⟨fails, ends⟩ := (loops c .start).1 _ _ _ _ hanging
  obtain ⟨d', same, offset⟩ := ended (onward _) (onward _) moving c .start _ d .start items
  exact ⟨onward _, onward _, moving, items, hanging, fails, ends, d', same, offset⟩

end Grammar

end Parsing
