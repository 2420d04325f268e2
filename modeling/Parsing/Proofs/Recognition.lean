import Parsing.Parser.Choice
import Parsing.Parser.Repetition
import Parsing.Proofs.Laws

/-!
# Recognising a language

`Recognises n p L F N` says of a behaviour `p`, at cursors with fewer than `n` characters behind
them, that

* whatever it succeeds with is a word of `L` with its value, and nothing but an exception of a
  callback ever breaks it off;
* it reads every word of `L` behind which stands what `F` admits, up to its end;
* it fails without reading where what follows is in `N`.

The second part is what an ordered choice without backtracking puts at risk: a part may read too
much, and an alternative may read something and then fail although a later one would do.  The
rules below name what has to be checked for each operation.  In a sequence, what stands behind
the first part has to be admitted (`Recognises.bind`); in a choice, where the second alternative
has a word the first must fail without reading (`Recognises.alt`); a repetition must fail without
reading behind its last item (`Recognises.gather`).
-/

namespace Parsing

variable {ε α β γ σ : Type}

open Behaviour (Meets Refuses)

/-- Any number of words one behind the other, with the list of their values. -/
inductive Star (L : List Char → α → Prop) : List Char → List α → Prop where
  | nil : Star L [] []
  | cons {u v : List Char} {x : α} {xs : List α} (h : L u x) (t : Star L v xs) :
      Star L (u ++ v) (x :: xs)

/-- A repetition may be continued at its end as well as at its beginning. -/
theorem Star.concat {L : List Char → α → Prop} {u v : List Char} {xs : List α} {x : α}
    (h : Star L u xs) (hx : L v x) : Star L (u ++ v) (xs ++ [x]) := by
  induction h with
  | nil =>
      have := Star.cons hx .nil
      rwa [List.append_nil] at this
  | cons hy _ ih =>
      rw [List.append_assoc]
      exact .cons hy ih

/-- The words of single characters of a class. -/
theorem star_class_iff {accepts : Char → Bool} {w xs : List Char} :
    Star (fun v x => v = [x] ∧ accepts x = true) w xs ↔ w = xs ∧ ∀ x ∈ w, accepts x = true := by
  constructor
  · intro h
    induction h with
    | nil => exact ⟨rfl, List.forall_mem_nil _⟩
    | cons h _ ih =>
        obtain ⟨rfl, hx⟩ := h
        obtain ⟨rfl, hxs⟩ := ih
        exact ⟨rfl, List.forall_mem_cons.mpr ⟨hx, hxs⟩⟩
  · rintro ⟨rfl, h⟩
    induction w with
    | nil => exact .nil
    | cons x xs ih =>
        obtain ⟨hx, hxs⟩ := List.forall_mem_cons.mp h
        exact .cons (u := [x]) ⟨rfl, hx⟩ (ih hxs)

/-- Nothing, or something that starts with a character outside a class. -/
def Avoids (accepts : Char → Bool) (r : List Char) : Prop := ∀ x ∈ r.head?, accepts x = false

namespace Avoids

variable {accepts : Char → Bool}

theorem cons_iff {x : Char} {r : List Char} : Avoids accepts (x :: r) ↔ accepts x = false := by
  simp [Avoids]

theorem mono {other : Char → Bool} {r : List Char} (h : Avoids accepts r)
    (ho : ∀ x, accepts x = false → other x = false) : Avoids other r := fun x hx => ho x (h x hx)

theorem append {u r : List Char} (hu : ∀ x ∈ u, accepts x = false) (hr : Avoids accepts r) :
    Avoids accepts (u ++ r) := by
  cases u with
  | nil => exact hr
  | cons x u => exact cons_iff.mpr (hu x List.mem_cons_self)

end Avoids

/-- Nothing, or something that starts with one of the given characters. -/
def Begins (cs r : List Char) : Prop := ∀ x ∈ r.head?, x ∈ cs

namespace Begins

variable {cs r : List Char}

theorem cons {x : Char} (h : x ∈ cs) : Begins cs (x :: r) := by
  rintro _ ⟨⟩
  exact h

theorem avoids (h : Begins cs r) {accepts : Char → Bool} (hf : cs.any accepts = false) :
    Avoids accepts r := fun x hx => Bool.eq_false_iff.mpr (List.any_eq_false.mp hf x (h x hx))

end Begins

/-- A word of `L` with its value was read from `c`, or the run failed, or a callback raised an
exception. -/
def Verdict.Reads (L : List Char → α → Prop) (c : Cursor) : Verdict ε α → Prop
  | .success x d => ∃ w, c.Reads w d ∧ L w x
  | .failure _ => True
  | .thrown fault => ∃ exception, fault = .raised exception
  | .exhausted => False

namespace Behaviour

/-- At cursors with fewer than `n` characters behind them, `p` succeeds only with words of `L`,
reads every word of `L` that stands before what `F` admits, and fails without reading before what
is in `N`. -/
structure Recognises (n : Nat) (p : Behaviour ε α) (L : List Char → α → Prop)
    (F N : List Char → Prop) : Prop where
  sound : ∀ c, c.remaining.length < n → p.Meets c (Verdict.Reads L c)
  complete : ∀ {c d w x}, c.remaining.length < n → L w x → c.Reads w d → F d.remaining →
    p.Meets c (· = .success x d)
  absent : ∀ c, c.remaining.length < n → N c.remaining → p.Refuses c

namespace Recognises

variable {n : Nat} {p : Behaviour ε α} {L : List Char → α → Prop} {F N : List Char → Prop}

/-! ### Single steps -/

/-- The language may be described in another way, less may be admitted behind a word, and the
places where it fails may be fewer. -/
theorem imp {L' : List Char → α → Prop} {F' N' : List Char → Prop} (h : Recognises n p L F N)
    (hL : ∀ w x, L w x ↔ L' w x) (hF : ∀ r, F' r → F r) (hN : ∀ r, N' r → N r) :
    Recognises n p L' F' N' where
  sound c hc := by
    refine (h.sound c hc).mono fun v hv => ?_
    cases v with
    | success x d =>
        obtain ⟨w, hw, hx⟩ := hv
        exact ⟨w, hw, (hL w x).mp hx⟩
    | failure _ | thrown _ | exhausted => exact hv
  complete hc hw hr hd := h.complete hc ((hL _ _).mpr hw) hr (hF _ hd)
  absent c hc hr := h.absent c hc (hN _ hr)

theorem of_iff {L' : List Char → α → Prop} (h : Recognises n p L F N)
    (hL : ∀ w x, L w x ↔ L' w x) : Recognises n p L' F N :=
  h.imp hL (fun _ => id) fun _ => id

/-- Less may be admitted behind a word, and less be told to be absent. -/
theorem weaken {F' N' : List Char → Prop} (h : Recognises n p L F N) (hF : ∀ r, F' r → F r)
    (hN : ∀ r, N' r → N r) : Recognises n p L F' N' :=
  h.imp (fun _ _ => Iff.rfl) hF hN

/-- No cursor has fewer than no characters behind it. -/
theorem zero (p : Behaviour ε α) (L : List Char → α → Prop) (F N : List Char → Prop) :
    Recognises 0 p L F N where
  sound _ h := absurd h (Nat.not_lt_zero _)
  complete h := absurd h (Nat.not_lt_zero _)
  absent _ h := absurd h (Nat.not_lt_zero _)

theorem pure (x : α) : Recognises n (Behaviour.pure x : Behaviour ε α)
    (fun w y => w = [] ∧ y = x) (fun _ => True) fun _ => False where
  sound c _ := .pure ⟨[], .refl c, rfl, rfl⟩
  complete := by
    rintro c d w y - ⟨rfl, rfl⟩ hr -
    cases Cursor.Reads.nil_iff.mp hr
    exact .pure rfl
  absent _ _ := False.elim

/-- A test of one character recognises the words of one character that pass it. -/
theorem satisfy (accepts : Char → Bool) :
    Recognises n (Behaviour.satisfy accepts : Behaviour ε Char)
      (fun w x => w = [x] ∧ accepts x = true) (fun _ => True) (Avoids accepts) where
  sound c _ := .satisfy (fun x d hd hx => ⟨[x], hd, rfl, hx⟩) fun _ => trivial
  complete := by
    rintro c d _ x - ⟨rfl, hx⟩ hr -
    refine .satisfy (fun y e he _ => ?_) fun h => ?_
    · have hxy := hr.2.symm.trans he.2
      cases List.head_eq_of_cons_eq hxy
      rw [hr.unique he]
    · rw [h x d hr] at hx
      cases hx
  absent c _ h := by
    refine .satisfy (fun x d hd hx => ?_) fun _ => rfl
    rw [h x (by rw [hd.2]; rfl)] at hx
    cases hx

theorem string (s : String) : Recognises n (Behaviour.string s : Behaviour ε String)
    (fun w x => w = s.toList ∧ x = s) (fun _ => True) fun r => ¬ s.toList <+: r where
  sound c _ := .string (fun d hd => ⟨s.toList, hd, rfl, rfl⟩) fun _ => trivial
  complete := by
    rintro c d _ _ - ⟨rfl, rfl⟩ hr -
    refine .string (fun e he => ?_) fun h => absurd hr (h d)
    rw [hr.unique he]
  absent c _ h := .string (fun d hd => absurd ⟨d.remaining, hd.2.symm⟩ h) fun _ => rfl

theorem label {name : String} (h : Recognises n p L F N) :
    Recognises n (Behaviour.label p name) L F N where
  sound c hc := .label (h.sound c hc)
  complete hc hw hr hd := .label (h.complete hc hw hr hd)
  absent c hc hr := .label (h.absent c hc hr)

theorem suggest {x : Suggestion} (h : Recognises n p L F N) :
    Recognises n (Behaviour.suggest p x) L F N where
  sound c hc := .suggest (h.sound c hc)
  complete hc hw hr hd := .suggest (h.complete hc hw hr hd)
  absent c hc hr := .suggest (h.absent c hc hr)

theorem fresh {p : Frame → Behaviour ε α} (h : ∀ frame, Recognises n (p frame) L F N) :
    Recognises n (Behaviour.fresh p) L F N where
  sound c hc := .fresh fun frame => (h frame).sound c hc
  complete hc hw hr hd := .fresh fun frame => (h frame).complete hc hw hr hd
  absent c hc hr := .fresh fun frame => (h frame).absent c hc hr

/-- A word whose value the function raises on is not one of the language. -/
theorem mapM (f : α → Except ε β) (h : Recognises n p L F N) :
    Recognises n (Behaviour.map f p) (fun w y => ∃ x, L w x ∧ f x = .ok y) F N where
  sound c hc := by
    refine .map ((h.sound c hc).mono fun v hv => ?_)
    cases v with
    | success x d =>
        obtain ⟨w, hw, hx⟩ := hv
        show Verdict.Reads _ c (.ofAnswer d (f x))
        cases hf : f x with
        | ok y => exact ⟨w, hw, x, hx, hf⟩
        | error e => exact ⟨e, rfl⟩
    | failure _ | thrown _ | exhausted => exact hv
  complete := by
    rintro c d w y hc ⟨x, hx, hf⟩ hr hd
    exact .map ((h.complete hc hx hr hd).of_eq (congrArg (Verdict.ofAnswer d) hf))
  absent c hc hr := .map ((h.absent c hc hr).of_eq rfl)

/-- A function without exceptions changes the values of the words. -/
theorem map (f : α → β) (h : Recognises n p L F N) :
    Recognises n (Behaviour.map (fun x => .ok (f x)) p) (fun w y => ∃ x, L w x ∧ f x = y) F N :=
  (h.mapM fun x => .ok (f x)).of_iff fun _ _ => by simp only [Except.ok.injEq]

/-! ### Sequences and choices -/

/-- One part behind another.  Behind the words of the first part fewer characters remain. -/
theorem bind {m : Nat} {f : α → Behaviour ε β} {L₂ : α → List Char → β → Prop}
    {F₂ : List Char → Prop} {N₂ : α → List Char → Prop} (hp : Recognises n p L F N)
    (hf : ∀ x, Recognises m (f x) (L₂ x) F₂ (N₂ x))
    (hm : ∀ w x, L w x → n ≤ m + w.length)
    (hF : ∀ x v y r, L₂ x v y → F₂ r → F (v ++ r)) :
    Recognises n (Behaviour.bind p f) (fun w y => ∃ u v x, L u x ∧ L₂ x v y ∧ w = u ++ v) F₂ N where
  sound c hc := by
    refine .bind ((hp.sound c hc).mono fun r hr => ?_)
    cases r with
    | success x d =>
        obtain ⟨u, hu, hx⟩ := hr
        have hd : d.remaining.length < m := hu.remaining_lt hc (hm u x hx)
        refine ((hf x).sound d hd).mono fun r' hr' => ?_
        cases r' with
        | success y e =>
            obtain ⟨v, hv, hy⟩ := hr'
            exact ⟨u ++ v, hu.trans hv, u, v, x, hx, hy, rfl⟩
        | failure _ | thrown _ | exhausted => exact hr'
    | failure _ | thrown _ | exhausted => exact hr
  complete := by
    rintro c e _ y hc ⟨u, v, x, hx, hy, rfl⟩ hr he
    obtain ⟨d, hu, hv⟩ := hr.split
    have hd : d.remaining.length < m := hu.remaining_lt hc (hm u x hx)
    have hu' := hp.complete hc hx hu (hv.2 ▸ hF x v y _ hy he)
    exact .bind (hu'.of_eq ((hf x).complete hd hy hv he))
  absent c hc hr := .bind ((hp.absent c hc hr).of_eq rfl)

section

variable {q : Behaviour ε β} {L₂ : List Char → β → Prop} {F₂ N₂ : List Char → Prop}
  (hp : Recognises n p L F N) (hq : Recognises n q L₂ F₂ N₂)
  (hF : ∀ v y r, L₂ v y → F₂ r → F (v ++ r)) (f : α → β → γ)

include hp hq hF

/-- Two parts whose values are combined. -/
theorem both : Recognises n (Behaviour.bind p fun x => .map (fun y => .ok (f x y)) q)
    (fun w z => ∃ u v x y, L u x ∧ L₂ v y ∧ w = u ++ v ∧ f x y = z) F₂ N := by
  refine (hp.bind (fun x => hq.map (f x)) (fun _ _ _ => Nat.le_add_right _ _) ?_).of_iff
    fun w z => ?_
  · rintro x v _ r ⟨y, hy, -⟩ hr
    exact hF v y r hy hr
  · constructor
    · rintro ⟨u, v, x, hx, ⟨y, hy, hz⟩, rfl⟩
      exact ⟨u, v, x, y, hx, hy, rfl, hz⟩
    · rintro ⟨u, v, x, y, hx, hy, rfl, hz⟩
      exact ⟨u, v, x, hx, ⟨y, hy, hz⟩, rfl⟩

/-- Two parts, the first of which may be empty: they fail without reading where the second does
and the first is not to be found. -/
theorem both_of_nil {x : α} (hx : L [] x) :
    Recognises n (Behaviour.bind p fun x => .map (fun y => .ok (f x y)) q)
      (fun w z => ∃ u v x y, L u x ∧ L₂ v y ∧ w = u ++ v ∧ f x y = z) F₂ fun r => F r ∧ N₂ r where
  sound := (hp.both hq hF f).sound
  complete := (hp.both hq hF f).complete
  absent c hc hr :=
    .bind ((hp.complete hc hx (.refl c) hr.1).of_eq ((hq.map (f x)).absent c hc hr.2))

end

/-- Two alternatives.  Where the second has a word the first has to fail without reading. -/
theorem alt {q : Behaviour ε α} {L₂ : List Char → α → Prop} {N₂ : List Char → Prop}
    (hp : Recognises n p L F N) (hq : Recognises n q L₂ F N₂)
    (hN : ∀ w x r, L₂ w x → F r → N (w ++ r)) :
    Recognises n (Behaviour.alt p q) (fun w x => L w x ∨ L₂ w x) F fun r => N r ∧ N₂ r where
  sound c hc := by
    refine .alt ((hp.sound c hc).mono fun r hr => ?_)
    cases r with
    | success x d =>
        obtain ⟨w, hw, hx⟩ := hr
        exact ⟨w, hw, .inl hx⟩
    | failure offset =>
        -- A failure that has read something is one of the choice, and soundness allows it.
        show if offset = c.offset then _ else _
        split
        · refine (hq.sound c hc).mono fun r' hr' => ?_
          cases r' with
          | success x d =>
              obtain ⟨w, hw, hx⟩ := hr'
              exact ⟨w, hw, .inr hx⟩
          | failure _ | thrown _ | exhausted => exact hr'
        · trivial
    | thrown _ | exhausted => exact hr
  complete := by
    rintro c d w x hc (hx | hx) hr hd
    · exact .alt ((hp.complete hc hx hr hd).of_eq rfl)
    · have hc' := hp.absent c hc (hr.2 ▸ hN w x _ hx hd)
      exact .alt (hc'.of_eq ((if_pos rfl).mpr (hq.complete hc hx hr hd)))
  absent c hc hr := .alt ((hp.absent c hc hr.1).of_eq ((if_pos rfl).mpr (hq.absent c hc hr.2)))

/-! ### Repetitions -/

section

variable (next : σ → α → σ) {G : List Char → Prop}

/-- A repetition gathers the words that stand one behind the other. -/
theorem gather_complete (hp : Recognises n p L F N) (hL : ∀ w x, L w x → w ≠ [])
    (hF : ∀ w xs r, Star L w xs → G r → F (w ++ r)) (hN : ∀ r, G r → N r) {w : List Char}
    {xs : List α} (hw : Star L w xs) :
    ∀ {rounds : Nat} {state : σ} {c d : Cursor}, c.remaining.length < n →
      c.remaining.length < rounds → c.Reads w d → G d.remaining →
      Meets (Behaviour.loop (fun state =>
        .alt (.map (fun x => .ok (.loop (next state x))) (.advancing p)) (.pure (.done state)))
        rounds state) c (· = .success (xs.foldl next state) d) := by
  -- On the items of the word: each takes one round and leaves the loop a shorter text, so the
  -- rounds that were enough for the whole of it are enough for the rest.
  induction hw with
  | nil =>
      intro rounds state c d hc hr hd hG
      cases Cursor.Reads.nil_iff.mp hd
      cases rounds with
      | zero => exact absurd hr (Nat.not_lt_zero _)
      | succ k =>
          refine .round (.item ((hp.absent c hc (hN _ hG)).of_eq ?_))
          exact (if_pos rfl).mpr rfl
  | @cons u v x xs hx ht ih =>
      intro rounds state c d hc hr hd hG
      obtain ⟨e, hu, hv⟩ := hd.split
      have he := hu.length_eq
      have hpos := List.length_pos_iff.mpr (hL u x hx)
      cases rounds with
      | zero => exact absurd hr (Nat.not_lt_zero _)
      | succ k =>
          have hx' := hp.complete hc hx hu (hv.2 ▸ hF v xs _ ht hG)
          refine .round (.item (hx'.of_eq ?_))
          refine (if_neg fun ho => hL u x hx (hu.eq_nil_iff.mpr ho)).mpr ?_
          exact ih (by omega) (by omega) hv hG

/-- A repetition.  It gathers words for as long as there are any, so that what stands behind it
must not begin with one. -/
theorem gather (hp : Recognises n p L F N) (hL : ∀ w x, L w x → w ≠ [])
    (hF : ∀ w xs r, Star L w xs → G r → F (w ++ r)) (hN : ∀ r, G r → N r) {rounds : Nat}
    (hr : n ≤ rounds) (initial : σ) :
    Recognises n (Behaviour.loop (fun state =>
        .alt (.map (fun x => .ok (.loop (next state x))) (.advancing p)) (.pure (.done state)))
        rounds initial)
      (fun w y => ∃ xs, Star L w xs ∧ xs.foldl next initial = y) G fun _ => False where
  sound c hc := by
    -- What the loop holds is the fold of the items read so far, and `k` rounds are left for
    -- fewer than `k` characters, which is why it never runs out of them.
    refine Meets.loop (fun k state d => d.remaining.length < k ∧ ∃ w xs, c.Reads w d ∧
        Star L w xs ∧ xs.foldl next initial = state)
      (fun _ _ h => absurd h.1 (Nat.not_lt_zero _)) ?_ rounds initial c
      ⟨Nat.lt_of_lt_of_le hc hr, [], [], .refl c, .nil, rfl⟩
    rintro k state d ⟨hk, w, xs, hw, hxs, rfl⟩
    have hd := hw.length_eq
    refine .item ((hp.sound d (by omega)).mono fun v hv => ?_)
    cases v with
    | success x e =>
        obtain ⟨u, hu, hx⟩ := hv
        have he := hu.length_eq
        have hpos := List.length_pos_iff.mpr (hL u x hx)
        refine (if_neg fun ho => hL u x hx (hu.eq_nil_iff.mpr ho)).mpr ?_
        have hfold : (xs ++ [x]).foldl next initial = next (xs.foldl next initial) x := by
          rw [List.foldl_append]
          rfl
        exact ⟨by omega, w ++ u, xs ++ [x], hw.trans hu, hxs.concat hx, hfold⟩
    | failure offset =>
        show if offset = d.offset then _ else _
        split
        · exact ⟨w, hw, xs, hxs, rfl⟩
        · trivial
    | thrown _ | exhausted => exact hv
  complete := by
    rintro c d w _ hc ⟨xs, hw, rfl⟩ hd hG
    exact hp.gather_complete next hL hF hN hw hc (Nat.lt_of_lt_of_le hc hr) hd hG
  absent _ _ := False.elim

end

end Recognises

end Behaviour

/-! ### Combinators -/

namespace Parser

open Behaviour (Recognises)

variable {ρ : Type → Type} {enter : {α : Type} → Cell → ρ α → Behaviour ε α} {rounds n m : Nat}
  {p : Parser ε ρ α} {q : Parser ε ρ β} {L : List Char → α → Prop} {L₂ : List Char → β → Prop}
  {F F₂ N N₂ : List Char → Prop}

/-- A parser whose result is transformed recognises the same words. -/
theorem map_recognises (f : α → β) (hp : Recognises n (p.behaviour enter rounds) L F N) :
    Recognises n ((p.map f).behaviour enter rounds) (fun w y => ∃ x, L w x ∧ f x = y) F N :=
  hp.map f

/-- A character recognises itself, and refuses everything that does not begin with it. -/
theorem char_recognises (c : Char) :
    Recognises n ((char c : Parser ε ρ Char).behaviour enter rounds)
      (fun w x => w = [c] ∧ x = c) (fun _ => True) (Avoids (· == c)) := by
  refine (Recognises.satisfy _).label.suggest.imp (fun w x => ?_) (fun _ => id) fun r h x hx => ?_
  · simp only [String.toList_singleton, beq_iff_eq, List.cons.injEq, and_true]
    constructor
    · rintro ⟨rfl, rfl⟩
      exact ⟨rfl, rfl⟩
    · rintro ⟨rfl, rfl⟩
      exact ⟨rfl, rfl⟩
  · have hxc : x ≠ c := by simpa using h x hx
    simpa using Ne.symm hxc

/-- Two alternatives that the next character tells apart. -/
theorem alt_recognises {p q : Parser ε ρ α} {L L₂ : List Char → α → Prop} {f g : Char → Bool}
    (hp : Recognises n (p.behaviour enter rounds) L F (Avoids f))
    (hq : Recognises n (q.behaviour enter rounds) L₂ F (Avoids g))
    (hN : ∀ w x r, L₂ w x → Avoids f (w ++ r)) :
    Recognises n ((p.alt q).behaviour enter rounds) (fun w x => L w x ∨ L₂ w x) F
      (Avoids fun x => f x || g x) :=
  (hp.alt hq fun w x r hw _ => hN w x r hw).weaken (fun _ => id) fun _ hr =>
    ⟨hr.mono fun _ hx => (Bool.or_eq_false_iff.mp hx).1,
      hr.mono fun _ hx => (Bool.or_eq_false_iff.mp hx).2⟩

/-- One part behind another, where fewer characters remain. -/
theorem keepRight_recognises_behind (hp : Recognises n (p.behaviour enter rounds) L F N)
    (hq : Recognises m (q.behaviour enter rounds) L₂ F₂ N₂) (hm : ∀ w x, L w x → n ≤ m + w.length)
    (hF : ∀ v y r, L₂ v y → F₂ r → F (v ++ r)) :
    Recognises n ((p.keepRight q).behaviour enter rounds)
      (fun w y => ∃ u v x, L u x ∧ L₂ v y ∧ w = u ++ v) F₂ N :=
  hp.bind (fun _ => hq) hm fun _ => hF

section Sequences

variable (hp : Recognises n (p.behaviour enter rounds) L F N)
  (hq : Recognises n (q.behaviour enter rounds) L₂ F₂ N₂)
  (hF : ∀ v y r, L₂ v y → F₂ r → F (v ++ r))

include hp hq hF

/-- Two words one behind the other, with the value of the second. -/
theorem keepRight_recognises : Recognises n ((p.keepRight q).behaviour enter rounds)
    (fun w y => ∃ u v x, L u x ∧ L₂ v y ∧ w = u ++ v) F₂ N :=
  keepRight_recognises_behind hp hq (fun _ _ _ => Nat.le_add_right _ _) hF

/-- Two words one behind the other, with the value of the first. -/
theorem keepLeft_recognises : Recognises n ((p.keepLeft q).behaviour enter rounds)
    (fun w x => ∃ u v y, L u x ∧ L₂ v y ∧ w = u ++ v) F₂ N := by
  refine (hp.both hq hF fun x _ => x).of_iff fun w x => ?_
  constructor
  · rintro ⟨u, v, x, y, hx, hy, rfl, rfl⟩
    exact ⟨u, v, y, hx, hy, rfl⟩
  · rintro ⟨u, v, y, hx, hy, rfl⟩
    exact ⟨u, v, x, y, hx, hy, rfl, rfl⟩

/-- Two words one behind the other, with a value made of both. -/
theorem combine_recognises (f : α → β → γ) :
    Recognises n ((combine f p q).behaviour enter rounds)
      (fun w z => ∃ u v x y, L u x ∧ L₂ v y ∧ w = u ++ v ∧ f x y = z) F₂ N := by
  rw [combine_behaviour]
  exact hp.both hq hF f

/-- Where the first word may be empty, the sequence is absent only where both parts are. -/
theorem combine_recognises_of_nil (f : α → β → γ) {x : α} (hx : L [] x) :
    Recognises n ((combine f p q).behaviour enter rounds)
      (fun w z => ∃ u v x y, L u x ∧ L₂ v y ∧ w = u ++ v ∧ f x y = z) F₂ fun r => F r ∧ N₂ r := by
  rw [combine_behaviour]
  exact hp.both_of_nil hq hF f hx

end Sequences

/-- Something that may be left out has to fail where something else follows. -/
theorem option_recognises (default : α) (hp : Recognises n (p.behaviour enter rounds) L F N)
    (hF : ∀ r, F₂ r → F r) (hN : ∀ r, F₂ r → N r) :
    Recognises n ((option default p).behaviour enter rounds)
      (fun w x => L w x ∨ w = [] ∧ x = default) F₂ fun _ => False := by
  refine ((hp.weaken hF fun _ => id).alt
    ((Recognises.pure default).weaken (fun _ _ => trivial) fun _ => id) ?_).weaken
    (fun _ => id) fun _ => False.elim
  rintro w x r ⟨rfl, rfl⟩ hr
  exact hN r hr

section Repetitions

variable (hp : Recognises n (p.behaviour enter rounds) L F N) (hL : ∀ w x, L w x → w ≠ [])
  (hF : ∀ w xs r, Star L w xs → F₂ r → F (w ++ r)) (hN : ∀ r, F₂ r → N r) (hr : n ≤ rounds)

include hp hL hF hN hr

/-- Words without values, as many as there are; nothing is ever refused. -/
theorem skipMany_recognises : Recognises n ((skipMany p).behaviour enter rounds)
    (fun w _ => ∃ xs, Star L w xs) F₂ fun _ => False := by
  refine (hp.gather (fun (_ : Unit) _ => ()) hL hF hN hr ()).of_iff fun w _ => ?_
  exact ⟨fun ⟨xs, h, _⟩ => ⟨xs, h⟩, fun ⟨xs, h⟩ => ⟨xs, h, rfl⟩⟩

theorem manyReversed_recognises : Recognises n ((manyReversed p).behaviour enter rounds)
    (fun w xs => Star L w xs.reverse) F₂ fun _ => False := by
  refine (hp.gather (fun xs x => x :: xs) hL hF hN hr []).of_iff fun w xs => ?_
  constructor
  · rintro ⟨ys, h, rfl⟩
    simpa using h
  · intro h
    exact ⟨xs.reverse, h, by simp⟩

/-- As many words as there are, where a word does not read into what follows and no further one can
be read. -/
theorem many_recognises : Recognises n ((many p).behaviour enter rounds) (Star L) F₂
    fun _ => False := by
  refine ((manyReversed_recognises hp hL hF hN hr).map List.reverse).of_iff fun w xs => ?_
  constructor
  · rintro ⟨ys, h, rfl⟩
    exact h
  · intro h
    exact ⟨xs.reverse, by rwa [List.reverse_reverse], List.reverse_reverse xs⟩

end Repetitions

/-- One word at least, so that what refuses a word refuses them all. -/
theorem many1_recognises (hp : Recognises n (p.behaviour enter rounds) L F N)
    (hL : ∀ w x, L w x → w ≠ []) (hF : ∀ w xs r, Star L w xs → F₂ r → F (w ++ r))
    (hN : ∀ r, F₂ r → N r) (hr : n ≤ rounds) :
    Recognises n ((many1 p).behaviour enter rounds)
      (fun w ys => ∃ u v x xs, L u x ∧ Star L v xs ∧ w = u ++ v ∧ x :: xs = ys) F₂ N :=
  hp.both (many_recognises hp hL hF hN hr) hF List.cons

end Parser

end Parsing
