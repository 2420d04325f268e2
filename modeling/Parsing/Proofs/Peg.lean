import Parsing.Parser.Repetition
import Parsing.Proofs.Fuel

/-!
# Parsing expression grammars

A parsing expression either matches a text from an offset to another or fails there; alternatives
are tried in order, with full backtracking (`Peg.Derives`).  Parsers backtrack only where nothing
was read, but `attempt` makes every failure one that read nothing.  `Peg.translate` puts it in
front of the first of two alternatives and of what is repeated, and nowhere else.

The embedding is faithful (`Peg.derives_iff_run`): the parser of an expression succeeds at an
offset exactly if the expression matches up to there, and fails exactly if the expression fails.
In one direction every reply is justified by a derivation (`Peg.translate_justified`), in the
other every derivation gives a fuel that settles the run (`Peg.Derives.settles`).
-/

namespace Parsing

open Behaviour (Meets)

/-- Parsing expressions over the nonterminals `ν`. -/
inductive Peg (ν : Type) where
  | empty
  | literal (text : String)
  | predicate (accepts : Char → Bool)
  | seq (e₁ e₂ : Peg ν)
  | choice (e₁ e₂ : Peg ν)
  | star (e : Peg ν)
  | and (e : Peg ν)
  | not (e : Peg ν)
  | nonterminal (n : ν)

namespace Peg

variable {ν : Type} {G : ν → Peg ν} {text : Array Char} {e e₁ e₂ : Peg ν} {i j : Nat}
  {r : Option Nat}

/-- What `e` comes to at the offset `i` of a text: it matches up to `j` (`some j`) or fails
(`none`).  A repetition stops before a round that fails or that matches without advancing. -/
inductive Derives (G : ν → Peg ν) (text : Array Char) : Peg ν → Nat → Option Nat → Prop where
  | empty {i : Nat} : Derives G text .empty i (some i)
  | literal {s : String} {i : Nat} (h : s.toList <+: text.toList.drop i) :
      Derives G text (.literal s) i (some (i + s.length))
  | literalFails {s : String} {i : Nat} (h : ¬ s.toList <+: text.toList.drop i) :
      Derives G text (.literal s) i none
  | predicate {f : Char → Bool} {i : Nat} {x : Char} (hx : text[i]? = some x)
      (hf : f x = true) : Derives G text (.predicate f) i (some (i + 1))
  | predicateFails {f : Char → Bool} {i : Nat} (h : ∀ x, text[i]? = some x → f x = false) :
      Derives G text (.predicate f) i none
  | seq {e₁ e₂ : Peg ν} {i j : Nat} {r : Option Nat} (h₁ : Derives G text e₁ i (some j))
      (h₂ : Derives G text e₂ j r) : Derives G text (.seq e₁ e₂) i r
  | seqFails {e₁ e₂ : Peg ν} {i : Nat} (h₁ : Derives G text e₁ i none) :
      Derives G text (.seq e₁ e₂) i none
  | choiceFirst {e₁ e₂ : Peg ν} {i j : Nat} (h₁ : Derives G text e₁ i (some j)) :
      Derives G text (.choice e₁ e₂) i (some j)
  | choiceSecond {e₁ e₂ : Peg ν} {i : Nat} {r : Option Nat} (h₁ : Derives G text e₁ i none)
      (h₂ : Derives G text e₂ i r) : Derives G text (.choice e₁ e₂) i r
  | starFails {e : Peg ν} {i : Nat} (h : Derives G text e i none) :
      Derives G text (.star e) i (some i)
  | starIdle {e : Peg ν} {i : Nat} (h : Derives G text e i (some i)) :
      Derives G text (.star e) i (some i)
  | starStep {e : Peg ν} {i j k : Nat} (h : Derives G text e i (some j)) (hij : j ≠ i)
      (t : Derives G text (.star e) j (some k)) : Derives G text (.star e) i (some k)
  | and {e : Peg ν} {i j : Nat} (h : Derives G text e i (some j)) :
      Derives G text (.and e) i (some i)
  | andFails {e : Peg ν} {i : Nat} (h : Derives G text e i none) :
      Derives G text (.and e) i none
  | not {e : Peg ν} {i : Nat} (h : Derives G text e i none) :
      Derives G text (.not e) i (some i)
  | notFails {e : Peg ν} {i j : Nat} (h : Derives G text e i (some j)) :
      Derives G text (.not e) i none
  | nonterminal {n : ν} {i : Nat} {r : Option Nat} (h : Derives G text (G n) i r) :
      Derives G text (.nonterminal n) i r

/-! ### The translation -/

/-- The rules of the parsers of a grammar: the body of each nonterminal.  What a parser reads is
its value where it has one. -/
inductive Rule (ν : Type) : Type → Type where
  | body (n : ν) : Rule ν (Option String)

/-- How many deferred parsers stand in the parser of an expression. -/
def sites : Peg ν → Nat
  | .empty | .literal _ | .predicate _ => 0
  | .seq e₁ e₂ | .choice e₁ e₂ => e₁.sites + e₂.sites
  | .star e | .and e | .not e => e.sites
  | .nonterminal _ => 1

/-- A value as messages show it. -/
def shown : Option String → String
  | none => "None"
  | some s => Text.quoted s

/-- The parser of an expression, with its deferred parsers kept in the cells of a frame from
`site` on. -/
def translate (frame : Frame) :
    (site : Nat) → Peg ν → Parser Empty (Rule ν) (Option String)
  | _, .empty => .pure none
  | _, .literal s => (Parser.string s).map some
  | _, .predicate accepts => (Parser.satisfy accepts).map fun x => some (String.singleton x)
  | site, .seq e₁ e₂ =>
    (translate frame site e₁).keepRight (translate frame (site + e₁.sites) e₂)
  | site, .choice e₁ e₂ =>
    (translate frame site e₁).attempt.alt (translate frame (site + e₁.sites) e₂)
  | site, .star e => (Parser.skipMany (translate frame site e).attempt).map fun _ => none
  | site, .and e => (translate frame site e).lookAhead
  | site, .not e => (Parser.notFollowedBy shown (translate frame site e)).map fun _ => none
  | site, .nonterminal n => .deferred ⟨frame, site⟩ (.body n)

/-- The grammar that defers each nonterminal to the parser of its body. -/
def grammar (G : ν → Peg ν) : Grammar Empty (Rule ν) where
  build
    | .body n, frame => .ok (translate frame 0 (G n))

/-! ### Replies are justified -/

/-- The verdict of the parser of `e` at `c` is one that a derivation gives, unless the run was
exhausted. -/
def Justified (G : ν → Peg ν) (e : Peg ν) (c : Cursor) :
    Verdict Empty (Option String) → Prop
  | .success _ d => d.text = c.text ∧ Derives G c.text e c.offset (some d.offset)
  | .failure _ => Derives G c.text e c.offset none
  | .thrown _ => False
  | .exhausted => True

/-- What every result of `e` at `d` is for `e'` at `c`, a justified verdict is as well. -/
theorem Justified.imp {e e' : Peg ν} {c d : Cursor} {v : Verdict Empty (Option String)}
    (h : Justified G e d v) (ht : d.text = c.text)
    (hr : ∀ r, Derives G c.text e d.offset r → Derives G c.text e' c.offset r) :
    Justified G e' c v := by
  cases v with
  | success x d' => exact ⟨h.1.trans ht, hr _ (ht ▸ h.2)⟩
  | failure offset => exact hr none (ht ▸ h)
  | thrown fault => exact h
  | exhausted => trivial

/-- The invariant of a repetition: what it still matches from where it has got to, it matches from
where it began. -/
theorem star_justified {p : Behaviour Empty (Option String)}
    (hp : ∀ c, p.Meets c (Justified G e c)) (n : Nat) (c : Cursor) :
    Meets (Behaviour.loop (fun _ => .alt (.map (fun _ => .ok (.loop ())) (.advancing (.attempt p)))
      (.pure (.done ()))) n ()) c
      (Verdict.Continues (fun (_ : Unit) d => Justified G (.star e) c (.success none d))
        (Justified G (.star e) c)) := by
  refine Meets.loop (fun _ _ d => d.text = c.text ∧ ∀ k,
    Derives G c.text (.star e) d.offset (some k) → Derives G c.text (.star e) c.offset (some k))
    (fun _ _ _ => trivial) ?_ n () c ⟨rfl, fun _ h => h⟩
  rintro _ _ d ⟨ht, hd⟩
  -- What is repeated stands behind `attempt`, so a round that fails has read nothing and ends
  -- the repetition; it never commits it.
  refine .item (.attempt ((hp d).mono fun v hv => ?_))
  cases v with
  | success x d' =>
      obtain ⟨ht', hv⟩ := hv
      rw [ht] at ht' hv
      show if d'.offset = d.offset then _ else _
      split
      · next hi => exact ⟨ht, hd _ (.starIdle (hi ▸ hv))⟩
      · next hi => exact ⟨ht', fun k hk => hd k (.starStep hv hi hk)⟩
  | failure offset => exact (if_pos rfl).mpr ⟨ht, hd _ (.starFails (ht ▸ hv))⟩
  | thrown fault => exact hv
  | exhausted => trivial

/-- Every reply is justified if those of the nonterminals are. -/
theorem translate_justified_of {enter : {α : Type} → Cell → Rule ν α → Behaviour Empty α}
    (he : ∀ cell n c, (enter cell (.body n)).Meets c (Justified G (.nonterminal n) c))
    (rounds : Nat) (frame : Frame) :
    ∀ (site : Nat) (e : Peg ν) (c : Cursor),
      ((translate frame site e).behaviour enter rounds).Meets c (Justified G e c)
  | _, .empty, _ => .pure ⟨rfl, .empty⟩
  | _, .literal s, c => by
      refine .map (.string (fun d hd => ?_) fun h => ?_)
      · have hs : s.toList <+: c.remaining :=
          (c.startsWith_iff s).mp (Cursor.startsWith_iff_reads.mpr ⟨d, hd⟩)
        exact ⟨hd.1, by rw [hd.offset_eq, String.length_toList]; exact .literal hs⟩
      · refine .literalFails fun hs => ?_
        obtain ⟨d, hd⟩ := Cursor.startsWith_iff_reads.mp ((c.startsWith_iff s).mpr hs)
        exact h d hd
  | _, .predicate f, c => by
      refine .map (.satisfy (fun x d hd hf => ?_) fun h => ?_)
      · exact ⟨hd.1, by
          rw [hd.offset_eq]; exact .predicate (Cursor.peek_eq_some_iff.mpr ⟨d, hd⟩) hf⟩
      · refine .predicateFails fun x hx => ?_
        obtain ⟨d, hd⟩ := Cursor.peek_eq_some_iff.mp hx
        exact h x d hd
  | site, .seq e₁ e₂, c => by
      refine .bind ((translate_justified_of he rounds frame site e₁ c).mono fun v hv => ?_)
      cases v with
      | success x d =>
          exact (translate_justified_of he rounds frame _ e₂ d).mono fun _ hv' =>
            hv'.imp hv.1 fun _ h₂ => .seq hv.2 h₂
      | failure offset => exact .seqFails hv
      | thrown fault => exact hv
      | exhausted => trivial
  | site, .choice e₁ e₂, c => by
      refine .alt (.attempt ((translate_justified_of he rounds frame site e₁ c).mono
        fun v hv => ?_))
      cases v with
      | success x d => exact ⟨hv.1, .choiceFirst hv.2⟩
      | failure offset =>
          refine (if_pos rfl).mpr ?_
          exact (translate_justified_of he rounds frame _ e₂ c).mono fun _ hv' =>
            hv'.imp rfl fun _ h₂ => .choiceSecond hv h₂
      | thrown fault => exact hv
      | exhausted => trivial
  | site, .star e, c => by
      refine .map ((star_justified (translate_justified_of he rounds frame site e) rounds c).mono
        fun v hv => ?_)
      cases v with
      | success _ _ | failure _ | thrown _ | exhausted => exact hv
  | site, .and e, c => by
      refine .lookAhead ((translate_justified_of he rounds frame site e c).mono fun v hv => ?_)
      cases v with
      | success x d => exact ⟨rfl, .and hv.2⟩
      | failure offset => exact .andFails hv
      | thrown fault => exact hv
      | exhausted => trivial
  | site, .not e, c => by
      refine .map (.notFollowedBy ((translate_justified_of he rounds frame site e c).mono
        fun v hv => ?_))
      cases v with
      | success x d => exact .notFails hv.2
      | failure offset => exact ⟨rfl, .not hv⟩
      | thrown fault => exact hv
      | exhausted => trivial
  | site, .nonterminal n, c => he ⟨frame, site⟩ n c

theorem entered_justified : ∀ (fuel : Nat) (cell : Cell) (n : ν) (c : Cursor),
    ((grammar G).entered fuel cell (.body n)).Meets c (Justified G (.nonterminal n) c)
  | 0, _, _, _ => fun _ => trivial
  | fuel + 1, _, n, c => by
      refine Grammar.enter_meets (fun frame p hp => ?_) fun _ _ h => nomatch h
      cases hp
      rw [Grammar.run_eq]
      exact (translate_justified_of (entered_justified fuel) fuel frame 0 (G n) c).mono
        fun _ hv => hv.imp rfl fun _ h => .nonterminal h

/-- **Replies are justified.**  When the parser of an expression succeeds, the expression matches
up to the cursor it gets to; when it fails, so does the expression; and it raises nothing. -/
theorem translate_justified (fuel : Nat) (frame : Frame) (site : Nat) (e : Peg ν) (c : Cursor) :
    ((grammar G).run fuel (translate frame site e)).Meets c (Justified G e c) := by
  rw [Grammar.run_eq]
  exact translate_justified_of (entered_justified fuel) fuel frame site e c

/-! ### Derivations are followed -/

/-- The verdict shows the result. -/
def Shows (text : Array Char) : Option Nat → Verdict Empty (Option String) → Prop
  | some j, .success _ d => d.text = text ∧ d.offset = j
  | none, .failure _ => True
  | _, _ => False

namespace Shows

variable {v : Verdict Empty (Option String)}

theorem success (h : Shows text (some j) v) :
    ∃ x d, v = .success x d ∧ d.text = text ∧ d.offset = j := by
  cases v with
  | success x d => exact ⟨x, d, rfl, h⟩
  | failure _ | thrown _ | exhausted => exact h.elim

theorem failure (h : Shows text none v) : ∃ o, v = .failure o := by
  cases v with
  | failure o => exact ⟨o, rfl⟩
  | success _ _ | thrown _ | exhausted => exact h.elim

theorem not_exhausted : ¬ Shows text r .exhausted := by
  cases r <;> exact id

end Shows

/-- With fuel `n` the parser of `e` has the result `r` at `i`. -/
def Settles (G : ν → Peg ν) (text : Array Char) (e : Peg ν) (i : Nat) (r : Option Nat)
    (n : Nat) : Prop :=
  ∀ frame site c, c.text = text → c.offset = i →
    ((translate frame site e).behaviour ((grammar G).entered n) n).Meets c (Shows text r)

namespace Settles

variable {n m : Nat}

theorem mono (h : Settles G text e i r n) (hnm : n ≤ m) : Settles G text e i r m := by
  intro frame site c ht hi
  have hb := (translate frame site e).behaviour_below
    (fun cell rule => Grammar.entered_below (g := grammar G) hnm cell rule) hnm
  exact hb.meets (h frame site c ht hi) Shows.not_exhausted

/-- A fuel that serves for two parsers. -/
theorem both {e' : Peg ν} {i' : Nat} {r' : Option Nat} (h : ∃ n, Settles G text e i r n)
    (h' : ∃ n, Settles G text e' i' r' n) :
    ∃ n, Settles G text e i r n ∧ Settles G text e' i' r' n := by
  obtain ⟨n, hn⟩ := h
  obtain ⟨m, hm⟩ := h'
  exact ⟨max n m, hn.mono (Nat.le_max_left n m), hm.mono (Nat.le_max_right n m)⟩

/-- A repetition stops where a round fails. -/
theorem star_fails (h : Settles G text e i none n) :
    Settles G text (.star e) i (some i) (n + 1) := by
  intro frame site c ht hi
  refine .map (.round (.item (.attempt ((h.mono n.le_succ frame site c ht hi).mono
    fun v hv => ?_))))
  obtain ⟨o, rfl⟩ := hv.failure
  exact (if_pos rfl).mpr ⟨ht, hi⟩

/-- A repetition stops where a round does not advance. -/
theorem star_idle (h : Settles G text e i (some i) n) :
    Settles G text (.star e) i (some i) (n + 1) := by
  intro frame site c ht hi
  refine .map (.round (.item (.attempt ((h.mono n.le_succ frame site c ht hi).mono
    fun v hv => ?_))))
  obtain ⟨x, d, rfl, -, hd⟩ := hv.success
  exact (if_pos (hd.trans hi.symm)).mpr ⟨ht, hi⟩

/-- A repetition goes on behind a round that advances.  Its other rounds are those of a run with
less fuel. -/
theorem star_step {k : Nat} (h : Settles G text e i (some j) n) (hij : j ≠ i)
    (t : Settles G text (.star e) j (some k) n) :
    Settles G text (.star e) i (some k) (n + 1) := by
  intro frame site c ht hi
  refine .map (.round (.item (.attempt ((h.mono n.le_succ frame site c ht hi).mono
    fun v hv => ?_))))
  obtain ⟨x, d, rfl, htd, hd⟩ := hv.success
  refine (if_neg fun he => hij (by rw [← hd, he, hi])).mpr ?_
  -- The rounds that are left have one unit of fuel more for deferred parsers than those of `t`.
  have hb := (translate frame site e).behaviour_below
    (fun cell rule => Grammar.entered_below (g := grammar G) n.le_succ cell rule) n.le_succ
  refine .of_map (f := fun _ => .ok none)
    (Behaviour.Below.meets (Behaviour.below_iff.mpr ?_) (t frame site d htd hd)
      Shows.not_exhausted)
  have item := (Behaviour.below_iff.mp hb).attempt.advancing
  exact .map (.loop (fun _ => .alt (.map item) (.refl _)) n ⟨0, fun _ _ => Nat.le_refl n⟩ ())

end Settles

/-- **Derivations are followed.**  Whatever a derivation gives, a run with enough fuel comes to. -/
theorem Derives.settles (h : Derives G text e i r) : ∃ n, Settles G text e i r n := by
  -- On the derivation.  Only a round of a repetition and the entering of a nonterminal take
  -- fuel; where two derivations meet, the larger of their fuels serves for both.
  induction h with
  | empty => exact ⟨0, fun _ _ c ht hi => .pure ⟨ht, hi⟩⟩
  | literal hs =>
      refine ⟨0, fun _ _ c ht hi => .map (.string (fun d hd => ?_) fun hn => ?_)⟩
      · exact ⟨hd.1.trans ht, by rw [hd.offset_eq, hi, String.length_toList]⟩
      · subst ht hi
        obtain ⟨d, hd⟩ := Cursor.startsWith_iff_reads.mp ((c.startsWith_iff _).mpr hs)
        exact absurd hd (hn d)
  | literalFails hs =>
      refine ⟨0, fun _ _ c ht hi => .map (.string (fun d hd => ?_) fun _ => trivial)⟩
      subst ht hi
      exact absurd ((c.startsWith_iff _).mp (Cursor.startsWith_iff_reads.mpr ⟨d, hd⟩)) hs
  | predicate hx hf =>
      refine ⟨0, fun _ _ c ht hi => .map (.satisfy (fun x d hd _ => ?_) fun hn => ?_)⟩
      · exact ⟨hd.1.trans ht, by rw [hd.offset_eq, hi]; rfl⟩
      · subst ht hi
        obtain ⟨d, hd⟩ := Cursor.peek_eq_some_iff.mp hx
        rw [hn _ d hd] at hf
        cases hf
  | predicateFails hn =>
      refine ⟨0, fun _ _ c ht hi => .map (.satisfy (fun x d hd hf => ?_) fun _ => trivial)⟩
      subst ht hi
      rw [hn x (Cursor.peek_eq_some_iff.mpr ⟨d, hd⟩)] at hf
      cases hf
  | seq _ _ ih₁ ih₂ =>
      obtain ⟨n, h₁, h₂⟩ := Settles.both ih₁ ih₂
      refine ⟨n, fun frame site c ht hi => .bind ((h₁ frame site c ht hi).mono fun v hv => ?_)⟩
      obtain ⟨x, d, rfl, htd, hd⟩ := hv.success
      exact h₂ frame _ d htd hd
  | seqFails _ ih =>
      obtain ⟨n, h⟩ := ih
      refine ⟨n, fun frame site c ht hi => .bind ((h frame site c ht hi).mono fun v hv => ?_)⟩
      obtain ⟨o, rfl⟩ := hv.failure
      trivial
  | choiceFirst _ ih =>
      obtain ⟨n, h⟩ := ih
      refine ⟨n, fun frame site c ht hi =>
        .alt (.attempt ((h frame site c ht hi).mono fun v hv => ?_))⟩
      obtain ⟨x, d, rfl, hd⟩ := hv.success
      exact hd
  | choiceSecond _ _ ih₁ ih₂ =>
      obtain ⟨n, h₁, h₂⟩ := Settles.both ih₁ ih₂
      refine ⟨n, fun frame site c ht hi =>
        .alt (.attempt ((h₁ frame site c ht hi).mono fun v hv => ?_))⟩
      obtain ⟨o, rfl⟩ := hv.failure
      exact (if_pos rfl).mpr (h₂ frame _ c ht hi)
  | starFails _ ih =>
      obtain ⟨n, h⟩ := ih
      exact ⟨n + 1, h.star_fails⟩
  | starIdle _ ih =>
      obtain ⟨n, h⟩ := ih
      exact ⟨n + 1, h.star_idle⟩
  | starStep _ hij _ ih iht =>
      obtain ⟨n, h, t⟩ := Settles.both ih iht
      exact ⟨n + 1, h.star_step hij t⟩
  | and _ ih =>
      obtain ⟨n, h⟩ := ih
      refine ⟨n, fun frame site c ht hi =>
        .lookAhead ((h frame site c ht hi).mono fun v hv => ?_)⟩
      obtain ⟨x, d, rfl, -⟩ := hv.success
      exact ⟨ht, hi⟩
  | andFails _ ih =>
      obtain ⟨n, h⟩ := ih
      refine ⟨n, fun frame site c ht hi =>
        .lookAhead ((h frame site c ht hi).mono fun v hv => ?_)⟩
      obtain ⟨o, rfl⟩ := hv.failure
      trivial
  | not _ ih =>
      obtain ⟨n, h⟩ := ih
      refine ⟨n, fun frame site c ht hi =>
        .map (.notFollowedBy ((h frame site c ht hi).mono fun v hv => ?_))⟩
      obtain ⟨o, rfl⟩ := hv.failure
      exact ⟨ht, hi⟩
  | notFails _ ih =>
      obtain ⟨n, h⟩ := ih
      refine ⟨n, fun frame site c ht hi =>
        .map (.notFollowedBy ((h frame site c ht hi).mono fun v hv => ?_))⟩
      obtain ⟨x, d, rfl, -⟩ := hv.success
      trivial
  | nonterminal _ ih =>
      obtain ⟨n, h⟩ := ih
      refine ⟨n + 1, fun frame site c ht hi => ?_⟩
      refine Grammar.enter_meets (fun frame' p hp => ?_) fun _ _ hp => nomatch hp
      cases hp
      rw [Grammar.run_eq]
      exact h frame' 0 c ht hi

theorem Derives.run_shows {c : Cursor} (h : Derives G c.text e c.offset r) (frame : Frame)
    (site : Nat) (s : Session) :
    ∃ n, Shows c.text r ((grammar G).run n (translate frame site e) c s).1.verdict := by
  obtain ⟨n, hn⟩ := h.settles
  refine ⟨n, ?_⟩
  rw [Grammar.run_eq]
  exact hn frame site c rfl rfl s

/-- **The embedding is faithful.**  At every offset of every text an expression matches up to `j`
exactly if some run of its parser succeeds there with the rest of the text from `j` on, and it
fails exactly if some run of its parser fails. -/
theorem derives_iff_run (G : ν → Peg ν) (e : Peg ν) (frame : Frame) (site : Nat) (c : Cursor)
    (s : Session) :
    (∀ j, Derives G c.text e c.offset (some j) ↔
      ∃ fuel x d s', (grammar G).run fuel (translate frame site e) c s = (.success x d, s') ∧
        d.text = c.text ∧ d.offset = j) ∧
    (Derives G c.text e c.offset none ↔
      ∃ fuel o error s',
        (grammar G).run fuel (translate frame site e) c s = (.failure o error, s')) := by
  refine ⟨fun j => ⟨fun h => ?_, ?_⟩, fun h => ?_, ?_⟩
  · obtain ⟨n, hs⟩ := h.run_shows frame site s
    cases hr : (grammar G).run n (translate frame site e) c s with
    | mk o s' =>
        rw [hr] at hs
        cases o with
        | success x d => exact ⟨n, x, d, s', hr, hs⟩
        | failure _ _ | thrown _ | exhausted => exact hs.elim
  · rintro ⟨n, x, d, s', hr, -, rfl⟩
    have hj := translate_justified (G := G) n frame site e c s
    rw [hr] at hj
    exact hj.2
  · obtain ⟨n, hs⟩ := h.run_shows frame site s
    cases hr : (grammar G).run n (translate frame site e) c s with
    | mk o s' =>
        rw [hr] at hs
        cases o with
        | failure o error => exact ⟨n, o, error, s', hr⟩
        | success _ _ | thrown _ | exhausted => exact hs.elim
  · rintro ⟨n, o, error, s', hr⟩
    have hj := translate_justified (G := G) n frame site e c s
    rw [hr] at hj
    exact hj

end Peg

end Parsing
