import Parsing.Proofs.Bounds
import Parsing.Proofs.Framed

/-!
# What a run has seen of its text

**A run that stops early does not depend on what stands behind** (`run_foresight`).  If a run on a
text fails before the offset `h`, it fails in the same way on every text that looks alike up to
`h`.  Texts look alike if they have the same characters before `h`, and if the strings that the
parser reads as a whole are found before `h` in the second text only where they are in the first
(`LookAlike`): a string may start before `h` and end behind it, and whether it does is seen at once.

The parsers are those that go *forward* (`Parser.Forward`): none of their parts looks ahead further
than one character or goes back to a place before what it has read.  Then a run never comes back
from behind `h`.  The two runs are in lockstep until the first is `Late`, at `h` or behind it; what
the second does from there on is of no interest.
-/

namespace Parsing

variable {ε : Type} {ρ : Type → Type} {α β σ : Type}

/-! ### Parsers that go forward -/

/-- No part of the parser goes back before what it has read, or looks ahead at more than a character
or one of the strings. -/
def Parser.Forward (strings : List String) : {α : Type} → Parser ε ρ α → Prop
  | _, .pure _ | _, .fail _ | _, .raise _ | _, .satisfy _ | _, .position | _, .deferred _ _
  | _, .trace _ | _, .notFollowedBy _ (.label (.satisfy _) _) => True
  | _, .string text => text ∈ strings
  | _, .mapM _ p | _, .label p _ | _, .suggest p _ | _, .advancing p | _, .traced _ p
  | _, .visit _ p => p.Forward strings
  | _, .applyM p q => p.Forward strings ∧ q.Forward strings
  | _, .alt p q => p.Forward strings ∧ q.Forward strings
  | _, .bind p f => p.Forward strings ∧ ∀ x, (f x).Forward strings
  | _, .tailRec step _ => ∀ state, (step state).Forward strings
  | _, .fresh p => ∀ frame, (p frame).Forward strings
  | _, .attempt _ | _, .lookAhead _ | _, .notFollowedBy _ _ | _, .custom _ => False

/-- Every parser that is built for a rule goes forward. -/
def Grammar.Forward (g : Grammar ε ρ) (strings : List String) : Prop :=
  ∀ {α : Type} (rule : ρ α) (frame : Frame) (p : Parser ε ρ α),
    g.build rule frame = .ok p → p.Forward strings

/-! ### Texts that look alike -/

/-- Up to `h` the texts have the same characters, and the strings found in `t'` are found in `t`. -/
structure LookAlike (strings : List String) (h : Nat) (t t' : Array Char) : Prop where
  char (i : Nat) (hi : i < h) : t[i]? = t'[i]?
  string (s : String) (hs : s ∈ strings) (i : Nat) (hi : i < h)
    (there : s.toList <+: t'.toList.drop i) : s.toList <+: t.toList.drop i

/-- What ends before `h` is found in both. -/
theorem LookAlike.prefix_of_prefix {strings : List String} {h : Nat} {t t' : Array Char}
    (look : LookAlike strings h t t') {w : List Char} {i : Nat} (hw : i + w.length ≤ h)
    (there : w <+: t.toList.drop i) : w <+: t'.toList.drop i := by
  rw [List.prefix_iff_getElem?] at there ⊢
  intro j hj
  have hjt := there j hj
  simp only [List.getElem?_drop, Array.getElem?_toList] at hjt ⊢
  rw [← look.char (i + j) (by omega), hjt]

/-- The cursors are at the same offset, one in each text. -/
structure Cursor.Alongside (t t' : Array Char) (c c' : Cursor) : Prop where
  left : c.text = t
  right : c'.text = t'
  offset : c.offset = c'.offset

/-- Cursors that read the same stay alongside. -/
theorem Cursor.Alongside.reads {t t' : Array Char} {c c' d d' : Cursor} {w : List Char}
    (h : Alongside t t' c c') (hd : c.Reads w d) (hd' : c'.Reads w d') : Alongside t t' d d' where
  left := hd.1.trans h.left
  right := hd'.1.trans h.right
  offset := by rw [hd.offset_eq, hd'.offset_eq, h.offset]

/-! ### Runs that go on alike -/

/-- The run has got to `h` or further, or has been cut short. -/
def Outcome.Late (h : Nat) : Outcome ε α → Prop
  | .success _ d => h ≤ d.offset
  | .failure offset _ => h ≤ offset
  | .thrown _ | .exhausted => True

/-- The runs on `t` and `t'` end in the same way, or the first is late. -/
inductive Foretold (h : Nat) (t t' : Array Char) :
    Outcome ε α × Session → Outcome ε α × Session → Prop
  | success (x : α) {d d' : Cursor} {s s' : Session} (hd : d.Alongside t t' d')
      (hs : s.frames = s'.frames) : Foretold h t t' (.success x d, s) (.success x d', s')
  | failure (offset : Int) (e : ParseError) {s s' : Session} (hs : s.frames = s'.frames) :
      Foretold h t t' (.failure offset e, s) (.failure offset e, s')
  | late {o : Outcome ε α} {s : Session} {r' : Outcome ε α × Session} (ho : o.Late h) :
      Foretold h t t' (o, s) r'

/-- The behaviour stays within its text, and from the same offset in sessions with the same frames,
the runs on `t` and `t'` go on alike. -/
structure Behaviour.Foresees (h : Nat) (t t' : Array Char) (p : Behaviour ε α) : Prop where
  bounded : p.Bounded
  foretold {c c' : Cursor} {s s' : Session} (hc : c.Alongside t t' c') (hs : s.frames = s'.frames) :
    Foretold h t t' (p c s) (p c' s')

/-- From behind `h` a run does not come back. -/
theorem Behaviour.Bounded.late {p : Behaviour ε α} (hp : p.Bounded) {h : Nat} {c : Cursor}
    (hc : h ≤ c.offset) (s : Session) : (p c s).1.Late h := by
  have within := hp c s
  generalize p c s = r at within ⊢
  obtain ⟨o, s'⟩ := r
  cases o with
  | success x d => exact Nat.le_trans hc (Cursor.Reaches.offset_le within)
  | failure offset e =>
      obtain ⟨d, hd, rfl⟩ := within
      exact Int.ofNat_le.mpr (Nat.le_trans hc hd.offset_le)
  | thrown _ | exhausted => trivial

namespace Behaviour.Foresees

variable {h : Nat} {t t' : Array Char} {strings : List String} {p : Behaviour ε α}

/-! ### Reading -/

theorem pure (x : α) : (Behaviour.pure x : Behaviour ε α).Foresees h t t' where
  bounded c := .pure (.refl c)
  foretold hc hs := .success x hc hs

/-- A failure on the spot is the same on both texts. -/
theorem fail (e : ParseError) : (Behaviour.fail e : Behaviour ε α).Foresees h t t' where
  bounded c := .fail (.here c)
  foretold hc hs := by
    unfold Behaviour.fail
    rw [hc.offset]
    exact .failure _ e hs

theorem position : (Behaviour.position : Behaviour ε Nat).Foresees h t t' where
  bounded c := .position (.refl c)
  foretold hc hs := by
    unfold Behaviour.position
    rw [hc.offset]
    exact .success _ hc hs

/-- What is seen of the next character before `h` is the same in both texts. -/
theorem satisfy_near (look : LookAlike strings h t t') (accepts : Char → Bool) {c c' : Cursor}
    (hc : c.Alongside t t' c') (near : c.offset < h) :
    (∃ x d d', d.Alongside t t' d' ∧ ∀ s s',
      Behaviour.satisfy (ε := ε) accepts c s = (.success x d, s) ∧
      Behaviour.satisfy (ε := ε) accepts c' s' = (.success x d', s')) ∨
    ∃ e, ∀ s s', Behaviour.satisfy (ε := ε) accepts c s = (.failure c.offset e, s) ∧
      Behaviour.satisfy (ε := ε) accepts c' s' = (.failure c'.offset e, s') := by
  have same : c'.peek = c.peek := by
    unfold Cursor.peek
    rw [hc.left, hc.right, ← hc.offset, look.char c.offset near]
  unfold Behaviour.satisfy
  rw [same]
  cases hx : c.peek with
  | none => exact .inr ⟨⟨"unexpected end of input", []⟩, fun _ _ => ⟨rfl, rfl⟩⟩
  | some x =>
      obtain ⟨d, hd⟩ := Cursor.peek_eq_some_iff.mp hx
      obtain ⟨d', hd'⟩ := Cursor.peek_eq_some_iff.mp (same.trans hx)
      dsimp only
      by_cases ha : accepts x
      · simp only [if_pos ha]
        exact .inl ⟨x, d, d', hc.reads hd hd', fun s s' =>
          ⟨Behaviour.skip_of_reads hd x s, Behaviour.skip_of_reads hd' x s'⟩⟩
      · simp only [if_neg ha]
        exact .inr ⟨⟨"unexpected " ++ Text.quotedChar x, []⟩, fun _ _ => ⟨rfl, rfl⟩⟩

/-- Before `h` the character that is tested is the same; from there on what comes of it is late. -/
theorem satisfy (look : LookAlike strings h t t') (accepts : Char → Bool) :
    (Behaviour.satisfy accepts : Behaviour ε Char).Foresees h t t' := by
  have bounded : (Behaviour.satisfy accepts : Behaviour ε Char).Bounded := fun c =>
    .satisfy (fun x _ hd _ => ⟨[x], hd⟩) fun _ => .here c
  refine ⟨bounded, fun {c c' s s'} hc hs => ?_⟩
  by_cases near : c.offset < h
  · obtain ⟨x, d, d', hd, eq⟩ | ⟨e, eq⟩ := satisfy_near (ε := ε) look accepts hc near
    · rw [(eq s s').1, (eq s s').2]
      exact .success x hd hs
    · rw [(eq s s').1, (eq s s').2, hc.offset]
      exact .failure _ e hs
  · exact .late (bounded.late (Nat.le_of_not_lt near) s)

/-- To look whether a character follows is to look ahead no further than to read it. -/
theorem notFollowedBy_satisfy (look : LookAlike strings h t t') (shown : Char → String)
    (accepts : Char → Bool) (name : String) :
    (Behaviour.notFollowedBy shown (.label (.satisfy accepts) name) :
      Behaviour ε Unit).Foresees h t t' := by
  have bounded : (Behaviour.notFollowedBy shown (.label (.satisfy accepts) name) :
      Behaviour ε Unit).Bounded :=
    .notFollowedBy fun c => .label (.satisfy (fun x _ hd _ => ⟨[x], hd⟩) fun _ => .here c)
  refine ⟨bounded, fun {c c' s s'} hc hs => ?_⟩
  by_cases near : c.offset < h
  · obtain ⟨x, d, d', hd, eq⟩ | ⟨e, eq⟩ := satisfy_near (ε := ε) look accepts hc near
    · simp only [Behaviour.notFollowedBy, Behaviour.label, (eq s s').1, (eq s s').2, hc.offset]
      exact .failure _ _ hs
    · simp only [Behaviour.notFollowedBy, Behaviour.label, (eq s s').1, (eq s s').2, if_true]
      exact .success () hc hs
  · exact .late (bounded.late (Nat.le_of_not_lt near) s)

/-- Before `h` a string is there in both texts or in neither. -/
theorem string (look : LookAlike strings h t t') {text : String} (ht : text ∈ strings) :
    (Behaviour.string text : Behaviour ε String).Foresees h t t' := by
  have bounded : (Behaviour.string text : Behaviour ε String).Bounded := fun c =>
    .string (fun _ hd => ⟨text.toList, hd⟩) fun _ => .here c
  refine ⟨bounded, fun {c c' s s'} hc hs => ?_⟩
  by_cases near : c.offset < h
  · have there : c.remaining = t.toList.drop c.offset := by rw [Cursor.remaining, hc.left]
    have there' : c'.remaining = t'.toList.drop c.offset := by
      rw [Cursor.remaining, hc.right, ← hc.offset]
    have read {c d : Cursor} (hd : c.Reads text.toList d) (s : Session) :
        Behaviour.string (ε := ε) text c s = (.success text d, s) := by
      rw [Behaviour.string, if_pos (Cursor.startsWith_iff_reads.mpr ⟨d, hd⟩),
        ← String.length_toList]
      exact Behaviour.skip_of_reads hd text s
    by_cases starts : c.startsWith text
    · obtain ⟨d, hd⟩ := Cursor.startsWith_iff_reads.mp starts
      rw [read hd]
      -- Either the string ends before `h`, so that it is in the second text too, or it is late.
      by_cases short : d.offset < h
      · rw [hd.offset_eq] at short
        rw [Cursor.startsWith_iff, there] at starts
        have starts' := look.prefix_of_prefix (Nat.le_of_lt short) starts
        rw [← there', ← Cursor.startsWith_iff] at starts'
        obtain ⟨d', hd'⟩ := Cursor.startsWith_iff_reads.mp starts'
        rw [read hd']
        exact .success text (hc.reads hd hd') hs
      · exact .late (Nat.le_of_not_lt short)
    · have starts' : ¬ c'.startsWith text := by
        rw [Cursor.startsWith_iff, there] at starts
        rw [Cursor.startsWith_iff, there']
        exact mt (look.string text ht c.offset near) starts
      simp only [Behaviour.string, if_neg starts, if_neg starts', Behaviour.fail, hc.offset]
      exact .failure _ _ hs
  · exact .late (bounded.late (Nat.le_of_not_lt near) s)

/-! ### Composing -/

theorem map {f : α → Except ε β} (hp : p.Foresees h t t') :
    (Behaviour.map f p).Foresees h t t' where
  bounded := hp.bounded.map
  foretold {c c' s s'} hc hs := by
    have hr := hp.foretold hc hs
    simp only [Behaviour.map]
    generalize p c s = r, p c' s' = r' at hr ⊢
    cases hr with
    | success x hd hs =>
        dsimp only
        cases f x with
        | ok y => exact .success y hd hs
        | error e => exact .late trivial
    | failure o e hs => exact .failure o e hs
    | @late o _ _ ho =>
        cases o with
        | success x d =>
            dsimp only
            cases f x with
            | ok y => exact .late ho
            | error e => exact .late trivial
        | failure _ _ | thrown _ | exhausted => exact .late ho

/-- Where the first part is late, the second is later. -/
theorem bind {f : α → Behaviour ε β} (hp : p.Foresees h t t')
    (hf : ∀ x, (f x).Foresees h t t') : (Behaviour.bind p f).Foresees h t t' where
  bounded := hp.bounded.bind fun x => (hf x).bounded
  foretold {c c' s s'} hc hs := by
    have hr := hp.foretold hc hs
    simp only [Behaviour.bind]
    generalize p c s = r, p c' s' = r' at hr ⊢
    cases hr with
    | success x hd hs => exact (hf x).foretold hd hs
    | failure o e hs => exact .failure o e hs
    | @late o _ _ ho =>
        cases o with
        | success x d => exact .late ((hf x).bounded.late ho _)
        | failure _ _ | thrown _ | exhausted => exact .late ho

theorem apply {p : Behaviour ε (α → Except ε β)} {q : Behaviour ε α} (hp : p.Foresees h t t')
    (hq : q.Foresees h t t') : (Behaviour.apply p q).Foresees h t t' := by
  rw [apply_eq_bind]
  exact hp.bind fun _ => hq.map

/-- Where the first part fails on the spot before `h`, it does so on both texts, and the second is
tried on both. -/
theorem alt {q : Behaviour ε α} (hp : p.Foresees h t t') (hq : q.Foresees h t t') :
    (Behaviour.alt p q).Foresees h t t' where
  bounded := hp.bounded.alt hq.bounded
  foretold {c c' s s'} hc hs := by
    have hr := hp.foretold hc hs
    simp only [Behaviour.alt, ← hc.offset]
    generalize p c s = r, p c' s' = r' at hr ⊢
    cases hr with
    | success x hd hs => exact .success x hd hs
    | @failure o e s s' hs =>
        by_cases ho : o = c.offset
        · simp only [if_pos ho]
          have hr' := hq.foretold hc hs
          generalize q c s = r, q c' s' = r' at hr' ⊢
          cases hr' with
          | success x hd hs => exact .success x hd hs
          | failure o' e' hs => exact .failure o' _ hs
          | @late o _ _ ho' => cases o <;> exact .late ho'
        · simp only [if_neg ho]
          exact .failure o e hs
    | @late o s _ ho =>
        cases o with
        | failure offset e =>
            by_cases here : offset = c.offset
            · -- The first alternative was late where the choice was entered already.
              have behind : h ≤ c.offset := Int.ofNat_le.mp (here ▸ ho)
              have hq := hq.bounded.late behind s
              simp only [if_pos here]
              generalize q c s = r at hq ⊢
              obtain ⟨o, s⟩ := r
              cases o <;> exact .late hq
            · simp only [if_neg here]
              exact .late ho
        | success _ _ | thrown _ | exhausted => exact .late ho

theorem label (hp : p.Foresees h t t') (name : String) :
    (Behaviour.label p name).Foresees h t t' where
  bounded c := .label (hp.bounded c)
  foretold {c c' s s'} hc hs := by
    have hr := hp.foretold hc hs
    simp only [Behaviour.label, ← hc.offset]
    generalize p c s = r, p c' s' = r' at hr ⊢
    cases hr with
    | success x hd hs => exact .success x hd hs
    | failure o e hs => dsimp only; split <;> exact .failure o _ hs
    | @late o _ _ ho =>
        cases o with
        | failure _ _ => dsimp only; split <;> exact .late ho
        | success _ _ | thrown _ | exhausted => exact .late ho

theorem suggest (hp : p.Foresees h t t') (x : Suggestion) :
    (Behaviour.suggest p x).Foresees h t t' where
  bounded c := .suggest (hp.bounded c)
  foretold {c c' s s'} hc hs := by
    have hr := hp.foretold hc hs
    simp only [Behaviour.suggest, ← hc.offset]
    generalize p c s = r, p c' s' = r' at hr ⊢
    cases hr with
    | success x hd hs => exact .success x hd hs
    | failure o e hs => dsimp only; split <;> exact .failure o _ hs
    | @late o _ _ ho =>
        cases o with
        | failure _ _ => dsimp only; split <;> exact .late ho
        | success _ _ | thrown _ | exhausted => exact .late ho

/-- Whether something was read is the same on both texts, before `h`. -/
theorem advancing (hp : p.Foresees h t t') : (Behaviour.advancing p).Foresees h t t' where
  bounded := hp.bounded.advancing
  foretold {c c' s s'} hc hs := by
    have hr := hp.foretold hc hs
    simp only [Behaviour.advancing, ← hc.offset]
    generalize p c s = r, p c' s' = r' at hr ⊢
    cases hr with
    | success x hd hs =>
        simp only [← hd.offset]
        split
        · exact .failure _ _ hs
        · exact .success x hd hs
    | failure o e hs => exact .failure o e hs
    | @late o _ _ ho =>
        cases o with
        | success x d =>
            dsimp only
            split
            · next still => exact .late (Int.ofNat_le.mpr (still ▸ ho))
            · exact .late ho
        | failure _ _ | thrown _ | exhausted => exact .late ho

/-- One round after the other goes on alike, until one is late. -/
theorem loop {step : σ → Behaviour ε (Step σ α)} (hstep : ∀ state, (step state).Foresees h t t')
    (n : Nat) : ∀ state, Foresees h t t' (Behaviour.loop step n state) := by
  have bounded (n : Nat) (state : σ) : Bounded (Behaviour.loop step n state) :=
    .loop (fun state => (hstep state).bounded) n state
  induction n with
  | zero => exact fun state => ⟨bounded 0 state, fun _ _ => .late trivial⟩
  | succ n ih =>
      refine fun state => ⟨bounded (n + 1) state, fun {c c' s s'} hc hs => ?_⟩
      have hr := (hstep state).foretold hc hs
      simp only [Behaviour.loop]
      generalize step state c s = r, step state c' s' = r' at hr ⊢
      cases hr with
      | success answer hd hs =>
          cases answer with
          | loop state' => exact (ih state').foretold hd hs
          | done x => exact .success x hd hs
          | stray shown => exact .late trivial
      | failure o e hs => exact .failure o e hs
      | @late o _ _ ho =>
          cases o with
          | success answer d =>
              cases answer with
              | loop state' => exact .late ((bounded n state').late ho _)
              | done x => exact .late ho
              | stray shown => exact .late trivial
          | failure _ _ | thrown _ | exhausted => exact .late ho

/-! ### Frames, traces and probes -/

/-- With the same frames, the one that is opened is the same. -/
theorem fresh {p : Frame → Behaviour ε α} (hp : ∀ frame, (p frame).Foresees h t t') :
    (Behaviour.fresh p).Foresees h t t' where
  bounded c := .fresh fun frame => (hp frame).bounded c
  foretold {c c' s s'} hc hs := by
    have same : s.openFrame.1 = s'.openFrame.1 := congrArg Array.size hs
    show Foretold h t t' (p s.openFrame.1 c _) (p s'.openFrame.1 c' _)
    rw [← same]
    exact (hp _).foretold hc (congrArg (Array.push · []) hs)

theorem trace (name : String) : (Behaviour.trace name : Behaviour ε Unit).Foresees h t t' where
  bounded c := .trace (.refl c)
  foretold hc hs := .success () hc hs

theorem traced (hp : p.Foresees h t t') (name : String) :
    (Behaviour.traced name p).Foresees h t t' where
  bounded c := .traced (hp.bounded c)
  foretold {c c' s s'} hc hs := by
    have hr : Foretold h t t' (p c (s.log (c.traceLine name)))
        (p c' (s'.log (c'.traceLine name))) := hp.foretold hc hs
    simp only [Behaviour.traced, ← hc.offset]
    generalize p c (s.log (c.traceLine name)) = r, p c' (s'.log (c'.traceLine name)) = r' at hr ⊢
    cases hr with
    | success x hd hs => exact .success x hd hs
    | failure o e hs => dsimp only; split <;> exact .failure o _ hs
    | @late o _ _ ho =>
        cases o with
        | failure _ _ => dsimp only; split <;> exact .late ho
        | success _ _ | thrown _ | exhausted => exact .late ho

theorem visit (hp : p.Foresees h t t') (name : String) :
    (Behaviour.visit name p).Foresees h t t' where
  bounded c := .visit (hp.bounded c)
  foretold hc hs := hp.foretold hc hs

end Behaviour.Foresees

/-! ### Runs -/

open Behaviour (Foresees)

/-- A parser that goes forward foresees if the deferred parsers that it enters do. -/
theorem Parser.behaviour_foresees {strings : List String} {h : Nat} {t t' : Array Char}
    (look : LookAlike strings h t t') {enter : {α : Type} → Cell → ρ α → Behaviour ε α}
    (he : ∀ {α : Type} (cell : Cell) (rule : ρ α), (enter cell rule).Foresees h t t') (n : Nat) :
    ∀ {α : Type} (p : Parser ε ρ α), p.Forward strings → (p.behaviour enter n).Foresees h t t'
  | _, .pure x, _ => .pure x
  | _, .fail e, _ => .fail e
  | _, .raise _, _ => ⟨fun _ => .throw trivial, fun _ _ => .late trivial⟩
  | _, .satisfy accepts, _ => .satisfy look accepts
  | _, .string _, ht => .string look ht
  | _, .position, _ => .position
  | _, .mapM _ p, hp => (behaviour_foresees look he n p hp).map
  | _, .applyM p q, hp =>
      (behaviour_foresees look he n p hp.1).apply (behaviour_foresees look he n q hp.2)
  | _, .bind p f, hp =>
      (behaviour_foresees look he n p hp.1).bind fun x =>
        behaviour_foresees look he n (f x) (hp.2 x)
  | _, .alt p q, hp =>
      (behaviour_foresees look he n p hp.1).alt (behaviour_foresees look he n q hp.2)
  | _, .label p name, hp => (behaviour_foresees look he n p hp).label name
  | _, .suggest p x, hp => (behaviour_foresees look he n p hp).suggest x
  | _, .notFollowedBy shown (.label (.satisfy accepts) name), _ =>
      .notFollowedBy_satisfy look shown accepts name
  | _, .advancing p, hp => (behaviour_foresees look he n p hp).advancing
  | _, .tailRec step initial, hp =>
      .loop (fun state => behaviour_foresees look he n (step state) (hp state)) n initial
  | _, .deferred cell rule, _ => he cell rule
  | _, .fresh p, hp => .fresh fun frame => behaviour_foresees look he n (p frame) (hp frame)
  | _, .trace name, _ => .trace name
  | _, .traced name p, hp => (behaviour_foresees look he n p hp).traced name
  | _, .visit name p, hp => (behaviour_foresees look he n p hp).visit name

namespace Grammar

variable {g : Grammar ε ρ} {strings : List String} {h : Nat} {t t' : Array Char}

/-- What is built in a cell goes forward, and is built alike where the frames are the same. -/
theorem Forward.entered_foresees (hg : g.Forward strings) (look : LookAlike strings h t t') :
    ∀ (fuel : Nat) {α : Type} (cell : Cell) (rule : ρ α),
      (g.entered fuel cell rule).Foresees h t t'
  | 0, _, _, _ => ⟨fun _ _ => trivial, fun _ _ => .late trivial⟩
  | fuel + 1, _, cell, rule => by
      have built {frame : Frame} {p : Parser ε ρ _} (hp : g.build rule frame = .ok p) :
          (g.run fuel p).Foresees h t t' := by
        rw [run_eq]
        exact p.behaviour_foresees look (hg.entered_foresees look fuel) fuel (hg rule frame p hp)
      refine ⟨fun c => enter_meets (fun _ _ hp => (built hp).bounded c) fun _ _ _ => trivial, ?_⟩
      intro c c' s s' hc hs
      have full : s.built? cell = s'.built? cell := by
        unfold Session.built?
        rw [hs]
      simp only [entered, enter, full]
      cases s'.built? cell with
      | some frame =>
          dsimp only
          cases hb : g.build rule frame with
          | ok p => exact (built hb).foretold hc hs
          | error e => exact .late trivial
      | none =>
          have same : s.openFrame.1 = s'.openFrame.1 := congrArg Array.size hs
          simp only [same]
          cases hb : g.build rule s'.openFrame.1 with
          | ok p =>
              have opened : s.openFrame.2.frames = s'.openFrame.2.frames :=
                congrArg (Array.push · []) hs
              exact (built hb).foretold hc (congrArg
                (Array.modify · cell.frame fun sites => (cell.site, _) :: sites) opened)
          | error e => exact .late trivial

/-- **A run that stops early does not depend on what stands behind.**  If a run on a text fails
before `h`, so does the run on a text that looks alike up to `h`, at the same offset and with the
same error. -/
theorem run_foresight (hg : g.Forward strings) {p : Parser ε ρ α} (hp : p.Forward strings)
    (look : LookAlike strings h t t') {fuel : Nat} {s s₁ : Session} {offset : Int} {e : ParseError}
    (failed : g.run fuel p (.start t) s = (.failure offset e, s₁)) (early : offset < h) :
    ∃ s₂, g.run fuel p (.start t') s = (.failure offset e, s₂) := by
  have foresees : (g.run fuel p).Foresees h t t' := by
    rw [run_eq]
    exact p.behaviour_foresees look (hg.entered_foresees look fuel) fuel hp
  have both : Foretold h t t' (g.run fuel p (.start t) s) (g.run fuel p (.start t') s) :=
    foresees.foretold ⟨rfl, rfl, rfl⟩ rfl
  rw [failed] at both
  generalize g.run fuel p (.start t') s = r' at both ⊢
  cases both with
  | failure _ _ _ => exact ⟨_, rfl⟩
  | late ho => exact absurd early (Int.not_lt.mpr ho)

end Grammar

end Parsing
