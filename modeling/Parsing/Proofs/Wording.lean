import Parsing.Json.Rules
import Parsing.Proofs.Lockstep

/-!
# Wording

Two parsers are *rewordings* of one another if they differ only in what they say: in labels and
suggestions that one has and the other has not, in the messages and suggestions of parsers that
fail, and in what is traced and under which name.  The difference may be anywhere, also in what
continuations, the steps of loops and the rules of the grammar give (`Parser.Reworded`, and
`Grammar.Reworded` for the rules).

**Wording never influences parsing** (`run_reworded`).  From every cursor, two such parsers come
to the same verdict, build the same cells in the same frames, and pass the same probes at the same
offsets in the same order.  Only errors and logged lines differ.

The proof runs both parsers in lockstep (`wording`).  `Behaviour.Alike` relates their behaviours:
from sessions that agree up to logged lines they give replies that agree up to errors and logged
lines.  The wrappers that rebuild a failure may stand on one side only, because they leave its
offset as it was.
-/

namespace Parsing

variable {ε : Type} {ρ ρ' : Type → Type} {α β σ : Type}

/-! ### Sessions that agree up to logged lines -/

/-- The events of a session other than logged lines: the probes passed and the cells built,
newest first. -/
def Session.unlogged (s : Session) : List Event :=
  s.journal.filter fun
    | .logged _ => false
    | .visited .. | .built .. => true

/-- The sessions differ in logged lines only. -/
structure Session.Alike (s t : Session) : Prop where
  frames : s.frames = t.frames
  unlogged : s.unlogged = t.unlogged

namespace Session.Alike

variable {s t : Session}

theorem symm (h : s.Alike t) : t.Alike s := ⟨h.1.symm, h.2.symm⟩

theorem log (h : s.Alike t) (m m' : String) : (s.log m).Alike (t.log m') := ⟨h.1, h.2⟩

/-- A line may be logged on one side only. -/
theorem log_left (h : s.Alike t) (m : String) : (s.log m).Alike t := ⟨h.1, h.2⟩

/-- An event of any kind may be recorded on both sides. -/
theorem record (h : s.Alike t) (event : Event) : (s.record event).Alike (t.record event) := by
  refine ⟨h.frames, ?_⟩
  have hj := h.unlogged
  simp only [Session.unlogged] at hj
  simp only [Session.unlogged, Session.record, List.filter_cons, hj]

/-- Frames are numbered alike, because as many have been opened. -/
theorem openFrame (h : s.Alike t) :
    s.openFrame.1 = t.openFrame.1 ∧ s.openFrame.2.Alike t.openFrame.2 :=
  ⟨congrArg Array.size h.frames, congrArg (Array.push · []) h.frames, h.unlogged⟩

theorem fill (h : s.Alike t) (cell : Cell) (frame : Frame) :
    (s.fill cell frame).Alike (t.fill cell frame) :=
  ⟨congrArg (Array.modify · cell.frame fun sites => (cell.site, frame) :: sites) h.frames,
    h.unlogged⟩

/-- What has been built in a cell can be told from the frames. -/
theorem built? (h : s.Alike t) (cell : Cell) : s.built? cell = t.built? cell := by
  unfold Session.built?
  rw [h.frames]

end Session.Alike

/-! ### Behaviours that agree up to wording -/

/-- The replies agree up to the error and the logged lines. -/
inductive Reply.Alike : Outcome ε α × Session → Outcome ε α × Session → Prop where
  | success (x : α) (d : Cursor) {s t : Session} (h : s.Alike t) :
      Alike (.success x d, s) (.success x d, t)
  | failure (offset : Int) (e e' : ParseError) {s t : Session} (h : s.Alike t) :
      Alike (.failure offset e, s) (.failure offset e', t)
  | thrown (fault : Fault ε) {s t : Session} (h : s.Alike t) :
      Alike (.thrown fault, s) (.thrown fault, t)
  | exhausted {s t : Session} (h : s.Alike t) : Alike (.exhausted, s) (.exhausted, t)

namespace Reply.Alike

/-- One outcome is its own rewording, from sessions that are alike. -/
theorem refl (o : Outcome ε α) {s t : Session} (h : s.Alike t) : Alike (o, s) (o, t) := by
  cases o with
  | success x d => exact .success x d h
  | failure offset e => exact .failure offset e e h
  | thrown fault => exact .thrown fault h
  | exhausted => exact .exhausted h

variable {r r' : Outcome ε α × Session}

/-- A verdict has no words in it. -/
theorem verdict_eq (h : Alike r r') : r.1.verdict = r'.1.verdict := by
  cases h <;> rfl

theorem session_alike (h : Alike r r') : r.2.Alike r'.2 := by
  cases h with
  | success _ _ h | failure _ _ _ h | thrown _ h | exhausted h => exact h

end Reply.Alike

/-- What rewordings have in common at every moment: all but their errors and logged lines. -/
def wording : Comparison :=
  { Comparison.exact Session.Alike Session.Alike fun _ _ => id with
    error := fun _ _ => True
    error_self := fun _ => trivial
    error_label := fun _ _ => trivial
    error_after := fun _ _ => trivial }

/-- Replies are alike if they agree up to wording, as the lockstep of runs has it: exactly but for
errors and logged lines. -/
theorem Reply.alike_iff {r r' : Outcome ε α × Session} : Alike r r' ↔ wording.Reply r r' := by
  refine ⟨fun h => ?_, fun h => ?_⟩
  · cases h with
    | success x d h => exact .success x rfl h
    | failure offset e e' h => exact .failure rfl trivial h
    | thrown fault h => exact .thrown fault h
    | exhausted h => exact .exhausted h
  · cases h with
    | @success x d _ _ _ hd h => cases hd; exact .success x d h
    | @failure o _ e e' _ _ ho _ h => cases ho; exact .failure o e e' h
    | thrown fault h => exact .thrown fault h
    | exhausted h => exact .exhausted h

namespace Behaviour

/-- From sessions that agree up to logged lines, the replies agree up to errors and logged
lines. -/
def Alike (p q : Behaviour ε α) : Prop := ∀ c s t, s.Alike t → Reply.Alike (p c s) (q c t)

namespace Alike

variable {p p' : Behaviour ε α}

/-! Where the operations stand on both sides, the rules are those of runs in lockstep. -/

/-- So behaviours are alike if they run in lockstep up to wording. -/
theorem iff_inStep : p.Alike p' ↔ wording.InStep p p' := by
  refine ⟨fun h => ?_, fun h c s t hst => Reply.alike_iff.mpr (h c c s t rfl hst)⟩
  rintro c _ s t rfl hst
  exact Reply.alike_iff.mp (h c s t hst)

theorem map {f : α → Except ε β} (hp : p.Alike p') :
    (Behaviour.map f p).Alike (Behaviour.map f p') := iff_inStep.mpr (iff_inStep.mp hp).map

theorem bind {f f' : α → Behaviour ε β} (hp : p.Alike p') (hf : ∀ x, (f x).Alike (f' x)) :
    (Behaviour.bind p f).Alike (Behaviour.bind p' f') :=
  iff_inStep.mpr ((iff_inStep.mp hp).bind fun x => iff_inStep.mp (hf x))

theorem apply {p p' : Behaviour ε (α → Except ε β)} {q q' : Behaviour ε α} (hp : p.Alike p')
    (hq : q.Alike q') : (Behaviour.apply p q).Alike (Behaviour.apply p' q') :=
  iff_inStep.mpr ((iff_inStep.mp hp).apply (iff_inStep.mp hq))

theorem alt {q q' : Behaviour ε α} (hp : p.Alike p') (hq : q.Alike q') :
    (Behaviour.alt p q).Alike (Behaviour.alt p' q') :=
  iff_inStep.mpr ((iff_inStep.mp hp).alt (iff_inStep.mp hq))

theorem attempt (hp : p.Alike p') : (Behaviour.attempt p).Alike (Behaviour.attempt p') :=
  iff_inStep.mpr (iff_inStep.mp hp).attempt

theorem lookAhead (hp : p.Alike p') :
    (Behaviour.lookAhead p).Alike (Behaviour.lookAhead p') :=
  iff_inStep.mpr (iff_inStep.mp hp).lookAhead

theorem notFollowedBy {shown : α → String} (hp : p.Alike p') :
    (Behaviour.notFollowedBy shown p).Alike (Behaviour.notFollowedBy shown p') :=
  iff_inStep.mpr (iff_inStep.mp hp).notFollowedBy

theorem advancing (hp : p.Alike p') :
    (Behaviour.advancing p).Alike (Behaviour.advancing p') :=
  iff_inStep.mpr (iff_inStep.mp hp).advancing

theorem loop {step step' : σ → Behaviour ε (Step σ α)}
    (hstep : ∀ state, (step state).Alike (step' state)) (n : Nat) (state : σ) :
    Alike (Behaviour.loop step n state) (Behaviour.loop step' n state) :=
  iff_inStep.mpr (.loop (fun state => iff_inStep.mp (hstep state)) n state)

/-- A probe is passed at the same offset on both sides. -/
theorem visit (hp : p.Alike p') (name : String) :
    (Behaviour.visit name p).Alike (Behaviour.visit name p') := by
  refine iff_inStep.mpr ((iff_inStep.mp hp).visit fun hc hst => ?_)
  cases hc
  exact hst.record _

/-- The frame that is opened is the same on both sides. -/
theorem fresh {p p' : Frame → Behaviour ε α} (hp : ∀ frame, (p frame).Alike (p' frame)) :
    (Behaviour.fresh p).Alike (Behaviour.fresh p') := by
  intro c s t hst
  obtain ⟨hf, h⟩ := hst.openFrame
  show Reply.Alike (p s.openFrame.1 c _) (p' t.openFrame.1 c _)
  rw [← hf]
  exact hp s.openFrame.1 c _ _ h

/-! Reading one character or a string leaves the session as it is. -/

/-- Two failures differ in nothing but their words. -/
theorem fail (e e' : ParseError) : (Behaviour.fail e : Behaviour ε α).Alike (.fail e') :=
  fun c _ _ hst => .failure c.offset e e' hst

theorem skip (x : α) (n : Int) : (Behaviour.skip x n : Behaviour ε α).Alike (.skip x n) := by
  intro c s t hst
  unfold Behaviour.skip
  cases c.advance n with
  | ok d => exact .success x d hst
  | error e => exact .thrown (.outOfRange e) hst

theorem satisfy (accepts : Char → Bool) :
    (Behaviour.satisfy accepts : Behaviour ε Char).Alike (.satisfy accepts) := by
  intro c s t hst
  unfold Behaviour.satisfy
  cases c.peek with
  | none => exact fail _ _ c s t hst
  | some x =>
      simp only
      split
      · exact skip x 1 c s t hst
      · exact fail _ _ c s t hst

theorem string (text : String) :
    (Behaviour.string text : Behaviour ε String).Alike (.string text) := by
  intro c s t hst
  unfold Behaviour.string
  split
  · exact skip text text.length c s t hst
  · exact fail _ _ c s t hst

/-! The wrappers stand on one side only; the relation is symmetric, so the left will do. -/

theorem symm (hp : p.Alike p') : p'.Alike p := by
  intro c s t hst
  have h := hp c t s hst.symm
  generalize p c t = r, p' c s = r' at h ⊢
  cases h with
  | success x d h => exact .success x d h.symm
  | failure offset e e' h => exact .failure offset e' e h.symm
  | thrown fault h => exact .thrown fault h.symm
  | exhausted h => exact .exhausted h.symm

/-- A label rebuilds the failure of what it stands around, at the offset where that was. -/
theorem label (hp : p.Alike p') (name : String) : (Behaviour.label p name).Alike p' := by
  intro c s t hst
  have h := hp c s t hst
  unfold Behaviour.label
  generalize p c s = r, p' c t = r' at h ⊢
  cases h with
  | success x d h => exact .success x d h
  | failure offset e e' h =>
      by_cases ho : offset = c.offset
      · simp only [if_pos ho]
        exact .failure offset _ e' h
      · simp only [if_neg ho]
        exact .failure offset e e' h
  | thrown fault h => exact .thrown fault h
  | exhausted h => exact .exhausted h

/-- A suggestion is put into the error of a failure and changes nothing else. -/
theorem suggest (hp : p.Alike p') (x : Suggestion) : (Behaviour.suggest p x).Alike p' := by
  intro c s t hst
  have h := hp c s t hst
  unfold Behaviour.suggest
  generalize p c s = r, p' c t = r' at h ⊢
  cases h with
  | success x d h => exact .success x d h
  | failure offset e e' h =>
      by_cases ho : offset = c.offset
      · simp only [if_pos ho]
        exact .failure offset _ e' h
      · simp only [if_neg ho]
        exact .failure offset e e' h
  | thrown fault h => exact .thrown fault h
  | exhausted h => exact .exhausted h

/-- A trace around a parser logs lines and gives an empty failure a message of its own, at the
offset where that was. -/
theorem traced (hp : p.Alike p') (name : String) : (Behaviour.traced name p).Alike p' := by
  intro c s t hst
  have h := hp c _ t (hst.log_left (c.traceLine name))
  unfold Behaviour.traced
  generalize p c _ = r, p' c t = r' at h ⊢
  cases h with
  | success x d h => exact .success x d h
  | failure offset e e' h =>
      by_cases ho : offset = c.offset
      · simp only [if_pos ho]
        exact .failure offset _ e' (h.log_left _)
      · simp only [if_neg ho]
        exact .failure offset e e' (h.log_left _)
  | thrown fault h => exact .thrown fault h
  | exhausted h => exact .exhausted h

/-- A trace that stands for itself logs a line and succeeds on the spot. -/
theorem trace_pure (name : String) :
    (Behaviour.trace name : Behaviour ε Unit).Alike (Behaviour.pure ()) := fun c _ _ hst =>
  .success () c (hst.log_left _)

end Alike

end Behaviour

/-! ### Rewordings -/

/-- The parsers differ in their wording only; the rules that they defer to correspond by `R`. -/
inductive Parser.Reworded (R : (α : Type) → ρ α → ρ' α → Prop) :
    {α : Type} → Parser ε ρ α → Parser ε ρ' α → Prop where
  | pure {α : Type} (x : α) : Reworded R (.pure x) (.pure x)
  | fail {α : Type} (e e' : ParseError) : Reworded R (.fail e : Parser ε ρ α) (.fail e')
  | raise {α : Type} (e : ε) : Reworded R (.raise e : Parser ε ρ α) (.raise e)
  | satisfy (accepts : Char → Bool) : Reworded R (.satisfy accepts) (.satisfy accepts)
  | string (text : String) : Reworded R (.string text) (.string text)
  | position : Reworded R .position .position
  | mapM {α β : Type} (f : α → Except ε β) {p : Parser ε ρ α} {p' : Parser ε ρ' α}
      (hp : Reworded R p p') : Reworded R (.mapM f p) (.mapM f p')
  | applyM {α β : Type} {p : Parser ε ρ (α → Except ε β)} {p' : Parser ε ρ' (α → Except ε β)}
      {q : Parser ε ρ α} {q' : Parser ε ρ' α} (hp : Reworded R p p') (hq : Reworded R q q') :
      Reworded R (.applyM p q) (.applyM p' q')
  | bind {α β : Type} {p : Parser ε ρ α} {p' : Parser ε ρ' α} {f : α → Parser ε ρ β}
      {f' : α → Parser ε ρ' β} (hp : Reworded R p p') (hf : ∀ x, Reworded R (f x) (f' x)) :
      Reworded R (.bind p f) (.bind p' f')
  | alt {α : Type} {p q : Parser ε ρ α} {p' q' : Parser ε ρ' α} (hp : Reworded R p p')
      (hq : Reworded R q q') : Reworded R (.alt p q) (.alt p' q')
  | attempt {α : Type} {p : Parser ε ρ α} {p' : Parser ε ρ' α} (hp : Reworded R p p') :
      Reworded R (.attempt p) (.attempt p')
  | lookAhead {α : Type} {p : Parser ε ρ α} {p' : Parser ε ρ' α} (hp : Reworded R p p') :
      Reworded R (.lookAhead p) (.lookAhead p')
  | notFollowedBy {α : Type} (shown : α → String) {p : Parser ε ρ α} {p' : Parser ε ρ' α}
      (hp : Reworded R p p') : Reworded R (.notFollowedBy shown p) (.notFollowedBy shown p')
  | advancing {α : Type} {p : Parser ε ρ α} {p' : Parser ε ρ' α} (hp : Reworded R p p') :
      Reworded R (.advancing p) (.advancing p')
  | tailRec {σ α : Type} {step : σ → Parser ε ρ (Step σ α)} {step' : σ → Parser ε ρ' (Step σ α)}
      (hstep : ∀ state, Reworded R (step state) (step' state)) (initial : σ) :
      Reworded R (.tailRec step initial) (.tailRec step' initial)
  | deferred {α : Type} (cell : Cell) {rule : ρ α} {rule' : ρ' α} (h : R α rule rule') :
      Reworded R (.deferred cell rule) (.deferred cell rule')
  | fresh {α : Type} {p : Frame → Parser ε ρ α} {p' : Frame → Parser ε ρ' α}
      (hp : ∀ frame, Reworded R (p frame) (p' frame)) : Reworded R (.fresh p) (.fresh p')
  | visit {α : Type} (name : String) {p : Parser ε ρ α} {p' : Parser ε ρ' α}
      (hp : Reworded R p p') : Reworded R (.visit name p) (.visit name p')
  | custom {α : Type} (answer : Cursor → Outcome ε α) :
      Reworded R (.custom answer) (.custom answer)
  /-- A label, a suggestion or a trace around a parser may be added, changed or left out. -/
  | label_left {α : Type} {p : Parser ε ρ α} {p' : Parser ε ρ' α} (hp : Reworded R p p')
      (name : String) : Reworded R (.label p name) p'
  | label_right {α : Type} {p : Parser ε ρ α} {p' : Parser ε ρ' α} (hp : Reworded R p p')
      (name : String) : Reworded R p (.label p' name)
  | suggest_left {α : Type} {p : Parser ε ρ α} {p' : Parser ε ρ' α} (hp : Reworded R p p')
      (x : Suggestion) : Reworded R (.suggest p x) p'
  | suggest_right {α : Type} {p : Parser ε ρ α} {p' : Parser ε ρ' α} (hp : Reworded R p p')
      (x : Suggestion) : Reworded R p (.suggest p' x)
  | traced_left {α : Type} {p : Parser ε ρ α} {p' : Parser ε ρ' α} (hp : Reworded R p p')
      (name : String) : Reworded R (.traced name p) p'
  | traced_right {α : Type} {p : Parser ε ρ α} {p' : Parser ε ρ' α} (hp : Reworded R p p')
      (name : String) : Reworded R p (.traced name p')
  /-- A trace may get another name, or give way to a parser that does nothing. -/
  | trace (name name' : String) : Reworded R (.trace name) (.trace name')
  | trace_left (name : String) : Reworded R (.trace name) (.pure ())
  | trace_right (name : String) : Reworded R (.pure ()) (.trace name)

/-- Corresponding rules have the same label, and building them gives parsers that differ in their
wording only, or raises the same exception. -/
structure Grammar.Reworded (R : (α : Type) → ρ α → ρ' α → Prop) (g : Grammar ε ρ)
    (g' : Grammar ε ρ') : Prop where
  label {α : Type} {rule : ρ α} {rule' : ρ' α} (h : R α rule rule') : g.label rule = g'.label rule'
  build {α : Type} {rule : ρ α} {rule' : ρ' α} (h : R α rule rule') (frame : Frame) :
    (∃ p p', g.build rule frame = .ok p ∧ g'.build rule' frame = .ok p' ∧ Parser.Reworded R p p') ∨
    ∃ e, g.build rule frame = .error e ∧ g'.build rule' frame = .error e

variable {R : (α : Type) → ρ α → ρ' α → Prop}

/-- A parser is a rewording of itself. -/
theorem Parser.Reworded.refl {R : (α : Type) → ρ α → ρ α → Prop}
    (hR : ∀ {α : Type} (rule : ρ α), R α rule rule) :
    ∀ {α : Type} (p : Parser ε ρ α), Reworded R p p
  | _, .pure x => .pure x
  | _, .fail e => .fail e e
  | _, .raise e => .raise e
  | _, .satisfy accepts => .satisfy accepts
  | _, .string text => .string text
  | _, .position => .position
  | _, .mapM f p => .mapM f (refl hR p)
  | _, .applyM p q => .applyM (refl hR p) (refl hR q)
  | _, .bind p f => .bind (refl hR p) fun x => refl hR (f x)
  | _, .alt p q => .alt (refl hR p) (refl hR q)
  | _, .label p name => .label_left (.label_right (refl hR p) name) name
  | _, .suggest p x => .suggest_left (.suggest_right (refl hR p) x) x
  | _, .attempt p => .attempt (refl hR p)
  | _, .lookAhead p => .lookAhead (refl hR p)
  | _, .notFollowedBy shown p => .notFollowedBy shown (refl hR p)
  | _, .advancing p => .advancing (refl hR p)
  | _, .tailRec step initial => .tailRec (fun state => refl hR (step state)) initial
  | _, .deferred cell rule => .deferred cell (hR rule)
  | _, .fresh p => .fresh fun frame => refl hR (p frame)
  | _, .trace name => .trace name name
  | _, .traced name p => .traced_left (.traced_right (refl hR p) name) name
  | _, .visit name p => .visit name (refl hR p)
  | _, .custom answer => .custom answer

/-- The grammar with a label on every rule. -/
def Grammar.labelled (g : Grammar ε ρ) (name : {α : Type} → ρ α → String) : Grammar ε ρ where
  build rule frame := (g.build rule frame).map fun p => p.label (name rule)
  label := g.label

/-- Labels around all the rules of a grammar are a rewording of it. -/
theorem Grammar.reworded_labelled (g : Grammar ε ρ) (name : {α : Type} → ρ α → String) :
    g.Reworded (fun _ => Eq) (g.labelled name) where
  label h := congrArg g.label h
  build := by
    rintro _ rule _ rfl frame
    cases hb : g.build rule frame with
    | ok p =>
        refine .inl ⟨p, p.label (name rule), rfl, ?_, .label_right (.refl (fun _ => rfl) p) _⟩
        simp only [labelled, hb, Except.map]
    | error e =>
        refine .inr ⟨e, rfl, ?_⟩
        simp only [labelled, hb, Except.map]

/-- Rewordings behave alike if the deferred parsers that they enter do. -/
theorem Parser.Reworded.behaviour_alike {enter : {α : Type} → Cell → ρ α → Behaviour ε α}
    {enter' : {α : Type} → Cell → ρ' α → Behaviour ε α}
    (he : ∀ {α : Type} (cell : Cell) {rule : ρ α} {rule' : ρ' α}, R α rule rule' →
      (enter cell rule).Alike (enter' cell rule'))
    (n : Nat) {p : Parser ε ρ α} {p' : Parser ε ρ' α} (h : Parser.Reworded R p p') :
    (p.behaviour enter n).Alike (p'.behaviour enter' n) := by
  -- On the correspondence and not on the parsers, which need not have the same shape.
  induction h with
  | pure x => exact fun c _ _ hst => .success x c hst
  | fail e e' => exact fun c _ _ hst => .failure c.offset e e' hst
  | raise e => exact fun _ _ _ hst => .thrown (.raised e) hst
  | satisfy accepts => exact .satisfy accepts
  | string text => exact .string text
  | position => exact fun c _ _ hst => .success c.offset c hst
  | mapM _ _ ih => exact ih.map
  | applyM _ _ ihp ihq => exact ihp.apply ihq
  | bind _ _ ihp ihf => exact ihp.bind ihf
  | alt _ _ ihp ihq => exact ihp.alt ihq
  | attempt _ ih => exact ih.attempt
  | lookAhead _ ih => exact ih.lookAhead
  | notFollowedBy _ _ ih => exact ih.notFollowedBy
  | advancing _ ih => exact ih.advancing
  | tailRec _ initial ih => exact .loop ih n initial
  | deferred cell h => exact he cell h
  | fresh _ ih => exact .fresh ih
  | visit name _ ih => exact ih.visit name
  | custom answer => exact fun c _ _ hst => .refl (answer c) hst
  | label_left _ name ih => exact ih.label name
  | label_right _ name ih => exact (ih.symm.label name).symm
  | suggest_left _ x ih => exact ih.suggest x
  | suggest_right _ x ih => exact (ih.symm.suggest x).symm
  | traced_left _ name ih => exact ih.traced name
  | traced_right _ name ih => exact (ih.symm.traced name).symm
  | trace _ _ => exact fun c _ _ hst => .success () c (hst.log _ _)
  | trace_left name => exact .trace_pure name
  | trace_right name => exact (Behaviour.Alike.trace_pure name).symm

namespace Grammar

variable {g : Grammar ε ρ} {g' : Grammar ε ρ'}

/-- Rules that are rewordings of one another build in the same cells, and raise the same exceptions
where they cannot be built. -/
theorem Reworded.enter_alike (hg : g.Reworded R g')
    {run : {α : Type} → Parser ε ρ α → Behaviour ε α}
    {run' : {α : Type} → Parser ε ρ' α → Behaviour ε α}
    (hrun : ∀ {α : Type} {p : Parser ε ρ α} {p' : Parser ε ρ' α}, Parser.Reworded R p p' →
      (run p).Alike (run' p'))
    (cell : Cell) {rule : ρ α} {rule' : ρ' α} (h : R α rule rule') :
    (g.enter run cell rule).Alike (g'.enter run' cell rule') := by
  intro c s t hst
  unfold enter
  rw [← hst.built? cell]
  cases s.built? cell with
  | some frame =>
      rcases hg.build h frame with ⟨p, p', hp, hp', hpp⟩ | ⟨e, he, he'⟩
      · simp only [hp, hp']
        exact hrun hpp c s t hst
      · simp only [he, he']
        exact .thrown (.raised e) hst
  | none =>
      -- The sessions have as many frames, so both cells are built in the same one.
      obtain ⟨hf, hst'⟩ := hst.openFrame
      rcases hg.build h s.openFrame.1 with ⟨p, p', hp, hp', hpp⟩ | ⟨e, he, he'⟩
      · simp only [hp, ← hf, hp', hg.label h]
        exact hrun hpp c _ _ ((hst'.record _).fill cell _)
      · simp only [he, ← hf, he', hg.label h]
        exact .thrown (.raised e) (hst'.record _)

/-- With fuel to spare, what is built runs with one unit less, and the sessions stay alike. -/
theorem Reworded.entered_alike (hg : g.Reworded R g') :
    ∀ (fuel : Nat) {α : Type} (cell : Cell) {rule : ρ α} {rule' : ρ' α}, R α rule rule' →
      (g.entered fuel cell rule).Alike (g'.entered fuel cell rule')
  | 0, _, _, _, _, _ => fun _ _ _ hst => .exhausted hst
  | fuel + 1, _, cell, _, _, h => by
      refine hg.enter_alike (fun hp => ?_) cell h
      rw [run_eq, run_eq]
      exact hp.behaviour_alike (hg.entered_alike fuel) fuel

/-- From sessions that are alike, rewordings give replies that are. -/
theorem Reworded.run_alike (hg : g.Reworded R g') (fuel : Nat) {p : Parser ε ρ α}
    {p' : Parser ε ρ' α} (h : Parser.Reworded R p p') : (g.run fuel p).Alike (g'.run fuel p') := by
  rw [run_eq, run_eq]
  exact h.behaviour_alike (hg.entered_alike fuel) fuel

/-- **Wording never influences parsing.**  Rewordings that are run from the same cursor, in
sessions that agree up to logged lines, come to the same verdict: both succeed with the same value
at the same cursor, or both fail at the same offset, or both raise the same exception, or both run
out of fuel.  Besides logged lines their journals have the same events in the same order, and they
leave the same cells behind. -/
theorem run_reworded (hg : g.Reworded R g') {p : Parser ε ρ α} {p' : Parser ε ρ' α}
    (h : Parser.Reworded R p p') (fuel : Nat) (c : Cursor) {s t : Session} (hst : s.Alike t) :
    (g.run fuel p c s).1.verdict = (g'.run fuel p' c t).1.verdict ∧
    (g.run fuel p c s).2.unlogged = (g'.run fuel p' c t).2.unlogged ∧
    (g.run fuel p c s).2.frames = (g'.run fuel p' c t).2.frames := by
  have hr := hg.run_alike fuel h c s t hst
  exact ⟨hr.verdict_eq, hr.session_alike.unlogged, hr.session_alike.frames⟩

/-- The document `[t]` behind a blank, read with a label on every value and a suggestion and a
trace around the document: as without them, it fails at the letter, after one probe and one
cell. -/
theorem run_reworded_document :
    let g := Json.grammar .standard
    let p := (Json.parser .standard).visit "document"
    let p' := (p.suggest ⟨"[", "a document"⟩).traced "document"
    let labelled := g.labelled fun _ => "a value"
    let c : Cursor := ⟨#[' ', '[', 't', ']'], 1, by decide⟩
    g.Reworded (fun _ => Eq) labelled ∧ Parser.Reworded (fun _ => Eq) p p' ∧
      Session.start.Alike .start ∧ (labelled.run 5 p' c .start).1.verdict = .failure 2 ∧
      (labelled.run 5 p' c .start).2.unlogged =
        [.built ⟨0, 0⟩ none true, .visited "document" 1] := by
  intro g p p' labelled c
  have hg : g.Reworded (fun _ => Eq) labelled := reworded_labelled _ _
  have hp : Parser.Reworded (fun _ => Eq) p p' :=
    .traced_right (.suggest_right (.refl (fun _ => rfl) p) _) _
  have hs : Session.start.Alike .start := ⟨rfl, rfl⟩
  obtain ⟨hv, hj, -⟩ := run_reworded hg hp 5 c hs
  exact ⟨hg, hp, hs, hv ▸ rfl, hj ▸ rfl⟩

end Grammar

end Parsing
