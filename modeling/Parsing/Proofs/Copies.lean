import Parsing.Proofs.Lockstep

/-!
# Copies of a parser

Copies of a parser are built from the same text in different frames (`Parser.Copy`): they differ in
the cells of what they defer and in nothing else, and a text names the cells of no frame but its own
and those that were there before it.  A grammar is *uniform* if what it builds for a rule depends on
the frame only in that way, so that building a rule once more gives a copy, or raises the same
exception.  The names of rules may mention frames themselves, as a deferred parser that is captured
by the text of another does; a `Naming` says which names are copies of one another.

A session keeps of a deferred parser only the frame in which it was built, and what is run is built
from that frame.  So entering a deferred parser comes to running some copy of it, whether its cell
was filled before or not, and copies take the same notes (`Building.inStep`).  The same holds of
runs that keep nothing and build every deferred parser anew when it is entered (`runAnew`).
-/

namespace Parsing

variable {ε : Type} {ρ : Type → Type} {α : Type}

/-! ### What is noted -/

/-- Whether an event is a note: a line logged or a probe passed. -/
def Event.noted : Event → Bool
  | .logged _ | .visited .. => true
  | .built .. => false

namespace Session

/-- The lines logged and the probes passed, newest first. -/
def notes (s : Session) : List Event := s.journal.filter Event.noted

/-- To open a frame notes nothing. -/
@[simp]
theorem notes_openFrame (s : Session) : s.openFrame.2.notes = s.notes := rfl

@[simp]
theorem notes_fill (s : Session) (cell : Cell) (frame : Frame) :
    (s.fill cell frame).notes = s.notes := rfl

@[simp]
theorem notes_built (s : Session) (cell : Cell) (label : Option String) (succeeded : Bool) :
    (s.record (.built cell label succeeded)).notes = s.notes := rfl

/-- A relation between notes that allows for one more event on both sides goes on when one is
recorded. -/
theorem notes_record_of {R : List Event → List Event → Prop}
    (cons : ∀ {u v} (event : Event), R u v → R (event :: u) (event :: v)) {s t : Session}
    (h : R s.notes t.notes) (event : Event) : R (s.record event).notes (t.record event).notes := by
  simp only [notes] at h
  simp only [notes, record, List.filter_cons]
  split
  · exact cons event h
  · exact h

theorem notes_record {s t : Session} (h : s.notes = t.notes) (event : Event) :
    (s.record event).notes = (t.record event).notes :=
  notes_record_of (fun event => congrArg (event :: ·)) h event

end Session

/-- Runs at the same place, with something in common of the notes that they took. -/
def Comparison.ofNotes (R : List Event → List Event → Prop) : Comparison :=
  .exact (fun s t => R s.notes t.notes) (fun s t => R s.notes t.notes) fun _ _ => id

/-- Runs at the same place that took the same notes. -/
def sameNotes : Comparison :=
  .exact (fun s t => s.notes = t.notes) (fun s t => s.notes = t.notes) fun _ _ => id

/-! ### Copies -/

/-- Which names of rules are copies of one another, in texts that may mention the frames before
given ones. -/
structure Naming (ρ : Type → Type) where
  same : Frame → Frame → {α : Type} → ρ α → ρ α → Prop

/-- Names that mention no frames. -/
def Naming.plain (ρ : Type → Type) : Naming ρ := ⟨fun _ _ _ => Eq⟩

variable {N : Naming ρ} {k k' : Frame}

/-- The parsers are built from the same text, the one in a frame before `k` and the other in one
before `k'`. -/
inductive Parser.Copy (N : Naming ρ) :
    Frame → Frame → {α : Type} → Parser ε ρ α → Parser ε ρ α → Prop where
  | pure {k k' : Frame} {α : Type} (value : α) : Copy N k k' (.pure value) (.pure value)
  | fail {k k' : Frame} {α : Type} (error : ParseError) :
      Copy N k k' (α := α) (.fail error) (.fail error)
  | raise {k k' : Frame} {α : Type} (exception : ε) :
      Copy N k k' (α := α) (.raise exception) (.raise exception)
  | satisfy {k k' : Frame} (accepts : Char → Bool) :
      Copy N k k' (.satisfy accepts) (.satisfy accepts)
  | string {k k' : Frame} (text : String) : Copy N k k' (.string text) (.string text)
  | position {k k' : Frame} : Copy N k k' .position .position
  | mapM {k k' : Frame} {α β : Type} (f : α → Except ε β) {p p' : Parser ε ρ α}
      (h : Copy N k k' p p') : Copy N k k' (.mapM f p) (.mapM f p')
  | applyM {k k' : Frame} {α β : Type} {p p' : Parser ε ρ (α → Except ε β)} {q q' : Parser ε ρ α}
      (h : Copy N k k' p p') (hq : Copy N k k' q q') : Copy N k k' (.applyM p q) (.applyM p' q')
  | bind {k k' : Frame} {α β : Type} {p p' : Parser ε ρ α} {f f' : α → Parser ε ρ β}
      (h : Copy N k k' p p') (hf : ∀ x, Copy N k k' (f x) (f' x)) :
      Copy N k k' (.bind p f) (.bind p' f')
  | alt {k k' : Frame} {α : Type} {p p' q q' : Parser ε ρ α} (h : Copy N k k' p p')
      (hq : Copy N k k' q q') : Copy N k k' (.alt p q) (.alt p' q')
  | label {k k' : Frame} {α : Type} {p p' : Parser ε ρ α} (h : Copy N k k' p p') (name : String) :
      Copy N k k' (.label p name) (.label p' name)
  | suggest {k k' : Frame} {α : Type} {p p' : Parser ε ρ α} (h : Copy N k k' p p')
      (suggestion : Suggestion) : Copy N k k' (.suggest p suggestion) (.suggest p' suggestion)
  | attempt {k k' : Frame} {α : Type} {p p' : Parser ε ρ α} (h : Copy N k k' p p') :
      Copy N k k' (.attempt p) (.attempt p')
  | lookAhead {k k' : Frame} {α : Type} {p p' : Parser ε ρ α} (h : Copy N k k' p p') :
      Copy N k k' (.lookAhead p) (.lookAhead p')
  | notFollowedBy {k k' : Frame} {α : Type} (shown : α → String) {p p' : Parser ε ρ α}
      (h : Copy N k k' p p') : Copy N k k' (.notFollowedBy shown p) (.notFollowedBy shown p')
  | advancing {k k' : Frame} {α : Type} {p p' : Parser ε ρ α} (h : Copy N k k' p p') :
      Copy N k k' (.advancing p) (.advancing p')
  | tailRec {k k' : Frame} {σ α : Type} {step step' : σ → Parser ε ρ (Step σ α)}
      (h : ∀ state, Copy N k k' (step state) (step' state)) (initial : σ) :
      Copy N k k' (.tailRec step initial) (.tailRec step' initial)
  | deferred {k k' : Frame} {α : Type} {cell cell' : Cell} {rule rule' : ρ α}
      (hc : cell.frame < k) (hc' : cell'.frame < k') (h : N.same k k' rule rule') :
      Copy N k k' (.deferred cell rule) (.deferred cell' rule')
  | fresh {k k' : Frame} {α : Type} {p p' : Frame → Parser ε ρ α}
      (h : ∀ frame frame',
        Copy N (max k (frame + 1)) (max k' (frame' + 1)) (p frame) (p' frame')) :
      Copy N k k' (.fresh p) (.fresh p')
  | trace {k k' : Frame} (name : String) : Copy N k k' (.trace name) (.trace name)
  | traced {k k' : Frame} {α : Type} (name : String) {p p' : Parser ε ρ α}
      (h : Copy N k k' p p') : Copy N k k' (.traced name p) (.traced name p')
  | visit {k k' : Frame} {α : Type} (name : String) {p p' : Parser ε ρ α}
      (h : Copy N k k' p p') : Copy N k k' (.visit name p) (.visit name p')
  | custom {k k' : Frame} {α : Type} (answer : Cursor → Outcome ε α) :
      Copy N k k' (.custom answer) (.custom answer)

/-- Two computations that give results which compare, or raise the same exception. -/
inductive Agree {A B : Type 1} (R : A → B → Prop) : Except ε A → Except ε B → Prop where
  | ok {x : A} {y : B} (h : R x y) : Agree R (.ok x) (.ok y)
  | error (exception : ε) : Agree R (.error exception) (.error exception)

/-- Two computations that agree go on with values that are related, or end with the same
exception. -/
theorem Agree.bind {A B C D : Type 1} {R : A → B → Prop} {S : C → D → Prop} {x : Except ε A}
    {y : Except ε B} {f : A → Except ε C} {f' : B → Except ε D} (h : Agree R x y)
    (hf : ∀ {a b}, R a b → Agree S (f a) (f' b)) : Agree S (x >>= f) (y >>= f') := by
  cases h with
  | ok h => exact hf h
  | error exception => exact .error exception

namespace Grammar

/-- Copies of a rule are built as copies of a parser, or raise the same exception. -/
def Uniform (g : Grammar ε ρ) (N : Naming ρ) : Prop :=
  ∀ {k k' : Frame} {α : Type} {rule rule' : ρ α}, N.same k k' rule rule' → ∀ frame frame',
    Agree (Parser.Copy N (max k (frame + 1)) (max k' (frame' + 1))) (g.build rule frame)
      (g.build rule' frame')

/-! ### Entering deferred parsers -/

/-- Builds a deferred parser in a frame of its own, and keeps nothing. -/
def enterAnew (g : Grammar ε ρ) (run : {α : Type} → Parser ε ρ α → Behaviour ε α) (rule : ρ α) :
    Behaviour ε α :=
  .fresh fun frame =>
    match g.build rule frame with
    | .ok p => run p
    | .error exception => .throw (.raised exception)

/-- Runs a parser as `run` does, but builds every deferred parser anew when it is entered. -/
def runAnew (g : Grammar ε ρ) : Nat → {α : Type} → Parser ε ρ α → Behaviour ε α
  | 0, _, p => p.behaviour (fun _ _ => .exhausted) 0
  | fuel + 1, _, p => p.behaviour (fun _ rule => g.enterAnew (g.runAnew fuel) rule) (fuel + 1)

/-- What deferred parsers do in such a run with the given fuel. -/
def enteredAnew (g : Grammar ε ρ) : Nat → {α : Type} → Cell → ρ α → Behaviour ε α
  | 0, _, _, _ => .exhausted
  | fuel + 1, _, _, rule => g.enterAnew (g.runAnew fuel) rule

/-- A run that keeps nothing does what its text says, where deferred parsers are built each time. -/
theorem runAnew_eq (g : Grammar ε ρ) (fuel : Nat) (p : Parser ε ρ α) :
    g.runAnew fuel p = p.behaviour (g.enteredAnew fuel) fuel := by
  cases fuel with
  | zero => rfl
  | succ fuel => rfl

variable {g : Grammar ε ρ}

/-- The behaviour runs what is built for the rule in some frame, or raises the exception that is
raised there, and takes no notes before. -/
def Enters (g : Grammar ε ρ) (run : Parser ε ρ α → Behaviour ε α) (rule : ρ α)
    (b : Behaviour ε α) : Prop :=
  ∀ c s, ∃ frame s', s'.notes = s.notes ∧ b c s =
    match g.build rule frame with
    | .ok p => run p c s'
    | .error exception => (.thrown (.raised exception), s')

/-- Entering a cell runs what is built for the rule, now or before. -/
theorem enters_enter (run : {α : Type} → Parser ε ρ α → Behaviour ε α) (cell : Cell) (rule : ρ α) :
    g.Enters run rule (g.enter run cell rule) := by
  intro c s
  simp only [enter]
  cases s.built? cell with
  | some frame => exact ⟨frame, s, rfl, rfl⟩
  | none =>
      refine ⟨s.openFrame.1, ?_⟩
      cases g.build rule s.openFrame.1 with
      | ok p => exact ⟨_, by simp, rfl⟩
      | error e => exact ⟨_, by simp, rfl⟩

/-- Without cells what is built is run at once. -/
theorem enters_enterAnew (run : {α : Type} → Parser ε ρ α → Behaviour ε α) (rule : ρ α) :
    g.Enters run rule (g.enterAnew run rule) := by
  intro c s
  refine ⟨s.openFrame.1, s.openFrame.2, rfl, ?_⟩
  simp only [enterAnew, Behaviour.fresh]
  cases g.build rule s.openFrame.1 with
  | ok p => rfl
  | error e => rfl

/-- Copies of a rule are entered in step if copies of parsers are run in step. -/
theorem Enters.inStep {R : List Event → List Event → Prop} (hg : g.Uniform N)
    {run run' : Parser ε ρ α → Behaviour ε α} {rule rule' : ρ α} {b b' : Behaviour ε α}
    (hb : g.Enters run rule b) (hb' : g.Enters run' rule' b') (hr : N.same k k' rule rule')
    (runs : ∀ {k k' : Frame} {p p'}, p.Copy N k k' p' →
      (Comparison.ofNotes R).InStep (run p) (run' p')) :
    (Comparison.ofNotes R).InStep b b' := by
  rintro c _ s t rfl hs
  obtain ⟨frame, s', notes, h⟩ := hb c s
  obtain ⟨frame', t', notes', h'⟩ := hb' c t
  have hs' : R s'.notes t'.notes := notes.symm ▸ notes'.symm ▸ hs
  have built := hg hr frame frame'
  rw [h, h']
  generalize g.build rule frame = x, g.build rule' frame' = x' at built ⊢
  cases built with
  | ok copy => exact runs copy c c s' t' rfl hs'
  | error e => exact .of_session _ hs'

end Grammar

/-! ### Copies run in step -/

section

variable {R : List Event → List Event → Prop}
  (cons : ∀ {u v} (event : Event), R u v → R (event :: u) (event :: v))

include cons

open Comparison in
/-- Copies of a parser are in step if copies of the rules that they defer to are. -/
theorem Parser.Copy.inStep {enter enter' : {α : Type} → Cell → ρ α → Behaviour ε α}
    (he : ∀ {k k' : Frame} {α : Type} (cell cell' : Cell) {rule rule' : ρ α},
      N.same k k' rule rule' → (ofNotes R).InStep (enter cell rule) (enter' cell' rule')) (n : Nat)
    {p p' : Parser ε ρ α} (h : p.Copy N k k' p') :
    (ofNotes R).InStep (p.behaviour enter n) (p'.behaviour enter' n) := by
  have record {s t : Session} (e : Event) (hs : R s.notes t.notes) :=
    Session.notes_record_of cons hs e
  induction h with
  | pure value => exact inStep_of_answer fun c => .success value c
  | fail error => exact inStep_of_answer fun c => .failure c.offset error
  | raise exception => exact inStep_of_answer fun _ => .thrown (.raised exception)
  | satisfy accepts => exact inStep_satisfy accepts
  | string text => exact inStep_string text
  | position => exact inStep_of_answer fun c => .success c.offset c
  | mapM f _ ih => exact ih.map
  | applyM _ _ ih ihq => exact ih.apply ihq
  | bind _ _ ih ihf => exact ih.bind ihf
  | alt _ _ ih ihq => exact ih.alt ihq
  | label _ name ih => exact ih.label name
  | suggest _ suggestion ih => exact ih.suggest suggestion
  | attempt _ ih => exact ih.attempt
  | lookAhead _ ih => exact ih.lookAhead
  | notFollowedBy shown _ ih => exact ih.notFollowedBy
  | advancing _ ih => exact ih.advancing
  | tailRec _ initial ih => exact .loop ih n initial
  | deferred _ _ hr => exact he _ _ hr
  | fresh _ ih => exact fun c c' s t hc hs => ih s.openFrame.1 t.openFrame.1 c c' _ _ hc hs
  | trace name => exact inStep_trace (fun m hs => record (.logged m) hs) name
  | traced name _ ih => exact ih.traced (fun m hs => record (.logged m) hs) name
  | visit name _ ih =>
      refine ih.visit fun hc hs => ?_
      cases hc
      exact record _ hs
  | custom answer => exact inStep_of_answer answer

end

namespace Grammar

variable {g : Grammar ε ρ} {enter enter' : Nat → {α : Type} → Cell → ρ α → Behaviour ε α}

/-- With fuel, entering a deferred parser runs what is built for its rule with one unit of fuel
less. -/
structure Building (g : Grammar ε ρ) (enter : Nat → {α : Type} → Cell → ρ α → Behaviour ε α) :
    Prop where
  zero {α : Type} (cell : Cell) (rule : ρ α) : enter 0 cell rule = .exhausted
  succ (n : Nat) {α : Type} (cell : Cell) (rule : ρ α) :
    g.Enters (fun p => p.behaviour (enter n) n) rule (enter (n + 1) cell rule)

theorem building_entered : g.Building g.entered where
  zero _ _ := rfl
  succ n α cell rule := by
    have run : (fun p : Parser ε ρ α => p.behaviour (g.entered n) n) = g.run n :=
      funext fun p => (g.run_eq n p).symm
    rw [run]
    exact enters_enter (g.run n) cell rule

theorem building_enteredAnew : g.Building g.enteredAnew where
  zero _ _ := rfl
  succ n α cell rule := by
    have run : (fun p : Parser ε ρ α => p.behaviour (g.enteredAnew n) n) = g.runAnew n :=
      funext fun p => (g.runAnew_eq n p).symm
    rw [run]
    exact enters_enterAnew (g.runAnew n) rule

section

variable {R : List Event → List Event → Prop}
  (cons : ∀ {u v} (event : Event), R u v → R (event :: u) (event :: v))

include cons

/-- Rules that are the same up to naming are built alike in any two cells, whichever way they are
entered. -/
theorem Building.inStep (hg : g.Uniform N) (h : g.Building enter) (h' : g.Building enter')
    (n : Nat) : ∀ {k k' : Frame} {α : Type} (cell cell' : Cell) {rule rule' : ρ α},
      N.same k k' rule rule' →
        (Comparison.ofNotes R).InStep (enter n cell rule) (enter' n cell' rule') := by
  induction n with
  | zero =>
      intro _ _ _ cell cell' rule rule' _
      rw [h.zero, h'.zero]
      exact Comparison.inStep_of_answer fun _ => .exhausted
  | succ n ih =>
      intro _ _ _ cell cell' rule rule' hr
      exact (h.succ n cell rule).inStep hg (h'.succ n cell' rule') hr fun copy =>
        copy.inStep cons ih n

/-- Copies come to the same outcome in a run, and what two runs have in common of their notes
remains. -/
theorem Uniform.run_inStep_of (hg : g.Uniform N) {p p' : Parser ε ρ α} (h : p.Copy N k k' p')
    (n : Nat) : (Comparison.ofNotes R).InStep (g.run n p) (g.run n p') := by
  rw [run_eq, run_eq]
  exact h.inStep cons (building_entered.inStep cons hg building_entered n) n

end

/-- Copies take the same notes in a run and come to the same outcome. -/
theorem Uniform.run_inStep (hg : g.Uniform N) {p p' : Parser ε ρ α} (h : p.Copy N k k' p')
    (n : Nat) :
    sameNotes.InStep (g.run n p) (g.run n p') :=
  hg.run_inStep_of (fun event => congrArg (event :: ·)) h n

/-- To keep what is built in cells changes nothing that is noted. -/
theorem Uniform.runAnew_inStep (hg : g.Uniform N) {p p' : Parser ε ρ α} (h : p.Copy N k k' p')
    (n : Nat) : sameNotes.InStep (g.run n p) (g.runAnew n p') := by
  have cons {u v : List Event} (event : Event) (same : u = v) := congrArg (event :: ·) same
  rw [run_eq, runAnew_eq]
  exact h.inStep cons (building_entered.inStep cons hg building_enteredAnew n) n

end Grammar

end Parsing
