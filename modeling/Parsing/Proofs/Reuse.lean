import Parsing.Proofs.Uniform

/-!
# Reuse

A parser is run again and again, on whatever texts and from whatever places, and what a run builds
is there for the next (`Grammar.runAll`).

**Reuse goes unnoticed** (`Grammar.run_reused`).  Each run comes to the outcome, and takes the
notes, of a run of a copy of the parser in a new session, and of a run that keeps nothing and builds
every deferred parser whenever it is entered.  A program therefore answers each of its requests as
if there had been no others (`Script.Program.answerAll_noted`).

What happens to a cell over all the runs is seen when a probe is put in front of every deferred
parser (`Parser.watched`), which changes nothing but the probes that are passed.  A cell is entered
in vain while building its parser raises an exception, which is tried again with every entry; the
first building that succeeds fills the cell, and from then on it is entered without building
(`Lifecycle`).  The invariant that carries this through a run (`Watched`) speaks of all cells of a
session.  It is about one run with the probes and one without, side by side, and about all frames
that have been opened, since a text names no cells but those of such frames.
-/

namespace Parsing

variable {ε : Type} {ρ : Type → Type} {α : Type} {N : Naming ρ}

namespace Session

variable {s : Session} {cell other : Cell} {frame : Frame}

@[simp]
theorem frames_record (s : Session) (event : Event) : (s.record event).frames = s.frames := rfl

@[simp]
theorem size_openFrame (s : Session) : s.openFrame.2.frames.size = s.frames.size + 1 := by
  simp [openFrame]

@[simp]
theorem size_fill (s : Session) (cell : Cell) (frame : Frame) :
    (s.fill cell frame).frames.size = s.frames.size := by
  simp [fill]

@[simp]
theorem built?_record (s : Session) (event : Event) (cell : Cell) :
    (s.record event).built? cell = s.built? cell := rfl

theorem built?_withoutJournal (s : Session) (cell : Cell) :
    s.withoutJournal.built? cell = s.built? cell := rfl

@[simp]
theorem withoutJournal_start : start.withoutJournal = start := rfl

theorem built?_start (cell : Cell) : start.built? cell = none := by
  rcases cell with ⟨_ | frame, site⟩
  · rfl
  · rfl

/-- Nothing is built in a new frame. -/
@[simp]
theorem built?_openFrame (s : Session) (cell : Cell) :
    s.openFrame.2.built? cell = s.built? cell := by
  simp only [built?, openFrame, Array.getElem?_push]
  split
  · next h => simp [h]
  · rfl

theorem built?_fill_self (h : cell.frame < s.frames.size) :
    (s.fill cell frame).built? cell = some frame := by
  simp only [built?, fill, Array.getElem?_modify, if_true, Array.getElem?_eq_getElem h]
  simp

theorem built?_fill_of_ne (h : other ≠ cell) :
    (s.fill cell frame).built? other = s.built? other := by
  simp only [built?, fill, Array.getElem?_modify]
  split
  · next hf =>
      have hs : other.site ≠ cell.site := fun e => h (by cases other; cases cell; simp_all)
      cases s.frames[other.frame]? with
      | none => rfl
      | some sites => simp [List.lookup_cons, beq_false_of_ne hs]
  · rfl

end Session

/-! ### Probes in front of what is deferred -/

/-- The parser with a probe in front of each deferred parser, and no other probes. -/
def Parser.watched (probe : Cell → String) : {α : Type} → Parser ε ρ α → Parser ε ρ α
  | _, .pure value => .pure value
  | _, .fail error => .fail error
  | _, .raise exception => .raise exception
  | _, .satisfy accepts => .satisfy accepts
  | _, .string text => .string text
  | _, .position => .position
  | _, .mapM f p => .mapM f (p.watched probe)
  | _, .applyM p q => .applyM (p.watched probe) (q.watched probe)
  | _, .bind p f => .bind (p.watched probe) fun x => (f x).watched probe
  | _, .alt p q => .alt (p.watched probe) (q.watched probe)
  | _, .label p name => .label (p.watched probe) name
  | _, .suggest p suggestion => .suggest (p.watched probe) suggestion
  | _, .attempt p => .attempt (p.watched probe)
  | _, .lookAhead p => .lookAhead (p.watched probe)
  | _, .notFollowedBy shown p => .notFollowedBy shown (p.watched probe)
  | _, .advancing p => .advancing (p.watched probe)
  | _, .tailRec step initial => .tailRec (fun state => (step state).watched probe) initial
  | _, .deferred cell rule => .visit (probe cell) (.deferred cell rule)
  | _, .fresh p => .fresh fun frame => (p frame).watched probe
  | _, .trace name => .trace name
  | _, .traced name p => .traced name (p.watched probe)
  | _, .visit _ p => p.watched probe
  | _, .custom answer => .custom answer

/-- A probe for each cell, which tells its frame and its site. -/
def Cell.probe (cell : Cell) : String :=
  String.ofList (List.replicate cell.frame 'f' ++ List.replicate cell.site 's')

theorem Cell.probe_injective : Cell.probe.Injective := by
  intro a b h
  have count (letter : Char) := congrArg (List.count letter) (String.ofList_injective h)
  have frame : a.frame = b.frame := by simpa [List.count_replicate] using count 'f'
  have site : a.site = b.site := by simpa [List.count_replicate] using count 's'
  cases a; cases b
  exact congrArg₂ Cell.mk frame site

/-- The grammar in which everything is built with these probes. -/
def Grammar.watched (g : Grammar ε ρ) (probe : Cell → String) : Grammar ε ρ where
  build rule frame := (g.build rule frame).map fun p => p.watched probe
  label := g.label

/-! ### The history of a cell -/

/-- What can happen to a cell: its parser is entered, building it raises an exception, or it is
built and fills the cell. -/
inductive Moment where
  | entered
  | raised
  | filled
  deriving DecidableEq

/-- What an event is in the history of a cell. -/
def Event.moment? (probe : Cell → String) (cell : Cell) : Event → Option Moment
  | .logged _ => none
  | .visited label _ => if label = probe cell then some .entered else none
  | .built cell' _ succeeded =>
    if cell' = cell then some (if succeeded then .filled else .raised) else none

/-- The history of a cell in a run with probes. -/
def history (probe : Cell → String) (cell : Cell) (events : List Event) : List Moment :=
  events.filterMap (Event.moment? probe cell)

/-- Every entry has had the parser of the cell built, and that has raised an exception. -/
inductive Vain : List Moment → Prop where
  | nil : Vain []
  | again {l : List Moment} (h : Vain l) : Vain (l ++ [.entered, .raised])

/-- After entries in vain, one has filled the cell, and no other since has built its parser. -/
inductive Kept : List Moment → Prop where
  | filled {l : List Moment} (h : Vain l) : Kept (l ++ [.entered, .filled])
  | again {l : List Moment} (h : Kept l) : Kept (l ++ [.entered])

/-- The history of a cell that is empty, or in which the parser built in a frame is kept. -/
def Lifecycle (l : List Moment) : Option Frame → Prop
  | none => Vain l
  | some _ => Kept l

theorem Vain.count_filled {l : List Moment} (h : Vain l) : l.count .filled = 0 := by
  induction h with
  | nil => rfl
  | again _ ih => simp [ih]

theorem Lifecycle.count_filled_le {l : List Moment} {kept : Option Frame} (h : Lifecycle l kept) :
    l.count .filled ≤ 1 := by
  cases kept with
  | none => exact Nat.le_trans (Nat.le_of_eq (Vain.count_filled h)) (Nat.zero_le 1)
  | some frame =>
      induction (h : Kept l) with
      | filled h => simp [h.count_filled]
      | again _ ih => simpa using ih

/-- The history of a cell in events that are past and in those of a session. -/
def Session.story (s : Session) (probe : Cell → String) (past : List Event) (cell : Cell) :
    List Moment :=
  history probe cell (past ++ s.events)

namespace Session

variable (s : Session) (probe : Cell → String) (past : List Event) (cell : Cell)

@[simp]
theorem story_record (event : Event) : (s.record event).story probe past cell =
    s.story probe past cell ++ (event.moment? probe cell).toList := by
  simp only [story, history, events, record, List.reverse_cons, ← List.append_assoc,
    List.filterMap_append]
  cases h : event.moment? probe cell with
  | none => simp [h]
  | some m => simp [h]

@[simp]
theorem story_openFrame : s.openFrame.2.story probe past cell = s.story probe past cell := rfl

@[simp]
theorem story_fill (other : Cell) (frame : Frame) :
    (s.fill other frame).story probe past cell = s.story probe past cell := rfl

theorem story_withoutJournal :
    s.withoutJournal.story probe (past ++ s.events) cell = s.story probe past cell := by
  simp [story, events, withoutJournal]

end Session

/-! ### Running with and without the probes -/

/-- Whether an event is the passing of a probe. -/
def Event.probed : Event → Bool
  | .visited .. => true
  | .logged _ | .built .. => false

/-- A session `s` of a run, and the session `t` of the same run with the probes: they differ in
probes passed, at least `k` frames are open, and the history of every cell is as it should be. -/
structure Watched (probe : Cell → String) (past : List Event) (k : Frame) (s t : Session) :
    Prop where
  frames : t.frames = s.frames
  journal : t.journal.filter (! ·.probed) = s.journal.filter (! ·.probed)
  size : k ≤ t.frames.size
  opened : ∀ cell frame, t.built? cell = some frame → frame < t.frames.size
  tracked : ∀ cell, Lifecycle (t.story probe past cell) (t.built? cell)

namespace Watched

variable {probe : Cell → String} {past : List Event} {j k : Frame} {s t : Session}

theorem mono (h : Watched probe past k s t) (hj : j ≤ k) : Watched probe past j s t :=
  ⟨h.frames, h.journal, Nat.le_trans hj h.size, h.opened, h.tracked⟩

theorem built?_eq (h : Watched probe past k s t) (cell : Cell) : t.built? cell = s.built? cell := by
  rw [Session.built?, Session.built?, h.frames]

theorem start (probe : Cell → String) : Watched probe [] 1 .start .start where
  frames := rfl
  journal := rfl
  size := Nat.le_refl 1
  opened cell frame h := by rw [Session.built?_start] at h; cases h
  tracked cell := by rw [Session.built?_start]; exact .nil

/-- The next run goes on with the same frames, and what has been told is past. -/
theorem withoutJournal (h : Watched probe past k s t) :
    Watched probe (past ++ t.events) k s.withoutJournal t.withoutJournal where
  frames := h.frames
  journal := rfl
  size := h.size
  opened := h.opened
  tracked cell := by
    rw [Session.story_withoutJournal]
    exact h.tracked cell

theorem log (h : Watched probe past k s t) (message : String) :
    Watched probe past k (s.log message) (t.log message) where
  frames := h.frames
  journal := by
    have := h.journal
    simp_all [Session.log, Session.record, Event.probed]
  size := h.size
  opened := h.opened
  tracked cell := by
    rw [Session.log, Session.story_record, Session.built?_record]
    simpa [Event.moment?] using h.tracked cell

/-- The parser's own probes are not passed in the run with the others. -/
theorem visited (h : Watched probe past k s t) (label : String) (offset : Nat) :
    Watched probe past k (s.record (.visited label offset)) t :=
  ⟨h.frames, h.journal, h.size, h.opened, h.tracked⟩

theorem frame_eq (h : Watched probe past k s t) : t.openFrame.1 = s.openFrame.1 := by
  rw [Session.openFrame, Session.openFrame, h.frames]

theorem openFrame (h : Watched probe past k s t) :
    Watched probe past (max k (s.openFrame.1 + 1)) s.openFrame.2 t.openFrame.2 where
  frames := congrArg (Array.push · []) h.frames
  journal := h.journal
  size := by
    rw [Session.size_openFrame, ← h.frame_eq]
    exact Nat.max_le.mpr ⟨Nat.le_succ_of_le h.size, Nat.le_refl _⟩
  opened cell frame hc := by
    rw [Session.built?_openFrame] at hc
    exact Nat.lt_of_lt_of_le (h.opened cell frame hc) (by simp)
  tracked cell := by
    rw [Session.built?_openFrame, Session.story_openFrame]
    exact h.tracked cell

/-! Entering a cell puts a probe and what becomes of the building into its history at once. -/

theorem vain (h : Watched probe past k s t) {cell : Cell} (hb : t.built? cell = none) :
    Vain (t.story probe past cell) := by
  have tracked := h.tracked cell
  rw [hb] at tracked
  exact tracked

theorem kept (h : Watched probe past k s t) {cell : Cell} {frame : Frame}
    (hb : t.built? cell = some frame) : Kept (t.story probe past cell) := by
  have tracked := h.tracked cell
  rw [hb] at tracked
  exact tracked

/-- What happens to one cell is no matter of the others. -/
theorem step (h : Watched probe past k s t) {s' t' : Session} (cell : Cell)
    (frames : t'.frames = s'.frames)
    (journal : t'.journal.filter (! ·.probed) = s'.journal.filter (! ·.probed))
    (size : j ≤ t'.frames.size) (grown : t.frames.size ≤ t'.frames.size)
    (opened : ∀ frame, t'.built? cell = some frame → frame < t'.frames.size)
    (tracked : Lifecycle (t'.story probe past cell) (t'.built? cell))
    (others : ∀ other, other ≠ cell → t'.built? other = t.built? other ∧
      t'.story probe past other = t.story probe past other) : Watched probe past j s' t' where
  frames := frames
  journal := journal
  size := size
  opened other frame hf := by
    by_cases ho : other = cell
    · exact opened frame (ho ▸ hf)
    · rw [(others other ho).1] at hf
      exact Nat.lt_of_lt_of_le (h.opened other frame hf) grown
  tracked other := by
    by_cases ho : other = cell
    · exact ho ▸ tracked
    · rw [(others other ho).1, (others other ho).2]
      exact h.tracked other

section

variable (injective : probe.Injective) {cell : Cell} (offset : Nat) (label : Option String)

include injective

/-- A cell that is full is entered without building. -/
theorem enterFull (h : Watched probe past k s t) {frame : Frame}
    (hb : t.built? cell = some frame) :
    Watched probe past (max k (frame + 1)) s (t.record (.visited (probe cell) offset)) := by
  refine h.step cell h.frames h.journal (Nat.max_le.mpr ⟨h.size, h.opened cell frame hb⟩)
    (Nat.le_refl _) (h.opened cell) ?_ fun other ho => ?_
  · simpa [hb, Lifecycle, Event.moment?] using Kept.again (h.kept hb)
  · simp [Event.moment?, injective.eq_iff, Ne.symm ho]

/-- A cell stays empty if building its parser raises an exception. -/
theorem enterVain (h : Watched probe past k s t) (hb : t.built? cell = none) :
    Watched probe past k (s.openFrame.2.record (.built cell label false))
      ((t.record (.visited (probe cell) offset)).openFrame.2.record
        (.built cell label false)) := by
  have journal := h.journal
  refine h.step cell h.openFrame.frames ?_ (Nat.le_trans h.size (by simp)) (by simp) ?_ ?_
    fun other ho => ?_
  · simp_all [Session.openFrame, Session.record, Event.probed]
  · simp [hb]
  · simpa [hb, Lifecycle, Event.moment?] using Vain.again (h.vain hb)
  · simp [Event.moment?, injective.eq_iff, Ne.symm ho]

/-- A cell is filled if building its parser succeeds. -/
theorem enterFilled (h : Watched probe past k s t) (hc : cell.frame < k)
    (hb : t.built? cell = none) :
    Watched probe past (max k (s.openFrame.1 + 1))
      ((s.openFrame.2.record (.built cell label true)).fill cell s.openFrame.1)
      (((t.record (.visited (probe cell) offset)).openFrame.2.record
        (.built cell label true)).fill cell s.openFrame.1) := by
  have journal := h.journal
  have full : (((t.record (.visited (probe cell) offset)).openFrame.2.record
      (.built cell label true)).fill cell s.openFrame.1).built? cell = some s.openFrame.1 :=
    Session.built?_fill_self (Nat.lt_of_lt_of_le hc (Nat.le_trans h.size (by simp)))
  refine h.step cell ?_ ?_ ?_ (by simp) (fun frame hf => ?_) ?_ fun other ho => ?_
  · exact congrArg (Array.modify · cell.frame _) h.openFrame.frames
  · simp_all [Session.openFrame, Session.record, Session.fill, Event.probed]
  · simpa using h.openFrame.size
  · rw [full] at hf
    cases hf
    simp [h.frames, Session.openFrame]
  · rw [full]
    simpa [Lifecycle, Event.moment?] using Kept.filled (h.vain hb)
  · simp [Session.built?_fill_of_ne ho, Event.moment?, injective.eq_iff, Ne.symm ho]

end

end Watched

/-- A run and the same run with the probes.  Nothing is said of sessions that are left by a run that
is exhausted, which may be behind the probe and before the building. -/
def watching (probe : Cell → String) (past : List Event) (k : Frame) : Comparison :=
  .exact (Watched probe past k) (fun _ _ => True) fun _ _ _ => trivial

open Comparison in
/-- The runs are in step if entering deferred parsers is. -/
theorem Parser.Copy.watched {probe : Cell → String} {past : List Event}
    {enter enter' : {α : Type} → Cell → ρ α → Behaviour ε α}
    (he : ∀ {k k' : Frame} {α : Type} {cell : Cell} {rule rule' : ρ α}, cell.frame < k →
      N.same k k' rule rule' →
      (watching probe past k).InStep (enter cell rule) (.visit (probe cell) (enter' cell rule)))
    (n : Nat) {k k' : Frame} {p p' : Parser ε ρ α} (h : p.Copy N k k' p') :
    (watching probe past k).InStep (p.behaviour enter n)
      ((p.watched probe).behaviour enter' n) := by
  induction h with
  | pure value => exact inStep_of_answer fun c => .success value c
  | fail error => exact inStep_of_answer fun c => .failure c.offset error
  | raise exception => exact inStep_of_answer fun _ => .thrown (.raised exception)
  | satisfy accepts => exact inStep_satisfy accepts
  | string text => exact inStep_string text
  | position => exact inStep_of_answer fun c => .success c.offset c
  | mapM f _ ih => exact ih.map
  | applyM _ _ ih ihq => exact ih.apply ihq
  | bind _ _ ih ihf => exact ih.bind ihf
  | alt _ _ ih ihq => exact ih.alt ihq
  | label _ name ih => exact ih.label name
  | suggest _ suggestion ih => exact ih.suggest suggestion
  | attempt _ ih => exact ih.attempt
  | lookAhead _ ih => exact ih.lookAhead
  | notFollowedBy shown _ ih => exact ih.notFollowedBy
  | advancing _ ih => exact ih.advancing
  | tailRec _ initial ih => exact .loop ih n initial
  | deferred hc _ hr => exact he hc hr
  | @fresh k k' α p p' _ ih =>
      intro c c' s t hc hs
      have hr := ih s.openFrame.1 k' c c' _ _ hc hs.openFrame
      show (watching probe past k).Reply _ (((p t.openFrame.1).watched probe).behaviour _ _ _ _)
      rw [hs.frame_eq]
      exact hr.imp (fun w => w.mono (Nat.le_max_left k _)) id
  | trace name => exact inStep_trace (fun m hs => hs.log m) name
  | traced name _ ih => exact ih.traced (fun m hs => hs.log m) name
  | visit name _ ih => exact fun c c' s t hc hs => ih c c' _ t hc (hs.visited name c.offset)
  | custom answer => exact inStep_of_answer answer

namespace Grammar

variable {g : Grammar ε ρ} {probe : Cell → String} {past : List Event}

section

variable (hg : g.Uniform N) (injective : probe.Injective)

include hg injective

/-- A deferred parser is entered in step with the same one behind a probe. -/
theorem Uniform.enter_watched {run run' : {α : Type} → Parser ε ρ α → Behaviour ε α}
    (runs : ∀ {k k' : Frame} {α : Type} {p p' : Parser ε ρ α}, p.Copy N k k' p' →
      (watching probe past k).InStep (run p) (run' (p.watched probe)))
    {k k' : Frame} {cell : Cell} {rule rule' : ρ α} (hc : cell.frame < k)
    (hr : N.same k k' rule rule') :
    (watching probe past k).InStep (g.enter run cell rule)
      (.visit (probe cell) ((g.watched probe).enter run' cell rule)) := by
  rintro c _ s t rfl hs
  simp only [Behaviour.visit, enter, hs.built?_eq, Session.built?_record]
  cases hb : s.built? cell with
  | some frame =>
      have full := hs.enterFull injective c.offset ((hs.built?_eq cell).trans hb)
      have built := hg hr frame k'
      simp only [watched]
      generalize g.build rule frame = x, g.build rule' k' = x' at built ⊢
      cases built with
      | ok copy =>
          exact (runs copy c c s _ rfl full).imp (fun w => w.mono (Nat.le_max_left k _)) id
      | error e => exact .thrown _ (full.mono (Nat.le_max_left k _))
  | none =>
      have empty := (hs.built?_eq cell).trans hb
      have frame : (t.record (.visited (probe cell) c.offset)).openFrame.1 = s.openFrame.1 :=
        hs.frame_eq
      have built := hg hr s.openFrame.1 k'
      simp only [watched, frame]
      generalize g.build rule s.openFrame.1 = x, g.build rule' k' = x' at built ⊢
      cases built with
      | ok copy =>
          have filled := hs.enterFilled injective c.offset (g.label rule) hc empty
          exact (runs copy c c _ _ rfl filled).imp (fun w => w.mono (Nat.le_max_left k _)) id
      | error e => exact .thrown _ (hs.enterVain injective c.offset (g.label rule) empty)

theorem Uniform.entered_watched (n : Nat) : ∀ {k k' : Frame} {α : Type} {cell : Cell}
    {rule rule' : ρ α}, cell.frame < k → N.same k k' rule rule' →
      (watching probe past k).InStep (g.entered n cell rule)
        (.visit (probe cell) ((g.watched probe).entered n cell rule)) := by
  induction n with
  | zero => exact fun _ _ _ _ _ _ _ _ => .exhausted trivial
  | succ n ih =>
      intro _ _ _ _ _ _ hc hr
      refine hg.enter_watched injective (fun copy => ?_) hc hr
      rw [run_eq, run_eq]
      exact copy.watched ih n

/-- A run is in step with the same run with the probes. -/
theorem Uniform.run_watched {k k' : Frame} {p p' : Parser ε ρ α} (hp : p.Copy N k k' p')
    (n : Nat) :
    (watching probe past k).InStep (g.run n p) ((g.watched probe).run n (p.watched probe)) := by
  rw [run_eq, run_eq]
  exact hp.watched (hg.entered_watched injective n) n

end

/-! ### Runs one after the other -/

/-- What is told of a run: its outcome and the events. -/
def told (reply : Outcome ε α × Session) : Outcome ε α × List Event := (reply.1, reply.2.events)

/-- Of what is told, the answer and the notes. -/
def noted {A : Type} (report : A × List Event) : A × List Event :=
  (report.1, report.2.filter Event.noted)

/-- Of what is told, all but the probes passed. -/
def unprobed {A : Type} (report : A × List Event) : A × List Event :=
  (report.1, report.2.filter (! ·.probed))

/-- Runs a parser with each fuel and from each place that is asked for, one run after the other in
the same session. -/
def runAll (g : Grammar ε ρ) (p : Parser ε ρ α) :
    List (Nat × Cursor) → Session → List (Outcome ε α × List Event) × Session
  | [], s => ([], s)
  | (fuel, c) :: requests, s =>
    let reply := g.run fuel p c s.withoutJournal
    let (reports, last) := g.runAll p requests reply.2
    (told reply :: reports, last)

theorem noted_told_eq {r r' : Outcome ε α × Session} (h : sameNotes.Reply r r') :
    noted (told r) = noted (told r') := by
  have notes : r.2.notes = r'.2.notes := by cases h <;> assumption
  have events (s : Session) : s.events.filter Event.noted = s.notes.reverse := List.filter_reverse
  simp only [noted, told, events, notes, h.outcome_eq]

/-- In whatever session the runs are begun, each is noted as a run on its own in a new session. -/
theorem runAll_noted {p : Parser ε ρ α} {alone : Nat → Behaviour ε α}
    (h : ∀ fuel, sameNotes.InStep (g.run fuel p) (alone fuel)) (requests : List (Nat × Cursor))
    (s : Session) : (g.runAll p requests s).1.map noted =
      requests.map fun request => noted (told (alone request.1 request.2 .start)) := by
  induction requests generalizing s with
  | nil => rfl
  | cons request requests ih =>
      have first := h request.1 request.2 request.2 s.withoutJournal .start rfl rfl
      simp only [runAll, List.map_cons, noted_told_eq first, ih]

theorem unprobed_told_eq {r r' : Outcome ε α × Session} (same : r.1 = r'.1) {k : Frame}
    (h : Watched probe past k r.2 r'.2) : unprobed (told r') = unprobed (told r) := by
  have events (s : Session) : s.events.filter (! ·.probed) =
      (s.journal.filter (! ·.probed)).reverse := List.filter_reverse
  simp only [unprobed, told, events, h.journal, same]

/-- The runs with the probes are told as those without, and the histories of the cells go on from
the past. -/
theorem Uniform.runAll_watched (hg : g.Uniform N) (injective : probe.Injective) {k k' : Frame}
    {p p' : Parser ε ρ α} (hp : p.Copy N k k' p') (requests : List (Nat × Cursor)) {s t : Session}
    (h : Watched probe past k s.withoutJournal t.withoutJournal)
    (ended : ∀ report ∈ (g.runAll p requests s).1, report.1 ≠ .exhausted) :
    let bare := g.runAll p requests s
    let watched := (g.watched probe).runAll (p.watched probe) requests t
    watched.1.map unprobed = bare.1.map unprobed ∧ ∀ cell,
      Lifecycle (history probe cell (past ++ watched.1.flatMap Prod.snd)) (bare.2.built? cell) := by
  induction requests generalizing past s t with
  | nil =>
      refine ⟨rfl, fun cell => ?_⟩
      have tracked := h.tracked cell
      rw [h.built?_eq, Session.built?_withoutJournal] at tracked
      simpa [runAll, Session.story, Session.events, Session.withoutJournal] using tracked
  | cons request requests ih =>
      obtain ⟨fuel, c⟩ := request
      simp only [runAll, List.forall_mem_cons] at ended
      have reply := hg.run_watched injective hp fuel c c _ _ rfl h
      have after := reply.session_of_ended ended.1
      obtain ⟨same, lives⟩ := ih after.withoutJournal ended.2
      refine ⟨?_, fun cell => ?_⟩
      · simp only [runAll, List.map_cons, same, unprobed_told_eq reply.outcome_eq after]
      · simpa [runAll, told, List.append_assoc] using lives cell

/-- **Reuse goes unnoticed.**  Let a parser be run with any fuels and from any places, one run after
the other in the same session.  Each run comes to the outcome and takes the notes of a run of a copy
in a new session, and of a run that builds every deferred parser whenever it is entered.  Probes in
front of all deferred parsers show, if every run ends, that the parser of a cell is built when it is
entered and not before, that it is built again after it has raised an exception and on no other
entry, and that it is built with success once at the most. -/
theorem run_reused {p : Parser ε ρ α} (hg : g.Uniform N) (hp : p.Copy N 1 1 p)
    (requests : List (Nat × Cursor)) :
    let runs := g.runAll p requests .start
    (∀ (k : Frame) (q : Parser ε ρ α), p.Copy N 1 k q → runs.1.map noted =
      requests.map fun request => noted (told (g.run request.1 q request.2 .start))) ∧
    (runs.1.map noted =
      requests.map fun request => noted (told (g.runAnew request.1 p request.2 .start))) ∧
    ∀ probe : Cell → String, probe.Injective → (∀ report ∈ runs.1, report.1 ≠ .exhausted) →
      let watched := (g.watched probe).runAll (p.watched probe) requests .start
      watched.1.map unprobed = runs.1.map unprobed ∧
      ∀ cell, Lifecycle (history probe cell (watched.1.flatMap Prod.snd)) (runs.2.built? cell) ∧
        (history probe cell (watched.1.flatMap Prod.snd)).count .filled ≤ 1 := by
  refine ⟨fun k q hq => runAll_noted (hg.run_inStep hq) requests .start,
    runAll_noted (hg.runAnew_inStep hp) requests .start, fun probe injective ended => ?_⟩
  obtain ⟨same, lives⟩ :=
    hg.runAll_watched (s := .start) (t := .start) injective hp requests (.start probe) ended
  exact ⟨same, fun cell => ⟨lives cell, (lives cell).count_filled_le⟩⟩

/-- A document that breaks off, and then one that stands behind another character: the array of the
first run has had the parser of its items built, and that of the second enters it without
building. -/
theorem run_reused_documents :
    let requests : List (Nat × Cursor) :=
      [(9, .start #['[', 'n', 'u', 'l', 'l']),
        (9, ⟨#[';', '[', 'n', 'u', 'l', 'l', ']'], 1, by decide⟩)]
    let runs := (Json.grammar .standard).runAll (Json.parser .standard) requests .start
    let watched := ((Json.grammar .standard).watched Cell.probe).runAll
      ((Json.parser .standard).watched Cell.probe) requests .start
    runs.1.map noted = requests.map (fun request => noted (told
      ((Json.grammar .standard).run request.1 (Json.parser .standard) request.2 .start))) ∧
    runs.1.map noted = requests.map (fun request => noted (told
      ((Json.grammar .standard).runAnew request.1 (Json.parser .standard) request.2 .start))) ∧
    watched.1.map unprobed = runs.1.map unprobed ∧
    Lifecycle (history Cell.probe ⟨0, 0⟩ (watched.1.flatMap Prod.snd)) (runs.2.built? ⟨0, 0⟩) ∧
    history Cell.probe ⟨0, 0⟩ (watched.1.flatMap Prod.snd) = [.entered, .filled, .entered] := by
  intro requests runs watched
  have ended : ∀ report ∈ runs.1, report.1 ≠ .exhausted := by
    refine List.forall_mem_cons.mpr ⟨nofun, List.forall_mem_cons.mpr ⟨nofun, nofun⟩⟩
  obtain ⟨copies, anew, lives⟩ := run_reused Json.grammar_uniform Json.parser_copy requests
  obtain ⟨same, lives⟩ := lives Cell.probe Cell.probe_injective ended
  exact ⟨copies 1 _ Json.parser_copy, anew, same, (lives ⟨0, 0⟩).1, rfl⟩

/-- Whole texts are run in step as well: the failures that are logged are the same. -/
theorem Uniform.runText_reply (hg : g.Uniform N) {k k' : Frame} {p p' : Parser ε ρ α}
    (hp : p.Copy N k k' p') (fuel : Nat) (text : Array Char) {s t : Session}
    (hs : s.notes = t.notes) :
    sameNotes.Reply (g.runText fuel p text s) (g.runText fuel p' text t) := by
  have hr := hg.run_inStep hp fuel (.start text) _ s t rfl hs
  simp only [runText]
  generalize g.run fuel p (.start text) s = r, g.run fuel p' (.start text) t = r' at hr ⊢
  cases hr with
  | failure ho he hs =>
      cases ho
      cases he
      exact .failure rfl rfl (Session.notes_record hs _)
  | success x hd hs => exact .success x hd hs
  | thrown fault hs => exact .thrown fault hs
  | exhausted hs => exact .exhausted hs

end Grammar

/-! ### Programs -/

namespace Script.Program

open Grammar (noted told noted_told_eq)

variable {program : Program} {p : ScriptParser Value}

theorem outcome_reply (h : program.parser = .ok p) (request : Request) {s t : Session}
    (hs : s.notes = t.notes) :
    sameNotes.Reply (program.outcome p request s) (program.outcome p request t) := by
  have uniform : program.grammar.Uniform (.plain Rule) := grammar_uniform program.definitions
  have copy := parser_copy h
  cases request with
  | run text | parse text => exact uniform.runText_reply copy fuel text hs
  | atOffset text offset | describe text offset =>
      simp only [outcome]
      cases Cursor.place text offset with
      | ok c => exact uniform.run_inStep copy fuel c c s t rfl hs
      | error e => exact .thrown _ hs

/-- A program answers each of its requests as if there had been no others. -/
theorem answerAll_noted (h : program.parser = .ok p) (requests : List Request) (s : Session) :
    (program.answerAll p requests s).map noted =
      requests.map fun request => noted (program.answer p request .start).1 := by
  induction requests generalizing s with
  | nil => rfl
  | cons request requests ih =>
      have first : sameNotes.Reply (program.outcome p request s.withoutJournal)
          (program.outcome p request .start) := outcome_reply h request rfl
      have same := noted_told_eq first
      simp only [noted, told, Prod.mk.injEq] at same
      simp only [answerAll, List.map_cons, ih, answer, noted, same, Session.withoutJournal_start]

end Script.Program

end Parsing
