import Parsing.Proofs.Composed
import Parsing.Proofs.Framed
import Parsing.Proofs.Reuse

/-!
# Where suggestions come from

An error is put together piece by piece: a choice and `suggest` prepend suggestions to it, labels
keep them, other operations replace the error, and a choice that recovers forgets it.  The pieces
are the lists of suggestions that belong to parsers that fail, that read a string or that suggest
something.  **No suggestion is reordered, duplicated, split from its list or invented**
(`run_suggestions`): if a run fails, the suggestions of its error are the lists of some of the
entries of such parsers, one behind the other in the order of the entries.

The entries are made visible by probes in front of these parsers, whose names tell the lists
(`Parser.offering`).  The probes change nothing but what is noted of them (`offered`), and for a run
with the probes the statement is one invariant, kept by every operation: the lists of which the
probes have told since the run began are enough to make up the error (`Offered`).
-/

namespace Parsing

variable {ε : Type} {ρ : Type → Type} {α β σ : Type}

/-! ### Probes in front of what offers suggestions -/

/-- The parser with a probe in front of each part that offers suggestions, and no other probes. -/
def Parser.offering (probe : List Suggestion → String) : {α : Type} → Parser ε ρ α → Parser ε ρ α
  | _, .pure value => .pure value
  | _, .fail error => .visit (probe error.suggestions) (.fail error)
  | _, .raise exception => .raise exception
  | _, .satisfy accepts => .satisfy accepts
  | _, .string text => .visit (probe [⟨text, "'" ++ text ++ "'"⟩]) (.string text)
  | _, .position => .position
  | _, .mapM f p => .mapM f (p.offering probe)
  | _, .applyM p q => .applyM (p.offering probe) (q.offering probe)
  | _, .bind p f => .bind (p.offering probe) fun x => (f x).offering probe
  | _, .alt p q => .alt (p.offering probe) (q.offering probe)
  | _, .label p name => .label (p.offering probe) name
  | _, .suggest p suggestion =>
    .visit (probe [suggestion]) (.suggest (p.offering probe) suggestion)
  | _, .attempt p => .attempt (p.offering probe)
  | _, .lookAhead p => .lookAhead (p.offering probe)
  | _, .notFollowedBy shown p => .notFollowedBy shown (p.offering probe)
  | _, .advancing p => .advancing (p.offering probe)
  | _, .tailRec step initial => .tailRec (fun state => (step state).offering probe) initial
  | _, .deferred cell rule => .deferred cell rule
  | _, .fresh p => .fresh fun frame => (p frame).offering probe
  | _, .trace name => .trace name
  | _, .traced name p => .traced name (p.offering probe)
  | _, .visit _ p => p.offering probe
  | _, .custom answer => .custom answer

/-- The grammar in which everything is built with these probes. -/
def Grammar.offering (g : Grammar ε ρ) (probe : List Suggestion → String) : Grammar ε ρ where
  build rule frame := (g.build rule frame).map fun p => p.offering probe
  label := g.label

/-- A text in which the end of each word and the beginning of each character are marked. -/
def marked (text : String) : List Char := text.toList.flatMap (fun c => ['-', c]) ++ ['.']

/-- A probe that tells the completions and hints of a list. -/
def Suggestion.probe (suggestions : List Suggestion) : String :=
  String.ofList (suggestions.flatMap fun x => marked x.completion ++ marked x.hint)

/-- A marked text shows where it ends: behind a hyphen a character follows, behind a point nothing.
-/
theorem marked_append_inj {text text' : String} {l l' : List Char}
    (h : marked text ++ l = marked text' ++ l') : text = text' ∧ l = l' := by
  obtain ⟨cs, rfl⟩ : ∃ cs, text = String.ofList cs := ⟨text.toList, String.ofList_toList.symm⟩
  obtain ⟨ds, rfl⟩ : ∃ ds, text' = String.ofList ds := ⟨text'.toList, String.ofList_toList.symm⟩
  simp only [marked, String.toList_ofList] at h
  induction cs generalizing ds with
  | nil =>
      cases ds with
      | nil => exact ⟨rfl, by simpa using h⟩
      | cons d ds => simp at h
  | cons c cs ih =>
      cases ds with
      | nil => simp at h
      | cons d ds =>
          simp only [List.flatMap_cons, List.append_assoc, List.cons_append, List.nil_append,
            List.cons.injEq, true_and] at h
          obtain ⟨rfl, h⟩ := h
          obtain ⟨ht, hl⟩ := ih ds (by simpa using h)
          exact ⟨by rw [String.ofList_injective ht], hl⟩

/-- Different lists of suggestions have different probes, so that a probe tells which list was
offered. -/
theorem Suggestion.probe_injective : Suggestion.probe.Injective := by
  intro a b h
  replace h := String.ofList_injective h
  induction a generalizing b with
  | nil =>
      cases b with
      | nil => rfl
      | cons y b => simp [marked] at h
  | cons x a ih =>
      cases b with
      | nil => simp [marked] at h
      | cons y b =>
          simp only [List.flatMap_cons, List.append_assoc] at h
          obtain ⟨hc, h⟩ := marked_append_inj h
          obtain ⟨hh, h⟩ := marked_append_inj h
          rw [ih h]
          cases x; cases y
          cases hc; cases hh
          rfl

/-! ### The probes change nothing else -/

/-- A run and the same run with the probes, which have the same frames and, but for probes, the same
journal. -/
def offered : Comparison :=
  .exact
    (fun s t => s.frames = t.frames ∧
      s.journal.filter (! ·.probed) = t.journal.filter (! ·.probed))
    (fun s t => s.frames = t.frames ∧
      s.journal.filter (! ·.probed) = t.journal.filter (! ·.probed))
    fun _ _ => id

namespace offered

/-- The relation has the frames in it, so that deferred parsers are built alike. -/
theorem framed : offered.Framed :=
  Comparison.framed_of_journals
    (fun j j' => j.filter (! ·.probed) = j'.filter (! ·.probed)) (fun _ _ => .rfl)
    fun h cell label succeeded => congrArg (List.cons (Event.built cell label succeeded)) h

theorem log {s t : Session} (message : String) (h : offered.session s t) :
    offered.session (s.log message) (t.log message) :=
  ⟨h.1, congrArg (List.cons (Event.logged message)) h.2⟩

/-- A probe passed on one side is not seen. -/
theorem visit_left {p p' : Behaviour ε α} (h : offered.InStep p p') (name : String) :
    offered.InStep (Behaviour.visit name p) p' :=
  fun c c' _ t hc hs => h c c' _ t hc ⟨hs.1, hs.2⟩

theorem visit_right {p p' : Behaviour ε α} (h : offered.InStep p p') (name : String) :
    offered.InStep p (Behaviour.visit name p') :=
  fun c c' s _ hc hs => h c c' s _ hc ⟨hs.1, hs.2⟩

end offered

open Comparison in
/-- A parser goes in step with its copy with probes if deferred parsers are entered in step. -/
theorem Parser.behaviour_offering (probe : List Suggestion → String)
    {enter enter' : {α : Type} → Cell → ρ α → Behaviour ε α}
    (he : ∀ {α : Type} (cell : Cell) (rule : ρ α),
      offered.InStep (enter cell rule) (enter' cell rule)) (n : Nat) :
    ∀ {α : Type} (p : Parser ε ρ α),
      offered.InStep (p.behaviour enter n) ((p.offering probe).behaviour enter' n)
  | _, .pure value => inStep_of_answer fun c => .success value c
  | _, .fail error => offered.visit_right (inStep_of_answer fun c => .failure c.offset error) _
  | _, .raise exception => inStep_of_answer fun _ => .thrown (.raised exception)
  | _, .satisfy accepts => inStep_satisfy accepts
  | _, .string text => offered.visit_right (inStep_string text) _
  | _, .position => inStep_of_answer fun c => .success c.offset c
  | _, .mapM _ p => (behaviour_offering probe he n p).map
  | _, .applyM p q => (behaviour_offering probe he n p).apply (behaviour_offering probe he n q)
  | _, .bind p f =>
      (behaviour_offering probe he n p).bind fun x => behaviour_offering probe he n (f x)
  | _, .alt p q => (behaviour_offering probe he n p).alt (behaviour_offering probe he n q)
  | _, .label p name => (behaviour_offering probe he n p).label name
  | _, .suggest p x => offered.visit_right ((behaviour_offering probe he n p).suggest x) _
  | _, .attempt p => (behaviour_offering probe he n p).attempt
  | _, .lookAhead p => (behaviour_offering probe he n p).lookAhead
  | _, .notFollowedBy _ p => (behaviour_offering probe he n p).notFollowedBy
  | _, .advancing p => (behaviour_offering probe he n p).advancing
  | _, .tailRec step initial =>
      .loop (fun state => behaviour_offering probe he n (step state)) n initial
  | _, .deferred cell rule => he cell rule
  | _, .fresh p => offered.framed.fresh fun frame => behaviour_offering probe he n (p frame)
  | _, .trace name => inStep_trace offered.log name
  | _, .traced name p => (behaviour_offering probe he n p).traced offered.log name
  | _, .visit name p => offered.visit_left (behaviour_offering probe he n p) name
  | _, .custom answer => inStep_of_answer answer

namespace Grammar

variable (g : Grammar ε ρ) (probe : List Suggestion → String)

/-- Rules with probes in them run in lockstep with the rules as they were. -/
theorem entered_offering : ∀ (fuel : Nat) {α : Type} (cell : Cell) (rule : ρ α),
    offered.InStep (g.entered fuel cell rule) ((g.offering probe).entered fuel cell rule)
  | 0, _, _, _ => fun _ _ _ _ _ hs => .exhausted hs
  | fuel + 1, _, cell, rule => by
      refine offered.framed.enter cell rfl fun frame => ?_
      simp only [offering]
      cases g.build rule frame with
      | ok p =>
          refine .ok ?_
          rw [run_eq, run_eq]
          exact p.behaviour_offering probe (entered_offering fuel) fuel
      | error e => exact .error e

/-- A run with probes in front of what offers suggestions is the run without them but for the
probes. -/
theorem run_offering (fuel : Nat) (p : Parser ε ρ α) :
    offered.InStep (g.run fuel p) ((g.offering probe).run fuel (p.offering probe)) := by
  rw [run_eq, run_eq]
  exact p.behaviour_offering probe (g.entered_offering probe fuel) fuel

end Grammar

/-! ### What the probes tell -/

namespace Session

/-- The names of the probes passed, in order. -/
def probes (s : Session) : List String :=
  s.events.filterMap fun
    | .visited label _ => some label
    | .logged _ | .built .. => none

variable (s : Session)

/-- A probe that is passed comes last. -/
@[simp]
theorem probes_visited (label : String) (offset : Nat) :
    (s.record (.visited label offset)).probes = s.probes ++ [label] := by
  simp [probes, events, record]

/-- Logged lines are no probes. -/
@[simp]
theorem probes_log (message : String) : (s.log message).probes = s.probes := by
  simp [probes, events, log, record]

/-- A cell that is built is not a probe. -/
@[simp]
theorem probes_built (cell : Cell) (label : Option String) (succeeded : Bool) :
    (s.record (.built cell label succeeded)).probes = s.probes := by
  simp [probes, events, record]

@[simp]
theorem probes_openFrame : s.openFrame.2.probes = s.probes := rfl

@[simp]
theorem probes_fill (cell : Cell) (frame : Frame) : (s.fill cell frame).probes = s.probes := rfl

end Session

/-- From `s` to `s'`, probes have been passed that tell of the lists. -/
def Session.Tells (probe : List Suggestion → String) (s : Session)
    (lists : List (List Suggestion)) (s' : Session) : Prop :=
  s'.probes = s.probes ++ lists.map probe

namespace Session.Tells

variable {probe : List Suggestion → String} {s s' s'' : Session}
  {lists later : List (List Suggestion)}

/-- No probe has been passed. -/
theorem silent (h : s'.probes = s.probes) : s.Tells probe [] s' := by
  simp [Tells, h]

/-- The probe of a list tells that list. -/
theorem visited (list : List Suggestion) (offset : Nat) :
    s.Tells probe [list] (s.record (.visited (probe list) offset)) :=
  probes_visited s (probe list) offset

/-- What is told later comes behind what was told before. -/
theorem trans (h : s.Tells probe lists s') (h' : s'.Tells probe later s'') :
    s.Tells probe (lists ++ later) s'' := by
  unfold Tells at h h' ⊢
  rw [h', h, List.map_append, List.append_assoc]

theorem log (h : s.Tells probe lists s') (message : String) :
    s.Tells probe lists (s'.log message) :=
  (probes_log s' message).trans h

end Session.Tells

/-- The suggestions of the error are those of some of the lists, in their order. -/
def ParseError.GatheredFrom (e : ParseError) (lists : List (List Suggestion)) : Prop :=
  ∃ some : List (List Suggestion), some.Sublist lists ∧ e.suggestions = some.flatten

namespace ParseError.GatheredFrom

variable {e f : ParseError} {lists later : List (List Suggestion)}

/-- An error without suggestions has them from anywhere. -/
theorem none (message : String) (lists : List (List Suggestion)) :
    GatheredFrom ⟨message, []⟩ lists := ⟨[], List.nil_sublist lists, rfl⟩

/-- The suggestions of an error may be told as one list. -/
theorem self (e : ParseError) : e.GatheredFrom [e.suggestions] :=
  ⟨[e.suggestions], .refl _, by simp⟩

/-- An error may leave earlier lists out. -/
theorem after (h : e.GatheredFrom later) (lists : List (List Suggestion)) :
    e.GatheredFrom (lists ++ later) := by
  obtain ⟨some, hs, he⟩ := h
  exact ⟨some, hs.trans (List.sublist_append_right lists later), he⟩

/-- If one error's suggestions are put in front of another's, what was told for the first stands in
front too. -/
theorem withSuggestions (h : f.GatheredFrom lists) (he : e.GatheredFrom later) :
    (e.withSuggestions f.suggestions).GatheredFrom (lists ++ later) := by
  obtain ⟨some, hs, hf⟩ := h
  obtain ⟨more, hm, he⟩ := he
  exact ⟨some ++ more, hs.append hm, by simp [hf, he]⟩

end ParseError.GatheredFrom

/-- The probes passed since `s` tell of lists from which the error has been gathered, if the reply
is a failure. -/
inductive Offered (probe : List Suggestion → String) (s : Session) : Outcome ε α × Session → Prop
  | success (x : α) (d : Cursor) {lists : List (List Suggestion)} {s' : Session}
      (h : s.Tells probe lists s') : Offered probe s (.success x d, s')
  | failure (offset : Int) {e : ParseError} {lists : List (List Suggestion)} {s' : Session}
      (h : s.Tells probe lists s') (he : e.GatheredFrom lists) :
      Offered probe s (.failure offset e, s')
  | thrown (fault : Fault ε) {lists : List (List Suggestion)} {s' : Session}
      (h : s.Tells probe lists s') : Offered probe s (.thrown fault, s')
  | exhausted {lists : List (List Suggestion)} {s' : Session} (h : s.Tells probe lists s') :
      Offered probe s (.exhausted, s')

/-- What is offered from a later session on is offered altogether. -/
theorem Offered.after {probe : List Suggestion → String} {s s' : Session}
    {lists : List (List Suggestion)} {r : Outcome ε α × Session} (h : s.Tells probe lists s')
    (hr : Offered probe s' r) : Offered probe s r := by
  cases hr with
  | success x d h' => exact .success x d (h.trans h')
  | failure o h' he => exact .failure o (h.trans h') (he.after lists)
  | thrown fault h' => exact .thrown fault (h.trans h')
  | exhausted h' => exact .exhausted (h.trans h')

/-- From every cursor and session, the probes tell enough to make up the error. -/
def Behaviour.Offers (probe : List Suggestion → String) (p : Behaviour ε α) : Prop :=
  ∀ c s, Offered probe s (p c s)

namespace Behaviour.Offers

variable {probe : List Suggestion → String} {p : Behaviour ε α}

open Session (Tells)

/-! ### Reading -/

theorem pure (x : α) : (Behaviour.pure x : Behaviour ε α).Offers probe :=
  fun c _ => .success x c (.silent rfl)

/-- An exception tells nothing. -/
theorem throw (fault : Fault ε) : (Behaviour.throw fault : Behaviour ε α).Offers probe :=
  fun _ _ => .thrown fault (.silent rfl)

theorem unsuggested (message : String) :
    (Behaviour.fail ⟨message, []⟩ : Behaviour ε α).Offers probe :=
  fun c _ => .failure c.offset (.silent rfl) (.none message [])

/-- A parser that fails offers the suggestions of its error, and they have just been told. -/
theorem fail (e : ParseError) :
    (Behaviour.visit (probe e.suggestions) (.fail e) : Behaviour ε α).Offers probe :=
  fun c _ => .failure c.offset (.visited e.suggestions c.offset) (.self e)

/-- Reading tells nothing, and out of range it is an exception. -/
theorem skip (x : α) (n : Int) : (Behaviour.skip x n : Behaviour ε α).Offers probe := by
  intro c s
  unfold Behaviour.skip
  cases c.advance n with
  | ok d => exact .success x d (.silent rfl)
  | error e => exact .thrown (.outOfRange e) (.silent rfl)

/-- A character that is refused has no suggestions. -/
theorem satisfy (accepts : Char → Bool) :
    (Behaviour.satisfy accepts : Behaviour ε Char).Offers probe := by
  intro c s
  unfold Behaviour.satisfy
  cases c.peek with
  | none => exact unsuggested _ c s
  | some x =>
      by_cases hx : accepts x
      · simp only [if_pos hx]
        exact skip x 1 c s
      · simp only [if_neg hx]
        exact unsuggested _ c s

/-- A string that is not there is suggested, and so it has been told. -/
theorem string (text : String) :
    (Behaviour.visit (probe [⟨text, "'" ++ text ++ "'"⟩]) (.string text) :
      Behaviour ε String).Offers probe := by
  intro c s
  have told : s.Tells probe _ _ := .visited [⟨text, "'" ++ text ++ "'"⟩] c.offset
  unfold Behaviour.visit Behaviour.string
  by_cases ht : c.startsWith text
  · simp only [if_pos ht]
    exact .after told (skip text text.length c _)
  · simp only [if_neg ht]
    exact .failure c.offset told (.self _)

/-! ### Composing -/

/-- What is made of the value tells nothing, and an exception drops what was offered. -/
theorem map {f : α → Except ε β} (hp : p.Offers probe) : (Behaviour.map f p).Offers probe := by
  intro c s
  have h := hp c s
  unfold Behaviour.map
  generalize p c s = r at h ⊢
  cases h with
  | success x d h =>
      dsimp only
      cases f x with
      | ok y => exact .success y d h
      | error e => exact .thrown (.raised e) h
  | failure o h he => exact .failure o h he
  | thrown fault h => exact .thrown fault h
  | exhausted h => exact .exhausted h

/-- The second part tells behind the first.  Where it fails, its error offers nothing from before.
-/
theorem bind {f : α → Behaviour ε β} (hp : p.Offers probe) (hf : ∀ x, (f x).Offers probe) :
    (Behaviour.bind p f).Offers probe := by
  intro c s
  have h := hp c s
  unfold Behaviour.bind
  generalize p c s = r at h ⊢
  cases h with
  | success x d h => exact .after h (hf x d _)
  | failure o h he => exact .failure o h he
  | thrown fault h => exact .thrown fault h
  | exhausted h => exact .exhausted h

theorem apply {p : Behaviour ε (α → Except ε β)} {q : Behaviour ε α} (hp : p.Offers probe)
    (hq : q.Offers probe) : (Behaviour.apply p q).Offers probe := by
  rw [apply_eq_bind]
  exact hp.bind fun _ => hq.map

/-- Behind an empty failure the error of the second part takes over what the first offered, which
was told first. -/
theorem alt {q : Behaviour ε α} (hp : p.Offers probe) (hq : q.Offers probe) :
    (Behaviour.alt p q).Offers probe := by
  intro c s
  have h := hp c s
  unfold Behaviour.alt
  generalize p c s = r at h ⊢
  cases h with
  | @failure o e lists s' h he =>
      by_cases ho : o = c.offset
      · simp only [if_pos ho]
        have h' := hq c s'
        generalize q c s' = r' at h' ⊢
        cases h' with
        | success x d h' => exact .success x d (h.trans h')
        -- The lists of the first alternative have been told of before those of the second.
        | failure o' h' he' => exact .failure o' (h.trans h') (he.withSuggestions he')
        | thrown fault h' => exact .thrown fault (h.trans h')
        | exhausted h' => exact .exhausted (h.trans h')
      · simp only [if_neg ho]
        exact .failure o h he
  | success x d h => exact .success x d h
  | thrown fault h => exact .thrown fault h
  | exhausted h => exact .exhausted h

/-- A label drops the message of a failure and keeps its suggestions. -/
theorem label (hp : p.Offers probe) (name : String) : (Behaviour.label p name).Offers probe := by
  intro c s
  have h := hp c s
  unfold Behaviour.label
  generalize p c s = r at h ⊢
  cases h with
  | failure o h he =>
      by_cases ho : o = c.offset
      · simp only [if_pos ho]
        exact .failure o h he
      · simp only [if_neg ho]
        exact .failure o h he
  | success x d h => exact .success x d h
  | thrown fault h => exact .thrown fault h
  | exhausted h => exact .exhausted h

/-- One more suggestion is put in front of those of the failure, as its probe stands in front of
theirs. -/
theorem suggest (hp : p.Offers probe) (x : Suggestion) :
    (Behaviour.visit (probe [x]) (.suggest p x)).Offers probe := by
  intro c s
  have told : s.Tells probe _ _ := .visited [x] c.offset
  have h := hp c (s.record (.visited (probe [x]) c.offset))
  unfold Behaviour.visit Behaviour.suggest
  generalize p c (s.record (.visited (probe [x]) c.offset)) = r at h ⊢
  cases h with
  | failure o h he =>
      by_cases ho : o = c.offset
      · simp only [if_pos ho]
        exact .failure o (told.trans h) (.withSuggestions (.self ⟨"", [x]⟩) he)
      · simp only [if_neg ho]
        exact .failure o (told.trans h) (he.after [[x]])
  | success y d h => exact .success y d (told.trans h)
  | thrown fault h => exact .thrown fault (told.trans h)
  | exhausted h => exact .exhausted (told.trans h)

theorem attempt (hp : p.Offers probe) : (Behaviour.attempt p).Offers probe := by
  intro c s
  have h := hp c s
  unfold Behaviour.attempt
  generalize p c s = r at h ⊢
  cases h with
  | failure o h he => exact .failure c.offset h he
  | success x d h => exact .success x d h
  | thrown fault h => exact .thrown fault h
  | exhausted h => exact .exhausted h

/-- What was told ahead remains told when the cursor goes back. -/
theorem lookAhead (hp : p.Offers probe) : (Behaviour.lookAhead p).Offers probe := by
  intro c s
  have h := hp c s
  unfold Behaviour.lookAhead
  generalize p c s = r at h ⊢
  cases h with
  | success x d h => exact .success x c h
  | failure o h he => exact .failure o h he
  | thrown fault h => exact .thrown fault h
  | exhausted h => exact .exhausted h

/-- What the parser offered is dropped, and its failure is a success. -/
theorem notFollowedBy {shown : α → String} (hp : p.Offers probe) :
    (Behaviour.notFollowedBy shown p).Offers probe := by
  intro c s
  have h := hp c s
  unfold Behaviour.notFollowedBy
  generalize p c s = r at h ⊢
  cases h with
  | success x d h => exact .failure c.offset h (.none _ _)
  | failure o h he => exact .success () c h
  | thrown fault h => exact .thrown fault h
  | exhausted h => exact .exhausted h

/-- A success on the spot becomes a failure that has nothing to offer. -/
theorem advancing (hp : p.Offers probe) : (Behaviour.advancing p).Offers probe := by
  intro c s
  have h := hp c s
  unfold Behaviour.advancing
  generalize p c s = r at h ⊢
  cases h with
  | success x d h =>
      by_cases hd : d.offset = c.offset
      · simp only [if_pos hd]
        exact .failure c.offset h (.none _ _)
      · simp only [if_neg hd]
        exact .success x d h
  | failure o h he => exact .failure o h he
  | thrown fault h => exact .thrown fault h
  | exhausted h => exact .exhausted h

/-- Each round goes on from what has been told in the rounds before. -/
theorem loop {step : σ → Behaviour ε (Step σ α)} (h : ∀ state, (step state).Offers probe)
    (n : Nat) : ∀ state, Offers probe (Behaviour.loop step n state) := by
  induction n with
  | zero => exact fun _ _ _ => .exhausted (.silent rfl)
  | succ n ih =>
      intro state c s
      have hr := h state c s
      unfold Behaviour.loop
      generalize step state c s = r at hr ⊢
      cases hr with
      | success answer d hs =>
          cases answer with
          | loop state' => exact .after hs (ih state' d _)
          | done x => exact .success x d hs
          | stray shown => exact .thrown (.strayStep shown) hs
      | failure o hs he => exact .failure o hs he
      | thrown fault hs => exact .thrown fault hs
      | exhausted hs => exact .exhausted hs

/-! ### Frames and traces -/

/-- To open a frame tells nothing. -/
theorem fresh {p : Frame → Behaviour ε α} (hp : ∀ frame, (p frame).Offers probe) :
    (Behaviour.fresh p).Offers probe :=
  fun c s => .after (.silent s.probes_openFrame) (hp _ c _)

theorem trace (name : String) : (Behaviour.trace name : Behaviour ε Unit).Offers probe :=
  fun c s => .success () c (.silent (s.probes_log _))

/-- Lines are logged and not told; an empty failure loses what it offered. -/
theorem traced (hp : p.Offers probe) (name : String) :
    (Behaviour.traced name p).Offers probe := by
  intro c s
  have h : Offered probe s (p c (s.log (c.traceLine name))) :=
    .after (.silent (s.probes_log _)) (hp c _)
  unfold Behaviour.traced
  generalize p c (s.log (c.traceLine name)) = r at h ⊢
  cases h with
  | failure o h he =>
      by_cases ho : o = c.offset
      · simp only [if_pos ho]
        exact .failure o (h.log _) (.none name _)
      · simp only [if_neg ho]
        exact .failure o (h.log _) he
  | success x d h => exact .success x d h
  | thrown fault h => exact .thrown fault h
  | exhausted h => exact .exhausted h

end Behaviour.Offers

/-! ### Runs -/

open Behaviour (Offers)

/-- A composed parser with the probes makes up its errors from what they tell if the deferred
parsers that it enters do. -/
theorem Parser.offering_offers {probe : List Suggestion → String}
    {enter : {α : Type} → Cell → ρ α → Behaviour ε α}
    (he : ∀ {α : Type} (cell : Cell) (rule : ρ α), (enter cell rule).Offers probe) (n : Nat) :
    ∀ {α : Type} (p : Parser ε ρ α), p.Composed →
      ((p.offering probe).behaviour enter n).Offers probe
  | _, .pure x, _ => .pure x
  | _, .fail e, _ => .fail e
  | _, .raise e, _ => .throw (.raised e)
  | _, .satisfy accepts, _ => .satisfy accepts
  | _, .string text, _ => .string text
  | _, .position, _ => fun c _ => .success c.offset c (.silent rfl)
  | _, .mapM _ p, h => (offering_offers he n p h).map
  | _, .applyM p q, h => (offering_offers he n p h.1).apply (offering_offers he n q h.2)
  | _, .bind p f, h =>
      (offering_offers he n p h.1).bind fun x => offering_offers he n (f x) (h.2 x)
  | _, .alt p q, h => (offering_offers he n p h.1).alt (offering_offers he n q h.2)
  | _, .label p name, h => (offering_offers he n p h).label name
  | _, .suggest p x, h => (offering_offers he n p h).suggest x
  | _, .attempt p, h => (offering_offers he n p h).attempt
  | _, .lookAhead p, h => (offering_offers he n p h).lookAhead
  | _, .notFollowedBy _ p, h => (offering_offers he n p h).notFollowedBy
  | _, .advancing p, h => (offering_offers he n p h).advancing
  | _, .tailRec step initial, h =>
      .loop (fun state => offering_offers he n (step state) (h state)) n initial
  | _, .deferred cell rule, _ => he cell rule
  | _, .fresh p, h => .fresh fun frame => offering_offers he n (p frame) (h frame)
  | _, .trace name, _ => .trace name
  | _, .traced name p, h => (offering_offers he n p h).traced name
  | _, .visit _ p, h => offering_offers he n p h

namespace Grammar

variable {g : Grammar ε ρ} {probe : List Suggestion → String}

/-- A rule is built with probes in it, or an exception is raised that offers nothing. -/
theorem Composed.entered_offers (hg : g.Composed) : ∀ (fuel : Nat) {α : Type} (cell : Cell)
    (rule : ρ α), ((g.offering probe).entered fuel cell rule).Offers probe
  | 0, _, _, _ => fun _ _ => .exhausted (.silent rfl)
  | fuel + 1, _, cell, rule => by
      intro c s
      have built {frame : Frame} {p : Parser ε ρ _} (hp : g.build rule frame = .ok p) :
          ((g.offering probe).run fuel (p.offering probe)).Offers probe := by
        rw [run_eq]
        exact p.offering_offers (hg.entered_offers fuel) fuel (hg rule frame p hp)
      simp only [entered, enter, offering]
      cases s.built? cell with
      | some frame =>
          dsimp only
          cases hb : g.build rule frame with
          | ok p => exact built hb c s
          | error e => exact .thrown (.raised e) (.silent rfl)
      | none =>
          dsimp only
          cases hb : g.build rule s.openFrame.1 with
          | ok p => exact .after (.silent (by simp)) (built hb c _)
          | error e => exact .thrown (.raised e) (.silent (by simp))

/-- **Suggestions are only ever put together.**  A run of a composed parser that fails is repeated
with probes in front of everything that offers suggestions.  It fails in the same way, and passes
probes that tell of lists of suggestions, of these lists alone if the probe tells any two lists
apart.  The suggestions of the error are those of some of the lists, one behind the other in the
order in which they were offered. -/
theorem run_suggestions (hg : g.Composed) {p : Parser ε ρ α} (hp : p.Composed)
    (probe : List Suggestion → String) {fuel : Nat} {c : Cursor} {s s' : Session} {offset : Int}
    {e : ParseError} (failed : g.run fuel p c s = (.failure offset e, s')) :
    ∃ t' lists,
      (g.offering probe).run fuel (p.offering probe) c s = (.failure offset e, t') ∧
      t'.probes = s.probes ++ lists.map probe ∧
      (probe.Injective → ∀ others, t'.probes = s.probes ++ others.map probe → others = lists) ∧
      ∃ some : List (List Suggestion), some.Sublist lists ∧ e.suggestions = some.flatten := by
  have same := (g.run_offering probe fuel p c c s s rfl ⟨rfl, rfl⟩).outcome_eq
  have offers : ((g.offering probe).run fuel (p.offering probe)).Offers probe := by
    rw [run_eq]
    exact p.offering_offers (hg.entered_offers fuel) fuel hp
  have told := offers c s
  rw [failed] at same
  generalize (g.offering probe).run fuel (p.offering probe) c s = r at same told ⊢
  obtain ⟨o, t'⟩ := r
  cases same
  cases told with
  | @failure _ _ lists _ h he =>
      refine ⟨t', lists, rfl, h, fun injective others ho => ?_, he⟩
      exact List.map_injective_iff.mpr injective (List.append_cancel_left (ho.symm.trans h))

/-- On the text `x` every alternative of a value is tried, and the minus of a number, which may be
left out: seven lists are offered, and the error has six of them. -/
theorem run_suggestions_document :
    let g := Json.grammar .standard
    let c : Cursor := .start #['x']
    let reply := g.run 5 (Json.parser .standard) c .start
    let reply' := (g.offering Suggestion.probe).run 5
      ((Json.parser .standard).offering Suggestion.probe) c .start
    let offers : List (List Suggestion) :=
      [[⟨"null", "'null'"⟩], [⟨"true", "'true'"⟩], [⟨"false", "'false'"⟩], [⟨"\"", "'\"'"⟩],
        [⟨"-", "'-'"⟩], [⟨"\x7b", "'\x7b'"⟩], [⟨"[", "'['"⟩]]
    g.Composed ∧ (Json.parser .standard).Composed ∧ Suggestion.probe.Injective ∧
    ∃ e s' t', reply = (.failure 0 e, s') ∧ reply' = (.failure 0 e, t') ∧
      t'.probes = offers.map Suggestion.probe ∧
      e.suggestions.map Suggestion.completion = ["null", "true", "false", "\"", "\x7b", "["] ∧
      ∃ some : List (List Suggestion), some.Sublist offers ∧ e.suggestions = some.flatten := by
  intro g c reply reply' offers
  have hg : g.Composed := Json.grammar_composed
  have hp : (Json.parser .standard).Composed := Json.parser_composed
  obtain ⟨e, s', failed, completions⟩ : ∃ e s', reply = (.failure 0 e, s') ∧
      e.suggestions.map Suggestion.completion = ["null", "true", "false", "\"", "\x7b", "["] :=
    ⟨_, _, rfl, rfl⟩
  obtain ⟨t', lists, again, told, only, gathered⟩ :=
    run_suggestions hg hp Suggestion.probe failed
  have probes : t'.probes = offers.map Suggestion.probe := by
    have h : reply'.2.probes = offers.map Suggestion.probe := rfl
    rwa [show reply' = _ from again] at h
  rw [← only Suggestion.probe_injective offers probes] at gathered
  exact ⟨hg, hp, Suggestion.probe_injective, e, s', t', failed, again, probes, completions,
    gathered⟩

end Grammar

end Parsing
