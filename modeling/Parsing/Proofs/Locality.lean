import Parsing.Proofs.Composed
import Parsing.Proofs.Framed

/-!
# Locality

**A parser sees only the text behind its cursor** (`run_local`).  Behind whatever text `w` stands,
a run on it does the same: it ends with the same value or error or exception, at a place of `w`
that is the same place, and enters the same parsers at the same places of `w`.  Only the offsets
are others, and they are shifted by what stands before `w`.  The parsers are those that are
*placeless*: no part of them asks for the offset or is written by hand, and neither does what
their continuations, the steps of their loops and their rules give (`Parser.Placeless`).

Both runs go in lockstep (`shifting`).  Their cursors are always at the same place of `w`
(`Cursor.Parallel`), where the same characters remain, and an offset is that of the place where a
parser was entered in the one run if it is in the other, so that both decide in the same way which
failures are empty.
-/

namespace Parsing

variable {ε : Type} {ρ : Type → Type} {α : Type}

/-! ### Placeless parsers -/

/-- No part of the parser asks for the offset or is written by hand. -/
def Parser.Placeless : {α : Type} → Parser ε ρ α → Prop
  | _, .pure _ | _, .fail _ | _, .raise _ | _, .satisfy _ | _, .string _ | _, .deferred _ _
  | _, .trace _ => True
  | _, .mapM _ p | _, .label p _ | _, .suggest p _ | _, .attempt p | _, .lookAhead p
  | _, .notFollowedBy _ p | _, .advancing p | _, .traced _ p | _, .visit _ p => p.Placeless
  | _, .applyM p q => p.Placeless ∧ q.Placeless
  | _, .alt p q => p.Placeless ∧ q.Placeless
  | _, .bind p f => p.Placeless ∧ ∀ x, (f x).Placeless
  | _, .tailRec step _ => ∀ state, (step state).Placeless
  | _, .fresh p => ∀ frame, (p frame).Placeless
  | _, .position | _, .custom _ => False

/-- Every parser that is built for a rule is placeless. -/
def Grammar.Placeless (g : Grammar ε ρ) : Prop :=
  ∀ {α : Type} (rule : ρ α) (frame : Frame) (p : Parser ε ρ α),
    g.build rule frame = .ok p → p.Placeless

instance Parser.Placeless.congruence :
    Congruence fun p _ => Placeless (ε := ε) (ρ := ρ) p where
  pure _ := trivial
  fail _ := trivial
  satisfy _ := trivial
  string _ := trivial
  mapM _ _ _ h := h
  applyM h hq := ⟨h, hq⟩
  bind h hf := ⟨h, hf⟩
  alt h hq := ⟨h, hq⟩
  label h _ := h
  suggest h _ := h
  notFollowedBy _ _ _ h := h
  advancing h := h
  tailRec h _ := h

namespace Json

open Decimal Rules

variable {limit : DigitLimit}

/-- An entry nowhere asks for the offset. -/
theorem entry_placeless : (entry .value : Parser TooManyDigits Rule (String × Json)).Placeless :=
  @entry_congr TooManyDigits Rule (fun p _ => p.Placeless) _ _ .value (fun _ => trivial) id

theorem grammar_placeless : (grammar limit).Placeless := by
  intro _ rule frame p hp
  cases rule
  cases hp
  exact @element_congr TooManyDigits Rule (fun p _ => p.Placeless) _ _ _ .value _ ⟨frame, 0⟩ trivial
    entry_placeless

/-- Documents are read by tests and loops alone, wherever they are. -/
theorem parser_placeless : (parser limit).Placeless :=
  @document_congr TooManyDigits Rule (fun p _ => p.Placeless) _ _ _ .value _ ⟨0, 0⟩ trivial
    entry_placeless

end Json

/-! ### Places of a text behind others -/

namespace Cursor

/-- The place in `w` behind `k` of its characters, in the text in which `u` stands before `w`. -/
def within (u w : List Char) (k : Nat) (h : k ≤ w.length) : Cursor where
  text := (u ++ w).toArray
  offset := u.length + k
  offset_le := by simpa using h

/-- The cursors are at the same place of `w`, before which stands `u` in the text of the one and
`u'` in that of the other. -/
inductive Parallel (u u' w : List Char) : Cursor → Cursor → Prop
  | within (k : Nat) (h : k ≤ w.length) : Parallel u u' w (.within u w k h) (.within u' w k h)

/-- Offsets that say how far into `w` a place is are those of the cursors together or not at all. -/
theorem Parallel.offset_iff {u u' w : List Char} {c c' : Cursor} (h : Parallel u u' w c c')
    (j : Nat) :
    ((u.length + j : Nat) : Int) = c.offset ↔ ((u'.length + j : Nat) : Int) = c'.offset := by
  cases h
  simp only [Cursor.within]
  omega

section

variable (u w : List Char) {k : Nat} (h : k ≤ w.length)

/-- What stands before `w` is not seen. -/
theorem remaining_within : (within u w k h).remaining = w.drop k := by
  simp [within, remaining, List.drop_append]

theorem peek_within : (within u w k h).peek = w[k]? := by
  rw [peek_eq_head_remaining, remaining_within, List.head?_drop]

/-- A string is there if it is in what remains of `w`. -/
theorem startsWith_within (text : String) :
    (within u w k h).startsWith text = decide (text.toList <+: w.drop k) := by
  rw [Bool.eq_iff_iff, startsWith_iff, remaining_within, decide_eq_true_iff]

/-- To go on within `w` is possible, whatever stands before it. -/
theorem advance_within {n : Nat} (hn : k + n ≤ w.length) :
    (within u w k h).advance n = .ok (within u w (k + n) hn) :=
  place_eq_ok_iff.mpr ⟨rfl, by simp only [within]; omega⟩

end

/-- A trace shows the next thirty characters, so that it does not depend on those before. -/
theorem excerpt_eq (c : Cursor) : c.excerpt = String.ofList (c.remaining.take 30) := by
  simp [excerpt, remaining, List.take_drop]

/-- It shows that there are more by what remains alone. -/
theorem ellipsis_eq (c : Cursor) : c.ellipsis = if c.remaining.length > 30 then "..." else "" := by
  rw [ellipsis, length_remaining]

/-- A trace writes the same line at both places, but for the offset. -/
theorem traceLine_within (u u' w : List Char) {k : Nat} (h : k ≤ w.length) (name : String) :
    ∃ line, (within u w k h).traceLine name = line ++ toString (u.length + k) ∧
      (within u' w k h).traceLine name = line ++ toString (u'.length + k) := by
  refine ⟨name ++ ": \"" ++ String.ofList ((w.drop k).take 30)
    ++ (if (w.drop k).length > 30 then "..." else "") ++ "\" at offset ", ?_, ?_⟩
  · rw [traceLine, excerpt_eq, ellipsis_eq, remaining_within]
    rfl
  · rw [traceLine, excerpt_eq, ellipsis_eq, remaining_within]
    rfl

end Cursor

/-! ### What is shifted -/

/-- The same event, seen at the same distance behind `a` and behind `b`. -/
inductive Event.Shifted (a b : Nat) : Event → Event → Prop
  | logged (line : String) (k : Nat) :
      Shifted a b (.logged (line ++ toString (a + k))) (.logged (line ++ toString (b + k)))
  | visited (label : String) (k : Nat) :
      Shifted a b (.visited label (a + k)) (.visited label (b + k))
  | built (cell : Cell) (label : Option String) (succeeded : Bool) :
      Shifted a b (.built cell label succeeded) (.built cell label succeeded)

/-- To journals that may differ, events have been added that are shifted. -/
def Shifted (a b : Nat) (old old' journal journal' : List Event) : Prop :=
  ∃ new new', List.Forall₂ (Event.Shifted a b) new new' ∧ journal = new ++ old ∧
    journal' = new' ++ old'

/-- One more event on either side, at the same place of `w`. -/
theorem Shifted.record {a b : Nat} {old old' journal journal' : List Event} {event event' : Event}
    (h : Shifted a b old old' journal journal') (he : event.Shifted a b event') :
    Shifted a b old old' (event :: journal) (event' :: journal') := by
  obtain ⟨new, new', hn, rfl, rfl⟩ := h
  exact ⟨event :: new, event' :: new', .cons he hn, rfl, rfl⟩

/-- The same outcome at the same place of `w`, behind `u` and behind `u'`. -/
inductive Outcome.Shifted (u u' w : List Char) : Outcome ε α → Outcome ε α → Prop
  | success (value : α) (k : Nat) (h : k ≤ w.length) :
      Shifted u u' w (.success value (.within u w k h)) (.success value (.within u' w k h))
  | failure (k : Nat) (error : ParseError) :
      Shifted u u' w (.failure (u.length + k : Nat) error) (.failure (u'.length + k : Nat) error)
  | thrown (fault : Fault ε) : Shifted u u' w (.thrown fault) (.thrown fault)
  | exhausted : Shifted u u' w .exhausted .exhausted

/-- Runs at the same place of `w` behind `u` and behind `u'`, with journals that were `old` and
`old'`. -/
def shifting (u u' w : List Char) (old old' : List Event) : Comparison :=
  let session (s t : Session) : Prop :=
    s.frames = t.frames ∧ Shifted u.length u'.length old old' s.journal t.journal
  { Comparison.exact session session fun _ _ => id with
    cursor := Cursor.Parallel u u' w
    offset := fun o o' => ∃ k : Nat, o = (u.length + k : Nat) ∧ o' = (u'.length + k : Nat)
    offset_self := by
      rintro _ _ ⟨k, h⟩
      exact ⟨k, rfl, rfl⟩
    offset_iff := by
      rintro _ _ _ _ h ⟨j, rfl, rfl⟩
      exact h.offset_iff j }

namespace shifting

variable {u u' w : List Char} {old old' : List Event}

theorem framed : (shifting u u' w old old').Framed :=
  Comparison.framed_of_journals _ (fun _ _ => .rfl) fun h cell label succeeded =>
    h.record (.built cell label succeeded)

theorem record {s t : Session} (h : (shifting u u' w old old').session s t) {event event' : Event}
    (he : event.Shifted u.length u'.length event') :
    (shifting u u' w old old').session (s.record event) (t.record event') :=
  ⟨h.1, h.2.record he⟩

/-- Replies in lockstep end at the same place of `w`, or in the same exception. -/
theorem outcome {r r' : Outcome ε α × Session} (h : (shifting u u' w old old').Reply r r') :
    r.1.Shifted u u' w r'.1 := by
  cases h with
  | success x hd _ => obtain ⟨k, h⟩ := hd; exact .success x k h
  | failure ho he _ => obtain ⟨k, rfl, rfl⟩ := ho; cases he; exact .failure k _
  | thrown fault _ => exact .thrown fault
  | exhausted _ => exact .exhausted

theorem session {r r' : Outcome ε α × Session} (h : (shifting u u' w old old').Reply r r') :
    (shifting u u' w old old').session r.2 r'.2 := by
  cases h with
  | success _ _ hs | failure _ _ hs | thrown _ hs | exhausted hs => exact hs

/-! ### Operations that look at the text or at the session -/

/-- To skip characters of `w` comes to the same place of it. -/
theorem skip (x : α) {k n : Nat} (h : k ≤ w.length) (hn : k + n ≤ w.length) {s t : Session}
    (hs : (shifting u u' w old old').session s t) :
    (shifting u u' w old old').Reply (ε := ε) (Behaviour.skip x n (.within u w k h) s)
      (Behaviour.skip x n (.within u' w k h) t) := by
  simp only [Behaviour.skip, Cursor.advance_within _ _ h hn]
  exact .success x (.within (k + n) hn) hs

theorem fail (e : ParseError) :
    (shifting u u' w old old').InStep (Behaviour.fail e : Behaviour ε α) (.fail e) :=
  fun _ _ _ _ hc hs => .failure ((shifting u u' w old old').offset_self hc) rfl hs

/-- The character that is tested is the same. -/
theorem satisfy (accepts : Char → Bool) :
    (shifting u u' w old old').InStep (ε := ε) (Behaviour.satisfy accepts)
      (Behaviour.satisfy accepts) := by
  rintro _ _ s t ⟨k, h⟩ hs
  simp only [Behaviour.satisfy, Cursor.peek_within]
  cases hx : w[k]? with
  | none => exact fail _ _ _ _ _ (.within k h) hs
  | some x =>
      obtain ⟨hk, -⟩ := List.getElem?_eq_some_iff.mp hx
      by_cases ha : accepts x
      · simp only [if_pos ha]
        exact skip x h hk hs
      · simp only [if_neg ha]
        exact fail _ _ _ _ _ (.within k h) hs

theorem string (text : String) :
    (shifting u u' w old old').InStep (ε := ε) (Behaviour.string text)
      (Behaviour.string text) := by
  rintro _ _ s t ⟨k, h⟩ hs
  simp only [Behaviour.string, Cursor.startsWith_within, decide_eq_true_eq]
  by_cases ht : text.toList <+: w.drop k
  · have hn : k + text.length ≤ w.length := by
      have hlen := ht.length_le
      rw [List.length_drop, String.length_toList] at hlen
      omega
    simp only [if_pos ht]
    exact skip text h hn hs
  · simp only [if_neg ht]
    exact fail _ _ _ _ _ (.within k h) hs

/-- The lines that are logged differ in the offset alone. -/
theorem trace (name : String) :
    (shifting u u' w old old').InStep (ε := ε) (Behaviour.trace name) (Behaviour.trace name) := by
  rintro _ _ s t ⟨k, h⟩ hs
  obtain ⟨line, hl, hl'⟩ := Cursor.traceLine_within u u' w h name
  simp only [Behaviour.trace, Session.log, hl, hl']
  exact .success () (.within k h) (record hs (.logged line k))

/-- A probe is passed at the same place of `w`. -/
theorem visit {p p' : Behaviour ε α} (hp : (shifting u u' w old old').InStep p p')
    (name : String) :
    (shifting u u' w old old').InStep (Behaviour.visit name p) (Behaviour.visit name p') := by
  refine hp.visit fun hc hs => ?_
  obtain ⟨k, h⟩ := hc
  exact record hs (.visited name k)

/-- A failure that is logged is logged with the offset that it has in either text. -/
theorem traced {p p' : Behaviour ε α} (hp : (shifting u u' w old old').InStep p p')
    (name : String) :
    (shifting u u' w old old').InStep (Behaviour.traced name p) (Behaviour.traced name p') := by
  rintro _ _ s t ⟨k, h⟩ hs
  obtain ⟨line, hl, hl'⟩ := Cursor.traceLine_within u u' w h name
  obtain ⟨again, ha, ha'⟩ := Cursor.traceLine_within u u' w h (name ++ " backtracked")
  have hr := hp _ _ _ _ (.within k h) (record hs (.logged line k))
  simp only [Behaviour.traced, Session.log, hl, hl', ha, ha']
  generalize p _ _ = r, p' _ _ = r' at hr ⊢
  cases hr with
  | @failure o o' e e' s t ho he hs =>
      have same := (shifting u u' w old old').offset_iff (.within k h) ho
      by_cases hoc : o = (Cursor.within u w k h).offset
      · simp only [if_pos hoc, if_pos (same.mp hoc)]
        exact .failure ho rfl (record hs (.logged again k))
      · obtain ⟨j, rfl, rfl⟩ := ho
        simp only [if_neg hoc, if_neg (mt same.mpr hoc)]
        exact .failure ⟨j, rfl, rfl⟩ he (record hs
          (.logged (name ++ " failed after consuming input at offset ") j))
  | success x hd hs => exact .success x hd hs
  | thrown fault hs => exact .thrown fault hs
  | exhausted hs => exact .exhausted hs

end shifting

/-! ### Runs -/

/-- A placeless parser goes in lockstep if the deferred parsers that it enters do. -/
theorem Parser.behaviour_shifting {u u' w : List Char} {old old' : List Event}
    {enter : {α : Type} → Cell → ρ α → Behaviour ε α}
    (he : ∀ {α : Type} (cell : Cell) (rule : ρ α),
      (shifting u u' w old old').InStep (enter cell rule) (enter cell rule)) (n : Nat) :
    ∀ {α : Type} (p : Parser ε ρ α), p.Placeless →
      (shifting u u' w old old').InStep (p.behaviour enter n) (p.behaviour enter n)
  | _, .pure x, _ => fun _ _ _ _ hc hs => .success x hc hs
  | _, .fail e, _ => shifting.fail e
  | _, .raise e, _ => fun _ _ _ _ _ hs => .thrown (.raised e) hs
  | _, .satisfy accepts, _ => shifting.satisfy accepts
  | _, .string text, _ => shifting.string text
  | _, .mapM _ p, h => (behaviour_shifting he n p h).map
  | _, .applyM p q, h => (behaviour_shifting he n p h.1).apply (behaviour_shifting he n q h.2)
  | _, .bind p f, h =>
      (behaviour_shifting he n p h.1).bind fun x => behaviour_shifting he n (f x) (h.2 x)
  | _, .alt p q, h => (behaviour_shifting he n p h.1).alt (behaviour_shifting he n q h.2)
  | _, .label p name, h => (behaviour_shifting he n p h).label name
  | _, .suggest p x, h => (behaviour_shifting he n p h).suggest x
  | _, .attempt p, h => (behaviour_shifting he n p h).attempt
  | _, .lookAhead p, h => (behaviour_shifting he n p h).lookAhead
  | _, .notFollowedBy _ p, h => (behaviour_shifting he n p h).notFollowedBy
  | _, .advancing p, h => (behaviour_shifting he n p h).advancing
  | _, .tailRec step initial, h =>
      .loop (fun state => behaviour_shifting he n (step state) (h state)) n initial
  | _, .deferred cell rule, _ => he cell rule
  | _, .fresh p, h => shifting.framed.fresh fun frame => behaviour_shifting he n (p frame) (h frame)
  | _, .trace name, _ => shifting.trace name
  | _, .traced name p, h => shifting.traced (behaviour_shifting he n p h) name
  | _, .visit name p, h => shifting.visit (behaviour_shifting he n p h) name

namespace Grammar

variable {g : Grammar ε ρ} {u u' w : List Char} {old old' : List Event}

/-- What is built for a rule is placeless, and runs with less fuel. -/
theorem Placeless.entered_shifting (hg : g.Placeless) :
    ∀ (fuel : Nat) {α : Type} (cell : Cell) (rule : ρ α),
      (shifting u u' w old old').InStep (g.entered fuel cell rule) (g.entered fuel cell rule)
  | 0, _, _, _ => fun _ _ _ _ _ hs => .exhausted hs
  | fuel + 1, _, cell, rule => by
      refine shifting.framed.enter cell rfl fun frame => ?_
      cases hb : g.build rule frame with
      | ok p =>
          refine .ok ?_
          rw [run_eq]
          exact p.behaviour_shifting (hg.entered_shifting fuel) fuel (hg rule frame p hb)
      | error e => exact .error e

/-- **Locality.**  A placeless parser is run on `w`, once behind `u` and once behind `u'`.  Either
both runs need more fuel, or both raise the same exception, or both succeed with the same value at
the same place of `w`, or both fail with the same error at the same place of `w`.  The events of
the two runs are the same and in the same order: parsers are entered at the same places of `w`, and
lines differ in their offsets only. -/
theorem run_local (hg : g.Placeless) {p : Parser ε ρ α} (hp : p.Placeless) (fuel : Nat)
    (u u' w : List Char) {s t : Session} (hs : s.frames = t.frames) :
    let reply := g.run fuel p (.within u w 0 (Nat.zero_le _)) s
    let reply' := g.run fuel p (.within u' w 0 (Nat.zero_le _)) t
    reply.1.Shifted u u' w reply'.1 ∧
    Shifted u.length u'.length s.journal t.journal reply.2.journal reply'.2.journal ∧
    reply.2.frames = reply'.2.frames := by
  intro reply reply'
  have start : (shifting u u' w s.journal t.journal).session s t := ⟨hs, [], [], .nil, rfl, rfl⟩
  have h : (shifting u u' w s.journal t.journal).Reply reply reply' := by
    have step : (shifting u u' w s.journal t.journal).InStep (g.run fuel p) (g.run fuel p) := by
      rw [run_eq]
      exact p.behaviour_shifting (hg.entered_shifting fuel) fuel hp
    exact step _ _ s t (.within 0 (Nat.zero_le _)) start
  exact ⟨shifting.outcome h, (shifting.session h).2, (shifting.session h).1⟩

/-- The document `[t]` fails at its letter, behind an unfinished array and behind a blank. -/
theorem run_local_document :
    let g := Json.grammar .standard
    let u := "[1,".toList
    let u' := " ".toList
    let w := "[t]".toList
    let p := (Json.parser .standard).visit "document"
    let reply := g.run 5 p (.within u w 0 (Nat.zero_le _)) .start
    let reply' := g.run 5 p (.within u' w 0 (Nat.zero_le _)) .start
    g.Placeless ∧ p.Placeless ∧ Session.start.frames = Session.start.frames ∧
    reply.1.Shifted u u' w reply'.1 ∧
    Shifted 3 1 [] [] reply.2.journal reply'.2.journal ∧
    reply.1.verdict = .failure 4 ∧ reply'.1.verdict = .failure 2 ∧
    reply.2.events = [.visited "document" 3, .built ⟨0, 0⟩ none true] := by
  intro g u u' w p reply reply'
  have hg : g.Placeless := Json.grammar_placeless
  have hp : p.Placeless := Json.parser_placeless
  obtain ⟨ho, hj, -⟩ := run_local hg hp 5 u u' w (s := .start) (t := .start) rfl
  exact ⟨hg, hp, rfl, ho, hj, rfl, rfl, rfl⟩

end Grammar

end Parsing
