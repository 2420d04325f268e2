import Parsing.Proofs.Items

/-!
# Counted repetitions

A counted repetition goes round with a counter and the values so far, newest first.  With more fuel
than it counts, it does what as many `p` one after the other do that put their values in front
(`Behaviour.times`, `Grammar.run_count_eq`).  **So counts add up** (`Grammar.run_count`): to read
`m + n` of them is to read `m` and then `n`, and no run tells where the seam is, whatever fails or
raises on either side of it.

Unlike the items of a repetition, those of a count may stand still.  A repetition that has come to
an end has read items that moved, and to read as many of them by a count comes to the same place.
-/

namespace Parsing

variable {ε : Type} {ρ : Type → Type} {α : Type}

/-- The offsets at which the probes with the name were passed, in order. -/
def Session.visits (s : Session) (name : String) : List Nat :=
  s.events.filterMap fun
    | .visited label offset => if label = name then some offset else none
    | .logged _ | .built .. => none

@[simp] theorem Session.visits_record_visited (s : Session) (name : String) (offset : Nat) :
    (s.record (.visited name offset)).visits name = s.visits name ++ [offset] := by
  simp [visits, events, record]

namespace Behaviour

variable {p : Behaviour ε α} {c d : Cursor} {s t : Session}

/-- `p` so many times, one after the other. -/
def times (p : Behaviour ε α) : Nat → Behaviour ε (List α)
  | 0 => pure []
  | n + 1 => bind p fun x => map (fun xs => .ok (x :: xs)) (p.times n)

/-- To run a behaviour `m + n` times is to run it `m` times and then `n` times. -/
theorem times_add (p : Behaviour ε α) (m n : Nat) :
    p.times (m + n) = bind (p.times m) fun xs => map (fun ys => .ok (xs ++ ys)) (p.times n) := by
  induction m with
  | zero => rw [Nat.zero_add, times, pure_bind]; exact (map_ok _).symm
  | succ m ih =>
      rw [Nat.succ_add]
      calc p.times (m + n + 1)
          = bind p fun x => bind (p.times m) fun xs =>
              map (fun ys => .ok (x :: (xs ++ ys))) (p.times n) := by
            simp only [times, ih, map_bind, map_map]
            rfl
        _ = bind (p.times (m + 1)) fun xs => map (fun ys => .ok (xs ++ ys)) (p.times n) := by
            simp only [times, bind_assoc, bind_map, List.cons_append]

/-! ### The calls of a count -/

/-- From `c` in the session `s` on, `p` succeeds when it is called at these offsets, with these
values, each time from where the call before has ended, and comes to `d` in the session `t`. -/
inductive Calls (p : Behaviour ε α) :
    Cursor → Session → List (Nat × α) → Cursor → Session → Prop where
  | nil (c : Cursor) (s : Session) : Calls p c s [] c s
  | cons {c c' d : Cursor} {s s' t : Session} {x : α} {calls : List (Nat × α)}
      (h : p c s = (.success x c', s')) (rest : Calls p c' s' calls d t) :
      Calls p c s ((c.offset, x) :: calls) d t

/-- Items that have been read are calls that succeeded. -/
theorem Items.calls {xs : List α} (read : p.Items c s xs d t) :
    ∃ calls, p.Calls c s calls d t ∧ calls.map Prod.snd = xs := by
  induction read with
  | nil c s => exact ⟨[], .nil c s, rfl⟩
  | cons h _ _ ih =>
      obtain ⟨calls, called, rfl⟩ := ih
      exact ⟨_, .cons h called, rfl⟩

/-- The replies of `n` calls, the last of which may not have been made. -/
inductive Called (p : Behaviour ε α) (n : Nat) (c : Cursor) (s : Session) :
    Outcome ε (List α) × Session → Prop where
  | success {d : Cursor} {t : Session} {calls : List (Nat × α)} (h : p.Calls c s calls d t)
      (all : calls.length = n) : Called p n c s (.success (calls.map Prod.snd) d, t)
  | failure {d : Cursor} {s' t : Session} {calls : List (Nat × α)} {o : Int} {e : ParseError}
      (h : p.Calls c s calls d s') (few : calls.length < n)
      (last : p d s' = (.failure o e, t)) : Called p n c s (.failure o e, t)
  | thrown {d : Cursor} {s' t : Session} {calls : List (Nat × α)} {fault : Fault ε}
      (h : p.Calls c s calls d s') (few : calls.length < n)
      (last : p d s' = (.thrown fault, t)) : Called p n c s (.thrown fault, t)

theorem times_succ_of_success {x : α} (h : p c s = (.success x d, t)) (n : Nat) :
    p.times (n + 1) c s = map (fun xs => .ok (x :: xs)) (p.times n) d t := by
  simp only [times, bind, h]

/-- What ends has called the behaviour as often as it says, or up to a call that did not succeed. -/
theorem called_of_ended {n : Nat} (h : (p.times n c s).1 ≠ .exhausted) :
    p.Called n c s (p.times n c s) := by
  induction n generalizing c s with
  | zero => exact .success (.nil c s) rfl
  | succ n ih =>
      cases hp : p c s with
      | mk o s' =>
          cases o with
          | success x d =>
              rw [times_succ_of_success hp, map_ok_eq] at h ⊢
              have rest := @ih d s' (mt Outcome.map_eq_exhausted_iff.mpr h)
              generalize p.times n d s' = r at rest
              cases rest with
              | success h all => exact .success (.cons hp h) (congrArg (· + 1) all)
              | failure h few last => exact .failure (.cons hp h) (Nat.succ_lt_succ few) last
              | thrown h few last => exact .thrown (.cons hp h) (Nat.succ_lt_succ few) last
          | failure o e =>
              simp only [times, bind, hp]
              exact .failure (.nil c s) n.succ_pos hp
          | thrown fault =>
              simp only [times, bind, hp]
              exact .thrown (.nil c s) n.succ_pos hp
          | exhausted => exact absurd (by simp only [times, bind, hp]) h

/-- Behind the calls there are those that are left. -/
theorem Calls.times_eq {calls : List (Nat × α)} (h : p.Calls c s calls d t) (n : Nat) :
    p.times (calls.length + n) c s =
      map (fun xs => .ok (calls.map Prod.snd ++ xs)) (p.times n) d t := by
  induction h with
  | nil c s => rw [List.length_nil, Nat.zero_add]; exact congrFun₂ (map_ok _).symm c s
  | cons h _ ih =>
      rw [List.length_cons, Nat.succ_add, times_succ_of_success h, map_ok_eq, ih, map_ok_eq,
        map_ok_eq]
      simp only [List.map_cons]
      generalize (p.times n _ _).1 = o
      cases o with
      | success _ _ | failure _ _ | thrown _ | exhausted => rfl

theorem Called.times_eq {n : Nat} {r : Outcome ε (List α) × Session} (h : p.Called n c s r) :
    p.times n c s = r := by
  cases h with
  | success h all =>
      subst all
      rw [← Nat.add_zero (List.length _), h.times_eq]
      simp [times, map, pure]
  | failure h few last =>
      obtain ⟨k, rfl⟩ := Nat.exists_eq_add_of_lt few
      rw [Nat.add_assoc, h.times_eq]
      simp [times, map, bind, last]
  | thrown h few last =>
      obtain ⟨k, rfl⟩ := Nat.exists_eq_add_of_lt few
      rw [Nat.add_assoc, h.times_eq]
      simp [times, map, bind, last]

theorem times_eq_iff {n : Nat} {r : Outcome ε (List α) × Session} (hr : r.1 ≠ .exhausted) :
    p.times n c s = r ↔ p.Called n c s r :=
  ⟨fun h => h ▸ called_of_ended (h ▸ hr), Called.times_eq⟩

/-! ### What a probe notes -/

/-- Since the session `s` the probe has noted at most `n` offsets, and exactly `n` if the reply is a
success, which then has `n` values. -/
def Noted (name : String) (n : Nat) (s : Session) (reply : Outcome ε (List α) × Session) : Prop :=
  ∃ places, reply.2.visits name = s.visits name ++ places ∧ places.length ≤ n ∧
    ∀ xs d, reply.1 = .success xs d → places.length = n ∧ xs.length = n

namespace Noted

variable {name : String} {n offset : Nat} {s' : Session} {o : Outcome ε (List α)}

/-- The first call has not succeeded. -/
theorem single (first : t.visits name = s.visits name ++ [offset])
    (none : ∀ xs d, o ≠ .success xs d) : Noted name (n + 1) s (o, t) :=
  ⟨[offset], first, Nat.succ_le_succ n.zero_le, fun xs d h => absurd h (none xs d)⟩

/-- The first call has succeeded with `x`. -/
theorem cons (first : s'.visits name = s.visits name ++ [offset]) (x : α)
    (rest : Noted name n s' (o, t)) : Noted name (n + 1) s (o.map (x :: ·), t) := by
  obtain ⟨places, noted, few, all⟩ := rest
  refine ⟨offset :: places, ?_, Nat.succ_le_succ few, fun xs d h => ?_⟩
  · rw [noted, first, List.append_assoc, List.singleton_append]
  · obtain ⟨ys, hy, rfl⟩ := Outcome.map_eq_success_iff.mp h
    obtain ⟨hp, hv⟩ := all ys d hy
    exact ⟨congrArg (· + 1) hp, congrArg (· + 1) hv⟩

end Noted

/-- A probe in front of `p`, where `p` has none of that name itself, notes each call. -/
theorem times_noted {name : String} (quiet : ∀ c s, (p c s).2.visits name = s.visits name)
    (n : Nat) (c : Cursor) (s : Session) : Noted name n s (times (visit name p) n c s) := by
  induction n generalizing c s with
  | zero => exact ⟨[], (List.append_nil _).symm, Nat.le_refl 0, fun _ _ h => by cases h; simp⟩
  | succ n ih =>
      have first := quiet c (s.record (.visited name c.offset))
      rw [Session.visits_record_visited] at first
      cases hp : visit name p c s with
      | mk o s' =>
          rw [show p c _ = _ from hp] at first
          cases o with
          | success x d =>
              rw [times_succ_of_success hp, map_ok_eq]
              exact (ih d s').cons first x
          | failure _ _ | thrown _ | exhausted =>
              simp only [times, bind, hp]
              exact .single first fun _ _ h => by cases h

/-! ### The loop of a count -/

/-- One round of a count up to `n`, with the counter and the values so far. -/
def counting (p : Behaviour ε α) (n : Nat) :
    Nat × List α → Behaviour ε (Step (Nat × List α) (List α))
  | (k, items) =>
    if k = n then pure (.done items) else map (fun x => .ok (.loop (k + 1, x :: items))) p

/-- From the counter `k` on, a loop that can take the rounds that are left makes the calls that are
left. -/
theorem loop_counting (p : Behaviour ε α) (k j : Nat) {rounds : Nat} (h : j < rounds)
    (items : List α) : loop (p.counting (k + j)) rounds (k, items) =
      map (fun xs => .ok (xs.reverse ++ items)) (p.times j) := by
  induction j generalizing k items rounds with
  | zero =>
      obtain ⟨rounds, rfl⟩ := Nat.exists_eq_add_one_of_ne_zero (Nat.ne_zero_of_lt h)
      rw [loop_succ, counting, if_pos k.add_zero.symm]
      rfl
  | succ j ih =>
      obtain ⟨rounds, rfl⟩ := Nat.exists_eq_add_one_of_ne_zero (Nat.ne_zero_of_lt h)
      rw [loop_succ, counting, if_neg (by omega), round, bind_map, times, map_bind]
      refine congrArg (bind p) (funext fun x => ?_)
      show loop (p.counting (k + (j + 1))) rounds (k + 1, x :: items) = _
      rw [show k + (j + 1) = k + 1 + j by omega, ih (k + 1) (by omega), map_map]
      refine congrArg (fun f => map f (p.times j)) (funext fun xs => congrArg Except.ok ?_)
      rw [List.reverse_cons, List.append_assoc, List.singleton_append]

theorem ApproachedBy.times {q : Nat → Behaviour ε α} (h : p.ApproachedBy q) (n : Nat) :
    (p.times n).ApproachedBy fun fuel => (q fuel).times n := by
  induction n with
  | zero => exact .refl _
  | succ n ih => exact h.bind fun _ => ih.map

theorem Strict.times (h : p.Strict) (n : Nat) : (p.times n).Strict := by
  induction n with
  | zero => exact .pure []
  | succ n ih => exact h.bind fun _ => ih.map

end Behaviour

/-- A count that has the rounds does the calls one after the other. -/
theorem Parser.count_behaviour (enter : {α : Type} → Cell → ρ α → Behaviour ε α) {n : Int}
    {rounds : Nat} (h : n < rounds) (p : Parser ε ρ α) :
    (count n p).behaviour enter rounds = (p.behaviour enter rounds).times n.toNat := by
  by_cases hn : n ≤ 0
  · rw [count, if_pos hn, Int.toNat_of_nonpos hn]
    rfl
  · obtain ⟨n, rfl⟩ := Int.eq_ofNat_of_zero_le (show 0 ≤ n by omega)
    have calls := Behaviour.loop_counting (p.behaviour enter rounds) 0 n (Int.ofNat_lt.mp h) []
    rw [Nat.zero_add] at calls
    rw [count, if_neg hn]
    calc (repeated (fun k => (k : Int) = n) p).behaviour enter rounds
        = .map (fun items => .ok items.reverse)
            (.loop ((p.behaviour enter rounds).counting n) rounds (0, [])) := by
          refine congrArg (fun step => Behaviour.map _ (.loop step rounds (0, [])))
            (funext fun state => ?_)
          obtain ⟨k, items⟩ := state
          by_cases hk : k = n
          · simp only [hk, Behaviour.counting, decide_true, if_true]
            rfl
          · simp only [hk, Behaviour.counting, Int.ofNat_inj, decide_false, if_false]
            rfl
      _ = .map .ok ((p.behaviour enter rounds).times n) := by
          rw [calls, Behaviour.map_map]
          refine congrArg (fun f => Behaviour.map f _) (funext fun xs => congrArg Except.ok ?_)
          rw [List.append_nil, List.reverse_reverse]
      _ = (p.behaviour enter rounds).times n := Behaviour.map_ok _

namespace Grammar

open Parsing.Decimal (TooManyDigits)
open Parsing.Parser (count many)

variable {g : Grammar ε ρ} {p : Parser ε ρ α} {n : Int}

/-- A run of a count that has the fuel for its rounds is that many runs. -/
theorem run_count_eq {fuel : Nat} (h : n < fuel) :
    g.run fuel (count n p) = (g.run fuel p).times n.toNat := by
  simp only [run_eq]
  exact Parser.count_behaviour _ h p

/-- A count means that many calls, and none where the number is negative. -/
theorem meaning_count (n : Int) (p : Parser ε ρ α) :
    g.meaning (count n p) = (g.meaning p).times n.toNat := by
  refine meaning_eq_of_approached ((meaning_strict p).times _) (fun fuel => ?_) ?_
  · have more : (g.run (max fuel (n.toNat + 1)) (count n p)).ApproachedBy
        fun _ => (g.meaning p).times n.toNat := by
      rw [run_count_eq (by omega)]
      exact (run_approached_meaning _ p).times _
    refine Behaviour.below_iff.mp fun c s ended => ?_
    have same := run_below (Nat.le_max_left fuel (n.toNat + 1)) (count n p) c s ended
    rw [← same]
    exact Behaviour.below_iff.mpr more c s (same ▸ ended)
  · intro c s ended
    obtain ⟨k, hk⟩ := (meaning_approached p).times n.toNat c s ended
    refine ⟨max k (n.toNat + 1), fun fuel hfuel => ?_⟩
    simp only [run_count_eq (show n < fuel by omega)]
    exact hk fuel (by omega)

theorem meaning_count_iff {c : Cursor} {s : Session} {r : Outcome ε (List α) × Session}
    (hr : r.1 ≠ .exhausted) :
    g.meaning (count n p) c s = r ↔ (g.meaning p).Called n.toNat c s r := by
  rw [meaning_count, Behaviour.times_eq_iff hr]

section

variable {c d : Cursor} {s t : Session} {xs : List α}

/-- It succeeds exactly if all the calls do. -/
theorem meaning_count_success_iff : g.meaning (count n p) c s = (.success xs d, t) ↔ ∃ calls,
    (g.meaning p).Calls c s calls d t ∧ calls.length = n.toNat ∧ xs = calls.map Prod.snd := by
  rw [meaning_count_iff (by simp)]
  constructor
  · rintro (⟨called, all⟩)
    exact ⟨_, called, all, rfl⟩
  · rintro ⟨calls, called, all, rfl⟩
    exact .success called all

/-- It fails with the first call that fails. -/
theorem meaning_count_failure_iff {o : Int} {e : ParseError} :
    g.meaning (count n p) c s = (.failure o e, t) ↔ ∃ calls d s',
      (g.meaning p).Calls c s calls d s' ∧ calls.length < n.toNat ∧
        g.meaning p d s' = (.failure o e, t) := by
  rw [meaning_count_iff (by simp)]
  constructor
  · rintro (_ | ⟨called, few, last⟩)
    exact ⟨_, _, _, called, few, last⟩
  · rintro ⟨calls, d, s', called, few, last⟩
    exact .failure called few last

theorem meaning_count_thrown_iff {fault : Fault ε} :
    g.meaning (count n p) c s = (.thrown fault, t) ↔ ∃ calls d s',
      (g.meaning p).Calls c s calls d s' ∧ calls.length < n.toNat ∧
        g.meaning p d s' = (.thrown fault, t) := by
  rw [meaning_count_iff (by simp)]
  constructor
  · rintro (_ | _ | ⟨called, few, last⟩)
    exact ⟨_, _, _, called, few, last⟩
  · rintro ⟨calls, d, s', called, few, last⟩
    exact .thrown called few last

/-- What a repetition reads can be counted. -/
theorem meaning_count_of_many {s' : Session} (h : g.meaning (many p) c s = (.success xs d, s')) :
    ∃ t, g.meaning (count xs.length p) c s = (.success xs d, t) := by
  obtain ⟨t, read, -⟩ := meaning_many_success_iff.mp h
  obtain ⟨calls, called, rfl⟩ := read.calls
  exact ⟨t, meaning_count_success_iff.mpr ⟨calls, called, by simp, rfl⟩⟩

end

/-- A count of none succeeds on the spot, whatever the parser is and without fuel. -/
theorem run_count_of_nonpos (hn : n ≤ 0) (p : Parser ε ρ α) (fuel : Nat) (c : Cursor)
    (s : Session) : g.run fuel (count n p) c s = (.success [] c, s) := by
  rw [count, if_pos hn, run_eq]
  rfl

/-- Counts add up in every run that has fuel for all the rounds. -/
theorem run_count_add {m n : Int} {fuel : Nat} (hm : 0 ≤ m) (hn : 0 ≤ n) (h : m + n < fuel)
    (p : Parser ε ρ α) :
    g.run fuel (count (m + n) p) = g.run fuel (count m p ++ count n p) := by
  rw [Parser.append_eq_combine, run_combine, run_count_eq h, run_count_eq (by omega),
    run_count_eq (by omega), Int.toNat_add hm hn, Behaviour.times_add]

/-- Fuel apart, to count up to a sum is to count up to each part and to put the lists together. -/
theorem meaning_count_add {m n : Int} (hm : 0 ≤ m) (hn : 0 ≤ n) (p : Parser ε ρ α) :
    g.meaning (count (m + n) p) = g.meaning (count m p ++ count n p) := by
  rw [Parser.append_eq_combine, meaning_combine, meaning_count, meaning_count, meaning_count,
    Int.toNat_add hm hn, Behaviour.times_add]

/-- What a probe in front of the counted parser notes in a run. -/
theorem run_count_noted {fuel : Nat} {name : String} (h : n < fuel)
    (quiet : ∀ c s, (g.run fuel p c s).2.visits name = s.visits name) (c : Cursor) (s : Session) :
    Behaviour.Noted name n.toNat s (g.run fuel (count n (.visit name p)) c s) := by
  have probed : g.run fuel (.visit name p) = .visit name (g.run fuel p) := by
    simp only [run_eq]; rfl
  rw [run_count_eq h, probed]
  exact Behaviour.times_noted quiet n.toNat c s

/-- **Counts add up.**  A run that has the fuel for the rounds of `m + n` items goes as one of `m`
items with one of `n` items behind it, whose lists are put together: it comes to the same outcome
in the same session, so that what it read, where it failed and with which error, what was raised
and what the probes in `p` have noted are the same.  Fuel apart they mean the same.

A count of no items, or of fewer than none, reads nothing.  Otherwise it succeeds if `n` calls of
`p` succeed, each where the one before has ended, with their values in order, and it fails or is
cut short as the first call is that does not succeed.  A probe in front of `p`, with a name that `p`
does not use, notes at most `n` offsets, and exactly `n` if the count succeeds.

Where a repetition succeeds, a count of as many items succeeds with the same. -/
theorem run_count (g : Grammar ε ρ) (p : Parser ε ρ α) :
    (∀ m n : Int, 0 ≤ m → 0 ≤ n →
      (∀ fuel : Nat, m + n < fuel →
        g.run fuel (count (m + n) p) = g.run fuel (count m p ++ count n p)) ∧
      g.meaning (count (m + n) p) = g.meaning (count m p ++ count n p)) ∧
    (∀ n : Int, n ≤ 0 → ∀ fuel c s, g.run fuel (count n p) c s = (.success [] c, s)) ∧
    (∀ (n : Int) (c : Cursor) (s t : Session),
      (∀ xs d, g.meaning (count n p) c s = (.success xs d, t) ↔ ∃ calls,
        (g.meaning p).Calls c s calls d t ∧ calls.length = n.toNat ∧ xs = calls.map Prod.snd) ∧
      (∀ o e, g.meaning (count n p) c s = (.failure o e, t) ↔ ∃ calls d s',
        (g.meaning p).Calls c s calls d s' ∧ calls.length < n.toNat ∧
          g.meaning p d s' = (.failure o e, t)) ∧
      (∀ fault, g.meaning (count n p) c s = (.thrown fault, t) ↔ ∃ calls d s',
        (g.meaning p).Calls c s calls d s' ∧ calls.length < n.toNat ∧
          g.meaning p d s' = (.thrown fault, t))) ∧
    (∀ (n : Int) (fuel : Nat) (name : String), n < fuel →
      (∀ c s, (g.run fuel p c s).2.visits name = s.visits name) → ∀ c s, ∃ places,
        (g.run fuel (count n (.visit name p)) c s).2.visits name = s.visits name ++ places ∧
        places.length ≤ n.toNat ∧
        ∀ xs d, (g.run fuel (count n (.visit name p)) c s).1 = .success xs d →
          places.length = n.toNat ∧ xs.length = n.toNat) ∧
    (∀ (c d : Cursor) (s s' : Session) (xs : List α),
      g.meaning (many p) c s = (.success xs d, s') →
        ∃ t, g.meaning (count xs.length p) c s = (.success xs d, t)) :=
  ⟨fun _ _ hm hn => ⟨fun _ h => run_count_add hm hn h p, meaning_count_add hm hn p⟩,
    fun _ hn => run_count_of_nonpos hn p,
    fun _ _ _ _ => ⟨fun _ _ => meaning_count_success_iff, fun _ _ => meaning_count_failure_iff,
      fun _ => meaning_count_thrown_iff⟩,
    fun _ _ _ h quiet => run_count_noted h quiet, fun _ _ _ _ _ => meaning_count_of_many⟩

/-- Digits that may be missing, counted with one more than there are. -/
theorem run_count_digit :
    let g := Json.grammar .standard
    let digit : Parser TooManyDigits Json.Rule (Option Char) := .optionMaybe (.satisfy Char.isDigit)
    let text := #['4', ';']
    g.run 4 (count (1 + 2) digit) = g.run 4 (count 1 digit ++ count 2 digit) ∧
    g.meaning (count (1 + 2) digit) =
      g.meaning (count 1 digit ++ count 2 digit) ∧
    g.run 0 (count (-1) digit) (.start text) .start =
      (.success [] (.start text), .start) ∧
    (∃ places, (g.run 4 (count 3 (.visit "digit" digit)) (.start text) .start).2.visits
        "digit" = [] ++ places ∧ places.length = 3) ∧
    ∃ t, g.meaning (count 1 digit) (.start text) .start =
      (.success [some '4'] ⟨text, 1, by decide⟩, t) := by
  intro g digit text
  have counted := run_count g digit
  have quiet (c : Cursor) (s : Session) :
      (g.run 4 digit c s).2.visits "digit" = s.visits "digit" := by
    have missing : g.run 4 digit =
        .alt (.map (fun x => .ok (some x)) (.satisfy Char.isDigit)) (.pure none) := by
      rw [run_eq]; rfl
    rw [missing, Behaviour.alt_pure, Behaviour.map_ok_eq, Behaviour.satisfy_session]
  have sum := counted.1 1 2 (by decide) (by decide)
  refine ⟨sum.1 4 (by decide), sum.2, counted.2.1 (-1) (by decide) 0 (.start text) .start, ?_, ?_⟩
  · obtain ⟨places, noted, -, all⟩ := counted.2.2.2.1 3 4 "digit" (by decide) quiet
      (.start text) .start
    exact ⟨places, noted, (all _ ⟨text, 1, by decide⟩ rfl).1⟩
  · have once : g.meaning (many digit) (.start text) .start =
        (.success [some '4'] ⟨text, 1, by decide⟩, .start) :=
      (meaning_eq_iff (by simp)).mpr ⟨5, rfl⟩
    exact counted.2.2.2.2 _ _ _ _ _ once

end Grammar

end Parsing
