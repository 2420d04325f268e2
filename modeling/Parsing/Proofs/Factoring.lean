import Parsing.Proofs.Items

/-!
# Left factoring

Two alternatives that begin with the same parser can be written as that parser with the choice
behind it.  The one form reads the common part again for its second alternative, and needs
`Parser.attempt` around its first to come back to it; the other chooses in the middle of the text,
with another place where a failure is empty.

**They come to the same** (`Grammar.run_factored`), provided that the common part and the second
alternative do the same in whatever session they are run, as everything does that is built from the
library (`Grammar.Uniform.run_steady`).  The one difference is in the suggestions of a common part
that fails: with two alternatives it fails twice, and its suggestions are listed twice.
-/

namespace Parsing

variable {ε : Type} {ρ : Type → Type} {α β : Type}

/-- The outcome fails. -/
def Outcome.IsFailure : Outcome ε α → Prop
  | .failure _ _ => True
  | .success _ _ | .thrown _ | .exhausted => False

namespace Behaviour

variable {p : Behaviour ε α} {q r : Behaviour ε β} {c d : Cursor} {s s' : Session} {x : α}

theorem bind_of_success {f : α → Behaviour ε β} (h : p c s = (.success x d, s')) :
    bind p f c s = f x d s' := by
  simp only [bind, h]

theorem attempt_of_failure {o : Int} {e : ParseError} (h : p c s = (.failure o e, s')) :
    attempt p c s = (.failure c.offset e, s') := by
  simp only [attempt, h]

theorem attempt_of_not_failure (h : ¬ (p c s).1.IsFailure) : attempt p c s = p c s := by
  simp only [attempt]
  generalize p c s = reply at h ⊢
  obtain ⟨o, t⟩ := reply
  cases o with
  | failure _ _ => exact absurd trivial h
  | success _ _ | thrown _ | exhausted => rfl

/-- An attempt that fails leaves the place to the other alternative, wherever it has failed. -/
theorem attempt_alt_of_failure {p q : Behaviour ε α} {o : Int} {e : ParseError}
    (h : p c s = (.failure o e, s')) :
    alt (attempt p) q c s = ((q c s').1.after [e], (q c s').2) :=
  alt_of_empty (attempt_of_failure h)

theorem attempt_alt_of_not_failure {p q : Behaviour ε α} (h : ¬ (p c s).1.IsFailure) :
    alt (attempt p) q c s = p c s := by
  have same := attempt_of_not_failure h
  have full : ¬ (attempt p c s).1.IsEmptyFailure c := by
    rw [same]
    intro empty
    obtain ⟨e, he⟩ := Outcome.isEmptyFailure_iff.mp empty
    exact h (he ▸ trivial)
  rw [alt_of_not_empty full, same]

/-- Behind a common part that succeeds it does not matter whether that part is read again. -/
theorem factored_of_success (hp : p.Steady) (hr : r.Steady) (h : p c s = (.success x d, s')) :
    (alt (attempt (bind p fun _ => q)) (bind p fun _ => r) c s).1 =
      (bind p (fun _ => alt (attempt q) r) c s).1 := by
  have first : bind p (fun _ => q) c s = q d s' := bind_of_success h
  rw [bind_of_success h]
  cases hq : q d s' with
  | mk o t =>
      cases o with
      | failure o e =>
          have again : (p c t).1 = .success x d := by rw [hp c t s, h]
          have second : (bind p (fun _ => r) c t).1 = (r d t).1 := by
            rw [bind_of_success (Prod.ext again rfl)]
            exact hr d _ t
          rw [attempt_alt_of_failure (first.trans hq), attempt_alt_of_failure hq, second]
      | success _ _ | thrown _ | exhausted =>
          rw [attempt_alt_of_not_failure (by rw [first, hq]; exact id),
            attempt_alt_of_not_failure (by rw [hq]; exact id), first]

/-- A common part that fails, fails for both alternatives. -/
theorem factored_of_failure {o : Int} {e : ParseError} (hp : p.Steady)
    (h : p c s = (.failure o e, s')) :
    (bind p (fun _ => alt (attempt q) r) c s).1 = .failure o e ∧
      (alt (attempt (bind p fun _ => q)) (bind p fun _ => r) c s).1 =
        .failure o (e.withSuggestions e.suggestions) := by
  have fails {f : α → Behaviour ε β} {t t' : Session} (h : p c t = (.failure o e, t')) :
      bind p f c t = (.failure o e, t') := by
    simp only [bind, h]
  have again : (p c s').1 = .failure o e := by rw [hp c s' s, h]
  rw [attempt_alt_of_failure (fails h), fails h, fails (Prod.ext again rfl)]
  exact ⟨rfl, by simp [Outcome.after]⟩

/-- A common part that neither succeeds nor fails ends both forms. -/
theorem factored_of_not_failure (hp : p.Steady) (hr : r.Steady) (h : ¬ (p c s).1.IsFailure) :
    (alt (attempt (bind p fun _ => q)) (bind p fun _ => r) c s).1 =
      (bind p (fun _ => alt (attempt q) r) c s).1 := by
  cases h' : p c s with
  | mk o s' =>
      cases o with
      | success x d => exact factored_of_success hp hr h'
      | failure _ _ => exact absurd (by rw [h']; trivial) h
      | thrown _ | exhausted => simp only [alt, attempt, bind, h']

end Behaviour

namespace Grammar

open Parsing.Decimal (TooManyDigits)
open Parsing.Parser (Copy)

variable {g : Grammar ε ρ} {N : Naming ρ} {k k' l l' : Frame}

/-- **Left factoring is sound.**  Two alternatives that begin with `p`, the first of them attempted,
and `p` with the choice behind it succeed in the same runs, with the same value and at the same
place, and fail in the same runs, at the same place and with the same message.  If `p` does not
fail they come to the same outcome, the suggestions included.  If `p` fails, both fail as `p` does,
but the two alternatives list the suggestions of `p` twice.

Of `p` and `r` it is asked that their texts name no frames but those opened in them, so that `p` can
be read again and `r` behind something else; `q` is run once in either form, in the same session. -/
theorem run_factored (hg : g.Uniform N) {p : Parser ε ρ α} {q r : Parser ε ρ β}
    (hp : p.Copy N k k' p) (hr : r.Copy N l l' r) (fuel : Nat) (c : Cursor) (s : Session) :
    let branches := (g.run fuel ((p.keepRight q).attempt.alt (p.keepRight r)) c s).1
    let factored := (g.run fuel (p.keepRight (q.attempt.alt r)) c s).1
    (∀ y d, branches = .success y d ↔ factored = .success y d) ∧
    (∀ o message, (∃ suggestions, branches = .failure o ⟨message, suggestions⟩) ↔
      ∃ suggestions, factored = .failure o ⟨message, suggestions⟩) ∧
    (¬ (g.run fuel p c s).1.IsFailure → branches = factored) ∧
    ∀ o e, (g.run fuel p c s).1 = .failure o e → factored = .failure o e ∧
      branches = .failure o (e.withSuggestions e.suggestions) := by
  intro branches factored
  have hb : branches = (Behaviour.alt (.attempt (.bind (g.run fuel p) fun _ => g.run fuel q))
      (.bind (g.run fuel p) fun _ => g.run fuel r) c s).1 := by
    simp only [branches, run_eq]
    rfl
  have hf : factored = (Behaviour.bind (g.run fuel p)
      (fun _ => .alt (.attempt (g.run fuel q)) (g.run fuel r)) c s).1 := by
    simp only [factored, run_eq]
    rfl
  have hp := hg.run_steady hp fuel
  have hr := hg.run_steady hr fuel
  have same (h : ¬ (g.run fuel p c s).1.IsFailure) : branches = factored := by
    rw [hb, hf, Behaviour.factored_of_not_failure hp hr h]
  have twice (o : Int) (e : ParseError) (h : (g.run fuel p c s).1 = .failure o e) :
      factored = .failure o e ∧ branches = .failure o (e.withSuggestions e.suggestions) := by
    rw [hb, hf]
    exact Behaviour.factored_of_failure hp (Prod.ext h rfl)
  refine ⟨fun y d => ?_, fun o message => ?_, same, twice⟩
  · cases h : (g.run fuel p c s).1 with
    | failure o e =>
        obtain ⟨once, again⟩ := twice o e h
        rw [once, again]
        simp
    | success _ _ | thrown _ | exhausted => rw [same (h ▸ id)]
  · cases h : (g.run fuel p c s).1 with
    | failure o' e =>
        obtain ⟨once, again⟩ := twice o' e h
        rw [once, again]
        constructor
        · rintro ⟨_, ⟨⟩⟩
          exact ⟨e.suggestions, rfl⟩
        · rintro ⟨_, ⟨⟩⟩
          exact ⟨_, rfl⟩
    | success _ _ | thrown _ | exhausted => rw [same (h ▸ id)]

/-- A digit with one of two words behind it that begin with the same letter. -/
theorem run_factored_words :
    let g := Json.grammar .standard
    let digit : Parser TooManyDigits Json.Rule Char := .satisfy Char.isDigit
    let text := #['4', 'a', 'c']
    (g.run 3 ((digit.keepRight (.string "ab")).attempt.alt
        (digit.keepRight (.string "ac"))) (.start text) .start).1 =
      .success "ac" ⟨text, 3, by decide⟩ := by
  intro g digit text
  have common : digit.Copy (.plain Json.Rule) 1 1 digit := .satisfy _
  have second : (Parser.string "ac" : Parser TooManyDigits Json.Rule String).Copy
      (.plain Json.Rule) 1 1 (.string "ac") := .string _
  have uniform : g.Uniform (.plain Json.Rule) := Json.grammar_uniform
  have sound := run_factored uniform (q := .string "ab") common second 3 (.start text) .start
  exact (sound.1 "ac" ⟨text, 3, by decide⟩).mpr rfl

end Grammar

end Parsing
