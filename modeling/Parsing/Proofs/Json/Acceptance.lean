import Parsing.Proofs.Json.Prospects

/-!
# The parser of JSON documents accepts its grammar

`run_iff_document` is the main result: a run of the parser on a text always ends, and it succeeds
with a value exactly if the grammar of documents derives the text with that value.

It does not fail on every other text: where there are more digits than an integer may have it raises
an exception instead.  This is the only reason to raise one (`run_ends`), so that without a limit a
run succeeds or fails.
-/

namespace Parsing.Json

open Decimal Syntax

section

variable (limit : DigitLimit) (text : Array Char)

/-- A run on a whole text ends.  It succeeds only with a value that the grammar gives the text, and
it is broken off only by an exception, where a beginning of the text overruns the limit. -/
theorem parser_ends : ((grammar limit).run (text.size + 2) (parser limit)).Meets (.start text) fun
    | .success v _ => Document limit text.toList v
    | .failure _ => True
    | .thrown fault =>
        (∃ exception, fault = .raised exception) ∧ ∃ u, u <+: text.toList ∧ Overruns limit u
    | .exhausted => False := by
  intro s
  have sound := parser_sound limit text s
  have stopped := run_prospects limit (text.size + 2) (.start text) s
  generalize ((grammar limit).run (text.size + 2) (parser limit) (.start text) s).1.verdict = v
    at sound stopped
  cases v with
  | success _ _ | failure _ | exhausted => exact sound
  | thrown fault =>
      obtain ⟨u, d, read, overruns⟩ := stopped
      exact ⟨sound, u, ⟨d.remaining, read.2.symm⟩, overruns⟩

/-- A run on a text succeeds, or fails, or raises an exception, which it does only where a beginning
of the text overruns the limit. -/
theorem run_ends (s : Session) :
    (∃ v rest s',
        (grammar limit).runText (text.size + 2) (parser limit) text s = (.success v rest, s')) ∨
      (∃ offset error s', (grammar limit).runText (text.size + 2) (parser limit) text s =
        (.failure offset error, s')) ∨
      (∃ exception s', (grammar limit).runText (text.size + 2) (parser limit) text s =
        (.thrown (.raised exception), s')) ∧ ∃ u, u <+: text.toList ∧ Overruns limit u := by
  have ends := Grammar.runText_meets (parser_ends limit text) s
  cases hr : (grammar limit).runText (text.size + 2) (parser limit) text s with
  | mk o s' =>
      rw [hr] at ends
      cases o with
      | success v d => exact .inl ⟨v, d, s', rfl⟩
      | failure offset error => exact .inr (.inl ⟨offset, error, s', rfl⟩)
      | thrown fault =>
          obtain ⟨⟨exception, rfl⟩, overruns⟩ := ends
          exact .inr (.inr ⟨⟨exception, s', rfl⟩, overruns⟩)
      | exhausted => exact ends.elim

/-- A run on a text succeeds with the value that the grammar gives it, and with no other. -/
theorem run_success_iff (s : Session) (v : Json) :
    (∃ rest s',
        (grammar limit).runText (text.size + 2) (parser limit) text s = (.success v rest, s')) ↔
      Document limit text.toList v := by
  constructor
  · rintro ⟨rest, s', h⟩
    have ends := Grammar.runText_meets (parser_ends limit text) s
    rw [h] at ends
    exact ends
  · intro h
    obtain ⟨d, hd⟩ := Grammar.runText_meets (parser_complete text h) s
    cases hr : (grammar limit).runText (text.size + 2) (parser limit) text s with
    | mk o s' =>
        rw [hr] at hd
        cases o with
        | success _ _ =>
            cases hd
            exact ⟨d, s', rfl⟩
        | failure _ _ | thrown _ | exhausted => cases hd

/-- **The parser accepts exactly the documents of the grammar.**  A run on a text ends, with a
success or a failure, or with an exception where there are more digits than an integer may have.  It
succeeds with a value if and only if the grammar derives the text with that value.

Where integers are exact at any size (`DigitLimit.unlimited`) it ends with a success or a failure on
every text. -/
theorem run_iff_document (s : Session) :
    ((∃ v rest s',
        (grammar limit).runText (text.size + 2) (parser limit) text s = (.success v rest, s')) ∨
      (∃ offset error s', (grammar limit).runText (text.size + 2) (parser limit) text s =
        (.failure offset error, s')) ∨
      (∃ exception s', (grammar limit).runText (text.size + 2) (parser limit) text s =
        (.thrown (.raised exception), s')) ∧
      ∃ digits, digits <:+: text.toList ∧ Digits digits ∧ ¬ limit.Allows digits.length) ∧
    ((∃ v rest s', (grammar .unlimited).runText (text.size + 2) (parser .unlimited) text s =
        (.success v rest, s')) ∨
      ∃ offset error s', (grammar .unlimited).runText (text.size + 2) (parser .unlimited) text s =
        (.failure offset error, s')) ∧
    ∀ v, (∃ rest s',
        (grammar limit).runText (text.size + 2) (parser limit) text s = (.success v rest, s')) ↔
      Document limit text.toList v := by
  refine ⟨(run_ends limit text s).imp_right (.imp_right (.imp_right ?_)), ?_,
    run_success_iff limit text s⟩
  · rintro ⟨u, there, overruns⟩
    exact overruns.digits there
  · obtain success | failure | ⟨-, u, there, overruns⟩ := run_ends .unlimited text s
    · exact .inl success
    · exact .inr failure
    · obtain ⟨digits, -, -, many⟩ := overruns.digits there
      exact absurd (DigitLimit.allows_unlimited digits.length) many

/-- A document that is an integer with too many digits raises the exception. -/
theorem parser_overlong {w : List Char} (digits : Digits w) {most : Nat}
    (many : limit.exceeded? w.length = some most) {text : Array Char}
    (here : text.toList = w ++ ['\n']) :
    ((grammar limit).run (text.size + 2) (parser limit)).Meets (.start text)
      (· = .thrown (.raised ⟨most, some w.length⟩)) := by
  have enough := length_start text
  have ends : Avoids numeric ['\n'] := Avoids.cons_iff.mpr (by decide)
  have head (f : Char → Bool) (hf : ∀ x, x.isDigit = true → f x = false) :
      Avoids f (Cursor.start text).remaining := by
    rw [remaining_start, here]
    exact avoids_of_digits digits hf _
  have spaces := (spaces_run_recognises limit text).complete enough (x := ()) blanks_nil
    (.refl _) (head _ fun _ => isBlank_of_isDigit)
  have number : ((Rules.number (readInt limit id)).behaviour
      ((grammar limit).entered (text.size + 2)) (text.size + 2)).Meets (.start text)
      (· = .thrown (.raised ⟨most, some w.length⟩)) := by
    refine (number_below (grammar limit) limit id).meets_of_ended
      (((number_recognises limit id (Nat.le_refl _)).sound _ enough).mono fun v hv => ?_)
      (number_meets_of_digits (grammar limit) id (c := .start text) here digits ends many)
    rintro rfl
    exact hv
  rw [Grammar.run_eq, parser_behaviour]
  refine .bind (spaces.of_eq ?_)
  simp only [Verdict.Continues]
  -- Of the alternatives in front of numbers none begins with a digit.
  have refuses := head _ fun _ => not_word_of_isDigit
  refine .bind (.alt (.alt (.alt (((words_recognises (Nat.le_refl _)).absent _ enough
    refuses).of_eq ((if_pos rfl).mpr ?_)))))
  exact number.of_eq rfl

end

/-! ### Accepted texts -/

variable {limit : DigitLimit}

/-- The parser accepts the text. -/
def Accepts (limit : DigitLimit) (w : List Char) : Prop :=
  ∃ v rest, (read limit w.toArray).1 = .success v rest

/-- The parser accepts the texts that the grammar gives a value. -/
theorem accepts_iff {w : List Char} : Accepts limit w ↔ Spelled (Document limit) w := by
  refine exists_congr fun v => .trans ?_ (run_success_iff limit w.toArray .start v)
  refine exists_congr fun rest => ⟨fun h => ⟨_, Prod.ext h rfl⟩, ?_⟩
  rintro ⟨s', h⟩
  exact congrArg Prod.fst h

/-- A run on a text that the parser accepts succeeds, in any session and with any fuel that is
enough for the text. -/
theorem Accepts.run {w : List Char} (h : Accepts limit w) {fuel : Nat}
    (enough : w.length + 2 ≤ fuel) (s : Session) :
    ∃ v d, ((grammar limit).run fuel (parser limit) (.start w.toArray) s).1 = .success v d := by
  obtain ⟨v, h⟩ := accepts_iff.mp h
  obtain ⟨d, hd⟩ := parser_complete w.toArray h s
  refine ⟨v, d, ?_⟩
  rw [List.size_toArray] at hd
  generalize hr : (grammar limit).run (w.length + 2) (parser limit) (.start w.toArray) s = r at hd
  obtain ⟨o, s'⟩ := r
  cases o with
  | success _ _ =>
      cases hd
      rw [Grammar.run_mono enough (by rw [hr]; nofun), hr]
  | failure _ _ | thrown _ | exhausted => cases hd

end Parsing.Json
