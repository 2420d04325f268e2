import Parsing.Proofs.Congruence
import Parsing.Proofs.Copies
import Parsing.Script.Program

/-!
# Uniform grammars

To be copies of one another is a congruence, so that what is built for a rule of JSON, or for a
term of a script, depends on the frame in nothing but its cells.  The grammar of JSON is therefore
uniform (`Json.grammar_uniform`), and so is that of every script (`Script.grammar_uniform`): the
names of their rules mention no frames.
-/

namespace Parsing

variable {ε : Type} {ρ : Type → Type} {N : Naming ρ} {k k' : Frame}

/-- A frame that has just been opened is among those that may be named. -/
theorem lt_max_succ {frame : Frame} : frame < max k (frame + 1) :=
  Nat.lt_of_lt_of_le (Nat.lt_succ_self frame) (Nat.le_max_right ..)

instance Parser.Copy.congruence : Congruence (@Copy ε ρ N k k') where
  pure := .pure
  fail := .fail
  satisfy := .satisfy
  string := .string
  mapM := .mapM
  applyM := .applyM
  bind := .bind
  alt := .alt
  label := .label
  suggest := .suggest
  notFollowedBy := .notFollowedBy
  advancing := .advancing
  tailRec := .tailRec

/-! ### Documents -/

namespace Json

namespace Rules

open Parsing.Parser (Copy)

variable (toInt : List Char → Except ε Int) (value : ρ Json) {cell cell' : Cell}
  (hc : cell.frame < k) (hc' : cell'.frame < k')

/-- The rule for entries defers to a frame of its own, so that it is its own copy in any. -/
theorem entry_copy :
    (entry value : Parser ε ρ (String × Json)).Copy (.plain ρ) k k' (entry value) :=
  .bind stringLiteral_congr fun _ => .fresh fun _ _ =>
    .bind (symbol_congr ":") fun _ => .mapM _ (.deferred lt_max_succ lt_max_succ rfl)

include hc hc'

/-- The rule for values defers to the cell that it is given. -/
theorem element_copy :
    (element toInt value cell : Parser ε ρ Json).Copy (.plain ρ) k k' (element toInt value cell') :=
  element_congr (.deferred hc hc' rfl) (entry_copy value)

theorem document_copy :
    (document toInt value cell : Parser ε ρ Json).Copy (.plain ρ) k k'
      (document toInt value cell') :=
  document_congr (.deferred hc hc' rfl) (entry_copy value)

end Rules

variable {limit : Decimal.DigitLimit}

/-- The rule of the grammar is built alike in every frame. -/
theorem grammar_uniform : (grammar limit).Uniform (.plain Rule) := by
  rintro k k' _ rule _ rfl frame frame'
  cases rule
  exact .ok (Rules.element_copy _ _ lt_max_succ lt_max_succ)

theorem parser_copy : (parser limit).Copy (.plain Rule) 1 1 (parser limit) :=
  Rules.document_copy _ _ Nat.one_pos Nat.one_pos

end Json

/-! ### Scripts -/

namespace Script

open Parsing.Parser (Copy)
open Parsing.Parser.Congruence

variable {N : Naming Rule} {scope : Scope}

/-- An expression is evaluated alike in both frames, and with one value the rest is built alike. -/
theorem agree_build {expr : Expr} {next next' : Value → Except Exception (ScriptParser Value)}
    (h : ∀ value, Agree (Copy N k k') (next value) (next' value)) :
    Agree (Copy N k k') (expr.build scope next) (expr.build scope next') := by
  simp only [Expr.build]
  cases expr.eval scope with
  | ok value => exact h value
  | error exception => exact .error exception

theorem agree_ofText {text : Except Exception String} {next next' : String → Built}
    (h : ∀ text, Agree (Copy N k k') (next text) (next' text)) :
    Agree (Copy N k k') (Built.ofText text next) (Built.ofText text next') := by
  cases text with
  | ok text => exact h text
  | error exception => exact .error exception

/-- Where the construction raises an exception, the parser that stands for it raises it in both
frames. -/
theorem orRaise_copy {b b' : Built} (h : Agree (Copy N k k') b b') :
    b.orRaise.Copy N k k' b'.orRaise := by
  cases h with
  | ok h => exact h
  | error exception => exact .raise exception

/-- An atom defers to nothing. -/
theorem parserOfAtom_copy (a : Atom) : (parserOfAtom a).Copy N k k' (parserOfAtom a) := by
  cases a with
  | anyChar | digit | letter | alphaNum | space => exact map (.label (.satisfy _) _)
  | spaces => exact map spaces
  | eof => exact map eof
  | position => exact map (.bind .position fun _ => .pure _)
  | empty => exact empty

/-- A wrapper around copies gives copies. -/
theorem wrapped_copy (wrapper : Wrapper) {p p' : ScriptParser Value} (hp : p.Copy N k k' p') :
    (wrapped wrapper p).Copy N k k' (wrapped wrapper p') := by
  cases wrapper with
  | attempt => exact .attempt hp
  | lookAhead => exact .lookAhead hp
  | many => exact map (many hp)
  | skipMany => exact map (skipMany hp)
  | many1 => exact map (many1 hp)
  | skipMany1 => exact map (skipMany1 hp)
  | optionMaybe => exact map (optionMaybe hp)
  | optional => exact map (optional hp)
  | notFollowedBy => exact map (.notFollowedBy _ (.mapM _ hp))
  | lexeme => exact Json.Rules.lexeme_congr hp

/-- Two copies joined in the same way are copies. -/
theorem joined_copy (joint : Joint) {p p' q q' : ScriptParser Value} (hp : p.Copy N k k' p')
    (hq : q.Copy N k k' q') : (joined joint p q).Copy N k k' (joined joint p' q') := by
  cases joint with
  | sepBy => exact map (sepBy hp hq)
  | sepBy1 => exact map (sepBy1 hp hq)
  | endBy => exact map (endBy hp hq)
  | sepEndBy => exact map (sepEndBy hp hq)
  | sepEndBy1 => exact map (sepEndBy1 hp hq)
  | manyTill => exact map (manyTill hp hq)
  | chainl1 => exact chainl1 hp (map hq)
  | chainr1 => exact chainr1 hp (map hq)
  | apply => exact .applyM (map hp) hq
  | keepRight => exact keepRight hp hq
  | keepLeft => exact keepLeft hp hq
  | pair => exact combine hp hq
  | plus => exact combineM hp hq
  | alt => exact .alt hp hq

theorem countFloat_copy (times : Float) {p p' : ScriptParser Value} (hp : p.Copy N k k' p') :
    (countFloat times p).Copy N k k' (countFloat times p') := by
  by_cases h : times ≤ 0
  · simp only [countFloat, if_pos h]
    exact .pure _
  · simp only [countFloat, if_neg h]
    cases Decimal.wholeOfFloat? times with
    | some n => exact count hp
    | none => exact repeated hp

/-- The rules of JSON stand in a script with the cell they are given. -/
theorem parserOfPart_copy (part : JsonPart) {cell cell' : Cell} (hc : cell.frame < k)
    (hc' : cell'.frame < k') :
    (parserOfPart cell part).Copy (.plain Rule) k k' (parserOfPart cell' part) := by
  cases part with
  | null | true | false => exact map (Json.Rules.constant_congr _ _)
  | escape => exact map Json.Rules.escape_congr
  | stringLiteral => exact map Json.Rules.stringLiteral_congr
  | digits => exact map Json.Rules.digits_congr
  | fraction => exact map Json.Rules.fraction_congr
  | exponent => exact map Json.Rules.exponent_congr
  | number => exact map (Json.Rules.number_congr _)
  | value => exact map (Json.Rules.element_copy _ _ hc hc')
  | array => exact map (Json.Rules.array_congr (.deferred hc hc' rfl))
  | object => exact map (Json.Rules.object_congr (Json.Rules.entry_copy _))
  | document => exact map (Json.Rules.document_copy _ _ hc hc')

mutual

/-- What a term is built as depends on the frame and the sites in its cells only. -/
theorem build_copy {k k' frame frame' : Frame} (hf : frame < k) (hf' : frame' < k')
    (scope : Scope) (site site' : Nat) : ∀ p : Term,
      Agree (Copy (.plain Rule) k k') (p.build frame scope site) (p.build frame' scope site')
  | .atom a => .ok (parserOfAtom_copy a)
  | .wrap wrapper p =>
      (build_copy hf hf' scope _ _ p).bind fun h => .ok (wrapped_copy wrapper h)
  | .join joint p q =>
      (build_copy hf hf' scope _ _ p).bind fun hp =>
        (build_copy hf hf' scope _ _ q).bind fun hq => .ok (joined_copy joint hp hq)
  | .satisfy accepted => .ok (map (.satisfy _))
  | .char spelling => by
      refine agree_build fun value => ?_
      cases value with
      | str spelling => exact .ok (map (charSpelled _))
      | _ => exact agree_ofText fun _ => .ok (.suggest (.label (map (.satisfy _)) _) _)
  | .string text => by
      refine agree_build fun value => ?_
      cases value with
      | str text => exact .ok (map (.string _))
      | tuple spellings => exact agree_ofText fun _ => .ok (.custom _)
      | _ => exact agree_ofText fun _ => .ok (.raise _)
  | .symbol text => .ok (map (Json.Rules.symbol_congr _))
  | .oneOf spellings => .ok (map (oneOfSpelled _))
  | .noneOf spellings => .ok (map (noneOfSpelled _))
  | .pure value => agree_build fun _ => .ok (.pure _)
  | .fail message suggestions => agree_build fun _ => agree_ofText fun _ => .ok (.fail _)
  | .map p function =>
      (build_copy hf hf' scope _ _ p).bind fun hp =>
        agree_build fun _ => .ok (.mapM _ hp)
  | .bind p name next =>
      (build_copy hf hf' scope _ _ p).bind fun hp =>
        .ok (.bind hp fun value => .fresh fun _ _ =>
          orRaise_copy (build_copy lt_max_succ lt_max_succ ((name, value) :: scope) _ _ next))
  | .append p q function =>
      (build_copy hf hf' scope _ _ p).bind fun hp =>
        (build_copy hf hf' scope _ _ q).bind fun hq =>
          agree_build fun _ => .ok (combineM hp hq)
  | .label p name =>
      (build_copy hf hf' scope _ _ p).bind fun hp => by
        refine agree_build fun name => ?_
        cases name.text with
        | ok name => exact .ok (.label hp _)
        | error exception => exact .ok (.alt hp (.raise exception))
  | .suggest p suggestion => (build_copy hf hf' scope _ _ p).bind fun hp => .ok (.suggest hp _)
  | .choice alternatives =>
      (buildAll_copy hf hf' scope _ _ alternatives).bind fun hps => .ok (choice hps)
  | .count times p => by
      refine agree_build fun times => (build_copy hf hf' scope _ _ p).bind fun hp => ?_
      cases times with
      | int n => exact .ok (map (count hp))
      | bool b => exact .ok (map (count hp))
      | float x => exact .ok (map (countFloat_copy x hp))
      | _ => exact .error _
  | .between opening closing p =>
      (build_copy hf hf' scope _ _ opening).bind fun ho =>
        (build_copy hf hf' scope _ _ closing).bind fun hc =>
          (build_copy hf hf' scope _ _ p).bind fun hp => .ok (between ho hc hp)
  | .option default p =>
      agree_build fun _ => (build_copy hf hf' scope _ _ p).bind fun hp => .ok (option hp)
  | .chainl p operator default =>
      (build_copy hf hf' scope _ _ p).bind fun hp =>
        (build_copy hf hf' scope _ _ operator).bind fun ho =>
          agree_build fun _ => .ok (chainl hp (map ho))
  | .chainr p operator default =>
      (build_copy hf hf' scope _ _ p).bind fun hp =>
        (build_copy hf hf' scope _ _ operator).bind fun ho =>
          agree_build fun _ => .ok (chainr hp (map ho))
  | .tailRec initial name step =>
      agree_build fun _ => .ok (.tailRec (fun state => .mapM _ (.fresh fun _ _ =>
        orRaise_copy (build_copy lt_max_succ lt_max_succ ((name, state) :: scope) _ _ step))) _)
  | .cond test yes no => by
      refine agree_build fun value => ?_
      by_cases h : value.holds
      · simp only [if_pos h]
        exact build_copy hf hf' scope _ _ yes
      · simp only [if_neg h]
        exact build_copy hf hf' scope _ _ no
  | .trace name => .ok (map (.trace _))
  | .traced name p => (build_copy hf hf' scope _ _ p).bind fun hp => .ok (.traced _ hp)
  | .lazy name p => .ok (.deferred hf hf' rfl)
  | .named name => .ok (.deferred hf hf' rfl)
  | .visit name p => (build_copy hf hf' scope _ _ p).bind fun hp => .ok (.visit _ hp)
  | .skip value distance => agree_build fun _ => .ok (.custom _)
  | .failAt distance error => .ok (.custom _)
  | .json part => .ok (parserOfPart_copy part hf hf')

/-- Terms in a list are numbered from the site of the first, in either frame. -/
theorem buildAll_copy {k k' frame frame' : Frame} (hf : frame < k) (hf' : frame' < k')
    (scope : Scope) (site site' : Nat) : ∀ ps : List Term,
      Agree (List.Forall₂ (Copy (.plain Rule) k k')) (Term.buildAll frame scope site ps)
        (Term.buildAll frame' scope site' ps)
  | [] => .ok .nil
  | p :: ps =>
      (build_copy hf hf' scope _ _ p).bind fun hp =>
        (buildAll_copy hf hf' scope _ _ ps).bind fun hps => .ok (.cons hp hps)

end

theorem grammar_uniform (definitions : List (String × Term)) :
    (grammar definitions).Uniform (.plain Rule) := by
  rintro k k' _ rule _ rfl frame frame'
  cases rule with
  | lazy label p scope => exact build_copy lt_max_succ lt_max_succ scope 0 0 p
  | named name =>
      simp only [grammar]
      cases definitions.lookup name with
      | some p => exact build_copy lt_max_succ lt_max_succ [] 0 0 p
      | none => exact .error _
  | json => exact .ok (Json.Rules.element_copy _ _ lt_max_succ lt_max_succ)

/-- The parser of a program is built in the first frame. -/
theorem Program.parser_copy {program : Program} {p : ScriptParser Value}
    (h : program.parser = .ok p) : p.Copy (.plain Rule) 1 1 p := by
  have first : (0 : Frame) < 1 := Nat.one_pos
  have copy := build_copy first first [] 0 0 program.term
  rw [show program.term.build 0 [] 0 = .ok p from h] at copy
  cases copy with
  | ok copy => exact copy

end Script

end Parsing
