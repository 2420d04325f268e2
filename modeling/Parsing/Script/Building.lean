import Parsing.Json.Rules
import Parsing.Parser.Chain
import Parsing.Script.Evaluation
import Parsing.Script.Term

/-!
# Building the parsers of terms

Building the parser of a term evaluates its expressions, so that it may raise an exception.
What stands behind a binder is built, in a frame of its own, whenever the continuation or the
step of the loop is called.  The parsers that a term defers each have a site of their own in the
frame in which the term is built.
-/

namespace Parsing.Script

open Parsing.Parser Parsing.Decimal

/-- What a deferred parser of a script is built from. -/
inductive Rule : Type → Type where
  | lazy (label : String) (p : Term) (scope : Scope) : Rule Value
  | named (name : String) : Rule Value
  | json : Rule Json

/-- Parsers of scripts. -/
abbrev ScriptParser (α : Type) := Parser Exception Rule α

/-- A parser of values, or the exception raised while it was built. -/
abbrev Built := Except Exception (ScriptParser Value)

/-- Builds a parser from the value of an expression. -/
def Expr.build (expr : Expr) (scope : Scope) (next : Value → Built) : Built :=
  match expr.eval scope with
  | .ok value => next value
  | .error exception => .error exception

/-- Builds a parser from a text that may not be there. -/
def Built.ofText (text : Except Exception String) (next : String → Built) : Built :=
  match text with
  | .ok text => next text
  | .error exception => .error exception

/-- The parser that was built, or one that raises the exception when it is run. -/
def Built.orRaise : Built → ScriptParser Value
  | .ok p => p
  | .error exception => .raise exception

/-- The parser of an atom. -/
def parserOfAtom : Atom → ScriptParser Value
  | .anyChar => ofChar anyChar
  | .digit => ofChar digit
  | .letter => ofChar letter
  | .alphaNum => ofChar alphaNum
  | .space => ofChar space
  | .spaces => spaces.map fun () => .none
  | .eof => eof.map fun () => .none
  | .position => position.map fun offset => .int offset
  | .empty => empty
where
  /-- Reads a character as a text. -/
  ofChar (p : ScriptParser Char) : ScriptParser Value := p.map fun c => .str (String.singleton c)

/-- The parser that a wrapper makes of another. -/
def wrapped : Wrapper → ScriptParser Value → ScriptParser Value
  | .attempt, p => p.attempt
  | .lookAhead, p => p.lookAhead
  | .many, p => (many p).map .list
  | .skipMany, p => (skipMany p).map fun () => .none
  | .many1, p => (many1 p).map .list
  | .skipMany1, p => (skipMany1 p).map fun () => .none
  | .optionMaybe, p => (optionMaybe p).map fun value => value.getD .none
  | .optional, p => (optional p).map fun () => .none
  | .notFollowedBy, p => ((p.mapM Value.written).notFollowedBy id).map fun () => .none
  | .lexeme, p => Json.Rules.lexeme p

/-- A value as the operation of a chain. -/
def asOperator (function : Value) : Value → Value → Except Exception Value :=
  fun a b => function.call [a, b]

/-- The parser that a joint makes of two others. -/
def joined : Joint → ScriptParser Value → ScriptParser Value → ScriptParser Value
  | .sepBy, p, q => (sepBy p q).map .list
  | .sepBy1, p, q => (sepBy1 p q).map .list
  | .endBy, p, q => (endBy p q).map .list
  | .sepEndBy, p, q => (sepEndBy p q).map .list
  | .sepEndBy1, p, q => (sepEndBy1 p q).map .list
  | .manyTill, p, q => (manyTill p q).map .list
  | .chainl1, p, q => chainl1 p (q.map asOperator)
  | .chainr1, p, q => chainr1 p (q.map asOperator)
  | .apply, p, q => (p.map fun function value => function.call [value]).applyM q
  | .keepRight, p, q => p.keepRight q
  | .keepLeft, p, q => p.keepLeft q
  | .pair, p, q => combine (fun a b => .tuple [a, b]) p q
  | .plus, p, q => combineM Value.plus p q
  | .alt, p, q => p.alt q

/-- Reads a parser as often as a fractional number says.  A positive number that is not a whole one
is never reached. -/
def countFloat (times : Float) (p : ScriptParser Value) : ScriptParser (List Value) :=
  if times ≤ 0 then Parser.pure []
  else
    match wholeOfFloat? times with
    | some n => Parser.count n p
    | none => forever p

/-- Whether one of several spellings stands at a cursor.  They are tried in order. -/
def anyStartsAt (c : Cursor) : List Value → Except Exception Bool
  | [] => .ok false
  | .str spelling :: spellings =>
    if c.startsWith spelling then .ok true else anyStartsAt c spellings
  | _ => .error .mismatch

/-- Where one of several spellings stands, the list of them, after as many characters as there are
spellings.  Messages show the list as `shown`. -/
def anySpelling (spellings : List Value) (shown : String) : ScriptParser Value :=
  let quoted := "'" ++ shown ++ "'"
  .custom fun c =>
    match anyStartsAt c spellings with
    | .error exception => .thrown (.raised exception)
    | .ok false => .failure c.offset ⟨"expecting " ++ quoted, [⟨shown, quoted⟩]⟩
    | .ok true =>
      match c.advance spellings.length with
      | .ok rest => .success (.tuple spellings) rest
      | .error e => .thrown (.outOfRange e)

/-- The integer of a numeral in a JSON document. -/
def integerOf : List Char → Except Exception Int := readInt .standard .tooManyDigits

/-- The parser of a part of JSON documents; deferred values are kept in the given cell. -/
def parserOfPart (cell : Cell) : JsonPart → ScriptParser Value
  | .null => Json.Rules.nullValue.map .ofJson
  | .true => Json.Rules.trueValue.map .ofJson
  | .false => Json.Rules.falseValue.map .ofJson
  | .escape => Json.Rules.escape.map fun c => .str (String.singleton c)
  | .stringLiteral => Json.Rules.stringLiteral.map .str
  | .digits => Json.Rules.digits.map .str
  | .fraction => Json.Rules.fraction.map .str
  | .exponent => Json.Rules.exponent.map .str
  | .number => (Json.Rules.number integerOf).map .ofJson
  | .value => (Json.Rules.element integerOf .json cell).map .ofJson
  | .array => (Json.Rules.array .json cell).map .ofJson
  | .object => (Json.Rules.object .json).map .ofJson
  | .document => (Json.Rules.document integerOf .json cell).map .ofJson

mutual

/-- The number of sites that a term takes in the frame in which it is built. -/
def Term.sites : Term → Nat
  | .wrap _ p | .map p _ | .bind p _ _ | .label p _ | .suggest p _ | .count _ p | .option _ p
  | .traced _ p | .visit _ p => p.sites
  | .join _ p q | .append p q _ | .chainl p q _ | .chainr p q _ | .cond _ p q =>
    p.sites + q.sites
  | .between p q r => p.sites + q.sites + r.sites
  | .choice ps => Term.sitesOfAll ps
  | .lazy .. | .named _ | .json _ => 1
  | _ => 0

/-- The number of sites that several terms take. -/
def Term.sitesOfAll : List Term → Nat
  | [] => 0
  | p :: ps => p.sites + Term.sitesOfAll ps

end

mutual

/-- Builds the parser of a term in a frame, with the sites from `site` on for what it defers. -/
def Term.build (frame : Frame) (scope : Scope) (site : Nat) : Term → Built
  | .atom a => .ok (parserOfAtom a)
  | .wrap wrapper p => do .ok (wrapped wrapper (← p.build frame scope site))
  | .join joint p q => do
    let first ← p.build frame scope site
    let second ← q.build frame scope (site + p.sites)
    .ok (joined joint first second)
  | .satisfy accepted =>
    .ok ((Parser.satisfy accepted.accepts).map fun c => .str (String.singleton c))
  | .char spelling => spelling.build scope fun
    | .str spelling => .ok ((charSpelled spelling).map fun c => .str (String.singleton c))
    | value => Built.ofText value.text fun text =>
      let shown := "'" ++ text ++ "'"
      .ok (((Parser.satisfy fun _ => false).map fun _ => .none).label shown
        |>.suggest ⟨text, shown⟩)
  | .string text => text.build scope fun
    | .str text => .ok ((Parser.string text).map .str)
    | .tuple spellings => Built.ofText (Value.tuple spellings).written fun shown =>
      .ok (anySpelling spellings shown)
    | value => Built.ofText value.text fun _ => .ok (.raise .mismatch)
  | .symbol text => .ok ((Json.Rules.symbol text).map .str)
  | .oneOf spellings => .ok ((oneOfSpelled spellings).map fun c => .str (String.singleton c))
  | .noneOf spellings => .ok ((noneOfSpelled spellings).map fun c => .str (String.singleton c))
  | .pure value => value.build scope fun value => .ok (.pure value)
  | .fail message suggestions =>
    message.build scope fun message => Built.ofText message.text fun message =>
      .ok (.fail ⟨message, suggestions⟩)
  | .map p function => do
    let parser ← p.build frame scope site
    function.build scope fun function => .ok (parser.mapM fun value => function.call [value])
  | .bind p name next => do
    let parser ← p.build frame scope site
    .ok (parser.bind fun value =>
      .fresh fun frame => (next.build frame ((name, value) :: scope) 0).orRaise)
  | .append p q function => do
    let first ← p.build frame scope site
    let second ← q.build frame scope (site + p.sites)
    function.build scope fun function => .ok (combineM (asOperator function) first second)
  | .label p name => do
    let parser ← p.build frame scope site
    name.build scope fun name =>
      match name.text with
      | .ok name => .ok (parser.label name)
      -- The message is made up only where one is needed, which is where `alt` goes on.
      | .error exception => .ok (parser.alt (.raise exception))
  | .suggest p suggestion => do .ok ((← p.build frame scope site).suggest suggestion)
  | .choice alternatives => do
    let parsers ← Term.buildAll frame scope site alternatives
    .ok (Parser.choice parsers)
  | .count times p =>
    times.build scope fun times => do
      let parser ← p.build frame scope site
      match times with
      | .int n => .ok ((Parser.count n parser).map .list)
      | .bool b => .ok ((Parser.count b.toInt parser).map .list)
      | .float x => .ok ((countFloat x parser).map .list)
      | _ => .error .mismatch
  | .between opening closing p => do
    let first ← opening.build frame scope site
    let second ← closing.build frame scope (site + opening.sites)
    let third ← p.build frame scope (site + opening.sites + closing.sites)
    .ok (Parser.between first second third)
  | .option default p =>
    default.build scope fun default => do
      .ok (Parser.option default (← p.build frame scope site))
  | .chainl p operator default => do
    let first ← p.build frame scope site
    let second ← operator.build frame scope (site + p.sites)
    default.build scope fun default =>
      .ok (Parser.chainl first (second.map asOperator) default)
  | .chainr p operator default => do
    let first ← p.build frame scope site
    let second ← operator.build frame scope (site + p.sites)
    default.build scope fun default =>
      .ok (Parser.chainr first (second.map asOperator) default)
  | .tailRec initial name step =>
    initial.build scope fun initial =>
      .ok (Parser.tailRec
        (fun state => (Parser.fresh fun frame =>
          (step.build frame ((name, state) :: scope) 0).orRaise).mapM stepOfValue)
        initial)
  | .cond test yes no =>
    test.build scope fun test =>
      if test.holds then yes.build frame scope site else no.build frame scope site
  | .trace name => .ok ((Parser.trace name).map fun () => .none)
  | .traced name p => do .ok ((← p.build frame scope site).traced name)
  | .lazy name p => .ok (.deferred ⟨frame, site⟩ (.lazy name p scope))
  | .named name => .ok (.deferred ⟨frame, site⟩ (.named name))
  | .visit name p => do .ok ((← p.build frame scope site).visit name)
  | .skip value distance => value.build scope fun value =>
    .ok (.custom fun c =>
      match c.advance distance with
      | .ok rest => .success value rest
      | .error e => .thrown (.outOfRange e))
  | .failAt distance error => .ok (.custom fun c => .failure (c.offset + distance) error)
  | .json part => .ok (parserOfPart ⟨frame, site⟩ part)

/-- Builds the parsers of several terms, each with sites of its own. -/
def Term.buildAll (frame : Frame) (scope : Scope) (site : Nat) :
    List Term → Except Exception (List (ScriptParser Value))
  | [] => .ok []
  | p :: ps => do
    let parser ← p.build frame scope site
    let parsers ← Term.buildAll frame scope (site + p.sites) ps
    .ok (parser :: parsers)

end

/-- The grammar of a script: its terms under their names, and the rule for JSON values. -/
def grammar (definitions : List (String × Term)) : Grammar Exception Rule where
  build
    | .lazy _ p scope, frame => p.build frame scope 0
    | .named name, frame =>
      match definitions.lookup name with
      | some p => p.build frame [] 0
      | none => .error .missingKey
    | .json, frame => .ok (Json.Rules.element integerOf .json ⟨frame, 0⟩)
  label
    | .lazy name _ _ => some name
    | _ => none

end Parsing.Script
