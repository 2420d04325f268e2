import Mathlib.Data.List.Forall2
import Parsing.Json.Rules
import Parsing.Parser.Chain
import Parsing.Parser.Character
import Parsing.Parser.Choice
import Parsing.Parser.Separated
import Parsing.Parser.Sequence

/-!
# Congruences

A relation between parsers is a *congruence* if the operations of the algebra keep it.  Every
combinator is put together from them, so that it keeps the relation too; and so do the rules of
JSON, as far as they defer to no cell.  A property of parsers that composes is the congruence of a
parser and any other.
-/

namespace Parsing

variable {ε : Type} {ρ : Type → Type} {α β γ : Type}

/-- The operations that combinators are made of keep the relation. -/
class Parser.Congruence (R : {α : Type} → Parser ε ρ α → Parser ε ρ α → Prop) : Prop where
  protected pure {α : Type} (value : α) : R (.pure value) (.pure value)
  protected fail {α : Type} (error : ParseError) : @R α (.fail error) (.fail error)
  protected satisfy (accepts : Char → Bool) : R (.satisfy accepts) (.satisfy accepts)
  protected string (text : String) : R (.string text) (.string text)
  protected mapM {α β : Type} (f : α → Except ε β) {p p' : Parser ε ρ α} (h : R p p') :
    R (.mapM f p) (.mapM f p')
  protected applyM {α β : Type} {p p' : Parser ε ρ (α → Except ε β)} {q q' : Parser ε ρ α}
    (h : R p p') (hq : R q q') : R (.applyM p q) (.applyM p' q')
  protected bind {α β : Type} {p p' : Parser ε ρ α} {f f' : α → Parser ε ρ β} (h : R p p')
    (hf : ∀ x, R (f x) (f' x)) : R (.bind p f) (.bind p' f')
  protected alt {α : Type} {p p' q q' : Parser ε ρ α} (h : R p p') (hq : R q q') :
    R (.alt p q) (.alt p' q')
  protected label {α : Type} {p p' : Parser ε ρ α} (h : R p p') (name : String) :
    R (.label p name) (.label p' name)
  protected suggest {α : Type} {p p' : Parser ε ρ α} (h : R p p') (suggestion : Suggestion) :
    R (.suggest p suggestion) (.suggest p' suggestion)
  protected notFollowedBy {α : Type} (shown : α → String) {p p' : Parser ε ρ α} (h : R p p') :
    R (.notFollowedBy shown p) (.notFollowedBy shown p')
  protected advancing {α : Type} {p p' : Parser ε ρ α} (h : R p p') :
    R (.advancing p) (.advancing p')
  protected tailRec {σ α : Type} {step step' : σ → Parser ε ρ (Step σ α)}
    (h : ∀ state, R (step state) (step' state)) (initial : σ) :
    R (.tailRec step initial) (.tailRec step' initial)

variable {R : {α : Type} → Parser ε ρ α → Parser ε ρ α → Prop} [hR : Parser.Congruence @R]

namespace Parser.Congruence

section

variable {p p' : Parser ε ρ α} {q q' : Parser ε ρ β}

/-! ### Sequences and choices -/

/-- A congruence does not see what is done to the results, if it is the same on both sides. -/
theorem map {f : α → β} (hp : R p p') : R (p.map f) (p'.map f) := hR.mapM _ hp

/-- A sequence whose second result is kept is related to another if their parts are. -/
theorem keepRight (hp : R p p') (hq : R q q') : R (p.keepRight q) (p'.keepRight q') :=
  hR.bind hp fun _ => hq

/-- A sequence whose first result is kept is related to another if their parts are. -/
theorem keepLeft (hp : R p p') (hq : R q q') : R (p.keepLeft q) (p'.keepLeft q') :=
  hR.bind hp fun _ => map hq

/-- Two results may be joined by a function that raises exceptions: it is the same on both sides. -/
theorem combineM {f : α → β → Except ε γ} (hp : R p p') (hq : R q q') :
    R (combineM f p q) (combineM f p' q') := hR.applyM (map hp) hq

theorem combine {f : α → β → γ} (hp : R p p') (hq : R q q') :
    R (combine f p q) (combine f p' q') := combineM hp hq

theorem pair (hp : R p p') (hq : R q q') : R (p.pair q) (p'.pair q') := combine hp hq

/-- The results of two parsers are appended, which is one way of combining them. -/
theorem append [Append α] {p p' q q' : Parser ε ρ α} (hp : R p p') (hq : R q q') :
    R (p ++ q) (p' ++ q') := combine hp hq

/-- A parser with its brackets: each of the three may be replaced by a related one. -/
theorem between {r r' : Parser ε ρ γ} (hp : R p p') (hq : R q q') (hr : R r r') :
    R (between p q r) (between p' q' r') := keepRight hp (keepLeft hr hq)

/-- The choice among no parsers is a failure, which is related to itself. -/
theorem empty : @R α .empty .empty := hR.fail _

/-- Choices are nested to the left, so the lists are followed from a pair of related parsers on. -/
theorem foldl_alt {ps ps' : List (Parser ε ρ α)} (h : List.Forall₂ R ps ps') :
    ∀ {p p' : Parser ε ρ α}, R p p' → R (ps.foldl .alt p) (ps'.foldl .alt p') := by
  induction h with
  | nil => exact id
  | cons hq _ ih => exact fun hp => ih (hR.alt hp hq)

/-- Two choices are related if the parsers in them are, place by place. -/
theorem choice {ps ps' : List (Parser ε ρ α)} (h : List.Forall₂ R ps ps') :
    R (choice ps) (choice ps') := by
  cases h with
  | nil => exact empty
  | cons hp h => exact foldl_alt h hp

/-- A parser that may be left out is a choice, the other side of which is a default. -/
theorem option {default : α} (hp : R p p') : R (option default p) (option default p') :=
  hR.alt hp (hR.pure default)

theorem optionMaybe (hp : R p p') : R (optionMaybe p) (optionMaybe p') :=
  hR.alt (map hp) (hR.pure none)

theorem optional (hp : R p p') : R (optional p) (optional p') := hR.alt (map hp) (hR.pure ())

/-! ### Repetitions -/

/-- Items are collected by the loop of the algebra, each round of which reads one item, so that it
is enough for the items to be related. -/
theorem manyReversed (hp : R p p') : R (manyReversed p) (manyReversed p') :=
  hR.tailRec (fun _ => hR.alt (map (hR.advancing hp)) (hR.pure _)) _

theorem many (hp : R p p') : R (many p) (many p') := map (manyReversed hp)

/-- Items are skipped by the same loop with nothing collected. -/
theorem skipMany (hp : R p p') : R (skipMany p) (skipMany p') :=
  hR.tailRec (fun _ => hR.alt (map (hR.advancing hp)) (hR.pure _)) _

/-- One item and then any number: the second parser depends on what the first has read. -/
theorem many1 (hp : R p p') : R (many1 p) (many1 p') := hR.bind hp fun _ => map (many hp)

theorem skipMany1 (hp : R p p') : R (skipMany1 p) (skipMany1 p') := keepRight hp (skipMany hp)

/-- Rounds that are counted are a loop whose state says how many there have been. -/
theorem repeated {enough : Nat → Bool} (hp : R p p') :
    R (repeated enough p) (repeated enough p') := by
  refine map (hR.tailRec (fun ⟨n, items⟩ => ?_) _)
  by_cases h : enough n
  · simp only [if_pos h]
    exact hR.pure _
  · simp only [if_neg h]
    exact map hp

/-- A count of at most none reads nothing; otherwise it is a loop of counted rounds. -/
theorem count {n : Int} (hp : R p p') : R (count n p) (count n p') := by
  by_cases h : n ≤ 0
  · simp only [Parser.count, if_pos h]
    exact hR.pure _
  · simp only [Parser.count, if_neg h]
    exact repeated hp

/-- Each round is a choice between the end and one more item, and both may be replaced. -/
theorem manyTill (hp : R p p') (hq : R q q') : R (manyTill p q) (manyTill p' q') :=
  map (hR.tailRec (fun _ => hR.alt (map hq) (map (hR.advancing hp))) _)

/-- One item, and then items that each follow a separator. -/
theorem sepBy1 (hp : R p p') (hq : R q q') : R (sepBy1 p q) (sepBy1 p' q') :=
  hR.bind hp fun _ => map (manyReversed (keepRight hq hp))

/-- Items with separators between them, or none. -/
theorem sepBy (hp : R p p') (hq : R q q') : R (sepBy p q) (sepBy p' q') :=
  hR.alt (sepBy1 hp hq) (hR.pure _)

theorem endBy (hp : R p p') (hq : R q q') : R (endBy p q) (endBy p' q') := many (keepLeft hp hq)

/-- Each round tries a separator and behind it an item, either of which may be missing. -/
theorem sepEndBy1 (hp : R p p') (hq : R q q') : R (sepEndBy1 p q) (sepEndBy1 p' q') :=
  map (hR.bind hp fun x =>
    hR.tailRec
      (fun _ => hR.alt (hR.advancing (keepRight hq (hR.alt (map hp) (hR.pure _)))) (hR.pure _)) [x])

/-- Items with separators between them and perhaps one at the end, or none. -/
theorem sepEndBy (hp : R p p') (hq : R q q') : R (sepEndBy p q) (sepEndBy p' q') :=
  hR.alt (sepEndBy1 hp hq) (hR.pure _)

end

/-! ### Chains -/

section

variable {p p' : Parser ε ρ α} {operator operator' : Parser ε ρ (α → α → Except ε α)}

/-- Operands and operators in turn are read in one loop, whatever is done with them. -/
theorem chainl1 (hp : R p p') (ho : R operator operator') :
    R (chainl1 p operator) (chainl1 p' operator') :=
  hR.bind hp fun x =>
    hR.tailRec (fun _ => hR.alt (hR.mapM _ (hR.advancing (pair ho hp))) (hR.pure _)) x

/-- The pairs of operator and operand are read by the same loop and folded afterwards. -/
theorem chainr1 (hp : R p p') (ho : R operator operator') :
    R (chainr1 p operator) (chainr1 p' operator') :=
  hR.bind hp fun _ => hR.mapM _ (many (pair ho hp))

theorem chainl {default : α} (hp : R p p') (ho : R operator operator') :
    R (chainl p operator default) (chainl p' operator' default) :=
  hR.alt (chainl1 hp ho) (hR.pure _)

theorem chainr {default : α} (hp : R p p') (ho : R operator operator') :
    R (chainr p operator default) (chainr p' operator' default) :=
  hR.alt (chainr1 hp ho) (hR.pure _)

end

/-! ### Characters -/

/-- A character is tested in the same way on both sides. -/
theorem charSpelled (spelling : String) : R (charSpelled spelling) (charSpelled spelling) :=
  hR.suggest (hR.label (hR.satisfy _) _) _

theorem oneOfSpelled (spellings : List String) :
    R (oneOfSpelled spellings) (oneOfSpelled spellings) := hR.label (hR.satisfy _) _

theorem noneOfSpelled (spellings : List String) :
    R (noneOfSpelled spellings) (noneOfSpelled spellings) := hR.label (hR.satisfy _) _

/-- White space is skipped by a loop over one test, under a label. -/
theorem spaces : R spaces spaces := hR.label (skipMany (hR.label (hR.satisfy _) _)) _

/-- The end of the text is where no character can be read. -/
theorem eof : R eof eof := hR.label (hR.notFollowedBy _ (hR.label (hR.satisfy _) _)) _

end Parser.Congruence

/-! ### Documents -/

namespace Json.Rules

open Parsing.Parser.Congruence

/-- White space is skipped behind both. -/
theorem lexeme_congr {p p' : Parser ε ρ α} (hp : R p p') : R (lexeme p) (lexeme p') :=
  keepLeft hp spaces

theorem symbol_congr (spelling : String) : R (symbol spelling) (symbol spelling) :=
  lexeme_congr (hR.string _)

/-- A keyword stands for the same value on both sides. -/
theorem constant_congr (spelling : String) (v : Json) :
    R ((symbol spelling).keepRight (.pure v)) ((symbol spelling).keepRight (.pure v)) :=
  keepRight (symbol_congr spelling) (hR.pure v)

theorem escape_congr : R escape escape := keepRight (charSpelled _) (map (oneOfSpelled _))

/-- A string defers to nothing and is related to itself. -/
theorem stringLiteral_congr : R stringLiteral stringLiteral :=
  lexeme_congr (between (charSpelled _) (charSpelled _)
    (map (many (hR.alt (noneOfSpelled _) escape_congr))))

theorem digits_congr : R digits digits := map (many1 (hR.label (hR.satisfy _) _))

theorem fraction_congr : R fraction fraction := option (append (map (charSpelled _)) digits_congr)

theorem exponent_congr : R exponent exponent :=
  option (append (append (map (oneOfSpelled _)) (option (map (oneOfSpelled _)))) digits_congr)

/-- A number is related to itself, however its digits are turned into an integer. -/
theorem number_congr (toInt : List Char → Except ε Int) : R (number toInt) (number toInt) :=
  hR.mapM _ (lexeme_congr
    (append (append (append (option (hR.string _)) digits_congr) fraction_congr) exponent_congr))

variable {toInt : List Char → Except ε Int} {value value' : ρ Json} {cell cell' : Cell}

/-- An entry defers to the cells of a frame of its own. -/
theorem entry_congr (hd : ∀ cell, R (.deferred cell value) (.deferred cell value'))
    (hf : ∀ {p p' : Frame → Parser ε ρ (String × Json)}, (∀ frame, R (p frame) (p' frame)) →
      R (.fresh p) (.fresh p')) : R (entry value) (entry value') :=
  hR.bind stringLiteral_congr fun _ => hf fun _ => keepRight (symbol_congr ":") (map (hd _))

/-- Objects defer to a cell in their entries only. -/
theorem object_congr (he : R (entry value) (entry value')) : R (object value) (object value') :=
  map (between (symbol_congr _) (symbol_congr _) (sepBy he (symbol_congr _)))

variable (hd : R (.deferred cell value) (.deferred cell' value'))

include hd

/-- Arrays are related if the items they defer to are, even in another cell. -/
theorem array_congr : R (array value cell) (array value' cell') :=
  map (between (symbol_congr _) (symbol_congr _) (sepBy hd (symbol_congr _)))

variable (he : R (entry value) (entry value'))

include he

/-- The rule for values is a choice, so arrays and entries are all that has to be related. -/
theorem element_congr : R (element toInt value cell) (element toInt value' cell') :=
  choice
    (.cons (constant_congr _ _) (.cons (constant_congr _ _) (.cons (constant_congr _ _)
      (.cons (map stringLiteral_congr) (.cons (number_congr toInt) (.cons (object_congr he)
        (.cons (array_congr hd) .nil)))))))

/-- A document is a value with white space in front and the end of the text behind. -/
theorem document_congr : R (document toInt value cell) (document toInt value' cell') :=
  keepRight spaces (keepLeft (element_congr hd he) eof)

end Json.Rules

end Parsing
