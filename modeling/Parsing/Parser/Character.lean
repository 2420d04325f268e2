import Parsing.Parser.Repetition
import Parsing.Text.Blank
import Parsing.Text.Numeral

/-!
# Characters

Parsers of one character, each with a label that says what it reads, and of the end of the text.
A class of characters may be given by spellings: strings of which those with a single character
stand for it and the others for nothing.
-/

namespace Parsing.Parser

open Parsing.Text

variable {ε : Type} {ρ : Type → Type}

/-- The character with the given spelling; no character has a spelling of another length. -/
def charSpelled (spelling : String) : Parser ε ρ Char :=
  let shown := "'" ++ spelling ++ "'"
  ((satisfy fun x => spelling.toList == [x]).label shown).suggest ⟨spelling, shown⟩

/-- The given character. -/
def char (c : Char) : Parser ε ρ Char := charSpelled (String.singleton c)

/-- Any character. -/
def anyChar : Parser ε ρ Char := (satisfy fun _ => true).label "any character"

/-- The spellings of a class in order, each once. -/
def classText (spellings : List String) : String :=
  String.join (spellings.eraseDups.mergeSort fun a b => decide (a ≤ b))

/-- A character with one of the given spellings. -/
def oneOfSpelled (spellings : List String) : Parser ε ρ Char :=
  (satisfy fun x => spellings.contains (String.singleton x)).label
    ("one of " ++ classText spellings)

/-- A character with none of the given spellings. -/
def noneOfSpelled (spellings : List String) : Parser ε ρ Char :=
  (satisfy fun x => !spellings.contains (String.singleton x)).label
    ("none of " ++ classText spellings)

/-- One of the given characters. -/
def oneOf (cs : List Char) : Parser ε ρ Char := oneOfSpelled (cs.map String.singleton)

/-- A character other than those given. -/
def noneOf (cs : List Char) : Parser ε ρ Char := noneOfSpelled (cs.map String.singleton)

/-- A decimal digit of ASCII. -/
def digit : Parser ε ρ Char := (satisfy Char.isDigit).label "digit"

/-- A letter of any script. -/
def letter : Parser ε ρ Char := (satisfy isLetter).label "letter"

/-- A letter of any script, or a character with a numeric value. -/
def alphaNum : Parser ε ρ Char := (satisfy isAlphaNumeric).label "letter or digit"

/-- A white space character. -/
def space : Parser ε ρ Char := (satisfy isBlank).label "space"

/-- Any amount of white space. -/
def spaces : Parser ε ρ Unit := (skipMany space).label "white space"

/-- The end of the text. -/
def eof : Parser ε ρ Unit := (notFollowedBy quotedChar anyChar).label "end of input"

end Parsing.Parser
