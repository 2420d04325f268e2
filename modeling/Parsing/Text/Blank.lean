import Parsing.Text.CodeRanges

/-!
# Blank characters

White space: the characters of category Zs and those of bidirectional class WS, B or S in
version 14.0 of the character database.  Beyond the ASCII blanks these are the separators
U+001C to U+001F, the next line, and the spaces of other scripts.
-/

namespace Parsing.Text

/-- The code points of white space. -/
def blankRanges : CodeRanges :=
  [(0x0009, 0x000D), (0x001C, 0x0020), (0x0085, 0x0085), (0x00A0, 0x00A0), (0x1680, 0x1680),
   (0x2000, 0x200A), (0x2028, 0x2029), (0x202F, 0x202F), (0x205F, 0x205F), (0x3000, 0x3000)]

/-- Whether a character is white space. -/
def isBlank (c : Char) : Bool := blankRanges.covers c.toNat

end Parsing.Text
