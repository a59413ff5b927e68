import MiniPascal.Text.Ranges

/-!
# White space

The characters with the Unicode property *White_Space*: those that separate lexemes and mean
nothing else. They are twenty-five, and the line feed is one of them.
-/

namespace MiniPascal

/-- The code points with the property *White_Space*, as ranges that ascend
(`ascending_whiteSpaceRanges`). They are few enough to list those of ASCII with the others. -/
def whiteSpaceRanges : List (Nat × Nat) :=
  [(0x9, 0xD), (0x20, 0x20), (0x85, 0x85), (0xA0, 0xA0), (0x1680, 0x1680), (0x2000, 0x200A),
    (0x2028, 0x2029), (0x202F, 0x202F), (0x205F, 0x205F), (0x3000, 0x3000)]

/-- The ranges ascend. -/
theorem ascending_whiteSpaceRanges : Ascending whiteSpaceRanges = true := by
  decide +kernel

/-- Whether a character has the property *White_Space*, by a search in `whiteSpaceRanges`. Such a
character outside of lexemes and comments is a blank segment. -/
def isWhiteSpace (c : Char) : Bool :=
  inRanges whiteSpaceRanges c.toNat

/-- The line feed is white space. -/
theorem isWhiteSpace_newline : isWhiteSpace '\n' = true := by
  decide

/-- The space is white space. -/
theorem isWhiteSpace_space : isWhiteSpace ' ' = true := by
  decide

end MiniPascal
