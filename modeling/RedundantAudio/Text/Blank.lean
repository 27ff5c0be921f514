/-!
# Blanks

The characters that leave no mark: spaces of every width, tabs, and the ends
of lines, pages and paragraphs. They are the ones with the property
White_Space of Unicode.

## Main definitions

* `isBlank`: Whether a character is a blank.
* `trim`: A text without the blanks around it.
-/

namespace RedundantAudio

namespace Text

/-- Whether a character is a blank. -/
def isBlank (c : Char) : Bool :=
  let n := c.toNat
  (0x9 ≤ n && n ≤ 0xD) || n = 0x20 || n = 0x85 || n = 0xA0 || n = 0x1680
    || (0x2000 ≤ n && n ≤ 0x200A) || n = 0x2028 || n = 0x2029 || n = 0x202F
    || n = 0x205F || n = 0x3000

/-- A text without the blanks behind it. -/
def trimEnd (text : List Char) : List Char :=
  (text.reverse.dropWhile isBlank).reverse

/-- A text without the blanks around it. -/
def trim (text : List Char) : List Char :=
  trimEnd (text.dropWhile isBlank)

end Text

end RedundantAudio
