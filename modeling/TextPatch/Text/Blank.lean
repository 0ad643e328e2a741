/-
# Blanks, trimming and ASCII case

What counts as a blank at the ends of a text is the `White_Space` property, here written out so
that it can be evaluated cheaply; `Unicode.blank` is the same set.
-/
import TextPatch.Text

namespace TextPatch

namespace Text

/-- Whether a character is blank. -/
def isBlank (c : Char) : Bool :=
  let n := c.toNat
  (9 ≤ n && n ≤ 13) || n == 0x20 || n == 0x85 || n == 0xA0 || n == 0x1680 ||
    (0x2000 ≤ n && n ≤ 0x200A) || n == 0x2028 || n == 0x2029 || n == 0x202F || n == 0x205F ||
    n == 0x3000

/-- A text without blanks at either end. -/
def trim (t : Text) : Text := ((t.dropWhile isBlank).reverse.dropWhile isBlank).reverse

/-- A text in lower case, as far as its letters are ASCII. -/
def lowerAscii (t : Text) : Text := t.map Char.toLower

end Text

/-- Whether two strings differ at most in the case of ASCII letters. -/
def equalsIgnoringAsciiCase (s t : String) : Bool :=
  Text.lowerAscii s.toList == Text.lowerAscii t.toList

end TextPatch
