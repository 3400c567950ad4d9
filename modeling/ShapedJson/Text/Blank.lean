import ShapedJson.Text.Basic

/-!
# Blank code points

White space is a property of Unicode.  The blanks are the white space and the
four information separators of ASCII.  Trimming removes a class of code points
from both ends of a text.
-/

namespace ShapedJson

namespace CodePoint

/-- White space of Unicode. -/
def isWhiteSpace (c : CodePoint) : Bool :=
  (0x9 ≤ c.val && c.val ≤ 0xD) || c.val == 0x20 || c.val == 0x85 || c.val == 0xA0 ||
    c.val == 0x1680 || (0x2000 ≤ c.val && c.val ≤ 0x200A) || c.val == 0x2028 ||
    c.val == 0x2029 || c.val == 0x202F || c.val == 0x205F || c.val == 0x3000

/-- White space or an information separator. -/
def isBlank (c : CodePoint) : Bool := c.isWhiteSpace || (0x1C ≤ c.val && c.val ≤ 0x1F)

end CodePoint

namespace Text

/-- The text without code points of a class at its end. -/
def trimEndOf (p : CodePoint → Bool) (t : Text) : Text := (t.reverse.dropWhile p).reverse

/-- The text without code points of a class at either end. -/
def trimOf (p : CodePoint → Bool) (t : Text) : Text := trimEndOf p (t.dropWhile p)

/-- The text without its leading blanks. -/
def trimStart (t : Text) : Text := t.dropWhile CodePoint.isBlank

/-- The text without its trailing blanks. -/
def trimEnd (t : Text) : Text := trimEndOf CodePoint.isBlank t

/-- The text without blanks at either end. -/
def trim (t : Text) : Text := t.trimStart.trimEnd

end Text

end ShapedJson
