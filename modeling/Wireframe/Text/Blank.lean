/-
  Wireframe.Text.Blank — blank characters, and texts without those at their ends.

  White space is the Unicode property; the four information separators U+001C to U+001F count as
  blank too. Zero-width characters do not.
-/

namespace Wireframe.Text

/-- White space, as Unicode has it. -/
def isWhite (c : Char) : Bool :=
  let n := c.toNat
  (9 ≤ n && n ≤ 13) || n == 32 || n == 133 || n == 160 || n == 5760 || (8192 ≤ n && n ≤ 8202) ||
    n == 8232 || n == 8233 || n == 8239 || n == 8287 || n == 12288

/-- White space or an information separator. -/
def isBlank (c : Char) : Bool := isWhite c || (28 ≤ c.toNat && c.toNat ≤ 31)

/-- Without the characters of a class at either end. -/
def trimBy (p : Char → Bool) (cs : List Char) : List Char :=
  ((cs.dropWhile p).reverse.dropWhile p).reverse

def strip (s : String) : String := String.ofList (trimBy isBlank s.toList)

/-- Has the text nothing but blanks? -/
def isVoid (s : String) : Bool := s.toList.all isBlank

end Wireframe.Text
