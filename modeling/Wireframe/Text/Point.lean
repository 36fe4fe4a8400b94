/-
  Wireframe.Text.Point — the points of a text: characters, and halves that stand alone.

  Characters beyond U+FFFF are written as two halves of 16 bits, a high one and a low one. A half
  without the other one is no character, but JSON can write it, so a text is a list of points. It
  is held as a string all the same: a mark stands before the private character that a half is
  held as, and before the mark itself. Different texts are held as different strings, and one
  without halves and marks is held as it is. Neither a half nor the mark is a letter, a digit or a
  blank, and neither are the characters that they are held as.
-/

namespace Wireframe.Text

def isHighHalf (n : Nat) : Bool := 0xD800 ≤ n && n < 0xDC00

def isLowHalf (n : Nat) : Bool := 0xDC00 ≤ n && n < 0xE000

/-! ## Points -/

inductive Point where
  | char (c : Char)
  | half (n : Nat)
  deriving DecidableEq

/-- The last of all characters. -/
def mark : Char := Char.ofNat 0x10FFFF

/-- Where the characters that halves are held as begin, in a plane for private use. -/
def halfPlane : Nat := 0xF0000

namespace Point

/-- What a point is held as. -/
def held : Point → List Char
  | char c => if c == mark then [mark, mark] else [c]
  | half n => [mark, Char.ofNat (halfPlane + n)]

/-- The point that the character after a mark stands for. -/
def marked (c : Char) : Point := if c == mark then char mark else half (c.toNat - halfPlane)

/-- The point of a number of 16 bits. -/
def ofUnit (n : Nat) : Point := if isHighHalf n || isLowHalf n then half n else char (Char.ofNat n)

/-- The numbers of 16 bits that a point is written as. -/
def units : Point → List Nat
  | half n => [n]
  | char c =>
    let n := c.toNat
    if n < 0x10000 then [n] else [0xD800 + (n - 0x10000) / 1024, 0xDC00 + (n - 0x10000) % 1024]

/-- Where a point stands among all points. -/
def code : Point → Nat
  | char c => c.toNat
  | half n => n

def isHalf : Point → Bool
  | half _ => true
  | char _ => false

end Point

/-- The points of a text. -/
def points : List Char → List Point
  | [] => []
  | [c] => [.char c]
  | c :: d :: rest => if c == mark then .marked d :: points rest else .char c :: points (d :: rest)

/-! ## Texts -/

/-- The text of a string of characters. -/
def ofChars (s : String) : String := String.ofList (s.toList.flatMap fun c => (Point.char c).held)

/-- Do points come before others, by the first that differ, or are they the same? -/
def pointsNotAfter : List Point → List Point → Bool
  | [], _ => true
  | _ :: _, [] => false
  | p :: ps, q :: qs => p.code < q.code || (p.code == q.code && pointsNotAfter ps qs)

/-- The order of texts. -/
def notAfter (s t : String) : Bool := pointsNotAfter (points s.toList) (points t.toList)

/-- How many points a text has. -/
def size (s : String) : Nat := (points s.toList).length

/-- Does a text hold a half without the other one? -/
def hasHalf (s : String) : Bool := (points s.toList).any (·.isHalf)

def replacement : Char := Char.ofNat 0xFFFD

/-- A text with replacement characters for halves, one for each of the three bytes of a half. -/
def withoutHalves (s : String) : String :=
  String.ofList ((points s.toList).flatMap fun
    | .half _ => [replacement, replacement, replacement]
    | .char c => (Point.char c).held)

/-- The string of a text's characters, with replacement characters for halves. -/
def chars (s : String) : String :=
  String.ofList ((points s.toList).map fun
    | .half _ => replacement
    | .char c => c)

end Wireframe.Text
