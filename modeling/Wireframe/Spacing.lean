import Wireframe.Record.Reading

/-
  Wireframe.Spacing — the distances of gaps, paddings and scales.

  A document can write not-a-number as a number and as a text. As a number it is one and the same
  wherever it stands. A text of it makes one of its own, which no other spacing is like.
-/

namespace Wireframe

inductive Spacing (α : Type) where
  | length (a : α)
  /-- Not-a-number that a text wrote. -/
  | unlike

namespace Spacing

def map (f : α → β) : Spacing α → Spacing β
  | length a => length (f a)
  | unlike => unlike

/-- The spacing of a double that a text wrote. -/
def ofWritten (x : Float) : Spacing Float :=
  match Decimal.Binary.ofFloat x with
  | .nan => unlike
  | _ => length x

def read : Shape (Spacing Float)
  | .text s => (Shape.real (.text s)).map ofWritten
  | v => (Shape.real v).map length

/-- A value that reads back, or the number. -/
def write (w : Writing) : Spacing Float → Value
  | length x => .real x
  | unlike => match w with
    | .exact => .text "nan"
    | _ => .real (0.0 / 0.0)

end Spacing

end Wireframe
