import Wireframe.Value.Number

/-
  Wireframe.Layout.Scalar — numbers that are calculated with freely.

  Scores are made of these numbers, and the frames of a finished layout hold them. They run as
  doubles, and can be read as exact numbers. Comparison is a test, because doubles have a value
  that is in no order; `larger` keeps its first argument unless the second one is strictly beyond
  it.
-/

namespace Wireframe

class Scalar (α : Type) extends Add α, Sub α, Mul α, Div α where
  ofInt : Int → α
  ofFloat : Float → α
  /-- The number `n / 10 ^ places`. -/
  decimal : Nat → Nat → α
  lt : α → α → Bool
  le : α → α → Bool
  /-- Equality of values. -/
  same : α → α → Bool
  /-- The greatest whole number not above. -/
  floor : α → Calculation Int
  /-- The least whole number not below. -/
  ceil : α → Calculation Int
  /-- The nearest number with so many decimal places. -/
  roundTo : Nat → α → α

instance : Scalar Float where
  ofInt := Float.ofInt
  ofFloat x := x
  decimal n places := Float.ofScientific n true places
  lt x y := x < y
  le x y := x ≤ y
  same x y := x == y
  floor x := Number.floor (.float x)
  ceil x := Number.ceil (.float x)
  roundTo := Decimal.roundTo

namespace Scalar

variable {α : Type} [Scalar α]

def zero : α := ofInt 0

def larger (a b : α) : α := if lt a b then b else a

end Scalar

end Wireframe
