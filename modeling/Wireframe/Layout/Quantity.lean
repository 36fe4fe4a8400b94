import Wireframe.Layout.Scalar
import Wireframe.Value.Arithmetic

/-
  Wireframe.Layout.Quantity — the numbers that a layout is calculated with.

  Layout is written once over any quantities. It runs on the numbers of documents, whole ones and
  doubles, whose calculations may fail; what it comes to are coordinates, which are doubles. Any
  numbers that are calculated with freely are quantities too, and their own coordinates, so that
  layout can be read over exact numbers.

  `larger` and `smaller` keep their first argument unless the second one is strictly beyond it.
-/

namespace Wireframe

/-- Numbers with calculations that may fail, and the coordinates that come of them. -/
class Quantity (α : Type) (δ : outParam Type) where
  ofInt : Int → α
  ofFloat : Float → α
  ofCoordinate : δ → α
  /-- The number `n / 10 ^ places`. -/
  decimal : Nat → Nat → α
  add : α → α → Calculation α
  sub : α → α → Calculation α
  mul : α → α → Calculation α
  div : α → α → Calculation α
  lt : α → α → Bool
  le : α → α → Bool
  /-- Equality of values. -/
  same : α → α → Bool
  /-- The greatest whole number not above. -/
  floor : α → Calculation Int
  /-- The least whole number not below. -/
  ceil : α → Calculation Int
  toCoordinate : α → Calculation δ
  /-- The nearest coordinate, an infinity where there is none. -/
  nearest : α → δ

instance : Quantity Number Float where
  ofInt := .int
  ofFloat := .float
  ofCoordinate := .float
  decimal n places := .float (Float.ofScientific n true places)
  add := Number.add
  sub := Number.sub
  mul := Number.mul
  div := Number.div
  lt := Number.lt
  le := Number.le
  same := Number.same
  floor := Number.floor
  ceil := Number.ceil
  toCoordinate := Number.toDouble
  nearest := Number.toFloat

/-- Numbers that are calculated with freely fail only at a division by zero. -/
instance [Scalar α] : Quantity α α where
  ofInt := Scalar.ofInt
  ofFloat := Scalar.ofFloat
  ofCoordinate x := x
  decimal := Scalar.decimal
  add x y := .ok (x + y)
  sub x y := .ok (x - y)
  mul x y := .ok (x * y)
  div x y := if Scalar.same y Scalar.zero then .error .zeroDivisor else .ok (x / y)
  lt := Scalar.lt
  le := Scalar.le
  same := Scalar.same
  floor := Scalar.floor
  ceil := Scalar.ceil
  toCoordinate := .ok
  nearest x := x

namespace Quantity

variable {α δ : Type} [Quantity α δ]

/-! ## Expressions -/

instance : Coe α (Calculation α) := ⟨.ok⟩

/-- An operation on two calculations; the left one goes first. -/
def lift (operation : α → α → Calculation α) (a b : Calculation α) : Calculation α := do
  operation (← a) (← b)

instance : Add (Calculation α) := ⟨lift add⟩

instance : Sub (Calculation α) := ⟨lift sub⟩

instance : Mul (Calculation α) := ⟨lift mul⟩

instance : Div (Calculation α) := ⟨lift div⟩

/-! ## Constants and choices -/

def zero : α := ofInt 0

/-- The length below which none goes, a zero with a point. -/
def noLength : α := decimal 0 0

def two : α := ofInt 2

def twice (a : α) : Calculation α := (two : α) * a

/-- What layout forgives, for the noise in estimated widths. -/
def tolerance : α := decimal 1 6

/-- The number that is written as a coordinate: the nearest one. -/
def rounded (a : α) : α := ofCoordinate (nearest a)

def larger (a b : α) : α := if lt a b then b else a

def smaller (a b : α) : α := if lt b a then b else a

/-- The largest of some numbers, zero of none. -/
def largest : List α → α
  | [] => zero
  | a :: rest => rest.foldl larger a

/-- A number that may be missing, zero when it is. A zero of either sign is plain zero. -/
def orZero : Option Float → α
  | none => zero
  | some x => if x == 0.0 then zero else ofFloat x

end Quantity

end Wireframe
