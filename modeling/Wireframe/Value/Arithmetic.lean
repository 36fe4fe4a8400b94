import Wireframe.Value.Number

/-
  Wireframe.Value.Arithmetic — sums, products and quotients of numbers.

  Whole numbers are added, subtracted and multiplied exactly. As soon as a double takes part,
  both numbers are taken as doubles, and a whole number beyond their range has no result. A
  quotient is always a double: that of two whole numbers is the double nearest to the exact
  quotient.
-/

namespace Wireframe.Number

open Decimal

/-- An operation that is exact on whole numbers. -/
def combine (onInts : Int → Int → Int) (onDoubles : Float → Float → Float) :
    Number → Number → Calculation Number
  | int a, int b => .ok (int (onInts a b))
  | a, b => do
    let x ← a.toDouble
    let y ← b.toDouble
    return float (onDoubles x y)

def add : Number → Number → Calculation Number := combine (· + ·) (· + ·)

def sub : Number → Number → Calculation Number := combine (· - ·) (· - ·)

def mul : Number → Number → Calculation Number := combine (· * ·) (· * ·)

/-- The double nearest to a quotient of whole numbers. -/
def quotient (a b : Int) : Calculation Number :=
  if b = 0 then .error .zeroDivisor
  else
    let negative := decide (a < 0) != decide (b < 0)
    match nearestTo a.natAbs b.natAbs with
    | some x => .ok (float (if negative then -x else x))
    | none => .error .tooLarge

def div : Number → Number → Calculation Number
  | int a, int b => quotient a b
  | a, b => do
    let x ← a.toDouble
    let y ← b.toDouble
    if y == 0.0 then .error .zeroDivisor else return float (x / y)

end Wireframe.Number
