import Wireframe.Layout.Quantity
import Wireframe.Spacing

/-
  Wireframe.Layout.Spacing — which spacings are on a scale.

  A spacing is like those that are equal to it. The not-a-number that documents write as a number
  is like itself, though it is not equal to itself.
-/

namespace Wireframe.Spacing

variable {α δ : Type} [Quantity α δ]

/-- The number that layout is calculated with. -/
def quantity : Spacing α → α
  | length a => a
  | unlike => Quantity.ofFloat (0.0 / 0.0)

/-- A spacing that may be missing, zero when it is. -/
def orZero : Option (Spacing Float) → Spacing α
  | none => length Quantity.zero
  | some (length x) => length (Quantity.orZero (some x))
  | some unlike => unlike

def isZero : Spacing α → Bool
  | length a => Quantity.same a Quantity.zero
  | unlike => false

def alike : Spacing α → Spacing α → Bool
  | length a, length b =>
    Quantity.same a b || (!Quantity.same a a && !Quantity.same b b)
  | _, _ => false

def onScale (s : Spacing α) (scale : List (Spacing α)) : Bool := scale.any (s.alike ·)

/-- Is a spacing zero or on the scale? -/
def isRegular (s : Spacing α) (scale : List (Spacing α)) : Bool := s.isZero || s.onScale scale

end Wireframe.Spacing
