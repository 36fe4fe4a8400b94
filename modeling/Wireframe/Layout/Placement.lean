import Wireframe.Layout.Measure
import Wireframe.Layout.Spacing
import Wireframe.Failure
import Wireframe.Trail

/-
  Wireframe.Layout.Placement — where a subtree's nodes stand.

  A placement is a subtree laid out with its own corner at the origin: the size of its root, and
  the frames of the nodes below it in document order. Its list of frames starts with the root's.
  Sizes are quantities, and frames have coordinates; a node has a frame only if its size can be
  written in coordinates. A frame that is given another width later takes the quantity as it is.
-/

namespace Wireframe

/-- The box of a node: the place of its upper left corner, and its size. -/
structure Frame (α δ : Type) where
  id : String
  x : δ
  y : δ
  w : α
  h : δ
  deriving DecidableEq

namespace Frame

variable {α δ : Type} [Scalar δ]

/-- The right edge, unless the width has no coordinate. -/
def right [Quantity α δ] (f : Frame α δ) : Calculation δ := do
  return f.x + (← Quantity.toCoordinate f.w)

def bottom (f : Frame α δ) : δ := f.y + f.h

def moved (f : Frame α δ) (dx dy : δ) : Frame α δ := { f with x := f.x + dx, y := f.y + dy }

end Frame

/-! ## Layouts in progress -/

/-- Something wrong with a layout. -/
inductive Defect (α : Type) where
  /-- A gap or padding that is not on the spacing scale. -/
  | offScale (id typeName property : String) (value : α) (scale : List α)
  /-- A control that is smaller than what can be touched. -/
  | smallTarget (id typeName : String) (found minimum : Extent α)
  /-- A child that ends beyond its row. -/
  | rowOverflow (id container : String) (limit reached : α)
  /-- A child that is wider than its cell. -/
  | cellOverflow (id container : String) (cell : α) (columns : Int) (width : α)
  /-- A primary action that ends below the viewport. -/
  | belowFold (id : String) (bottom : α)

/-- A layout in progress: the defects found, and why it cannot go on. -/
abbrev Laying (α : Type) := Trail (Defect α) Failure

/-- A calculation without a result ends a layout. -/
instance {α : Type} : MonadLift Calculation (Laying α) where
  monadLift c := Trail.ofExcept (c.mapError .calculation)

/-! ## Placements -/

structure Placement (α δ : Type) where
  id : String
  w : α
  h : α
  /-- The width that the root's own frame is drawn with. -/
  drawn : α
  below : List (Frame α δ)

namespace Placement

variable {α δ : Type} [Quantity α δ] [Scalar δ]

def own (p : Placement α δ) : Frame α δ :=
  ⟨p.id, Scalar.zero, Scalar.zero, p.drawn, Quantity.nearest p.h⟩

def frames (p : Placement α δ) : List (Frame α δ) := p.own :: p.below

/-- The frames, moved. -/
def moved (p : Placement α δ) (dx dy : α) : Calculation (List (Frame α δ)) := do
  let dx ← Quantity.toCoordinate dx
  let dy ← Quantity.toCoordinate dy
  return p.frames.map (·.moved dx dy)

/-- With another width of the root and of its frame, which is not written as a coordinate again. -/
def resized (p : Placement α δ) (w : α) : Placement α δ := { p with w := w, drawn := w }

/-- What is wrong with a length that has no coordinate. -/
def lengthFaults (name : String) (a : α) : List Fault :=
  match Quantity.toCoordinate a with
  | .ok _ => []
  | .error _ => [⟨[.key name], .real⟩]

/-- A node of this size with the frames below it. -/
def of (id : String) (w h : α) (below : List (Frame α δ)) : Except Failure (Placement α δ) :=
  match lengthFaults "w" w ++ lengthFaults "h" h with
  | [] => .ok ⟨id, w, h, Quantity.rounded w, below⟩
  | faults => .error (.frame faults)

end Placement

/-- What layout checks against. -/
structure Surface (α : Type) where
  scale : List (Spacing α)
  touch : Extent α

/-- A child as its container sees it: what came out of laying it out in the width it was offered,
    nothing when it is hidden. -/
structure Child (α δ : Type) where
  id : String
  widthPolicy : SizePolicy
  placed : Laying α (Option (Placement α δ))

/-- The frames of some placed children, and where the next one would start. -/
structure Run (α δ : Type) where
  frames : List (Frame α δ)
  next : α
  any : Bool

/-- A spacing that is not zero has to be on the scale. -/
def checkSpacing {α δ : Type} [Quantity α δ] (s : Surface α) (n : Node) (property : String)
    (value : Spacing α) : Laying α Unit := do
  if value.isRegular s.scale then return ()
  else
    let _ ← Quantity.toCoordinate value.quantity
    Trail.note (.offScale n.id n.typeName property value.quantity (s.scale.map (·.quantity)))

/-- The same for a node that was looked up; a spacing on the scale needs none. -/
def checkSpacingOf {α δ : Type} [Quantity α δ] (s : Surface α) (node : Except Failure Node)
    (property : String) (value : Spacing α) : Laying α Unit := do
  if value.isRegular s.scale then return ()
  else checkSpacing s (← Trail.ofExcept node) property value

end Wireframe
