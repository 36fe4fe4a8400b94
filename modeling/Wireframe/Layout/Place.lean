import Wireframe.Layout.Lines
import Wireframe.Layout.Cells

/-
  Wireframe.Layout.Place — a tree laid out in a width.

  The root takes the width it is offered. Every container offers its children a width that hangs
  only on its own, lays each of them out at the origin, and moves what came out to its place. A
  hidden node has no placement, and nothing is said about it.
-/

namespace Wireframe

open Quantity

variable {α δ : Type} [Quantity α δ] [Scalar δ]

/-- What a box looks like around its content: the content with padding on every side, or nothing
    at all. -/
def insetAround (id : String) (width padding : α) :
    Option (Placement α δ) → Laying α (Placement α δ)
  | none => Trail.ofExcept (Placement.of id width zero [])
  | some p => do
    let height ← (p.h + twice padding : Calculation α)
    let frames ← p.moved padding padding
    Trail.ofExcept (Placement.of id width height frames)

/-- A control smaller than the touch target in either direction. -/
def checkTarget (s : Surface α) (n : Node) (e : Extent α) : Laying α Unit := do
  if le s.touch.w e.w && le s.touch.h e.h then return ()
  else
    let _ ← toCoordinate e.w
    let _ ← toCoordinate e.h
    Trail.note (.smallTarget n.id n.typeName e s.touch)

/-- Is the node a button or field that takes part in the focus order? -/
def Node.isTouched (n : Node) : Bool :=
  (n.isButton || n.isField) && n.header.focusable != some false

/-- A leaf, with its check. -/
def placeLeaf (s : Surface α) (n : Node) (size : Calculation (Extent α)) :
    Laying α (Placement α δ) := do
  let e ← size
  if n.isTouched then checkTarget s n e
  Trail.ofExcept (Placement.of n.id e.w e.h [])

def arrangeStack (id : String) (c : StackContent) (width padding gap content : α)
    (children : List (Child α δ)) : Laying α (Placement α δ) :=
  match c.direction, c.wrap with
  | .vertical, _ => Column.arrange id c.align width padding gap content children
  | .horizontal, true => Wrap.arrange id width padding gap children
  | .horizontal, false => Row.arrange id c.align width padding gap children

namespace Node

mutual

/-- The placement of a subtree in a width, none when it is hidden. -/
def place (s : Surface α) (width : α) (n : Node) : Laying α (Option (Placement α δ)) :=
  if n.visible then
    match n with
    | stack h c cs => do
      let padding : Spacing α := .orZero c.padding
      let gap : Spacing α := .orZero c.gap
      checkSpacing s (stack h c cs) "padding" padding
      checkSpacing s (stack h c cs) "gap" gap
      let content ← contentWidth width padding.quantity
      return some (← arrangeStack h.id c width padding.quantity gap.quantity content
        (placeAll s content cs))
    | grid h c cs => do
      let gap : Spacing α := .orZero c.gap
      checkSpacing s (grid h c cs) "gap" gap
      let columns ← Cells.effectiveColumns c.columns width gap.quantity (c.minColWidth.map ofFloat)
      let cell ← Cells.cellWidth width columns gap.quantity
      return some (← Cells.arrange h.id columns.toNat width cell gap.quantity
        (placeAll s cell cs))
    | box h p none => do
      let padding : Spacing α := .orZero p
      checkSpacing s (box h p none) "padding" padding
      return some (← insetAround h.id width padding.quantity none)
    | box h p (some c) => do
      let padding : Spacing α := .orZero p
      checkSpacing s (box h p none) "padding" padding
      let placed ← place s (← contentWidth width padding.quantity) c
      return some (← insetAround h.id width padding.quantity placed)
    | form h _ fs as => do
      let content ← contentWidth width zero
      return some (← Column.arrange h.id .start width zero zero content
        (placeAll s content fs ++ placeAll s content as))
    | text h t => do
      return some (← placeLeaf s (text h t) (Measure.text t width))
    | button h b => do
      return some (← placeLeaf s (button h b) (Measure.labelled b.text h width s.touch))
    | field h f => do
      return some (← placeLeaf s (field h f) (Measure.labelled f.label h width s.touch))
    | table h t => do
      return some (← placeLeaf s (table h t) (.ok (Measure.table t width)))
  else Trail.done none

/-- The nodes of a list, each in the same width. -/
def placeAll (s : Surface α) (width : α) : List Node → List (Child α δ)
  | [] => []
  | n :: rest => ⟨n.id, n.header.widthPolicy, n.place s width⟩ :: placeAll s width rest

end

end Node

end Wireframe
