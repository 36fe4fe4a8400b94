import Wireframe.Layout.Placement

/-
  Wireframe.Layout.Lines — children one after the other, in a column, a row, or rows that break.

  A hidden child takes no room, not even a gap. Every child of a column or row is offered the
  width inside the padding.
-/

namespace Wireframe

open Quantity

variable {α δ : Type} [Quantity α δ] [Scalar δ]

/-- The width inside a padding. -/
def contentWidth (width padding : α) : Calculation α := do
  return larger noLength (← (width - twice padding : Calculation α))

/-- Where a child starts in the room inside a padding. -/
def startOf (align : Align) (padding room size : α) : Calculation α :=
  match align with
  | .center => padding + (room - size) / (two : α)
  | .finish => padding + (room - size)
  | _ => padding

/-! ## Columns -/

namespace Column

/-- A stretched child takes the whole width unless its own is fixed. -/
def fit (align : Align) (content : α) (c : Child α δ) (p : Placement α δ) : Placement α δ :=
  if align = .stretch ∧ c.widthPolicy ≠ .fixed then p.resized content else p

/-- The children from a height on. -/
def runFrom (align : Align) (padding gap content : α) : α → List (Child α δ) → Laying α (Run α δ)
  | y, [] => Trail.done ⟨[], y, false⟩
  | y, c :: rest => do
    match ← c.placed with
    | none => runFrom align padding gap content y rest
    | some p =>
      let p := fit align content c p
      let frames ← p.moved (← startOf align padding content p.w) y
      let next ← (y + (p.h + gap) : Calculation α)
      let run ← runFrom align padding gap content next rest
      return ⟨frames ++ run.frames, run.next, true⟩

def arrange (id : String) (align : Align) (width padding gap content : α)
    (children : List (Child α δ)) : Laying α (Placement α δ) := do
  let run ← runFrom align padding gap content padding children
  let height ← (if run.any then run.next - gap + padding else twice padding : Calculation α)
  Trail.ofExcept (Placement.of id width height run.frames)

end Column

/-! ## Rows -/

namespace Row

/-- The visible children with the places where they start; one that ends beyond the limit is a
    defect. -/
def runFrom (id : String) (limit gap : α) : α → List (Child α δ) →
    Laying α (List (α × Placement α δ))
  | _, [] => Trail.done []
  | x, c :: rest => do
    match ← c.placed with
    | none => runFrom id limit gap x rest
    | some p =>
      let reached ← (x + p.w : Calculation α)
      let bound ← (limit + (tolerance : α) : Calculation α)
      if lt bound reached then Trail.note (.rowOverflow c.id id limit reached)
      let next ← (x + (p.w + gap) : Calculation α)
      let run ← runFrom id limit gap next rest
      return (x, p) :: run

/-- The frames of a row of some height. -/
def framesOf (align : Align) (padding height : α) :
    List (α × Placement α δ) → Calculation (List (Frame α δ))
  | [] => .ok []
  | (x, p) :: rest => do
    let frames ← p.moved x (← startOf align padding height p.h)
    return frames ++ (← framesOf align padding height rest)

def arrange (id : String) (align : Align) (width padding gap : α) (children : List (Child α δ)) :
    Laying α (Placement α δ) := do
  let run ← runFrom id width gap padding children
  let height := largest (run.map (·.2.h))
  let frames ← framesOf align padding height run
  let outer ← (height + twice padding : Calculation α)
  Trail.ofExcept (Placement.of id width outer frames)

end Row

/-! ## Rows that break -/

namespace Wrap

/-- Where the next child would stand, and how high its row is so far. -/
structure Cursor (α : Type) where
  x : α
  y : α
  rowHeight : α
  any : Bool

/-- Would a child of this width, when it is not the first one, end beyond the limit? -/
def overflows (limit : α) (c : Cursor α) (width : α) : Calculation Bool :=
  if c.any then do
    let reached ← (c.x + width : Calculation α)
    let bound ← (limit + (tolerance : α) : Calculation α)
    return lt bound reached
  else .ok false

/-- The next row, when a child of this width does not fit in this one. -/
def advance (limit padding gap : α) (c : Cursor α) (width : α) : Calculation (Cursor α) := do
  if ← overflows limit c width then
    let y ← (c.y + (c.rowHeight + gap) : Calculation α)
    return { c with x := padding, y := y, rowHeight := noLength }
  else return c

def after (gap : α) (c : Cursor α) (p : Placement α δ) : Calculation (Cursor α) := do
  let x ← (c.x + (p.w + gap) : Calculation α)
  return { c with x := x, rowHeight := larger c.rowHeight p.h, any := true }

/-- The frames of the children from a place on, and the place after them. -/
def runFrom (limit padding gap : α) :
    Cursor α → List (Child α δ) → Laying α (List (Frame α δ) × Cursor α)
  | c, [] => Trail.done ([], c)
  | c, child :: rest => do
    match ← child.placed with
    | none => runFrom limit padding gap c rest
    | some p =>
      let c ← advance limit padding gap c p.w
      let here ← p.moved c.x c.y
      let (frames, last) ← runFrom limit padding gap (← after gap c p) rest
      return (here ++ frames, last)

def arrange (id : String) (width padding gap : α) (children : List (Child α δ)) :
    Laying α (Placement α δ) := do
  let (frames, last) ← runFrom width padding gap ⟨padding, padding, noLength, false⟩ children
  let height ← (if last.any then last.y + last.rowHeight + padding else twice padding : Calculation α)
  Trail.ofExcept (Placement.of id width height frames)

end Wrap

end Wireframe
