import Wireframe.Layout.Placement

/-
  Wireframe.Layout.Cells — children in the cells of a grid, row by row.

  A grid has as many columns as it asks for, or as many as leave every column its least width.
  All cells are equally wide; a row is as high as its tallest child.
-/

namespace Wireframe.Cells

open Quantity

variable {α δ : Type} [Quantity α δ] [Scalar δ]

/-- The columns that fit, at least one; all that are asked for when there is no least width. -/
def effectiveColumns (columns : Int) (width gap : α) (minimum : Option α) : Calculation Int :=
  match minimum with
  | none => .ok columns
  | some m => do
    let step ← (m + gap : Calculation α)
    if le step (ofInt 0) then return columns
    else
      let fit ← floor (← ((width + gap) / step : Calculation α))
      return max 1 (min columns fit)

/-- The width of a cell, without the gaps; without columns there are no cells. -/
def cellWidth (width : α) (columns : Int) (gap : α) : Calculation α := do
  let cell ← ((width - (ofInt (columns - 1) : α) * gap) / (ofInt columns : α) : Calculation α)
  return larger noLength cell

/-- The row in progress: its upper edge, its height, and how many children were placed. -/
structure Cursor (α : Type) where
  y : α
  rowHeight : α
  placed : Nat

/-- The next row, when the child is the first one in it. -/
def advance (columns : Nat) (gap : α) (c : Cursor α) : Calculation (Cursor α) :=
  if c.placed % columns = 0 ∧ 0 < c.placed then do
    let y ← (c.y + (c.rowHeight + gap) : Calculation α)
    return { c with y := y, rowHeight := noLength }
  else .ok c

def after (c : Cursor α) (p : Placement α δ) : Cursor α :=
  { c with rowHeight := larger c.rowHeight p.h, placed := c.placed + 1 }

def runFrom (id : String) (columns : Nat) (cell gap : α) :
    Cursor α → List (Child α δ) → Laying α (List (Frame α δ) × Cursor α)
  | c, [] => Trail.done ([], c)
  | c, child :: rest => do
    match ← child.placed with
    | none => runFrom id columns cell gap c rest
    | some p =>
      let bound ← (cell + (tolerance : α) : Calculation α)
      if lt bound p.w then Trail.note (.cellOverflow child.id id cell columns p.w)
      let c ← advance columns gap c
      let x ← ((ofInt (c.placed % columns : Nat) : α) * (cell + gap) : Calculation α)
      let here ← p.moved x c.y
      let (frames, last) ← runFrom id columns cell gap (after c p) rest
      return (here ++ frames, last)

def arrange (id : String) (columns : Nat) (width cell gap : α) (children : List (Child α δ)) :
    Laying α (Placement α δ) := do
  let (frames, last) ← runFrom id columns cell gap ⟨noLength, noLength, 0⟩ children
  let height ← (if last.placed = 0 then .ok zero else last.y + last.rowHeight : Calculation α)
  Trail.ofExcept (Placement.of id width height frames)

end Wireframe.Cells
