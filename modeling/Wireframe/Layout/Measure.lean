import Wireframe.Layout.Quantity
import Wireframe.Node.Basic
import Wireframe.Text.Point

/-
  Wireframe.Layout.Measure — the sizes of leaves.

  The width of a text is estimated from its number of points. A text takes as many lines as
  it needs in the width it is offered; buttons and fields follow their size policies within their
  bounds and are never narrower than the touch target; a table takes the whole width and a row of
  height for each of its rows.
-/

namespace Wireframe

/-- A width and a height. -/
structure Extent (α : Type) where
  w : α
  h : α

namespace Measure

open Quantity

variable {α δ : Type} [Quantity α δ]

def fontSize : α := ofInt 16

/-- The part of the font size that a character is wide. -/
def characterWidth : α := decimal 55 2

/-- The part of the font size that a line is high. -/
def lineHeight : α := decimal 14 1

/-- What a control is wider than its label. -/
def controlPadding : α := ofInt 24

/-- The width of a text of some points on one line. -/
def textWidth (font : α) (characters : Nat) : Calculation α :=
  font * (characterWidth : α) * (ofInt characters : α)

def text (t : TextContent) (offered : α) : Calculation (Extent α) := do
  let font : α := (t.fontSize.map ofFloat).getD fontSize
  let line ← (font * (lineHeight : α) : Calculation α)
  let single ← match t.intrinsicTextWidth with
    | some w => .ok (ofFloat w)
    | none => textWidth font (Text.size t.text)
  if le offered (ofInt 0) then return ⟨ofInt 0, line⟩
  else if lt offered single then do
    let lines ← ceil (← (single / offered : Calculation α))
    let height ← ((ofInt lines : α) * line : Calculation α)
    return ⟨smaller single offered, height⟩
  else return ⟨single, line⟩

/-- A number brought above a lower bound, then below an upper one. -/
def clamp (value : α) (low high : Option α) : α :=
  let value := match low with
    | some l => larger value l
    | none => value
  match high with
  | some h => smaller value h
  | none => value

/-- The size of a button or field with a label this wide. -/
def control (labelWidth : α) (h : Header) (offered : α) (touch : Extent α) :
    Calculation (Extent α) := do
  let minW := (h.minSize.bind (·.w)).map (ofFloat (α := α))
  let minH := (h.minSize.bind (·.h)).map (ofFloat (α := α))
  let maxW := (h.maxSize.bind (·.w)).map (ofFloat (α := α))
  let maxH := (h.maxSize.bind (·.h)).map (ofFloat (α := α))
  let padded ← (labelWidth + (controlPadding : α) : Calculation α)
  let width := match h.widthPolicy with
    | .fill => offered
    | .fixed => minW.getD padded
    | .hug => smaller padded offered
  let height := match h.heightPolicy with
    | .fill => touch.h
    | .fixed => minH.getD touch.h
    | .hug => larger touch.h (orZero (h.minSize.bind (·.h)))
  return ⟨larger (clamp width minW maxW) touch.w, clamp height minH maxH⟩

/-- The size of a button or field with this label. -/
def labelled (label : String) (h : Header) (offered : α) (touch : Extent α) :
    Calculation (Extent α) := do
  control (← textWidth fontSize (Text.size label)) h offered touch

def table (t : TableContent) (offered : α) : Extent α :=
  ⟨offered, ofInt (48 + 40 * t.rows.getD 5)⟩

end Measure

/-- The size of a leaf; containers have none of their own. -/
def Node.extent? [Quantity α δ] (n : Node) (offered : α) (touch : Extent α) :
    Option (Calculation (Extent α)) :=
  match n with
  | .text _ t => some (Measure.text t offered)
  | .button h b => some (Measure.labelled b.text h offered touch)
  | .field h f => some (Measure.labelled f.label h offered touch)
  | .table _ t => some (.ok (Measure.table t offered))
  | _ => none

end Wireframe
