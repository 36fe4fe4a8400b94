import Wireframe.Layout.Defects
import Wireframe.Cascade.Resolve
import Wireframe.Environment
import Wireframe.Failure
import Wireframe.Text.Keyword

/-
  Wireframe.Layout.Screen — the layout of a screen at a viewport.

  The tree is resolved at the width of the viewport and laid out in it. The frames are those of
  the visible nodes in document order. Last, the primary action is looked up: it should not end
  below the viewport.
-/

namespace Wireframe

/-- How the primary action of a screen is told. -/
inductive PrimaryDetection where
  /-- The first visible button that is said to be primary. -/
  | role
  /-- The first frame whose id has `primary` in it. -/
  | id
  deriving DecidableEq

/-- What is configured. -/
def PrimaryDetection.configured (env : Environment) : PrimaryDetection :=
  if env.primaryDetection none == "id" then .id else .role

/-- What a screen with these settings is laid out against. -/
def Settings.surface (s : Settings) : Surface Number :=
  ⟨s.spacingScale.map (.map .float), ⟨s.minTouchTarget.w, s.minTouchTarget.h⟩⟩

/-- The frames and issues of a screen at one viewport. -/
structure Layout where
  viewport : String
  frames : List (Frame Number Float)
  issues : List Issue

namespace Layout

/-- The first frame of a node. -/
def frameFor? (l : Layout) (id : String) : Option (Frame Number Float) := l.frames.find? (·.id == id)

/-- The frame of an id; of several the last one. -/
def lastFrame? (frames : List (Frame α δ)) (id : String) : Option (Frame α δ) :=
  frames.reverse.find? (·.id == id)

/-- The frame of the primary action. -/
def primaryFrame? (root : Node) (frames : List (Frame α δ)) :
    PrimaryDetection → Option (Frame α δ)
  | .id => frames.find? fun f => Text.contains "primary" f.id
  | .role => (root.visibleNodes.find? (·.isPrimaryButton)).bind fun n => lastFrame? frames n.id

/-- The defect of a primary action that ends below a height. -/
def foldDefects {α δ : Type} [Quantity α δ] [Scalar δ] (root : Node) (frames : List (Frame α δ))
    (height : Int) (detection : PrimaryDetection) : List (Defect α) :=
  match primaryFrame? root frames detection with
  | none => []
  | some f =>
    let bottom : α := Quantity.ofCoordinate f.bottom
    if Quantity.le bottom (Quantity.ofInt height) then []
    else if root.visibleNodes.any (·.id == f.id) then [.belowFold f.id bottom] else []

/-- The frames and defects of a tree that is resolved. -/
def ofTree {α δ : Type} [Quantity α δ] [Scalar δ] (s : Surface α) (v : Viewport)
    (detection : PrimaryDetection) (root : Node) : Laying α (List (Frame α δ)) := do
  let placed ← root.place s (Quantity.ofInt v.width)
  let frames := (placed.map (·.frames)).getD []
  Trail.leave (foldDefects root frames v.height detection)
  return frames

/-- The layout of a tree that is resolved. -/
def ofResolved (s : Surface Number) (v : Viewport) (detection : PrimaryDetection) (root : Node) :
    Except Failure Layout :=
  let laid := ofTree s v detection root
  laid.result.map fun frames =>
    { viewport := v.label, frames := frames, issues := laid.notes.map (·.toIssue v root.pointers) }

def entry (l : Layout) : Entry :=
  Entry.debug "layout" ("Layout " ++ l.viewport ++ ": " ++ toString l.frames.length ++ " frames, " ++
    toString l.issues.length ++ " issues")

/-- The layout of a screen at a viewport. -/
def compute (s : Scaffold) (detection : PrimaryDetection) (v : Viewport) :
    Trail Entry Failure Layout := do
  let root ← s.screen.root.resolve (.int v.width)
  let l ← Trail.ofExcept (ofResolved s.settings.surface v detection root)
  Trail.note l.entry
  return l

/-- The viewports asked for, else those of the scaffold, else those that are configured. -/
def viewportTexts (env : Environment) (s : Scaffold) : Option (List String) → List String
  | some asked => asked
  | none => if s.settings.breakpoints.isEmpty then env.defaultBreakpoints else s.settings.breakpoints

/-- The layouts at some viewports, one after the other. -/
def computeAll (s : Scaffold) (detection : PrimaryDetection) (viewports : List String) :
    Trail Entry Failure (List Layout) :=
  Trail.each (fun text => do
    let v ← Trail.ofExcept ((Viewport.parse text).mapError .viewport)
    compute s detection v) viewports

def toValue (l : Layout) : Value :=
  .object [("viewport", .text l.viewport), ("frames", .list (l.frames.map Frame.toValue)),
    ("issues", Issue.listValue l.issues)]

end Layout

namespace Reading

open Shape

def frame : Reading (Frame Number Float) :=
  Frame.mk <$> required Keys.id Shape.text <*> required (.plain "x") real
    <*> required (.plain "y") real <*> required (.plain "w") number
    <*> required (.plain "h") real

def layout : Reading Layout :=
  Layout.mk <$> required (.plain "viewport") Shape.text
    <*> optional (.plain "frames") (list (record "Frame" frame)) []
    <*> optional (.plain "issues") (list Issue.read) []

end Reading

def Frame.read : Shape (Frame Number Float) := Shape.record "Frame" Reading.frame

def Layout.read : Shape Layout := Shape.record "LayoutOutput" Reading.layout

end Wireframe
