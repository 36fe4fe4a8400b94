import Wireframe.Layout.Place
import Wireframe.Issue
import Wireframe.Viewport
import Wireframe.Node.Tree

/-
  Wireframe.Layout.Defects — the issues that a layout's defects are told as.

  Every issue names the node, the viewport, and, for a visible node, its pointer.
-/

namespace Wireframe

def Extent.toValue (e : Extent Number) : Value := .object [("w", .number e.w), ("h", .number e.h)]

def Frame.toValue (f : Frame Number Float) : Value :=
  .object [("id", .text f.id), ("x", .real f.x), ("y", .real f.y), ("w", .real f.w.toFloat),
    ("h", .real f.h)]

namespace Defect

/-- The node that a defect is about. -/
def nodeId {α : Type} : Defect α → String
  | offScale id .. | smallTarget id .. | rowOverflow id .. | cellOverflow id .. | belowFold id _ => id

def name {α : Type} : Defect α → String
  | offScale .. => "spacing-off-scale"
  | smallTarget .. => "touch-target-too-small"
  | rowOverflow .. | cellOverflow .. => "overflow-x"
  | belowFold .. => "primary-below-fold"

def severity {α : Type} : Defect α → Severity
  | rowOverflow .. | cellOverflow .. => .error
  | _ => .warn

def message (viewport : Viewport) : Defect Number → String
  | offScale id typeName property value _ =>
    typeName ++ " " ++ id ++ " " ++ property ++ " " ++ value.message ++ " is not in spacingScale"
  | smallTarget id typeName found minimum =>
    typeName ++ " " ++ id ++ " has touch target " ++ found.w.message ++ "x" ++
      found.h.message ++ ", minimum is " ++ minimum.w.message ++ "x" ++ minimum.h.message
  | rowOverflow id container _ _ => "Child " ++ id ++ " overflows horizontal Stack " ++ container
  | cellOverflow id container cell _ width =>
    "Child " ++ id ++ " width " ++ width.message ++ " exceeds Grid " ++ container ++
      " cell width " ++ cell.message
  | belowFold id _ => "Primary action " ++ id ++ " is below the fold at viewport " ++ viewport.label

def details : Defect Number → Option Object
  | offScale _ _ property value _ => some [("property", .text property), ("value", .number value)]
  | rowOverflow _ container limit _ =>
    some [("containerId", .text container), ("containerWidth", .number limit)]
  | cellOverflow _ container cell columns _ =>
    some [("containerId", .text container), ("cellWidth", .number cell), ("columns", .int columns)]
  | _ => none

def expected (viewport : Viewport) : Defect Number → Value
  | offScale _ _ _ _ scale => .list (scale.map .number)
  | smallTarget _ _ _ minimum => minimum.toValue
  | rowOverflow _ _ limit _ => .number limit
  | cellOverflow _ _ cell _ _ => .number cell
  | belowFold .. => .nat viewport.height

def found : Defect Number → Value
  | offScale _ _ _ value _ => .number value
  | smallTarget _ _ found _ => found.toValue
  | rowOverflow _ _ _ reached => .number reached
  | cellOverflow _ _ _ _ width => .number width
  | belowFold _ bottom => .number bottom

def toIssue (viewport : Viewport) (pointers : List (String × String)) (d : Defect Number) : Issue :=
  { id := d.name, severity := d.severity, message := d.message viewport, nodeId := some (some d.nodeId)
    jsonPointer := (Keyed.get? pointers d.nodeId).map some, viewport := some (some viewport.label)
    details := d.details.map some, expected := some (d.expected viewport), found := some d.found }

end Defect

/-- The first node of an id, hidden ones included. -/
def Node.get (root : Node) (id : String) : Except Failure Node :=
  match root.find? id false with
  | some n => .ok n
  | none => .error (.noNode id)

/-- What every drafted issue is given. -/
def draftArguments : List String := ["self", "issue_id", "severity", "message", "node"]

/-- An issue about a node, from its parts as a document; further fields take the place of these,
    but may not be named like what the issue is drafted from. -/
def draftIssue (viewport : Viewport) (pointers : List (String × String)) (node : Except Failure Node)
    (id severity message : Value) (more : Object) : Except Failure Issue :=
  match more.find? fun m => draftArguments.contains m.1 with
  | some (name, _) => .error (.givenTwice name)
  | none => do
    let n ← node
    let fields : Object :=
      [("id", id), ("severity", severity), ("message", message), ("node_id", .text n.id),
        ("viewport", .text viewport.label)] ++
        setField "json_pointer" .text (Keyed.get? pointers n.id)
    (Issue.read (.object (more.foldl (fun o m => Keyed.put o m.1 m.2) fields))).mapError .faults

end Wireframe
