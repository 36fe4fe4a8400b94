import Wireframe.Focus.FormFlow
import Wireframe.Cascade.Resolve
import Wireframe.Scaffold
import Wireframe.Failure

/-
  Wireframe.Focus.Order — the order in which the keyboard reaches the nodes of a screen.

  Visible nodes that take the focus come first by their positive index, the least first, then
  those with index zero, each in document order. A node with a negative index is reached by no
  key, which is a critical issue.
-/

namespace Wireframe

namespace Node

/-- Does the node take the focus? Buttons and fields do unless they are told not to, other nodes
    only when told to. -/
def isFocusable (n : Node) : Bool :=
  n.visible &&
    (if n.isButton || n.isField then n.header.focusable != some false
     else n.header.focusable == some true)

def focusIndex (n : Node) : Int := n.header.tabIndex.getD 0

/-- The nodes that take the focus, in document order. -/
def focusable (root : Node) : List Node := root.visibleNodes.filter (·.isFocusable)

def focusableIds (root : Node) : List String := root.focusable.map (·.id)

/-- The ids in the order in which they take the focus. -/
def focusOrder (root : Node) : List String :=
  let indexed := root.focusable.filter fun n => 0 < n.focusIndex
  let plain := root.focusable.filter fun n => n.focusIndex = 0
  (indexed.mergeSort fun a b => a.focusIndex ≤ b.focusIndex).map (·.id) ++ plain.map (·.id)

/-- The ids that take the focus and are in no order, in document order. -/
def unreachable (root : Node) : List String :=
  root.focusableIds.filter fun id => !root.focusOrder.contains id

end Node

/-- What the keyboard makes of a screen. -/
structure Focus where
  sequence : List String
  unreachable : List String
  issues : List Issue

namespace Focus

def unreachableIssue (pointers : List (String × String)) (id : String) : Issue :=
  { id := "unreachable", severity := .critical
    message := "Focusable node " ++ id ++ " is unreachable in the tab sequence"
    nodeId := some (some id), jsonPointer := (Keyed.get? pointers id).map some
    suggestion := some (some "Remove the negative tabIndex or make the node non-focusable") }

/-- The focus order of a tree as it is. -/
def ofTree (root : Node) : Focus :=
  let unreachable := root.unreachable
  { sequence := root.focusOrder, unreachable := unreachable
    issues := unreachable.map (unreachableIssue root.pointers) ++ FormFlow.issues root }

def entry (f : Focus) : Entry :=
  Entry.debug "keyboard" ("Keyboard flow: " ++ toString f.sequence.length ++ " in sequence, " ++
    toString f.unreachable.length ++ " unreachable, " ++ toString f.issues.length ++ " issues")

/-- The focus order of a screen, at a width of the viewport or as it is written. -/
def compute (s : Scaffold) (width : Option Number) : Trail Entry Failure Focus := do
  let root ← match width with
    | some w => s.screen.root.resolve w
    | none => Trail.done s.screen.root
  let f := ofTree root
  Trail.note f.entry
  return f

def toValue (f : Focus) : Value :=
  .object [("sequence", .texts f.sequence), ("unreachable", .texts f.unreachable),
    ("issues", Issue.listValue f.issues)]

def reading : Reading Focus :=
  Focus.mk <$> .optional (.plain "sequence") (Shape.list Shape.text) []
    <*> .optional (.plain "unreachable") (Shape.list Shape.text) []
    <*> .optional (.plain "issues") (Shape.list Issue.read) []

def read : Shape Focus := Shape.record "KeyboardOutput" reading

end Focus

end Wireframe
