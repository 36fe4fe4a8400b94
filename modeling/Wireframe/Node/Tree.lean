import Wireframe.Node.Basic
import Wireframe.Value.Pointer
import Wireframe.Keyed

/-
  Wireframe.Node.Tree — walks over a screen's tree.

  A walk lists the nodes from the root on, every node before its children, and the children in
  the order of their slots; each with the pointer at which it stands in the document. A walk over
  the visible nodes passes over a hidden node together with everything below it.
-/

namespace Wireframe

/-- Where the root of a screen stands in its document. -/
def rootPointer : String := "/screen/root"

/-- A place for a child: the member that holds it, and its position when that is a list. -/
structure Slot where
  name : String
  index : Option Nat
  node : Node

/-- A node and its pointer. Pointers tell nodes apart also when their ids are equal. -/
structure Located where
  node : Node
  pointer : String

def listSlots (name : String) (nodes : List Node) : List Slot :=
  nodes.zipIdx.map fun (n, i) => ⟨name, some i, n⟩

namespace Node

/-- The slots of a node, in order. -/
def slots : Node → List Slot
  | stack _ _ cs | grid _ _ cs => listSlots "children" cs
  | box _ _ c => c.toList.map fun n => ⟨"child", none, n⟩
  | form _ _ fs as => listSlots "fields" fs ++ listSlots "actions" as
  | _ => []

mutual

/-- The nodes of a subtree that stands at `pointer`, in order; only the visible ones, or all. -/
def walkFrom (visibleOnly : Bool) (pointer : String) (n : Node) : List Located :=
  if visibleOnly && !n.visible then []
  else ⟨n, pointer⟩ :: match n with
    | stack _ _ cs | grid _ _ cs => walkItems visibleOnly pointer "children" 0 cs
    | box _ _ (some c) => walkFrom visibleOnly (Pointer.child pointer "child" none) c
    | form _ _ fs as =>
      walkItems visibleOnly pointer "fields" 0 fs ++ walkItems visibleOnly pointer "actions" 0 as
    | _ => []

/-- The same for the nodes in a list, from a position on. -/
def walkItems (visibleOnly : Bool) (pointer slot : String) (index : Nat) : List Node → List Located
  | [] => []
  | n :: rest => walkFrom visibleOnly (Pointer.child pointer slot (some (index : Int))) n ++
      walkItems visibleOnly pointer slot (index + 1) rest

end

/-- The visible nodes of a screen's tree with their pointers. -/
def walk (root : Node) : List Located := root.walkFrom true rootPointer

/-- The visible nodes of a subtree, in order. -/
def visibleNodes (root : Node) : List Node := root.walk.map (·.node)

/-- All nodes of a subtree, in order. -/
def allNodes (root : Node) : List Node := (root.walkFrom false rootPointer).map (·.node)

/-- The pointers of the visible nodes by id; of equal ids the last one counts. -/
def pointers (root : Node) : List (String × String) :=
  Keyed.ofList (root.walk.map fun l => (l.node.id, l.pointer))

/-- The parents of the visible nodes by id; of equal ids the last one counts. -/
def parents (root : Node) : List (String × Node) :=
  Keyed.ofList (root.visibleNodes.flatMap fun n =>
    (n.children.filter (·.visible)).map fun c => (c.id, n))

/-- The first node with an id, among the visible ones or all. -/
def find? (root : Node) (id : String) (visibleOnly : Bool) : Option Node :=
  ((root.walkFrom visibleOnly rootPointer).find? (·.node.id == id)).map (·.node)

/-- Does a node with this id stand strictly below, visible or not? -/
def hasBelow (n : Node) (id : String) : Bool := (n.allNodes.drop 1).any (·.id == id)

end Node

namespace Located

/-- The node in a slot, where it stands. -/
def under (l : Located) (s : Slot) : Located :=
  ⟨s.node, Pointer.child l.pointer s.name (s.index.map Int.ofNat)⟩

/-- The visible nodes from this one down. -/
def subtree (l : Located) : List Located := l.node.walkFrom true l.pointer

/-- The visible children. -/
def shownChildren (l : Located) : List Located :=
  (l.node.slots.map l.under).filter (·.node.visible)

def isAt (l m : Located) : Bool := l.pointer == m.pointer

end Located

end Wireframe
