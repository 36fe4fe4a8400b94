import Wireframe.Cascade.Condition
import Wireframe.Cascade.Merge
import Wireframe.Node.Writing
import Wireframe.Trail
import Wireframe.Journal
import Wireframe.Failure

/-
  Wireframe.Cascade.Resolve — a tree as it is at one width of the viewport.

  A node with override blocks is written with all its fields, the blocks that apply are laid over
  it, and the outcome is read as a node again, without blocks. A node without blocks stays as it
  is. Every node is resolved before its children, so that children which a block brings in are
  resolved too.

  The objects in the document of a node bound the depth of the work: what is read after blocks
  were laid over a node holds fewer objects than the node and its blocks did together.
-/

namespace Wireframe

/-- The members of an object, none of anything else. -/
def Value.members : Value → Object
  | .object o => o
  | _ => []

namespace Node

/-- How many objects the document of a node holds. -/
def weight (n : Node) : Nat := (n.write .exact).objects

/-- The blocks of a node, none when it has no map of them. -/
def blocks (n : Node) : Blocks := n.header.overrides.getD []

/-- The document of a node with some blocks laid over it, without blocks itself. -/
def overlaid (n : Node) (applied : Blocks) : Object :=
  Keyed.erase (applied.foldl (fun o b => Object.lay o b.2) (n.write .exact).members) "at"

/-- The entry that tells which blocks were laid over a node, if any were. -/
def overlayEntry (n : Node) (width : Number) (applied : Blocks) : List Entry :=
  match applied.map (·.1) with
  | [] => []
  | keys => [Entry.debug "layout.responsive" ("Node " ++ n.id ++ " at " ++ width.text ++
      "px: applied " ++ ", ".intercalate keys)]

/-- One node at a width; its children stay as they are. -/
def resolveOwn (width : Number) (n : Node) : Trail Entry Failure Node :=
  if n.blocks.isEmpty then Trail.done n
  else do
    let applied ← Trail.ofExcept ((n.blocks.ordered width).mapError .digits)
    Trail.leave (n.overlayEntry width applied)
    Trail.ofExcept ((read (.object (n.overlaid applied))).mapError .overlay)

/-- A subtree at a width, to a depth. -/
def resolveWithin (width : Number) : Nat → Node → Trail Entry Failure Node
  | 0, n => Trail.done n
  | depth + 1, n => do
    match ← n.resolveOwn width with
    | stack h s cs => return stack h s (← Trail.each (resolveWithin width depth) cs)
    | grid h g cs => return grid h g (← Trail.each (resolveWithin width depth) cs)
    | box h p (some c) => return box h p (some (← resolveWithin width depth c))
    | form h f fs as => do
      let fs ← Trail.each (resolveWithin width depth) fs
      let as ← Trail.each (resolveWithin width depth) as
      return form h f fs as
    | leaf => return leaf

/-- A subtree at a width. -/
def resolve (width : Number) (n : Node) : Trail Entry Failure Node := resolveWithin width n.weight n

end Node

end Wireframe
