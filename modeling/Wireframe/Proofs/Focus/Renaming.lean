import Wireframe.Focus.Order
import Wireframe.Proofs.Renaming

/-
  Wireframe.Proofs.Focus.Renaming — the keyboard goes the same way whatever the nodes are called.

  The nodes that take the focus are sorted by their indices and nothing else, so they keep their
  order under other names.

  Proved:
  - `focusOrder_renamed`, `unreachable_renamed`: what takes the focus, and what no key reaches.
-/

namespace Wireframe

variable (r : Renaming)

namespace Node

theorem map_id_renamed (ns : List Node) : (ns.map (renamed r)).map (·.id) = (ns.map (·.id)).map r := by
  simp only [List.map_map, Function.comp_def, id_renamed]

@[simp] theorem isFocusable_renamed (n : Node) : (n.renamed r).isFocusable = n.isFocusable := by
  simp only [isFocusable, visible_renamed, isButton_renamed, isField_renamed, header_renamed]
  rfl

@[simp] theorem focusIndex_renamed (n : Node) : (n.renamed r).focusIndex = n.focusIndex := by
  rw [focusIndex, header_renamed]
  rfl

theorem focusable_renamed (n : Node) : (n.renamed r).focusable = n.focusable.map (renamed r) := by
  simp only [focusable, visibleNodes_renamed, List.filter_map, Function.comp_def,
    isFocusable_renamed]

theorem focusableIds_renamed (n : Node) : (n.renamed r).focusableIds = n.focusableIds.map r := by
  rw [focusableIds, focusable_renamed, map_id_renamed, focusableIds]

theorem focusOrder_renamed (n : Node) : (n.renamed r).focusOrder = n.focusOrder.map r := by
  have sorted : ∀ ns : List Node,
      (ns.map (renamed r)).mergeSort (fun a b => a.focusIndex ≤ b.focusIndex) =
        (ns.mergeSort fun a b => a.focusIndex ≤ b.focusIndex).map (renamed r) := fun ns =>
    (List.map_mergeSort fun a _ b _ => by rw [focusIndex_renamed, focusIndex_renamed]).symm
  simp only [focusOrder, focusable_renamed, List.filter_map, Function.comp_def, focusIndex_renamed,
    sorted, map_id_renamed, List.map_append]

theorem unreachable_renamed (n : Node) : (n.renamed r).unreachable = n.unreachable.map r := by
  simp only [unreachable, focusableIds_renamed, focusOrder_renamed, List.filter_map,
    Function.comp_def, Renaming.contains_map]

end Node

/-! ## Forms -/

namespace FormFlow

@[simp] theorem actionsOf_renamed (n : Node) :
    actionsOf (n.renamed r) = (actionsOf n).map (Node.renamed r) := by
  cases n with
  | form h c fs as => exact Node.renamedAll_eq r as
  | stack | grid | box | text | button | field | table => rfl

theorem forms_renamed (root : Node) :
    forms (root.renamed r) = (forms root).map (Located.renamed r) := by
  simp only [forms, Node.walk_renamed, List.filter_map, Function.comp_def, Located.node_renamed,
    Node.kind_renamed]

end FormFlow

end Wireframe
