import Wireframe.Focus.Order
import Wireframe.Proofs.Cascade.Resolve
import Wireframe.Proofs.Layout.Hidden

/-
  Wireframe.Proofs.Focus.Hidden — hidden nodes take no part in the order of the keyboard.

  The nodes that take the focus are visible ones, and pruning keeps these in their order. One rule
  of forms looks up ids among all actions, hidden ones included; where ids are unique, no visible
  node has the id of a hidden one.

  Proved:
  - `focusOrder_prune`, `unreachable_prune`: what takes the focus, and what no key reaches.
  - `FormFlow.issues_prune`: the issues of forms, but for their pointers.
  - `Scaffold.prune_unseen`: the layout and the keyboard of a screen without blocks.
-/

namespace Wireframe

/-- The issue without its pointer. -/
def Issue.unplaced (i : Issue) : Issue := { i with jsonPointer := none }

namespace Node

/-! ## The order of the focus -/

@[simp] theorem isFocusable_prune (n : Node) : n.prune.isFocusable = n.isFocusable := by
  simp only [isFocusable, visible_prune, isButton_prune, isField_prune, header_prune]

@[simp] theorem focusIndex_prune (n : Node) : n.prune.focusIndex = n.focusIndex := by
  simp only [focusIndex, header_prune]

theorem focusable_prune (n : Node) : n.prune.focusable = n.focusable.map prune := by
  simp only [focusable, visibleNodes_prune, List.filter_map, Function.comp_def, isFocusable_prune]

theorem focusableIds_prune (n : Node) : n.prune.focusableIds = n.focusableIds := by
  rw [focusableIds, focusable_prune, map_id_prune, focusableIds]

/-- Sorting looks only at indices, which pruning keeps. -/
theorem focusOrder_prune (n : Node) : n.prune.focusOrder = n.focusOrder := by
  have sorted : ∀ ns : List Node,
      (ns.map prune).mergeSort (fun a b => a.focusIndex ≤ b.focusIndex) =
        (ns.mergeSort fun a b => a.focusIndex ≤ b.focusIndex).map prune := fun ns =>
    (List.map_mergeSort fun a _ b _ => by rw [focusIndex_prune, focusIndex_prune]).symm
  simp only [focusOrder, focusable_prune, List.filter_map, Function.comp_def, focusIndex_prune,
    sorted, map_id_prune]

theorem unreachable_prune (n : Node) : n.prune.unreachable = n.unreachable := by
  rw [unreachable, focusableIds_prune, focusOrder_prune, unreachable]

end Node

/-! ## Forms -/

namespace FormFlow

open Node

theorem actionsOf_prune (n : Node) :
    actionsOf n.prune = ((actionsOf n).filter (·.visible)).map prune := by
  cases n with
  | form h f fs as => exact pruneAll_eq as
  | stack | grid | box | text | button | field | table => rfl

theorem isCancel_prune (n : Node) : isCancel n.prune = isCancel n := by cases n <;> rfl

theorem fieldLabel_prune (n : Node) : fieldLabel n.prune = fieldLabel n := by cases n <;> rfl

theorem cancelBeforePrimary?_prune (ns : List Node) :
    cancelBeforePrimary? (ns.map prune) =
      (cancelBeforePrimary? ns).map fun (cancel, primary) => (cancel.prune, primary.prune) := by
  simp only [cancelBeforePrimary?, List.takeWhile_map, List.dropWhile_map, Function.comp_def,
    isPrimaryButton_prune]
  cases ns.dropWhile fun n => !n.isPrimaryButton with
  | nil => rfl
  | cons primary rest =>
    simp only [List.map_cons, List.find?_map, Function.comp_def, isCancel_prune, Option.map_map]

/-- What is told about the order of a form's buttons hangs on its visible actions. -/
theorem cancelIssue?_prune (n : Node) (p q : String) :
    (cancelIssue? ⟨n.prune, q⟩).map Issue.unplaced = (cancelIssue? ⟨n, p⟩).map Issue.unplaced := by
  have visible : (actionsOf n.prune).filter (·.visible) =
      ((actionsOf n).filter (·.visible)).map prune := by
    simp only [actionsOf_prune, List.filter_map, Function.comp_def, visible_prune,
      List.filter_filter, Bool.and_self]
  simp only [cancelIssue?, visible, cancelBeforePrimary?_prune, Option.map_map, Function.comp_def,
    Issue.unplaced, id_prune]

/-- The last field of a form from its first action on, wherever the form stands. -/
def lateNode? (n : Node) : Option Node :=
  ((n.visibleNodes.dropWhile fun m => !((actionsOf n).map (·.id)).contains m.id).filter
    (·.isField)).getLast?

theorem lateField?_node (n : Node) (p : String) :
    (lateField? ⟨n, p⟩).map (·.node) = lateNode? n := by
  simp only [lateField?, lateNode?, ← n.walkFrom_nodes p, List.dropWhile_map, List.filter_map,
    Function.comp_def, List.getLast?_map]

theorem actionsOf_subset (n : Node) : actionsOf n ⊆ n.children := by
  cases n with
  | form h f fs as => exact List.subset_append_right fs as
  | stack | grid | box | text | button | field | table => exact List.nil_subset _

/-- A visible node with the id of an action is this action, so the action is not hidden. -/
theorem actionIds_prune {root n m : Node} (unique : root.UniqueIds) (hn : n ∈ root.visibleNodes)
    (hm : m ∈ n.visibleNodes) : ((actionsOf n.prune).map (·.id)).contains m.id =
      ((actionsOf n).map (·.id)).contains m.id := by
  rw [Bool.eq_iff_iff, List.contains_iff_mem, List.contains_iff_mem, actionsOf_prune,
    map_id_prune, List.mem_map, List.mem_map]
  constructor
  · rintro ⟨a, ha, same⟩
    exact ⟨a, List.mem_of_mem_filter ha, same⟩
  · rintro ⟨a, ha, same⟩
    refine ⟨a, List.mem_filter.mpr ⟨ha, ?_⟩, same⟩
    have within := root.visibleNodes_subset hn
    have ha' := mem_allNodes_trans within (mem_allNodes_child (actionsOf_subset n ha))
    have hm' := mem_allNodes_trans within (n.visibleNodes_subset hm)
    rw [unique.eq_of_id ha' hm' same]
    exact visible_of_mem_visibleNodes hm

theorem lateNode?_prune {root n : Node} (unique : root.UniqueIds) (hn : n ∈ root.visibleNodes) :
    lateNode? n.prune = (lateNode? n).map prune := by
  have known : ∀ m ∈ n.visibleNodes, (!((actionsOf n.prune).map (·.id)).contains m.id) =
      !((actionsOf n).map (·.id)).contains m.id :=
    fun m hm => congrArg (!·) (actionIds_prune unique hn hm)
  simp only [lateNode?, visibleNodes_prune, List.dropWhile_map, List.filter_map, Function.comp_def,
    isField_prune, id_prune, List.getLast?_map]
  rw [dropWhile_congr known]

theorem lateFieldIssue?_unplaced (n : Node) (p : String) :
    (lateFieldIssue? ⟨n, p⟩).map Issue.unplaced = (lateNode? n).map fun field =>
      { id := "field-after-actions", severity := .error
        message := "Field \"" ++ fieldLabel field ++ "\" appears after action buttons in Form " ++
          n.id
        nodeId := some (some field.id)
        details := some (some [("formId", .text n.id)])
        suggestion := some (some "Move all fields before the action buttons") } := by
  rw [← lateField?_node n p]
  simp only [lateFieldIssue?, Option.map_map]
  rfl

/-- The issues of a form, but for their pointers. -/
def told (form : Located) : List Issue :=
  ((cancelIssue? form).toList ++ (lateFieldIssue? form).toList).map Issue.unplaced

theorem told_eq (form : Located) :
    told form = ((cancelIssue? form).map Issue.unplaced).toList ++
      ((lateFieldIssue? form).map Issue.unplaced).toList := by
  rw [told, List.map_append, Option.toList_map, Option.toList_map]

theorem told_anywhere (n : Node) (p q : String) : told ⟨n, p⟩ = told ⟨n, q⟩ := by
  rw [told_eq, told_eq, ← cancelIssue?_prune n p p, cancelIssue?_prune n q p,
    lateFieldIssue?_unplaced, lateFieldIssue?_unplaced]

/-- Pruning changes nothing of what is told about a form, nor does its place. -/
theorem told_prune {root n : Node} (unique : root.UniqueIds) (hn : n ∈ root.visibleNodes)
    (p q : String) : told ⟨n.prune, q⟩ = told ⟨n, p⟩ := by
  rw [told_eq, told_eq, cancelIssue?_prune n p q, lateFieldIssue?_unplaced,
    lateFieldIssue?_unplaced, lateNode?_prune unique hn, Option.map_map]
  simp only [Function.comp_def, fieldLabel_prune, id_prune]

theorem issues_unplaced (root : Node) : (issues root).map Issue.unplaced =
    (root.visibleNodes.filter (·.kind == .form)).flatMap fun n => told ⟨n, ""⟩ := by
  simp only [issues, forms, List.map_flatMap, visibleNodes, List.filter_map, List.flatMap_map]
  exact List.flatMap_congr fun l _ => told_anywhere l.node l.pointer ""

theorem issues_prune {root : Node} (unique : root.UniqueIds) :
    (issues root.prune).map Issue.unplaced = (issues root).map Issue.unplaced := by
  simp only [issues_unplaced, visibleNodes_prune, List.filter_map, Function.comp_def, kind_prune,
    List.flatMap_map]
  exact List.flatMap_congr fun n hn => told_prune unique (List.mem_of_mem_filter hn) "" ""

end FormFlow

/-! ## Screens -/

theorem Focus.ofTree_prune {root : Node} (unique : root.UniqueIds) :
    (ofTree root.prune).sequence = (ofTree root).sequence ∧
      (ofTree root.prune).unreachable = (ofTree root).unreachable ∧
      (ofTree root.prune).issues.map Issue.unplaced = (ofTree root).issues.map Issue.unplaced := by
  refine ⟨root.focusOrder_prune, root.unreachable_prune, ?_⟩
  simp only [ofTree, List.map_append, List.map_map, root.unreachable_prune,
    FormFlow.issues_prune unique]
  rfl

theorem Node.Settled.prune {n : Node} (h : n.Settled) : n.prune.Settled := by
  induction n using byChildren with
  | step n ih =>
    obtain ⟨own, below⟩ := settled_iff.mp h
    refine settled_iff.mpr ⟨?_, fun c hc => ?_⟩
    · rwa [blocks, header_prune, ← blocks]
    · rw [children_prune] at hc
      obtain ⟨d, hd, rfl⟩ := List.mem_map.mp hc
      have hd := List.mem_of_mem_filter hd
      exact ih d hd (below d hd)

/-- The scaffold without what is hidden on its screen. -/
def Scaffold.pruned (s : Scaffold) : Scaffold :=
  { s with screen := { s.screen with root := s.screen.root.prune } }

/-- Two layouts come to the same, and tell the same issues but for pointers. -/
structure Laying.Alike (a b : Laying Number (Option (Placement Number Float))) : Prop where
  result : a.result = b.result
  issues : ∀ (v : Viewport) (p q : List (String × String)),
    (a.notes.map (·.toIssue v p)).map Issue.unplaced =
      (b.notes.map (·.toIssue v q)).map Issue.unplaced

theorem Laying.Alike.of_eq {a b : Laying Number (Option (Placement Number Float))} (h : a = b) :
    Alike a b := by
  subst h
  refine ⟨rfl, fun v p q => ?_⟩
  rw [List.map_map, List.map_map]
  rfl

/-- On a screen without blocks nobody sees what is hidden. The layout of its tree is the same
    without it, in any width; both fail, though not with the same message, where a whole number
    beyond the range of doubles meets a box that insets a hidden child. Where ids are unique the
    keyboard goes the same way. -/
theorem Scaffold.prune_unseen (s : Scaffold) (settled : s.screen.root.Settled)
    (shown : s.screen.root.visible = true) :
    (∀ (against : Surface Number) (width : Number),
      Laying.Alike (s.pruned.screen.root.place against width) (s.screen.root.place against width) ∨
        ¬width.InRange ∧ (∃ n ∈ s.screen.root.visibleNodes, n.insetsHidden = true) ∧
        (∃ e, (s.screen.root.place (δ := Float) against width).result = .error e) ∧
        ∃ e, (s.pruned.screen.root.place (δ := Float) against width).result = .error e) ∧
    (s.screen.root.UniqueIds → ∀ width : Option Number, ∃ f g : Focus,
      (Focus.compute s width).result = .ok f ∧ (Focus.compute s.pruned width).result = .ok g ∧
      g.sequence = f.sequence ∧ g.unreachable = f.unreachable ∧
      g.issues.map Issue.unplaced = f.issues.map Issue.unplaced) := by
  refine ⟨fun against width => ?_, fun unique width => ?_⟩
  · exact (Node.place_prune against shown width).imp_left Laying.Alike.of_eq
  · refine ⟨Focus.ofTree s.screen.root, Focus.ofTree s.screen.root.prune, ?_, ?_,
      Focus.ofTree_prune unique⟩
    · cases width with
      | none => simp [Focus.compute]
      | some w => simp [Focus.compute, Node.resolve_settled settled]
    · cases width with
      | none => simp [Focus.compute, pruned]
      | some w => simp [Focus.compute, pruned, Node.resolve_settled settled.prune]

/-- A box with a padding around a hidden text. -/
def insetBox : Node :=
  .box (.plain "page") (some (.length 8.0)) (some (.text (.hidden "note") ⟨"Note", none, none, none⟩))

theorem insetBox_settled : insetBox.Settled := by
  intro n hn
  rcases Node.mem_allNodes.mp hn with rfl | ⟨c, hc, hn⟩
  · rfl
  · obtain rfl := List.mem_singleton.mp hc
    rcases Node.mem_allNodes.mp hn with rfl | ⟨d, hd, -⟩
    · rfl
    · cases hd

theorem insetBox_unseen : insetBox.Settled ∧ insetBox.visible = true ∧ insetBox.UniqueIds ∧
    Laying.Alike (insetBox.prune.place Settings.standard.surface (.int 320))
      (insetBox.place Settings.standard.surface (.int 320)) ∧
    ∃ f g : Focus, (Focus.compute (.around insetBox) none).result = .ok f ∧
      (Focus.compute (Scaffold.around insetBox).pruned none).result = .ok g ∧
      g.sequence = f.sequence ∧ g.unreachable = f.unreachable ∧
      g.issues.map Issue.unplaced = f.issues.map Issue.unplaced := by
  have unique : insetBox.UniqueIds := by decide +kernel
  have inRange : (Number.int 320).InRange := Number.inRange_int (by decide +kernel)
  obtain ⟨layout, keyboard⟩ := Scaffold.prune_unseen (.around insetBox) insetBox_settled rfl
  refine ⟨insetBox_settled, rfl, unique, ?_, keyboard unique none⟩
  exact (layout Settings.standard.surface (.int 320)).resolve_right fun h => h.1 inRange

/-- Did a layout fail because a whole number is too large? -/
def isTooLarge {β : Type} : Except Failure β → Bool
  | .error (.calculation .tooLarge) => true
  | _ => false

/-- In a width beyond the range of doubles the box fails at the width for its child, hidden as this
    is; without it, at its own. -/
theorem insetBox_seen : insetBox.Settled ∧ insetBox.visible = true ∧ insetBox.UniqueIds ∧
    ¬Laying.Alike (insetBox.prune.place Settings.standard.surface (.int (10 ^ 400)))
      (insetBox.place Settings.standard.surface (.int (10 ^ 400))) := by
  refine ⟨insetBox_settled, rfl, by decide +kernel, fun alike => ?_⟩
  have with_child : isTooLarge
      (insetBox.place (δ := Float) Settings.standard.surface (.int (10 ^ 400))).result = true := by
    decide +kernel
  have without : isTooLarge
      (insetBox.prune.place (δ := Float) Settings.standard.surface (.int (10 ^ 400))).result =
        false := by
    decide +kernel
  rw [alike.result, with_child] at without
  cases without

end Wireframe
