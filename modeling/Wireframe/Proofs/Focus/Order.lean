import Wireframe.Focus.Order
import Wireframe.Proofs.Hidden
import Wireframe.Proofs.Order
import Wireframe.Proofs.Plain
import Wireframe.Proofs.Result
import Wireframe.Proofs.Trail

/-
  Wireframe.Proofs.Focus.Order — the order of the keyboard, and what it leaves out.

  The nodes that take the focus are split by their index: those above zero are sorted, those at zero
  stay as they are, and those below are in no order. What is left out is looked up by id among the
  ids in order, so ids have to tell the visible nodes apart; otherwise a node without a place would
  be taken for reached because another one with its id is.

  Proved:
  - `ranked_mergeSort`: sorting by the index keeps the order of nodes with the same index.
  - `unreachable_eq`: what no key reaches are the nodes with a negative index.
  - `compute_result`: the keyboard makes of a screen what it makes of the tree that is seen.
  - `focus_partitioned`: the order and what it leaves out, with an issue for each that is left out.
-/

namespace Wireframe

namespace Node

variable {root : Node}

/-! ## Sorting -/

/-- The nodes by their index, and where it is the same in the order in which they were. -/
structure Ranked (nodes ordered : List Node) : Prop where
  perm : ordered.Perm nodes
  sorted : ordered.Pairwise fun a b => a.focusIndex ≤ b.focusIndex
  ties : ∀ k, (ordered.filter fun n => n.focusIndex = k) = nodes.filter fun n => n.focusIndex = k

theorem ranked_mergeSort (nodes : List Node) :
    Ranked nodes (nodes.mergeSort fun a b => a.focusIndex ≤ b.focusIndex) := by
  refine ⟨List.mergeSort_perm nodes _, ?_, filter_mergeSort focusIndex nodes⟩
  have sorted := List.pairwise_mergeSort (mergeSort_trans focusIndex) (mergeSort_total focusIndex)
    nodes
  simpa only [decide_eq_true_eq] using sorted

/-! ## What is reached -/

theorem focusOrder_eq (root : Node) :
    ∃ indexed, Ranked (root.focusable.filter fun n => 0 < n.focusIndex) indexed ∧
      root.focusOrder =
        (indexed ++ root.focusable.filter fun n => n.focusIndex = 0).map (·.id) :=
  ⟨_, ranked_mergeSort _, by rw [List.map_append]; rfl⟩

/-- The nodes in the order are those with an index from zero on. -/
theorem mem_ordered {nodes indexed : List Node} {n : Node}
    (ranked : Ranked (nodes.filter fun n => 0 < n.focusIndex) indexed) :
    n ∈ indexed ++ nodes.filter (fun n => n.focusIndex = 0) ↔ n ∈ nodes ∧ 0 ≤ n.focusIndex := by
  simp only [List.mem_append, ranked.perm.mem_iff, List.mem_filter, decide_eq_true_eq]
  constructor
  · rintro (⟨hn, h⟩ | ⟨hn, h⟩)
    · exact ⟨hn, by omega⟩
    · exact ⟨hn, by omega⟩
  · rintro ⟨hn, h⟩
    by_cases zero : n.focusIndex = 0
    · exact .inr ⟨hn, zero⟩
    · exact .inl ⟨hn, by omega⟩

theorem focusable_unique (unique : root.UniqueShown) : (root.focusable.map (·.id)).Nodup :=
  unique.sublist (List.filter_sublist.map _)

/-- The id of a node that takes the focus is in the order exactly when its index is not negative. -/
theorem id_mem_focusOrder (unique : root.UniqueShown) {n : Node} (hn : n ∈ root.focusable) :
    n.id ∈ root.focusOrder ↔ 0 ≤ n.focusIndex := by
  obtain ⟨indexed, ranked, order⟩ := root.focusOrder_eq
  rw [order, List.mem_map]
  constructor
  · rintro ⟨m, hm, same⟩
    obtain ⟨hm, index⟩ := (mem_ordered ranked).mp hm
    rwa [← List.inj_on_of_nodup_map (focusable_unique unique) hm hn same]
  · intro index
    exact ⟨n, (mem_ordered ranked).mpr ⟨hn, index⟩, rfl⟩

theorem unreachable_eq (unique : root.UniqueShown) :
    root.unreachable = (root.focusable.filter fun n => n.focusIndex < 0).map (·.id) := by
  rw [unreachable, focusableIds, List.filter_map]
  refine congrArg _ (List.filter_congr fun n hn => ?_)
  have reached := id_mem_focusOrder unique hn
  rw [Function.comp_apply, Bool.eq_iff_iff, Bool.not_eq_true', ← Bool.not_eq_true,
    List.contains_iff_mem, reached, decide_eq_true_eq]
  omega

/-- The nodes in the order and those left out are together the nodes that take the focus. -/
theorem ordered_perm {nodes indexed : List Node}
    (ranked : Ranked (nodes.filter fun n => 0 < n.focusIndex) indexed) :
    ((indexed ++ nodes.filter fun n => n.focusIndex = 0) ++
      nodes.filter fun n => n.focusIndex < 0).Perm nodes := by
  have level : (nodes.filter fun n => ¬0 < n.focusIndex).filter (fun n => n.focusIndex = 0) =
      nodes.filter fun n => n.focusIndex = 0 := by
    rw [List.filter_filter]
    refine List.filter_congr fun n _ => ?_
    rw [Bool.eq_iff_iff]
    simp only [Bool.and_eq_true, decide_eq_true_eq]
    omega
  have negative : (nodes.filter fun n => ¬0 < n.focusIndex).filter
      (fun n => !decide (n.focusIndex = 0)) = nodes.filter fun n => n.focusIndex < 0 := by
    rw [List.filter_filter]
    refine List.filter_congr fun n _ => ?_
    rw [Bool.eq_iff_iff]
    simp only [Bool.and_eq_true, Bool.not_eq_true', decide_eq_true_eq, decide_eq_false_iff_not]
    omega
  have rest := List.filter_append_perm (fun n => decide (n.focusIndex = 0))
    (nodes.filter fun n => ¬0 < n.focusIndex)
  rw [level, negative] at rest
  rw [List.append_assoc]
  refine (ranked.perm.append rest).trans ?_
  have split := List.filter_append_perm (fun n : Node => decide (0 < n.focusIndex)) nodes
  simpa only [decide_not] using split

end Node

/-! ## Issues -/

/-- The issues of forms are two, and neither tells of a node that no key reaches. -/
theorem FormFlow.issues_named {root : Node} {i : Issue} (hi : i ∈ FormFlow.issues root) :
    (i.id = "cancel-before-primary" ∧ i.severity = .warn) ∨
      (i.id = "field-after-actions" ∧ i.severity = .error) := by
  obtain ⟨form, -, hi⟩ := List.mem_flatMap.mp hi
  rcases List.mem_append.mp hi with hi | hi
  · obtain ⟨_, -, rfl⟩ := Option.map_eq_some_iff.mp (Option.mem_toList.mp hi)
    exact .inl ⟨rfl, rfl⟩
  · obtain ⟨_, -, rfl⟩ := Option.map_eq_some_iff.mp (Option.mem_toList.mp hi)
    exact .inr ⟨rfl, rfl⟩

namespace Focus

/-- The tree of a screen that is seen: at a width of the viewport, or as it is written. -/
def seen (s : Scaffold) : Option Number → Except Failure Node
  | some w => (s.screen.root.resolve w).result
  | none => .ok s.screen.root

theorem compute_result (s : Scaffold) (width : Option Number) :
    (compute s width).result = (seen s width).map ofTree := by
  cases width with
  | none => rfl
  | some w =>
    simp only [compute, seen, Trail.result_bind, Trail.result_note, Trail.result_pure]
    cases (s.screen.root.resolve w).result with
    | ok root => rfl
    | error e => rfl

/-- The order of a tree, and what it leaves out. -/
structure Partitions (f : Focus) (root : Node) : Prop where
  /-- First come the nodes with a positive index, by the index, then those with index zero. -/
  sequence : ∃ indexed, Node.Ranked (root.focusable.filter fun n => 0 < n.focusIndex) indexed ∧
    f.sequence = (indexed ++ root.focusable.filter fun n => n.focusIndex = 0).map (·.id)
  once : f.sequence.Nodup
  /-- In document order. -/
  unreachable : f.unreachable = (root.focusable.filter fun n => n.focusIndex < 0).map (·.id)
  apart : f.sequence.Disjoint f.unreachable
  together : (f.sequence ++ f.unreachable).Perm root.focusableIds
  /-- Every node that is left out has one critical issue, in their order and before the forms'. -/
  issues : ∃ alarms, f.issues = alarms ++ FormFlow.issues root ∧
    alarms.map (·.nodeId) = f.unreachable.map (fun id => some (some id)) ∧
    (∀ i ∈ alarms, i.id = "unreachable" ∧ i.severity = .critical) ∧
    ∀ i ∈ FormFlow.issues root, i.id ≠ "unreachable" ∧ i.severity ≠ .critical

theorem ofTree_partitions {root : Node} (unique : root.UniqueShown) :
    (ofTree root).Partitions root := by
  obtain ⟨indexed, ranked, order⟩ := root.focusOrder_eq
  have negative := Node.unreachable_eq unique
  have together : (root.focusOrder ++ root.unreachable).Perm root.focusableIds := by
    rw [order, negative, ← List.map_append]
    exact (Node.ordered_perm ranked).map _
  have distinct : (root.focusOrder ++ root.unreachable).Nodup :=
    together.nodup_iff.mpr (Node.focusable_unique unique)
  exact {
    sequence := ⟨indexed, ranked, order⟩
    once := distinct.of_append_left
    unreachable := negative
    apart := List.disjoint_of_nodup_append distinct
    together := together
    issues := by
      refine ⟨root.unreachable.map (unreachableIssue root.pointers), rfl, ?_, ?_, ?_⟩
      · rw [List.map_map]
        rfl
      · intro i hi
        obtain ⟨id, -, rfl⟩ := List.mem_map.mp hi
        exact ⟨rfl, rfl⟩
      · intro i hi
        rcases FormFlow.issues_named hi with ⟨name, severity⟩ | ⟨name, severity⟩
        · rw [name, severity]; decide
        · rw [name, severity]; decide }

end Focus

/-- Where the visible nodes of the tree that is seen have different ids, the keyboard comes to the
    order of this tree and to what the order leaves out. -/
theorem focus_partitioned {s : Scaffold} {width : Option Number} {root : Node}
    (seen : Focus.seen s width = .ok root) (unique : root.UniqueShown) :
    ∃ f, (Focus.compute s width).result = .ok f ∧ f.sequence = root.focusOrder ∧
      f.Partitions root := by
  refine ⟨Focus.ofTree root, ?_, rfl, Focus.ofTree_partitions unique⟩
  rw [Focus.compute_result, seen]
  rfl

/-- The header of a node with an index. -/
def Header.indexed (id : String) (index : Int) : Header :=
  { Header.plain id with tabIndex := some index, given := ["id", "tabIndex"] }

/-- Buttons with an index and without one, another in a hidden stack, and a text that on narrow
    screens takes the focus, though no key reaches it. -/
def ringRoot : Node :=
  .plainStack "page" .vertical
    [.button (.indexed "late" 3) ⟨"Late", none⟩, .plainButton "plain" "Plain",
      .text (.cascading "note" [("<=600", some [("focusable", .bool true), ("tabIndex", .int (-1))])])
        ⟨"Note", none, none, none⟩,
      .stack (.hidden "off") ⟨.vertical, none, none, .start, false⟩
        [.button (.indexed "dark" 1) ⟨"Dark", none⟩],
      .button (.indexed "soon" 1) ⟨"Soon", none⟩, .button (.indexed "tie" 3) ⟨"Tie", none⟩]

theorem ringRoot_partitioned : ∃ root f, Focus.seen (.around ringRoot) (some (.int 320)) = .ok root ∧
    root.UniqueIds ∧ root.focusableIds = ["late", "plain", "note", "soon", "tie"] ∧
    (Focus.compute (.around ringRoot) (some (.int 320))).result = .ok f ∧
    f.sequence = root.focusOrder ∧ f.Partitions root := by
  have told : ((Focus.seen (.around ringRoot) (some (.int 320))).map fun root =>
      (decide root.UniqueIds, root.focusableIds)).toOption =
      some (true, ["late", "plain", "note", "soon", "tie"]) := by
    decide +kernel
  obtain ⟨root, seen, told⟩ := Result.map_toOption_eq_some.mp told
  obtain ⟨unique, ids⟩ := Prod.mk.inj told
  have unique : root.UniqueIds := of_decide_eq_true unique
  obtain ⟨f, hf, order, partitions⟩ := focus_partitioned seen unique.shown
  exact ⟨root, f, seen, unique, ids, hf, order, partitions⟩

end Wireframe
