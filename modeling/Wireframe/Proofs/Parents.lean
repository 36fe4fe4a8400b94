import Wireframe.Proofs.Order

/-
  Wireframe.Proofs.Parents — the visible node that holds a visible one.

  The map of parents goes by ids and is filled on a walk over the visible nodes, so it has no entry
  for a child that is hidden and none for what a hidden node holds. That does no harm to visible
  nodes: whatever is visible in a tree and is not its root stands in a slot of something visible.
  With ids that are not unique the map may tell the parent of another node, and the root may have
  one.

  Proved:
  - `UniqueIds.parent_unique`: a node is a child of one node.
  - `exists_parent`: every visible node but the root is a visible child of a visible node.
  - `shownChildren_sublist`: the visible children of a node are in the walk in their order.
  - `parentId?_iff`: the map tells of a visible node the one whose visible child it is.
-/

namespace Wireframe.Node

variable {root : Node} {l p q : Located}

/-! ## One parent -/

theorem UniqueIds.parent_unique (unique : root.UniqueIds) {m n c d : Node} (hm : m ∈ root.allNodes)
    (hn : n ∈ root.allNodes) (hc : c ∈ m.children) (hd : d ∈ n.children) (same : c.id = d.id) :
    m = n := by
  have entry : ∀ {k e : Node}, k ∈ root.allNodes → e ∈ k.children →
      (e.id, k) ∈ root.allNodes.flatMap fun k => k.children.map fun e => (e.id, k) :=
    fun hk he => List.mem_flatMap.mpr ⟨_, hk, List.mem_map_of_mem he⟩
  have equal := List.inj_on_of_nodup_map (childIds_nodup unique) (entry hm hc) (entry hn hd) same
  exact (Prod.mk.inj equal).2

/-! ## Visible children -/

theorem mem_shownChildren {s : Slot} (hs : s ∈ p.node.slots) (hv : s.node.visible = true) :
    p.under s ∈ p.shownChildren :=
  List.mem_filter.mpr ⟨List.mem_map_of_mem hs, hv⟩

theorem child_of_mem_shownChildren (h : l ∈ p.shownChildren) : l.node ∈ p.node.children := by
  have node := List.mem_map_of_mem (f := (·.node)) h
  rw [Located.shownChildren_nodes] at node
  exact List.mem_of_mem_filter node

/-- Whatever is visible in a walk and is not its start is a visible child in it. -/
theorem exists_parent {n : Node} {pointer : String} (h : l ∈ n.walkFrom true pointer) :
    l = ⟨n, pointer⟩ ∨ ∃ p ∈ n.walkFrom true pointer, l ∈ p.shownChildren := by
  induction n using byChildren generalizing pointer with
  | step n ih =>
    obtain ⟨hv, rfl | ⟨s, hs, hl⟩⟩ := mem_walkFrom.mp h
    · exact .inl rfl
    · right
      rcases ih _ (slot_mem_children hs) hl with rfl | ⟨p, hp, child⟩
      · exact ⟨⟨n, pointer⟩, mem_walkFrom_self hv, mem_shownChildren hs (visible_of_mem hl)⟩
      · exact ⟨p, mem_walkFrom.mpr ⟨hv, .inr ⟨s, hs, hp⟩⟩, child⟩

theorem walk_nodup (root : Node) : root.walk.Nodup :=
  .of_map _ (root.pointers_nodup true rootPointer)

/-- The walk from a place of a walk is a part of it in the same order. -/
theorem subtree_sublist {n : Node} {pointer : String} (h : p ∈ n.walkFrom true pointer) :
    p.subtree.Sublist (n.walkFrom true pointer) := by
  induction n using byChildren generalizing pointer with
  | step n ih =>
    obtain ⟨hv, rfl | ⟨s, hs, hp⟩⟩ := mem_walkFrom.mp h
    · exact .refl _
    · refine (ih _ (slot_mem_children hs) hp).trans ?_
      have slot := (List.singleton_sublist.mpr hs).flatMap fun s =>
        (Located.under ⟨n, pointer⟩ s).subtree
      rw [List.flatMap_singleton] at slot
      rw [walkFrom_eq _ _ n, if_neg (by simp [hv rfl])]
      exact slot.cons _

/-- The visible children of a visible node stand in the walk in their order. -/
theorem shownChildren_sublist (hp : p ∈ root.walk) : p.shownChildren.Sublist root.walk := by
  have single : p.shownChildren.flatMap (fun c => [c]) = p.shownChildren := by simp
  have own : (p.shownChildren.flatMap fun c => [c]).Sublist (p.shownChildren.flatMap (·.subtree)) :=
    .flatMap_right _ fun c hc => List.singleton_sublist.mpr
      (mem_walkFrom_self fun _ => (List.mem_filter.mp hc).2)
  have slots : (p.shownChildren.flatMap (·.subtree)).Sublist
      ((p.node.slots.map p.under).flatMap (·.subtree)) := List.filter_sublist.flatMap _
  rw [single] at own
  refine (own.trans slots).trans (.trans ?_ (subtree_sublist hp))
  rw [Located.subtree, walkFrom_eq, if_neg (by simp [visible_of_mem hp]), List.flatMap_map]
  exact List.sublist_cons_self _ _

/-! ## The map of parents -/

section

variable (unique : root.UniqueIds)
include unique

/-- A visible node is a visible child of one visible node. -/
theorem shownParent_unique (hp : p ∈ root.walk) (hq : q ∈ root.walk) (inp : l ∈ p.shownChildren)
    (inq : l ∈ q.shownChildren) : p = q := by
  have same := unique.parent_unique (node_mem_allNodes hp) (node_mem_allNodes hq)
    (child_of_mem_shownChildren inp) (child_of_mem_shownChildren inq) rfl
  exact unique.shown.located_eq hp hq (congrArg id same)

omit unique in
/-- What the map tells is a visible node with a child of the id. -/
theorem mem_of_parentId? {id parent : String} (h : root.parentId? id = some parent) :
    ∃ n ∈ root.visibleNodes, n.id = parent ∧ ∃ c ∈ n.children, c.id = id := by
  obtain ⟨n, found, rfl⟩ := Option.map_eq_some_iff.mp h
  rw [parents, Keyed.get?_ofList] at found
  obtain ⟨e, he, rfl⟩ := Option.map_eq_some_iff.mp found
  obtain ⟨n, hn, entry⟩ := List.mem_flatMap.mp (List.mem_reverse.mp (List.mem_of_find?_eq_some he))
  obtain ⟨c, hc, rfl⟩ := List.mem_map.mp entry
  exact ⟨n, hn, rfl, c, List.mem_of_mem_filter hc, eq_of_beq (List.find?_some he :)⟩

theorem parentId?_top : root.parentId? root.id = none := by
  rw [Option.eq_none_iff_forall_ne_some]
  intro parent h
  obtain ⟨n, hn, -, c, hc, same⟩ := mem_of_parentId? h
  exact unique.child_ne_root (root.visibleNodes_subset hn) hc same

theorem parentId?_shown (hp : p ∈ root.walk) (hl : l ∈ p.shownChildren) :
    root.parentId? l.node.id = some p.node.id := by
  have entry : (l.node.id, p.node) ∈ root.visibleNodes.flatMap fun n =>
      (n.children.filter (·.visible)).map fun c => (c.id, n) := by
    refine List.mem_flatMap.mpr ⟨p.node, List.mem_map_of_mem hp, ?_⟩
    rw [← p.shownChildren_nodes, List.map_map]
    exact List.mem_map_of_mem (f := fun l : Located => (l.node.id, p.node)) hl
  obtain ⟨n, found, -⟩ := Keyed.exists_get?_ofList entry
  have told : root.parentId? l.node.id = some n.id := by rw [parentId?, parents, found]; rfl
  obtain ⟨m, hm, same, c, hc, alike⟩ := mem_of_parentId? told
  have parent := unique.parent_unique (root.visibleNodes_subset hm)
    (node_mem_allNodes hp) hc (child_of_mem_shownChildren hl) alike
  rw [told, ← same, parent]

/-- The map of parents tells of a visible node the one whose visible child it is. -/
theorem parentId?_iff (hp : p ∈ root.walk) (hl : l ∈ root.walk) :
    root.parentId? l.node.id = some p.node.id ↔ l ∈ p.shownChildren := by
  refine ⟨fun told => ?_, parentId?_shown unique hp⟩
  rcases exists_parent hl with rfl | ⟨q, hq, child⟩
  · rw [parentId?_top unique] at told
    cases told
  · rw [parentId?_shown unique hq child] at told
    rwa [unique.shown.located_eq hq hp (Option.some.inj told)] at child

end

end Wireframe.Node
