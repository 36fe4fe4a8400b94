import Mathlib.Data.List.Perm.Basic
import Wireframe.Proofs.Hidden
import Wireframe.Proofs.Inside
import Wireframe.Proofs.Keyed

/-
  Wireframe.Proofs.Ancestors — what stands above a node, by its place and by the map of parents.

  A walk over the visible nodes and a walk over all nodes count the slots of a node alike, so the
  first is what is left of the second when every place is taken out that is hidden or stands inside
  of a hidden one.

  The map of parents goes by ids. Every node but the root is a child once, so where ids are unique
  the map has one entry for each of these and none for the root, and to follow it is to climb the
  tree. With two nodes of one id the map could lead round in a circle.

  Proved:
  - `mem_walkFrom_all`: a walk over all nodes lists its start and what stands inside of it.
  - `walkFrom_shown`: the walk over the visible nodes is the one over all, without what is not seen.
  - `children_perm`: the children of all nodes are all nodes but the root.
  - `parentId?_eq_some`: where ids are unique, the parent of an id is the one node that has a child
    with it.
  - `climb_of_below`, `below_of_climb`: to follow the map is to go up.
-/

namespace Wireframe

/-! ## Places in walks -/

namespace Located

/-- A place is visible, and so is every place that it stands inside of, up to the first one. -/
def Shown (top l : Located) : Prop :=
  l.node.visible = true ∧ ∀ m, l.Inside m → m = top ∨ m.Inside top → m.node.visible = true

theorem inside_iff {l m : Located} :
    m.Inside l ↔ ∃ s ∈ l.node.slots, m = l.under s ∨ m.Inside (l.under s) := by
  constructor
  · intro h
    cases h with
    | slot hs => exact ⟨_, hs, .inl rfl⟩
    | deeper hs inside => exact ⟨_, hs, .inr inside⟩
  · rintro ⟨s, hs, rfl | inside⟩
    · exact .slot hs
    · exact .deeper hs inside

/-- The place of a slot, and what is inside of it, has a pointer that begins with the slot. -/
theorem pointer_in_slot {l m : Located} {s : Slot} (h : m = l.under s ∨ m.Inside (l.under s)) :
    ∃ tokens, m.pointer = l.pointer ++ Pointer.build (s.tokens ++ tokens) := by
  rcases h with rfl | inside
  · refine ⟨[], ?_⟩
    rw [← under_pointer]
    exact String.append_empty.symm
  · obtain ⟨tokens, -, hp⟩ := inside.pointer
    exact ⟨tokens, by rw [hp, under_pointer]⟩

/-- Nothing stands in two slots of a node. -/
theorem slot_of_place {l m : Located} {s t : Slot} (hs : s ∈ l.node.slots) (ht : t ∈ l.node.slots)
    (first : m = l.under s ∨ m.Inside (l.under s)) (second : m = l.under t ∨ m.Inside (l.under t)) :
    s = t := by
  obtain ⟨us, hus⟩ := pointer_in_slot first
  obtain ⟨vs, hvs⟩ := pointer_in_slot second
  exact Node.slot_unique hs ht (Pointer.append_build_injective (hus.symm.trans hvs))

theorem Inside.ne {l m : Located} (h : m.Inside l) : m ≠ l := by
  rintro rfl
  obtain ⟨tokens, some, hp⟩ := h.pointer
  refine some (Pointer.append_build_injective (hp.symm.trans ?_))
  exact String.append_empty.symm

theorem Inside.trans {k l m : Located} (hm : m.Inside l) (hl : l.Inside k) : m.Inside k := by
  induction hl with
  | slot hs => exact .deeper hs hm
  | deeper hs _ ih => exact .deeper hs (ih hm)

/-- What is in a slot is seen exactly when the holder is visible and it is seen from the slot on. -/
theorem shown_slot {top l : Located} {s : Slot} (hs : s ∈ top.node.slots)
    (hl : l = top.under s ∨ l.Inside (top.under s)) :
    Shown top l ↔ top.node.visible = true ∧ Shown (top.under s) l := by
  have inside : l.Inside top := inside_iff.mpr ⟨s, hs, hl⟩
  constructor
  · rintro ⟨own, above⟩
    refine ⟨above top inside (.inl rfl), own, fun m hm from_slot => above m hm (.inr ?_)⟩
    exact inside_iff.mpr ⟨s, hs, from_slot⟩
  · rintro ⟨holder, own, above⟩
    refine ⟨own, fun m hm from_top => ?_⟩
    rcases from_top with rfl | from_top
    · exact holder
    · obtain ⟨t, ht, within⟩ := inside_iff.mp from_top
      have through : l = top.under t ∨ l.Inside (top.under t) := by
        rcases within with rfl | within
        · exact .inr hm
        · exact .inr (hm.trans within)
      obtain rfl := slot_of_place hs ht hl through
      exact above m hm within

end Located

namespace Node

theorem mem_walkFrom_all {n : Node} {p : String} {l : Located} :
    l ∈ n.walkFrom false p ↔ l = ⟨n, p⟩ ∨ l.Inside ⟨n, p⟩ := by
  induction n using byChildren generalizing p with
  | step n ih =>
    rw [mem_walkFrom, Located.inside_iff]
    constructor
    · rintro ⟨-, rfl | ⟨s, hs, hl⟩⟩
      · exact .inl rfl
      · exact .inr ⟨s, hs, (ih _ (slot_mem_children hs)).mp hl⟩
    · rintro (rfl | ⟨s, hs, hl⟩)
      · exact ⟨nofun, .inl rfl⟩
      · exact ⟨nofun, .inr ⟨s, hs, (ih _ (slot_mem_children hs)).mpr hl⟩⟩

open scoped Classical in
/-- The walk over the visible nodes is the walk over all nodes without the places that are not
    seen, in the same order and with the same pointers. -/
theorem walkFrom_shown (n : Node) (p : String) :
    n.walkFrom true p = (n.walkFrom false p).filter fun l => Located.Shown ⟨n, p⟩ l := by
  induction n using byChildren generalizing p with
  | step n ih =>
    have own : Located.Shown ⟨n, p⟩ ⟨n, p⟩ ↔ n.visible = true := by
      refine ⟨fun h => h.1, fun h => ⟨h, fun m hm from_top => ?_⟩⟩
      rcases from_top with rfl | inside
      · exact h
      · exact absurd rfl (hm.trans inside).ne
    rw [walkFrom_eq, walkFrom_eq false]
    cases hv : n.visible with
    | false =>
      symm
      simp only [Bool.not_false, Bool.and_true, if_true]
      refine List.filter_eq_nil_iff.mpr fun l hl => ?_
      rw [decide_eq_true_iff]
      rcases List.mem_cons.mp hl with rfl | hl
      · rw [own, hv]
        exact Bool.false_ne_true
      · obtain ⟨s, hs, hl⟩ := List.mem_flatMap.mp hl
        rw [Located.shown_slot hs (mem_walkFrom_all.mp hl)]
        intro h
        exact Bool.false_ne_true (hv.symm.trans h.1)
    | true =>
      simp only [Bool.not_true, Bool.and_false, if_false, Bool.false_eq_true]
      rw [List.filter_cons, if_pos (decide_eq_true (own.mpr hv)), List.filter_flatMap]
      refine congrArg (_ :: ·) (List.flatMap_congr fun s hs => ?_)
      refine (ih _ (slot_mem_children hs) _).trans (List.filter_congr fun l hl => ?_)
      have through := Located.shown_slot hs (mem_walkFrom_all.mp hl)
      rw [decide_eq_decide, through]
      exact ⟨fun h => ⟨hv, h⟩, fun h => h.2⟩

/-! ## Parents -/

/-- Every node of the tree is visible. -/
def AllShown (n : Node) : Prop := ∀ m ∈ n.allNodes, m.visible = true

instance (n : Node) : Decidable n.AllShown :=
  inferInstanceAs (Decidable (∀ m ∈ n.allNodes, m.visible = true))

theorem AllShown.child {n c : Node} (h : n.AllShown) (hc : c ∈ n.children) : c.AllShown :=
  fun m hm => h m (mem_allNodes.mpr (.inr ⟨c, hc, hm⟩))

theorem AllShown.visibleNodes_eq {n : Node} (h : n.AllShown) : n.visibleNodes = n.allNodes := by
  induction n using byChildren with
  | step n ih =>
    rw [Node.visibleNodes_eq, allNodes_eq, if_pos (h n n.mem_allNodes_self)]
    exact congrArg (n :: ·) (List.flatMap_congr fun c hc => ih c hc (h.child hc))

/-- Every node but the root is a child once. -/
theorem children_perm (n : Node) :
    (n.allNodes.flatMap (·.children)).Perm (n.children.flatMap allNodes) := by
  induction n using byChildren with
  | step n ih =>
    have below : (n.children.flatMap fun c => c.allNodes.flatMap (·.children)).Perm
        (n.children.flatMap fun c => c.children.flatMap allNodes) :=
      .flatMap_left _ fun c hc => ih c hc
    rw [allNodes_eq, List.flatMap_cons, List.flatMap_assoc]
    refine (below.append_left n.children).trans ?_
    have interleaved := List.map_append_flatMap_perm n.children (fun c => c)
      fun c => c.children.flatMap allNodes
    rw [List.map_id'] at interleaved
    refine interleaved.trans (.of_eq (List.flatMap_congr fun c _ => ?_))
    exact c.allNodes_eq.symm

/-- The root is no child, and none has its id. -/
theorem UniqueIds.child_ne_root {root n c : Node} (unique : root.UniqueIds) (hn : n ∈ root.allNodes)
    (hc : c ∈ n.children) : c.id ≠ root.id := by
  intro same
  have below : c.id ∈ (root.children.flatMap allNodes).map (·.id) :=
    (root.children_perm.map _).subset
      (List.mem_map_of_mem (List.mem_flatMap.mpr ⟨n, hn, hc⟩))
  rw [UniqueIds, allNodes_eq, List.map_cons] at unique
  exact (List.nodup_cons.mp unique).1 (same ▸ below)

/-- The id of the parent of the visible node with an id, by the map of parents. -/
def parentId? (root : Node) (id : String) : Option String :=
  (Keyed.get? root.parents id).map (·.id)

/-- The id that the map of parents leads to in so many steps. -/
def climb (root : Node) : Nat → String → Option String
  | 0, id => some id
  | k + 1, id => (root.climb k id).bind root.parentId?

section

variable {root : Node} (unique : root.UniqueIds) (shown : root.AllShown)
include unique shown

omit shown in
theorem childIds_nodup :
    ((root.allNodes.flatMap fun n => n.children.map fun c => (c.id, n)).map (·.1)).Nodup := by
  have keys : ((root.allNodes.flatMap fun n => n.children.map fun c => (c.id, n)).map (·.1)) =
      (root.allNodes.flatMap (·.children)).map (·.id) := by
    simp only [List.map_flatMap, List.map_map, Function.comp_def]
  rw [keys]
  refine (root.children_perm.map (·.id)).nodup_iff.mpr ?_
  rw [UniqueIds, allNodes_eq, List.map_cons] at unique
  exact (List.nodup_cons.mp unique).2

theorem parents_eq :
    root.parents = root.allNodes.flatMap fun n => n.children.map fun c => (c.id, n) := by
  have entries : (root.visibleNodes.flatMap fun n =>
      (n.children.filter (·.visible)).map fun c => (c.id, n)) =
        root.allNodes.flatMap fun n => n.children.map fun c => (c.id, n) := by
    rw [shown.visibleNodes_eq]
    refine List.flatMap_congr fun n hn => ?_
    rw [List.filter_eq_self.mpr fun c hc =>
      shown c (mem_allNodes_trans hn (mem_allNodes_child hc))]
  rw [parents, entries]
  exact Keyed.ofList_of_nodup (childIds_nodup unique)

theorem parentId?_eq_some {id parent : String} :
    root.parentId? id = some parent ↔
      ∃ n ∈ root.allNodes, n.id = parent ∧ ∃ c ∈ n.children, c.id = id := by
  rw [parentId?, Option.map_eq_some_iff, parents_eq unique shown]
  have known : ∀ n, Keyed.get? (root.allNodes.flatMap fun n => n.children.map fun c => (c.id, n)) id =
      some n ↔ n ∈ root.allNodes ∧ ∃ c ∈ n.children, c.id = id := by
    intro n
    rw [Keyed.get?_eq_some_of_nodup (childIds_nodup unique)]
    simp only [List.mem_flatMap, List.mem_map, Prod.mk.injEq]
    constructor
    · rintro ⟨m, hm, c, hc, same, rfl⟩
      exact ⟨hm, c, hc, same⟩
    · rintro ⟨hn, c, hc, same⟩
      exact ⟨n, hn, c, hc, same, rfl⟩
  simp only [known]
  constructor
  · rintro ⟨n, ⟨hn, below⟩, rfl⟩
    exact ⟨n, hn, rfl, below⟩
  · rintro ⟨n, hn, rfl, below⟩
    exact ⟨n, ⟨hn, below⟩, rfl⟩

theorem parentId?_child {n c : Node} (hn : n ∈ root.allNodes) (hc : c ∈ n.children) :
    root.parentId? c.id = some n.id :=
  (parentId?_eq_some unique shown).mpr ⟨n, hn, rfl, c, hc, rfl⟩

/-- No node has the root for its child. -/
theorem parentId?_root : root.parentId? root.id = none := by
  rw [Option.eq_none_iff_forall_ne_some]
  intro parent h
  obtain ⟨n, hn, -, c, hc, same⟩ := (parentId?_eq_some unique shown).mp h
  exact unique.child_ne_root hn hc same

/-! ## The way up -/

/-- From whatever is below a node the map leads up to it. -/
theorem climb_of_below {n : Node} (hn : n ∈ root.allNodes) {m : Node}
    (hm : ∃ c ∈ n.children, m ∈ c.allNodes) : ∃ k, root.climb (k + 1) m.id = some n.id := by
  induction n using byChildren with
  | step n ih =>
    obtain ⟨c, hc, hm⟩ := hm
    have up := parentId?_child unique shown hn hc
    rcases mem_allNodes.mp hm with rfl | deeper
    · exact ⟨0, up⟩
    · obtain ⟨k, hk⟩ := ih c hc (mem_allNodes_trans hn (mem_allNodes_child hc)) deeper
      refine ⟨k + 1, ?_⟩
      rw [climb, hk, Option.bind_some, up]

/-- The map leads from an id to a node only when the id is below it. -/
theorem below_of_climb {k : Nat} {n : Node} {id : String} (hn : n ∈ root.allNodes)
    (h : root.climb (k + 1) id = some n.id) : ∃ c ∈ n.children, ∃ m ∈ c.allNodes, m.id = id := by
  induction k generalizing n with
  | zero =>
    obtain ⟨m, hm, same, c, hc, rfl⟩ := (parentId?_eq_some unique shown).mp h
    obtain rfl := unique.eq_of_id hm hn same
    exact ⟨c, hc, c, c.mem_allNodes_self, rfl⟩
  | succ k ih =>
    rw [climb, Option.bind_eq_some_iff] at h
    obtain ⟨below, hk, h⟩ := h
    obtain ⟨m, hm, same, c, hc, rfl⟩ := (parentId?_eq_some unique shown).mp h
    obtain rfl := unique.eq_of_id hm hn same
    obtain ⟨d, hd, j, hj, rfl⟩ := ih (mem_allNodes_trans hn (mem_allNodes_child hc)) hk
    exact ⟨c, hc, j, mem_allNodes.mpr (.inr ⟨d, hd, hj⟩), rfl⟩

end

theorem hasBelow_iff {n : Node} {id : String} :
    n.hasBelow id = true ↔ ∃ c ∈ n.children, ∃ m ∈ c.allNodes, m.id = id := by
  rw [hasBelow, allNodes_eq, List.drop_succ_cons, List.drop_zero, List.any_flatMap]
  simp only [List.any_eq_true, beq_iff_eq]

end Node

open scoped Classical in
/-- The walk over the visible nodes of a tree, from any pointer, is the walk over all nodes without
    the places that are hidden or stand inside of a hidden one, in the same order and with the same
    pointers. And where all nodes are visible and ids are unique, an id is below a node exactly when
    the map of parents leads from it to the node in one or more steps; and from every node it leads
    to the root, and there it ends. -/
theorem Node.walks_and_parents_agree (root : Node) :
    (∀ p, root.walkFrom true p =
      (root.walkFrom false p).filter fun l => Located.Shown ⟨root, p⟩ l) ∧
    (root.UniqueIds → root.AllShown →
      (∀ n ∈ root.allNodes, ∀ id,
        n.hasBelow id = true ↔ ∃ k, root.climb (k + 1) id = some n.id) ∧
      ∀ n ∈ root.allNodes, ∃ k, root.climb k n.id = some root.id ∧
        root.climb (k + 1) n.id = none) := by
  refine ⟨root.walkFrom_shown, fun unique shown => ⟨fun n hn id => ?_, fun n hn => ?_⟩⟩
  · rw [hasBelow_iff]
    constructor
    · rintro ⟨c, hc, m, hm, rfl⟩
      exact climb_of_below unique shown hn ⟨c, hc, hm⟩
    · rintro ⟨k, hk⟩
      exact below_of_climb unique shown hn hk
  · have top := parentId?_root unique shown
    rcases mem_allNodes.mp hn with rfl | below
    · exact ⟨0, rfl, top⟩
    · obtain ⟨k, hk⟩ := climb_of_below unique shown root.mem_allNodes_self below
      refine ⟨k + 1, hk, ?_⟩
      rw [climb, hk, Option.bind_some, top]

/-- A row of buttons in a box, and a form beside it. -/
def Node.deskRoot : Node :=
  .plainStack "desk" .vertical
    [.box (.plain "tray") none
        (some (.plainStack "row" .horizontal [.plainButton "keep" "Keep", .plainButton "drop" "Drop"])),
      .form (.plain "note") ⟨none, none⟩ [.field (.plain "line") ⟨"Line", none, none, none, none⟩]
        [.plainButton "send" "Send"]]

theorem Node.deskRoot_agrees : deskRoot.UniqueIds ∧ deskRoot.AllShown ∧
    (∀ n ∈ deskRoot.allNodes, ∀ id,
      n.hasBelow id = true ↔ ∃ k, deskRoot.climb (k + 1) id = some n.id) ∧
    ∀ n ∈ deskRoot.allNodes, ∃ k, deskRoot.climb k n.id = some "desk" ∧
      deskRoot.climb (k + 1) n.id = none := by
  have unique : deskRoot.UniqueIds := by decide +kernel
  have shown : deskRoot.AllShown := by decide +kernel
  obtain ⟨below, up⟩ := deskRoot.walks_and_parents_agree.2 unique shown
  exact ⟨unique, shown, below, up⟩

/-- Two nodes of one id lead round in a circle. -/
example : (Node.plainStack "loop" .vertical [.plainStack "loop" .vertical []]).climb 7 "loop" =
    some "loop" := by decide

end Wireframe
