import Wireframe.Node.Tree
import Mathlib.Data.List.Basic

/-
  Wireframe.Proofs.Walk — walks, told by the slots of a node and by its children, whatever its kind.

  Proved:
  - `byChildren`: what passes from the children of a node to the node holds of every node.
  - `walkFrom_eq`: a walk lists the node, then the walks from its slots in order.
  - `visibleNodes_eq` / `allNodes_eq`: the same by the children of the node; a walk over the visible
    nodes lists nothing from a hidden node down.
  - `mem_walkFrom_trans`: the walk from a node of a walk is part of it.
-/

namespace Wireframe.Node

/-! ## Induction over the children -/

theorem sizeOf_child_lt {n c : Node} (h : c ∈ n.children) : sizeOf c < sizeOf n := by
  cases n with
  | stack hd s cs =>
    have : sizeOf c < sizeOf cs := List.sizeOf_lt_of_mem h
    simp only [stack.sizeOf_spec]; omega
  | grid hd g cs =>
    have : sizeOf c < sizeOf cs := List.sizeOf_lt_of_mem h
    simp only [grid.sizeOf_spec]; omega
  | box hd p child =>
    cases Option.mem_toList.mp h
    simp only [box.sizeOf_spec, Option.some.sizeOf_spec]; omega
  | form hd f fs as =>
    simp only [form.sizeOf_spec]
    rcases List.mem_append.mp h with hf | ha
    · have := List.sizeOf_lt_of_mem hf; omega
    · have := List.sizeOf_lt_of_mem ha; omega
  | text | button | field | table => cases h

/-- What holds of a node as soon as it holds of its children holds of every node. -/
@[elab_as_elim] theorem byChildren {P : Node → Prop}
    (step : ∀ n : Node, (∀ c ∈ n.children, P c) → P n) (n : Node) : P n :=
  step n fun c _ => byChildren step c
termination_by sizeOf n
decreasing_by exact sizeOf_child_lt ‹_›

/-! ## Slots -/

theorem listSlots_nodes (name : String) (nodes : List Node) :
    (listSlots name nodes).map (·.node) = nodes := by
  simp only [listSlots, List.map_map, Function.comp_def]
  exact List.zipIdx_map_fst 0 nodes

theorem slots_nodes (n : Node) : n.slots.map (·.node) = n.children := by
  cases n with
  | stack hd s cs => exact listSlots_nodes _ cs
  | grid hd g cs => exact listSlots_nodes _ cs
  | box hd p c => cases c <;> rfl
  | form hd f fs as =>
    simp only [slots, List.map_append, listSlots_nodes, children]
  | text | button | field | table => rfl

theorem slot_mem_children {n : Node} {s : Slot} (h : s ∈ n.slots) : s.node ∈ n.children :=
  slots_nodes n ▸ List.mem_map_of_mem h

theorem listSlots_from (name : String) (n : Node) (ns : List Node) (i : Nat) :
    ((n :: ns).zipIdx i).map (fun (m, j) => (⟨name, some j, m⟩ : Slot)) =
      ⟨name, some i, n⟩ :: (ns.zipIdx (i + 1)).map fun (m, j) => ⟨name, some j, m⟩ := rfl

/-! ## Walks through slots -/

theorem walkItems_eq (b : Bool) (p slot : String) (holder : Node) (ns : List Node) :
    ∀ i, walkItems b p slot i ns =
      ((ns.zipIdx i).map fun (m, j) => (⟨slot, some j, m⟩ : Slot)).flatMap fun s =>
        ((⟨holder, p⟩ : Located).under s).node.walkFrom b ((⟨holder, p⟩ : Located).under s).pointer := by
  induction ns with
  | nil => intro i; rfl
  | cons n rest ih =>
    intro i
    rw [listSlots_from, List.flatMap_cons, ← ih (i + 1)]
    rfl

/-- A walk lists the node where it stands, then what the walks from its slots list. -/
theorem walkFrom_eq (b : Bool) (p : String) (n : Node) : n.walkFrom b p =
    if b && !n.visible then [] else
      ⟨n, p⟩ :: n.slots.flatMap fun s =>
        ((⟨n, p⟩ : Located).under s).node.walkFrom b ((⟨n, p⟩ : Located).under s).pointer := by
  conv =>
    lhs
    unfold walkFrom
  split
  · rfl
  cases n with
  | stack hd s cs => exact congrArg (_ :: ·) (walkItems_eq b p "children" _ cs 0)
  | grid hd g cs => exact congrArg (_ :: ·) (walkItems_eq b p "children" _ cs 0)
  | box hd pad c =>
    cases c with
    | none => rfl
    | some c => simp [slots, Located.under]
  | form hd f fs as =>
    simp only [slots, List.flatMap_append, listSlots]
    rw [walkItems_eq b p "fields" (form hd f fs as) fs 0,
      walkItems_eq b p "actions" (form hd f fs as) as 0]
  | text | button | field | table => rfl

/-! ## The nodes of a walk -/

/-- The nodes that a walk lists, without their pointers. -/
def nodesBelow (visibleOnly : Bool) (n : Node) : List Node :=
  (n.walkFrom visibleOnly rootPointer).map (·.node)

theorem walkFrom_nodes_eq (b : Bool) (n : Node) : ∀ p, (n.walkFrom b p).map (·.node) =
    if b && !n.visible then [] else n :: n.children.flatMap (nodesBelow b) := by
  induction n using byChildren with
  | step n ih =>
    have same : ∀ c ∈ n.children, ∀ q, (c.walkFrom b q).map (·.node) = c.nodesBelow b :=
      fun c hc q => (ih c hc q).trans (ih c hc rootPointer).symm
    intro p
    rw [walkFrom_eq]
    split
    · rfl
    rw [List.map_cons, List.map_flatMap, ← n.slots_nodes, List.flatMap_map]
    exact congrArg (n :: ·) (List.flatMap_congr fun s hs => same s.node (slot_mem_children hs) _)

/-- Where a node stands makes no difference to the nodes that are visible from it down. -/
theorem walkFrom_nodes (n : Node) (p : String) :
    (n.walkFrom true p).map (·.node) = n.visibleNodes :=
  (walkFrom_nodes_eq true n p).trans (walkFrom_nodes_eq true n rootPointer).symm

theorem visibleNodes_eq (n : Node) :
    n.visibleNodes = if n.visible then n :: n.children.flatMap visibleNodes else [] :=
  (walkFrom_nodes_eq true n rootPointer).trans (by cases n.visible <;> rfl)

theorem allNodes_eq (n : Node) : n.allNodes = n :: n.children.flatMap allNodes :=
  walkFrom_nodes_eq false n rootPointer

theorem mem_allNodes {n m : Node} :
    m ∈ n.allNodes ↔ m = n ∨ ∃ c ∈ n.children, m ∈ c.allNodes := by
  rw [allNodes_eq, List.mem_cons, List.mem_flatMap]

theorem mem_allNodes_self (n : Node) : n ∈ n.allNodes := mem_allNodes.mpr (.inl rfl)

theorem mem_allNodes_child {n c : Node} (h : c ∈ n.children) : c ∈ n.allNodes :=
  mem_allNodes.mpr (.inr ⟨c, h, c.mem_allNodes_self⟩)

theorem mem_allNodes_trans {n m k : Node} (hm : m ∈ n.allNodes) (hk : k ∈ m.allNodes) :
    k ∈ n.allNodes := by
  induction n using byChildren with
  | step n ih =>
    rcases mem_allNodes.mp hm with rfl | ⟨c, hc, hm⟩
    · exact hk
    · exact mem_allNodes.mpr (.inr ⟨c, hc, ih c hc hm⟩)

/-! ## What is in a walk -/

theorem mem_walkFrom {b : Bool} {p : String} {n : Node} {l : Located} :
    l ∈ n.walkFrom b p ↔ (b = true → n.visible = true) ∧
      (l = ⟨n, p⟩ ∨ ∃ s ∈ n.slots, l ∈ s.node.walkFrom b ((⟨n, p⟩ : Located).under s).pointer) := by
  rw [walkFrom_eq]
  cases b <;> cases hv : n.visible <;> simp [List.mem_flatMap, Located.under]

theorem mem_walkFrom_self {b : Bool} {p : String} {n : Node} (h : b = true → n.visible = true) :
    ⟨n, p⟩ ∈ n.walkFrom b p :=
  mem_walkFrom.mpr ⟨h, .inl rfl⟩

/-- A walk over visible nodes lists nothing else. -/
theorem visible_of_mem {p : String} {n : Node} {l : Located} (h : l ∈ n.walkFrom true p) :
    l.node.visible = true := by
  induction n using byChildren generalizing p with
  | step n ih =>
    obtain ⟨hv, rfl | ⟨s, hs, hl⟩⟩ := mem_walkFrom.mp h
    · exact hv rfl
    · exact ih _ (slot_mem_children hs) hl

/-- The walk from a node of a walk is part of it. -/
theorem mem_walkFrom_trans {b : Bool} {p : String} {n : Node} {l m : Located}
    (hl : l ∈ n.walkFrom b p) (hm : m ∈ l.node.walkFrom b l.pointer) : m ∈ n.walkFrom b p := by
  induction n using byChildren generalizing p with
  | step n ih =>
    obtain ⟨hv, rfl | ⟨s, hs, hl⟩⟩ := mem_walkFrom.mp hl
    · exact hm
    · exact mem_walkFrom.mpr ⟨hv, .inr ⟨s, hs, ih _ (slot_mem_children hs) hl⟩⟩

/-- What is in a slot of a node of a walk belongs to the walk, when it is visible or all are
    walked. -/
theorem under_mem_walkFrom {b : Bool} {p : String} {n : Node} {l : Located} {s : Slot}
    (hl : l ∈ n.walkFrom b p) (hs : s ∈ l.node.slots) (hv : b = true → s.node.visible = true) :
    l.under s ∈ n.walkFrom b p := by
  refine mem_walkFrom_trans hl (mem_walkFrom.mpr ⟨fun hb => ?_, .inr ⟨s, hs, ?_⟩⟩)
  · subst hb; exact visible_of_mem hl
  · exact mem_walkFrom_self hv

end Wireframe.Node
