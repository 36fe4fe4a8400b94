import Mathlib.Data.List.Flatten
import Mathlib.Data.List.Nodup
import Wireframe.Proofs.Address

/-
  Wireframe.Proofs.Hidden — trees without their hidden parts.

  Pruning takes every hidden child away together with what is below it. A node keeps its header, its
  kind and its content, so whatever looks at visible nodes one by one sees the same nodes; what
  looks at lists of children, or at positions in them, may not.

  Proved:
  - `children_prune`: the children of a pruned node are its visible children, pruned.
  - `visibleNodes_prune`: a pruned tree has the same visible nodes in the same order, each pruned.
  - `UniqueIds.eq_of_id`: where ids are unique a node is told by its id.
  - `UniqueShown.walk_prune`, `Located.pruned_subtree`, `Located.pruned_shownChildren`: so are the
    places of the visible nodes, and walks of the pruned tree are those of the tree, place by place.
-/

namespace Wireframe

/-! ## Lists -/

section

variable {α : Type} {p q : α → Bool} {as : List α}

theorem takeWhile_congr (h : ∀ a ∈ as, p a = q a) : as.takeWhile p = as.takeWhile q := by
  induction as with
  | nil => rfl
  | cons a rest ih =>
    rw [List.takeWhile_cons, List.takeWhile_cons, h a List.mem_cons_self,
      ih fun b hb => h b (List.mem_cons_of_mem a hb)]

theorem dropWhile_congr (h : ∀ a ∈ as, p a = q a) : as.dropWhile p = as.dropWhile q := by
  induction as with
  | nil => rfl
  | cons a rest ih =>
    rw [List.dropWhile_cons, List.dropWhile_cons, h a List.mem_cons_self,
      ih fun b hb => h b (List.mem_cons_of_mem a hb)]

theorem findIdx?_congr (h : ∀ a ∈ as, p a = q a) : as.findIdx? p = as.findIdx? q := by
  induction as with
  | nil => rfl
  | cons a rest ih =>
    rw [List.findIdx?_cons, List.findIdx?_cons, h a List.mem_cons_self,
      ih fun b hb => h b (List.mem_cons_of_mem a hb)]

end

namespace Node

mutual

/-- The tree without its hidden nodes and what is below them. The root stays. -/
def prune : Node → Node
  | stack h c cs => stack h c (pruneAll cs)
  | grid h c cs => grid h c (pruneAll cs)
  | box h p c => box h p (pruneChild c)
  | form h c fs as => form h c (pruneAll fs) (pruneAll as)
  | text h c => text h c
  | button h c => button h c
  | field h c => field h c
  | table h c => table h c

/-- The visible ones of some nodes, pruned. -/
def pruneAll : List Node → List Node
  | [] => []
  | n :: rest => if n.visible then n.prune :: pruneAll rest else pruneAll rest

/-- The child of a box, when it is visible, pruned. -/
def pruneChild : Option Node → Option Node
  | none => none
  | some c => if c.visible then some c.prune else none

end

/-! ## What stays -/

theorem pruneAll_eq (ns : List Node) : pruneAll ns = (ns.filter (·.visible)).map prune := by
  induction ns with
  | nil => rfl
  | cons n rest ih =>
    rw [pruneAll, List.filter_cons]
    split
    · rw [ih, List.map_cons]
    · exact ih

@[simp] theorem header_prune (n : Node) : n.prune.header = n.header := by
  cases n <;> rfl

@[simp] theorem kind_prune (n : Node) : n.prune.kind = n.kind := by
  cases n <;> rfl

@[simp] theorem id_prune (n : Node) : n.prune.id = n.id := congrArg Header.id n.header_prune

@[simp] theorem visible_prune (n : Node) : n.prune.visible = n.visible :=
  congrArg Header.visible n.header_prune

@[simp] theorem typeName_prune (n : Node) : n.prune.typeName = n.typeName :=
  congrArg Kind.name n.kind_prune

@[simp] theorem isButton_prune (n : Node) : n.prune.isButton = n.isButton := by
  cases n <;> rfl

@[simp] theorem isField_prune (n : Node) : n.prune.isField = n.isField := by
  cases n <;> rfl

@[simp] theorem isPrimaryButton_prune (n : Node) : n.prune.isPrimaryButton = n.isPrimaryButton := by
  cases n <;> rfl

theorem children_prune (n : Node) :
    n.prune.children = (n.children.filter (·.visible)).map prune := by
  cases n with
  | stack h c cs => exact pruneAll_eq cs
  | grid h c cs => exact pruneAll_eq cs
  | box h p c =>
    cases c with
    | none => rfl
    | some c => cases hv : c.visible <;> simp [prune, pruneChild, children, hv]
  | form h c fs as =>
    simp only [prune, children, pruneAll_eq, List.filter_append, List.map_append]
  | text | button | field | table => rfl

/-- A leaf has nothing to prune. -/
theorem prune_leaf {n : Node} (h : n.isContainer = false) : n.prune = n := by
  cases n with
  | stack | grid | box | form => cases h
  | text | button | field | table => rfl

/-! ## What is visible -/

theorem visibleNodes_hidden {n : Node} (h : n.visible = false) : n.visibleNodes = [] := by
  rw [visibleNodes_eq, h]
  rfl

theorem mem_visibleNodes_self {n : Node} (h : n.visible = true) : n ∈ n.visibleNodes := by
  rw [visibleNodes_eq, if_pos h]
  exact List.mem_cons_self

/-- Where hidden nodes contribute nothing they may as well be left out. -/
theorem flatMap_filter_visible {β : Type} {f : Node → List β}
    (hidden : ∀ n, n.visible = false → f n = []) (ns : List Node) :
    (ns.filter (·.visible)).flatMap f = ns.flatMap f := by
  induction ns with
  | nil => rfl
  | cons n rest ih =>
    rw [List.filter_cons, List.flatMap_cons]
    cases hv : n.visible with
    | true => rw [if_pos rfl, List.flatMap_cons, ih]
    | false => rw [if_neg Bool.false_ne_true, ih, hidden n hv, List.nil_append]

/-- The visible nodes of a pruned tree are those of the tree, in the same order, each pruned. -/
theorem visibleNodes_prune (n : Node) : n.prune.visibleNodes = n.visibleNodes.map prune := by
  induction n using byChildren with
  | step n ih =>
    rw [visibleNodes_eq, visibleNodes_eq n, visible_prune]
    split
    · rw [List.map_cons, children_prune, List.flatMap_map, List.map_flatMap,
        ← flatMap_filter_visible (fun c hc => by rw [visibleNodes_hidden hc]; rfl) n.children]
      exact congrArg (n.prune :: ·)
        (List.flatMap_congr fun c hc => ih c (List.mem_of_mem_filter hc))
    · rfl

/-! ## Nodes told by their ids -/

theorem visible_of_mem_visibleNodes {n m : Node} (h : m ∈ n.visibleNodes) : m.visible = true := by
  obtain ⟨l, hl, rfl⟩ := List.mem_map.mp h
  exact visible_of_mem hl

theorem visibleNodes_subset (n : Node) : n.visibleNodes ⊆ n.allNodes := by
  induction n using byChildren with
  | step n ih =>
    intro m hm
    rw [visibleNodes_eq] at hm
    split at hm
    · rcases List.mem_cons.mp hm with rfl | hm
      · exact mem_allNodes_self _
      · obtain ⟨c, hc, hm⟩ := List.mem_flatMap.mp hm
        exact mem_allNodes.mpr (.inr ⟨c, hc, ih c hc hm⟩)
    · cases hm

theorem node_mem_allNodes {root : Node} {p : Located} (hp : p ∈ root.walk) :
    p.node ∈ root.allNodes :=
  root.visibleNodes_subset (List.mem_map_of_mem hp)

theorem visibleNodes_trans {n m k : Node} (hm : m ∈ n.visibleNodes) (hk : k ∈ m.visibleNodes) :
    k ∈ n.visibleNodes := by
  obtain ⟨l, hl, rfl⟩ := List.mem_map.mp hm
  rw [← l.node.walkFrom_nodes l.pointer] at hk
  obtain ⟨i, hi, rfl⟩ := List.mem_map.mp hk
  exact List.mem_map_of_mem (mem_walkFrom_trans hl hi)

theorem child_mem_visibleNodes {n m c : Node} (hm : m ∈ n.visibleNodes) (hc : c ∈ m.children)
    (shown : c.visible = true) : c ∈ n.visibleNodes := by
  refine visibleNodes_trans hm ?_
  rw [visibleNodes_eq, if_pos (visible_of_mem_visibleNodes hm)]
  exact List.mem_cons_of_mem m (List.mem_flatMap.mpr ⟨c, hc, mem_visibleNodes_self shown⟩)

/-- No two nodes of the tree have one id, hidden ones included. -/
def UniqueIds (n : Node) : Prop := (n.allNodes.map (·.id)).Nodup

instance (n : Node) : Decidable n.UniqueIds :=
  inferInstanceAs (Decidable (n.allNodes.map (·.id)).Nodup)

theorem UniqueIds.eq_of_id {n m k : Node} (h : n.UniqueIds) (hm : m ∈ n.allNodes)
    (hk : k ∈ n.allNodes) (same : m.id = k.id) : m = k :=
  List.inj_on_of_nodup_map h hm hk same

theorem map_id_prune (ns : List Node) : (ns.map prune).map (·.id) = ns.map (·.id) := by
  simp only [List.map_map, Function.comp_def, id_prune]

theorem visibleNodes_sublist (n : Node) : n.visibleNodes.Sublist n.allNodes := by
  induction n using byChildren with
  | step n ih =>
    rw [visibleNodes_eq, allNodes_eq]
    split
    · exact (List.Sublist.flatMap_right _ ih).cons_cons n
    · exact List.nil_sublist _

theorem allNodes_sublist {n m : Node} (h : m ∈ n.allNodes) : m.allNodes.Sublist n.allNodes := by
  induction n using byChildren with
  | step n ih =>
    rcases mem_allNodes.mp h with rfl | ⟨c, hc, hm⟩
    · exact List.Sublist.refl _
    · refine (ih c hc hm).trans ?_
      obtain ⟨as, bs, split⟩ := List.append_of_mem hc
      rw [n.allNodes_eq, split, List.flatMap_append, List.flatMap_cons]
      exact ((List.sublist_append_left _ _).trans (List.sublist_append_right _ _)).cons n

/-- No two children of a node have one id. -/
theorem UniqueIds.children {n m : Node} (h : n.UniqueIds) (hm : m ∈ n.allNodes) :
    (m.children.map (·.id)).Nodup := by
  have single : m.children = m.children.flatMap fun c => [c] := by simp
  have below : m.children.Sublist (m.children.flatMap allNodes) := by
    nth_rewrite 1 [single]
    exact .flatMap_right _ fun c _ => List.singleton_sublist.mpr c.mem_allNodes_self
  have within : m.children.Sublist n.allNodes := by
    refine (below.cons m).trans ?_
    rw [← m.allNodes_eq]
    exact allNodes_sublist hm
  exact h.sublist (within.map _)

theorem fresh_of_nodup {as bs : List Node} {n : Node}
    (h : ((as ++ n :: bs).map (·.id)).Nodup) : ∀ a ∈ as, a.id ≠ n.id := by
  intro a ha
  rw [List.map_append, List.map_cons] at h
  exact (List.nodup_append.mp h).2.2 a.id (List.mem_map_of_mem ha) n.id List.mem_cons_self

/-- No two visible nodes of the tree have one id. -/
def UniqueShown (n : Node) : Prop := (n.visibleNodes.map (·.id)).Nodup

theorem UniqueIds.shown {n : Node} (h : n.UniqueIds) : n.UniqueShown :=
  h.sublist (n.visibleNodes_sublist.map _)

theorem UniqueShown.prune {n : Node} (h : n.UniqueShown) : n.prune.UniqueShown := by
  rwa [UniqueShown, visibleNodes_prune, map_id_prune]

end Node

/-! ## Lists of siblings -/

namespace Node

theorem pruneAll_append (as bs : List Node) : pruneAll (as ++ bs) = pruneAll as ++ pruneAll bs := by
  simp only [pruneAll_eq, List.filter_append, List.map_append]

theorem pruneAll_shown {n : Node} (h : n.visible = true) (rest : List Node) :
    pruneAll (n :: rest) = n.prune :: pruneAll rest := by
  rw [pruneAll, if_pos h]

theorem pruneAll_hidden {ns : List Node} (h : ∀ n ∈ ns, n.visible = false) : pruneAll ns = [] := by
  rw [pruneAll_eq, List.filter_eq_nil_iff.mpr fun n hn => by simp [h n hn]]
  rfl

theorem pruneAll_length {ns : List Node} (h : ∀ n ∈ ns, n.visible = true) :
    (pruneAll ns).length = ns.length := by
  rw [pruneAll_eq, List.length_map, List.filter_eq_self.mpr h]

/-- A test of nodes that only visible ones pass, pruned or not. -/
structure SeesShown (test : Node → Bool) : Prop where
  shown : ∀ n, test n = true → n.visible = true
  pruned : ∀ n, test n.prune = test n

theorem SeesShown.of_hidden {test : Node → Bool} (sees : SeesShown test) {n : Node}
    (h : n.visible = false) : test n = false := by
  by_contra passes
  have := sees.shown n (by simpa using passes)
  rw [h] at this
  cases this

/-- Such a test need not ask whether a node is visible. -/
theorem SeesShown.both {test : Node → Bool} (sees : SeesShown test) :
    (fun n : Node => n.visible && (test ∘ Node.prune) n) = test := by
  funext n
  rw [Function.comp_apply, sees.pruned]
  cases passes : test n with
  | false => rw [Bool.and_false]
  | true => rw [sees.shown n passes, Bool.and_true]

theorem SeesShown.find? {test : Node → Bool} (sees : SeesShown test) (ns : List Node) :
    (pruneAll ns).find? test = (ns.find? test).map Node.prune := by
  rw [pruneAll_eq, List.find?_map, List.find?_filter]
  refine congrArg (fun t => (ns.find? t).map Node.prune) (Eq.trans ?_ sees.both)
  funext n
  rw [Bool.decide_and, Bool.decide_eq_true, Bool.decide_eq_true]

theorem SeesShown.any {test : Node → Bool} (sees : SeesShown test) (ns : List Node) :
    (pruneAll ns).any test = ns.any test := by
  rw [pruneAll_eq, List.any_map, List.any_filter]
  exact congrArg ns.any sees.both

/-- No hidden node stands between two visible ones. -/
def Gapless (ns : List Node) : Prop :=
  ∀ as m bs, ns = as ++ m :: bs → (∃ a ∈ as, a.visible = true) → (∃ b ∈ bs, b.visible = true) →
    m.visible = true

/-- What is hidden at the end stands between nothing. -/
theorem gapless_append {as bs : List Node} (shown : ∀ a ∈ as, a.visible = true)
    (hidden : ∀ b ∈ bs, b.visible = false) : Gapless (as ++ bs) := by
  rintro left m right split - ⟨b, hb, visible⟩
  rcases List.append_eq_append_iff.mp split with ⟨cs, rfl, rfl⟩ | ⟨cs, rfl, tail⟩
  · have := hidden b (by simp [hb])
    rw [visible] at this
    cases this
  · rcases List.cons_eq_append_iff.mp tail with ⟨rfl, rfl⟩ | ⟨cs, rfl, rfl⟩
    · have := hidden b (by simp [hb])
      rw [visible] at this
      cases this
    · exact shown m (by simp)

/-- No hidden node stands between visible siblings where one of them passes the test. -/
def NoGapsAround (test : Node → Bool) (root : Node) : Prop :=
  ∀ p ∈ root.visibleNodes, ∀ n ∈ p.children, n.visible = true → test n = true → Gapless p.children

/-- The node right before a visible one is the same without hidden nodes. -/
theorem Gapless.before {as bs : List Node} {n : Node} (gapless : Gapless (as ++ n :: bs))
    (hn : n.visible = true) {test : Node → Bool} (sees : SeesShown test) :
    (pruneAll as).getLast?.any test = as.getLast?.any test := by
  rcases List.eq_nil_or_concat as with rfl | ⟨init, m, rfl⟩
  · rfl
  cases hm : m.visible with
  | true =>
    rw [List.concat_eq_append, pruneAll_append, pruneAll_shown hm]
    simp [pruneAll, sees.pruned]
  | false =>
    have hidden : ∀ a ∈ init, a.visible = false := by
      intro a ha
      by_contra shown
      have := gapless init m (n :: bs) (by simp) ⟨a, ha, by simpa using shown⟩
        ⟨n, List.mem_cons_self, hn⟩
      rw [hm] at this
      cases this
    rw [List.concat_eq_append, pruneAll_append, pruneAll_hidden hidden]
    simp [pruneAll, hm, sees.of_hidden hm]

/-- The node right after a visible one is the same without hidden nodes. -/
theorem Gapless.after {as bs : List Node} {n : Node} (gapless : Gapless (as ++ n :: bs))
    (hn : n.visible = true) {test : Node → Bool} (sees : SeesShown test) :
    (pruneAll bs).head?.any test = bs.head?.any test := by
  cases bs with
  | nil => rfl
  | cons m rest =>
    cases hm : m.visible with
    | true => simp [pruneAll_shown hm, sees.pruned]
    | false =>
      have hidden : ∀ b ∈ rest, b.visible = false := by
        intro b hb
        by_contra shown
        have := gapless (as ++ [n]) m rest (by simp) ⟨n, by simp, hn⟩
          ⟨b, hb, by simpa using shown⟩
        rw [hm] at this
        cases this
      rw [pruneAll, if_neg (by simp [hm]), pruneAll_hidden hidden]
      simp [sees.of_hidden hm]

/-- As many nodes stand between two visible ones without hidden nodes. -/
theorem Gapless.between {as between bs : List Node} {a b : Node}
    (gapless : Gapless (as ++ a :: (between ++ b :: bs))) (ha : a.visible = true)
    (hb : b.visible = true) : (pruneAll between).length = between.length := by
  refine pruneAll_length fun m hm => ?_
  obtain ⟨left, right, rfl⟩ := List.append_of_mem hm
  refine gapless (as ++ a :: left) m (right ++ b :: bs) (by simp) ⟨a, by simp, ha⟩ ⟨b, by simp, hb⟩

/-- A visible node stands in a list without hidden nodes where it stands in the list. -/
theorem pruneAll_eq_append {ns as bs : List Node} {n : Node} :
    pruneAll ns = as ++ n :: bs ↔ ∃ as' n' bs', ns = as' ++ n' :: bs' ∧ n'.visible = true ∧
      pruneAll as' = as ∧ n'.prune = n ∧ pruneAll bs' = bs := by
  constructor
  · intro h
    induction ns generalizing as with
    | nil => simp [pruneAll] at h
    | cons m rest ih =>
      cases hm : m.visible with
      | true =>
        rw [pruneAll_shown hm] at h
        cases as with
        | nil =>
          cases h
          exact ⟨[], m, rest, rfl, hm, rfl, rfl, rfl⟩
        | cons a as =>
          rw [List.cons_append] at h
          obtain ⟨rfl, tail⟩ := List.cons_eq_cons.mp h
          obtain ⟨as', n', bs', rfl, hn, rfl, rfl, rfl⟩ := ih tail
          exact ⟨m :: as', n', bs', rfl, hn, by rw [pruneAll_shown hm], rfl, rfl⟩
      | false =>
        rw [pruneAll, if_neg (by simp [hm])] at h
        obtain ⟨as', n', bs', rfl, hn, rfl, rfl, rfl⟩ := ih h
        exact ⟨m :: as', n', bs', rfl, hn, by rw [pruneAll, if_neg (by simp [hm])], rfl, rfl⟩
  · rintro ⟨as', n', bs', rfl, hn, rfl, rfl, rfl⟩
    rw [pruneAll_append, pruneAll_shown hn]

end Node

/-! ## Places -/

namespace Node

variable {root : Node}

theorem UniqueShown.located_eq (h : root.UniqueShown) {l m : Located} (hl : l ∈ root.walk)
    (hm : m ∈ root.walk) (same : l.node.id = m.node.id) : l = m := by
  rw [UniqueShown, visibleNodes, List.map_map] at h
  exact List.inj_on_of_nodup_map h hl hm same

/-- Where ids are unique a place is told by the id of the node that stands there. -/
theorem UniqueShown.isAt_eq (h : root.UniqueShown) {l m : Located} (hl : l ∈ root.walk)
    (hm : m ∈ root.walk) : l.isAt m = (l.node.id == m.node.id) := by
  rw [Bool.eq_iff_iff, Located.isAt, beq_iff_eq, beq_iff_eq]
  constructor
  · intro same
    have nodup := root.pointers_nodup true rootPointer
    rw [List.inj_on_of_nodup_map nodup hl hm same]
  · intro same
    rw [h.located_eq hl hm same]

/-- Where the visible node with the id of a node stands. -/
def standing (root n : Node) : Located :=
  (root.walk.find? (·.node.id == n.id)).getD ⟨n, ""⟩

theorem UniqueShown.standing_eq (h : root.UniqueShown) {l : Located} (hl : l ∈ root.walk) :
    root.standing l.node = l := by
  have found : (root.walk.find? (·.node.id == l.node.id)).isSome :=
    List.find?_isSome.mpr ⟨l, hl, beq_self_eq_true l.node.id⟩
  obtain ⟨m, hm⟩ := Option.isSome_iff_exists.mp found
  rw [standing, hm]
  exact h.located_eq (List.mem_of_find?_eq_some hm) hl (eq_of_beq (List.find?_some hm :))

theorem UniqueShown.eq_map_standing (h : root.UniqueShown) {places : List Located}
    (within : places ⊆ root.walk) : places = (places.map (·.node)).map root.standing := by
  have own : places.map (root.standing ∘ (·.node)) = places.map fun l => l :=
    List.map_congr_left fun l hl => h.standing_eq (within hl)
  rw [List.map_map, own, List.map_id']

end Node

/-- Where a visible node stands once the tree is pruned. -/
def Located.pruned (root : Node) (l : Located) : Located := root.prune.standing l.node.prune

section

open Node

variable {root : Node}

/-- Places in the pruned tree are told by the nodes there. -/
theorem Node.UniqueShown.eq_map_pruned (h : root.UniqueShown) {places : List Located}
    {places' : List Located} (within : places' ⊆ root.prune.walk)
    (nodes : places'.map (·.node) = places.map (·.node.prune)) :
    places' = places.map (Located.pruned root) := by
  rw [h.prune.eq_map_standing within, nodes, List.map_map]
  rfl

theorem Node.UniqueShown.walk_prune (h : root.UniqueShown) :
    root.prune.walk = root.walk.map (Located.pruned root) := by
  refine h.eq_map_pruned (List.Subset.refl _) ?_
  have nodes := root.visibleNodes_prune
  rwa [visibleNodes, visibleNodes, List.map_map] at nodes

theorem Located.pruned_mem (h : root.UniqueShown) {l : Located} (hl : l ∈ root.walk) :
    l.pruned root ∈ root.prune.walk :=
  h.walk_prune ▸ List.mem_map_of_mem hl

theorem Located.pruned_node (h : root.UniqueShown) {l : Located} (hl : l ∈ root.walk) :
    (l.pruned root).node = l.node.prune := by
  have hn : l.node.prune ∈ root.prune.visibleNodes := by
    rw [visibleNodes_prune]
    exact List.mem_map_of_mem (List.mem_map_of_mem hl)
  obtain ⟨m, hm, same⟩ := List.mem_map.mp hn
  rw [pruned, ← same, h.prune.standing_eq hm]

theorem Located.pruned_isAt (h : root.UniqueShown) {l m : Located} (hl : l ∈ root.walk)
    (hm : m ∈ root.walk) : (l.pruned root).isAt (m.pruned root) = l.isAt m := by
  rw [h.prune.isAt_eq (pruned_mem h hl) (pruned_mem h hm), h.isAt_eq hl hm, pruned_node h hl,
    pruned_node h hm, id_prune, id_prune]

theorem Located.subtree_subset {l : Located} (hl : l ∈ root.walk) : l.subtree ⊆ root.walk :=
  fun _ => mem_walkFrom_trans hl

theorem Located.pruned_subtree (h : root.UniqueShown) {l : Located} (hl : l ∈ root.walk) :
    (l.pruned root).subtree = l.subtree.map (Located.pruned root) := by
  refine h.eq_map_pruned (subtree_subset (pruned_mem h hl)) ?_
  rw [subtree, walkFrom_nodes, pruned_node h hl, visibleNodes_prune, ← l.node.walkFrom_nodes l.pointer,
    List.map_map]
  rfl

theorem Located.shownChildren_subset {l : Located} (hl : l ∈ root.walk) :
    l.shownChildren ⊆ root.walk := by
  intro m hm
  obtain ⟨hm, shown⟩ := List.mem_filter.mp hm
  obtain ⟨s, hs, rfl⟩ := List.mem_map.mp hm
  exact under_mem_walkFrom hl hs fun _ => shown

theorem Located.shownChildren_nodes (l : Located) :
    l.shownChildren.map (·.node) = l.node.children.filter (·.visible) := by
  rw [shownChildren, ← l.node.slots_nodes, List.filter_map, List.filter_map, List.map_map]
  rfl

theorem Located.pruned_shownChildren (h : root.UniqueShown) {l : Located} (hl : l ∈ root.walk) :
    (l.pruned root).shownChildren = l.shownChildren.map (Located.pruned root) := by
  refine h.eq_map_pruned (shownChildren_subset (pruned_mem h hl)) ?_
  have nodes := congrArg (List.map prune) l.shownChildren_nodes
  rw [List.map_map] at nodes
  rw [shownChildren_nodes, pruned_node h hl, children_prune, List.filter_map, List.filter_filter]
  simpa only [Function.comp_def, visible_prune, Bool.and_self] using nodes.symm

/-! ## What is kept -/

/-- A test of places that comes out the same for what stands there in the pruned tree. -/
def Located.Keeps {β : Type} (root : Node) (test : Located → β) : Prop :=
  ∀ l ∈ root.walk, test (l.pruned root) = test l

/-- A test of nodes that pruning does not change. -/
theorem Located.keeps_node {β : Type} (h : root.UniqueShown) {test : Node → β}
    (same : ∀ n, test n.prune = test n) : Keeps root fun l => test l.node := by
  intro l hl
  show test (l.pruned root).node = test l.node
  rw [pruned_node h hl, same]

namespace Located.Keeps

variable {test : Located → Bool} {places : List Located}

theorem map {β : Type} {f : Located → β} (keeps : Keeps root f) (within : places ⊆ root.walk) :
    (places.map (Located.pruned root)).map f = places.map f := by
  rw [List.map_map]
  exact List.map_congr_left fun l hl => keeps l (within hl)

theorem filter (keeps : Keeps root test) (within : places ⊆ root.walk) :
    (places.map (Located.pruned root)).filter test =
      (places.filter test).map (Located.pruned root) := by
  rw [List.filter_map]
  exact congrArg (List.map _) (List.filter_congr fun l hl => keeps l (within hl))

theorem any (keeps : Keeps root test) (within : places ⊆ root.walk) :
    (places.map (Located.pruned root)).any test = places.any test := by
  rw [Bool.eq_iff_iff]
  simp only [List.any_eq_true, List.mem_map, exists_exists_and_eq_and]
  exact exists_congr fun l => and_congr_right fun hl => by rw [keeps l (within hl)]

theorem all (keeps : Keeps root test) (within : places ⊆ root.walk) :
    (places.map (Located.pruned root)).all test = places.all test := by
  rw [Bool.eq_iff_iff, List.all_eq_true, List.all_eq_true, List.forall_mem_map]
  exact forall₂_congr fun l hl => by rw [keeps l (within hl)]

theorem find? (keeps : Keeps root test) (within : places ⊆ root.walk) :
    (places.map (Located.pruned root)).find? test =
      (places.find? test).map (Located.pruned root) := by
  rw [← List.head?_filter, ← List.head?_filter, keeps.filter within, List.head?_map]

theorem findIdx? (keeps : Keeps root test) (within : places ⊆ root.walk) :
    (places.map (Located.pruned root)).findIdx? test = places.findIdx? test := by
  rw [List.findIdx?_map]
  exact findIdx?_congr fun l hl => keeps l (within hl)

end Located.Keeps

end

end Wireframe
