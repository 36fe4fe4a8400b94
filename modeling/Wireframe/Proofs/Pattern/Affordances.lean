import Wireframe.Proofs.Parents
import Wireframe.Proofs.Pattern.HiddenSections
import Wireframe.Proofs.Renaming
import Wireframe.Proofs.Text.Points

/-
  Wireframe.Proofs.Pattern.Affordances — sections of one parent that look unlike each other.

  The sections of a tree come in the order of the walk, so those of one parent are mixed with those
  of others, also with sections inside of them. They are grouped again by the id of the parent,
  which the map of parents tells; where ids are unique a group is the visible sections among the
  children of one node, in their order. The root has no parent, and its group no other member.

  Among the sections of a parent those without affordances do not count. Of the others there have to
  be two, and no one token in all of them: it is no matter that every two of them have one in common.

  Proved:
  - `mem_tokens`: the tokens of a node are its affordances, trimmed, in small letters, not blank.
  - `inconsistent_iff`: what the rule looks for among sections.
  - `affordanceFindings_eq`: the groups are the folding children of one node each.
  - `sortedSet_congr`: a set of texts is listed in one way.
  - `affordances_exact`: one finding for every node whose folding children clash; and how often or in
    which order a node has its tokens makes no difference.
-/

namespace Wireframe

/-! ## Trees with other affordances -/

namespace Node

variable (f : Header → Option (List String))

mutual

/-- The tree with other affordances, which may be others for every header. -/
def withAffordances : Node → Node
  | stack h c cs => stack { h with affordances := f h } c (withAffordancesAll cs)
  | grid h c cs => grid { h with affordances := f h } c (withAffordancesAll cs)
  | box h p c => box { h with affordances := f h } p (withAffordancesChild c)
  | text h c => text { h with affordances := f h } c
  | button h c => button { h with affordances := f h } c
  | field h c => field { h with affordances := f h } c
  | form h c fs as =>
    form { h with affordances := f h } c (withAffordancesAll fs) (withAffordancesAll as)
  | table h c => table { h with affordances := f h } c

def withAffordancesAll : List Node → List Node
  | [] => []
  | n :: rest => withAffordances n :: withAffordancesAll rest

def withAffordancesChild : Option Node → Option Node
  | none => none
  | some c => some (withAffordances c)

end

theorem withAffordancesAll_eq (ns : List Node) :
    withAffordancesAll f ns = ns.map (withAffordances f) := by
  induction ns with
  | nil => rfl
  | cons n rest ih => rw [withAffordancesAll, ih, List.map_cons]

theorem header_withAffordances (n : Node) :
    (n.withAffordances f).header = { n.header with affordances := f n.header } := by
  cases n <;> rfl

@[simp] theorem id_withAffordances (n : Node) : (n.withAffordances f).id = n.id := by
  rw [id, header_withAffordances, id]

@[simp] theorem visible_withAffordances (n : Node) : (n.withAffordances f).visible = n.visible := by
  rw [visible, header_withAffordances, visible]

@[simp] theorem disclosure?_withAffordances (n : Node) :
    (n.withAffordances f).disclosure? = n.disclosure? := by
  rw [disclosure?, header_withAffordances, disclosure?]

@[simp] theorem children_withAffordances (n : Node) :
    (n.withAffordances f).children = n.children.map (withAffordances f) := by
  cases n with
  | stack | grid => exact withAffordancesAll_eq f _
  | box h p c => cases c <;> rfl
  | form h c fs as =>
    simp only [withAffordances, withAffordancesAll_eq, children, List.map_append]
  | text | button | field | table => rfl

end Node

/-- The node with other affordances at the same place. -/
def Located.withAffordances (f : Header → Option (List String)) (l : Located) : Located :=
  ⟨l.node.withAffordances f, l.pointer⟩

namespace Node

variable (f : Header → Option (List String))

theorem slots_withAffordances (n : Node) : (n.withAffordances f).slots =
    n.slots.map fun s => { s with node := s.node.withAffordances f } := by
  have list : ∀ (name : String) (ns : List Node),
      listSlots name (ns.map (withAffordances f)) =
        (listSlots name ns).map fun s => { s with node := s.node.withAffordances f } := by
    intro name ns
    rw [listSlots, listSlots, List.zipIdx_map, List.map_map, List.map_map]
    rfl
  cases n with
  | stack | grid => simp only [withAffordances, slots, withAffordancesAll_eq, list]
  | box h p c => cases c <;> rfl
  | form h c fs as =>
    simp only [withAffordances, slots, withAffordancesAll_eq, list, List.map_append]
  | text | button | field | table => rfl

theorem walkFrom_withAffordances (n : Node) (p : String) :
    (n.withAffordances f).walkFrom true p =
      (n.walkFrom true p).map (Located.withAffordances f) := by
  induction n using byChildren generalizing p with
  | step n ih =>
    rw [walkFrom_eq, walkFrom_eq true p n, visible_withAffordances]
    split
    · rfl
    · rw [List.map_cons, slots_withAffordances, List.flatMap_map, List.map_flatMap]
      exact congrArg (_ :: ·) (List.flatMap_congr fun s hs => ih s.node (slot_mem_children hs) _)

theorem visibleNodes_withAffordances (n : Node) :
    (n.withAffordances f).visibleNodes = n.visibleNodes.map (withAffordances f) := by
  rw [visibleNodes, walk, walkFrom_withAffordances, visibleNodes, List.map_map, List.map_map]
  rfl

theorem parentId?_withAffordances (root : Node) (id : String) :
    (root.withAffordances f).parentId? id = root.parentId? id := by
  have entries : (root.withAffordances f).parents =
      Keyed.mapValues (withAffordances f) root.parents := by
    rw [parents, parents, ← Keyed.ofList_mapValues]
    refine congrArg Keyed.ofList ?_
    simp only [visibleNodes_withAffordances, List.flatMap_map, children_withAffordances,
      List.filter_map, List.map_map, Keyed.mapValues, List.map_flatMap, Function.comp_def,
      visible_withAffordances, id_withAffordances]
  rw [parentId?, entries, Keyed.get?_mapValues, Option.map_map, parentId?]
  simp only [Function.comp_def, id_withAffordances]

end Node

namespace Collapsibles

variable {root : Node}

/-! ## Tokens -/

/-- The node has an affordance that, trimmed and in small letters, is the token and not blank. -/
def HasToken (n : Node) (token : String) : Prop :=
  ∃ a ∈ n.header.affordances.getD [], Text.strip a ≠ "" ∧ token = Text.lower (Text.strip a)

theorem mem_sortedSet {ss : List String} {s : String} : s ∈ sortedSet ss ↔ s ∈ ss := by
  rw [sortedSet, List.mem_eraseDups, List.mem_mergeSort]

theorem nodup_sortedSet (ss : List String) : (sortedSet ss).Nodup := nodup_eraseDups _

theorem mem_tokens {n : Node} {token : String} : token ∈ tokens n ↔ HasToken n token := by
  rw [tokens, mem_sortedSet, List.mem_map]
  refine exists_congr fun a => ?_
  rw [List.mem_filter, Bool.not_eq_true', ← Bool.not_eq_true, Text.isVoid_iff, and_assoc]
  exact and_congr_right fun _ => and_congr_right fun _ => eq_comm

theorem HasToken.proper {n : Node} {token : String}
    (proper : ∀ a ∈ n.header.affordances.getD [], Text.Proper a) (h : HasToken n token) :
    Text.Proper token := by
  obtain ⟨a, ha, -, rfl⟩ := h
  exact (proper a ha).strip.lower

/-- A set of texts is listed in one way, whatever their order was and how often they came. -/
theorem sortedSet_congr {ss ts : List String} (proper : ∀ s ∈ ss, Text.Proper s)
    (same : ∀ s, s ∈ ss ↔ s ∈ ts) : sortedSet ss = sortedSet ts := by
  have sorted : ∀ us : List String, (sortedSet us).Pairwise fun s t => Text.notAfter s t = true :=
    fun us => (List.pairwise_mergeSort Text.notAfter_trans Text.notAfter_total us).sublist
      (eraseDups_sublist _)
  have perm : (sortedSet ss).Perm (sortedSet ts) :=
    (List.perm_ext_iff_of_nodup (nodup_sortedSet _) (nodup_sortedSet _)).mpr fun s => by
      rw [mem_sortedSet, mem_sortedSet, same]
  refine perm.eq_of_pairwise (fun s t hs ht st ts => ?_) (sorted ss) (sorted ts)
  have hs := proper s (mem_sortedSet.mp hs)
  have ht := proper t ((same t).mpr (mem_sortedSet.mp ht))
  exact hs.antisymm ht st ts

/-! ## Clashes -/

/-- Two or more of some sections have tokens, and none is had by all of these. -/
structure Clashing (members : List Located) : Prop where
  two : ∃ l m, [l, m].Sublist members ∧ (∃ t, HasToken l.node t) ∧ ∃ t, HasToken m.node t
  apart : ∀ t, ∃ m ∈ members, (∃ u, HasToken m.node u) ∧ ¬HasToken m.node t

theorem shareToken_iff {sets : List (List String)} (some : sets ≠ []) :
    shareToken sets = true ↔ ∃ t, ∀ set ∈ sets, t ∈ set := by
  cases sets with
  | nil => exact absurd rfl some
  | cons first rest =>
    simp only [shareToken, List.any_eq_true, List.all_eq_true, List.contains_iff_mem,
      List.forall_mem_cons]

theorem two_le_length_filter {α : Type} {p : α → Bool} {l : List α} :
    2 ≤ (l.filter p).length ↔ ∃ a b, [a, b].Sublist l ∧ p a = true ∧ p b = true := by
  constructor
  · intro two
    match found : l.filter p with
    | a :: b :: rest =>
      have both : ∀ c ∈ [a, b], c ∈ l.filter p := by
        rw [found]
        simp
      have pair : [a, b].Sublist (a :: b :: rest) := ((List.nil_sublist rest).cons_cons b).cons_cons a
      rw [← found] at pair
      exact ⟨a, b, pair.trans List.filter_sublist, (List.mem_filter.mp (both a (by simp))).2,
        (List.mem_filter.mp (both b (by simp))).2⟩
    | [] | [_] => simp [found] at two
  · rintro ⟨a, b, pair, ha, hb⟩
    have kept := (pair.filter p).length_le
    rwa [List.filter_cons_of_pos ha, List.filter_cons_of_pos hb] at kept

theorem inconsistent_iff {members : List Located} :
    inconsistent members = true ↔ Clashing members := by
  have some_token : ∀ n : Node, (!(tokens n).isEmpty) = true ↔ ∃ t, HasToken n t := by
    intro n
    rw [Bool.not_eq_true', List.isEmpty_eq_false_iff_exists_mem]
    exact exists_congr fun t => mem_tokens
  have two : 2 ≤ ((members.map fun l => tokens l.node).filter (!·.isEmpty)).length ↔
      ∃ l m, [l, m].Sublist members ∧ (∃ t, HasToken l.node t) ∧ ∃ t, HasToken m.node t := by
    rw [List.filter_map, List.length_map, two_le_length_filter]
    simp only [Function.comp_apply, some_token]
  have shared : (∃ t, ∀ set ∈ (members.map fun l => tokens l.node).filter (!·.isEmpty), t ∈ set) ↔
      ¬∀ t, ∃ m ∈ members, (∃ u, HasToken m.node u) ∧ ¬HasToken m.node t := by
    push Not
    refine exists_congr fun t => ?_
    rw [List.filter_map, List.forall_mem_map]
    simp only [List.mem_filter, Function.comp_apply, some_token, mem_tokens, and_imp]
  rw [inconsistent, Bool.and_eq_true, decide_eq_true_eq, Bool.not_eq_true', ← Bool.not_eq_true]
  constructor
  · rintro ⟨enough, apart⟩
    rw [shareToken_iff (List.ne_nil_of_length_pos (by omega)), shared, not_not] at apart
    exact ⟨two.mp enough, apart⟩
  · rintro ⟨enough, apart⟩
    have enough := two.mpr enough
    rw [shareToken_iff (List.ne_nil_of_length_pos (by omega)), shared, not_not]
    exact ⟨enough, apart⟩

/-! ## Families -/

/-- The visible sections among the children of a node, in document order. -/
def folding (p : Located) : List Located := p.shownChildren.filter fun l => isCollapsible l.node

theorem folding_ne_nil {p : Located} (h : Clashing (folding p)) : folding p ≠ [] := by
  obtain ⟨l, m, pair, -⟩ := h.two
  exact List.ne_nil_of_mem (pair.subset List.mem_cons_self)

/-- The sections with the ids of their parents. -/
def parented (root : Node) : List (Option String × Located) :=
  (sections root).map fun l => (root.parentId? l.node.id, l)

theorem families_eq (root : Node) : families root =
    ((parented root).map (·.1)).eraseDups.map fun k => (k, Keyed.valuesOf (parented root) k) :=
  Keyed.group_eq (parented root)

theorem valuesOf_parented (root : Node) (k : Option String) : Keyed.valuesOf (parented root) k =
    (sections root).filter fun l => root.parentId? l.node.id == k := by
  rw [Keyed.valuesOf, parented, List.filter_map, List.map_map]
  exact List.map_id' _

section

variable (unique : root.UniqueIds)
include unique

/-- The sections whose parent is a visible node are those among its children. -/
theorem valuesOf_parent {p : Located} (hp : p ∈ root.walk) :
    Keyed.valuesOf (parented root) (some p.node.id) = folding p := by
  have within : (folding p).Sublist root.walk :=
    List.filter_sublist.trans (Node.shownChildren_sublist hp)
  rw [valuesOf_parented, sections, List.filter_filter]
  refine filter_eq_of_sublist within root.walk_nodup fun l hl => ?_
  rw [Bool.and_eq_true, beq_iff_eq, Node.parentId?_iff unique hp hl, folding, List.mem_filter]

/-- No section but the root has no parent. -/
theorem orphans_consistent : inconsistent (Keyed.valuesOf (parented root) none) = false := by
  rw [← Bool.not_eq_true, inconsistent_iff, valuesOf_parented]
  rintro ⟨⟨l, m, pair, -⟩, -⟩
  have orphan : ∀ k ∈ [l, m], k = ⟨root, rootPointer⟩ := by
    intro k hk
    obtain ⟨hk, none⟩ := List.mem_filter.mp (pair.subset hk)
    rcases Node.exists_parent (mem_sections hk).1 with top | ⟨p, hp, child⟩
    · exact top
    · rw [Node.parentId?_shown unique hp child] at none
      cases none
  have apart : [l, m].Nodup :=
    (root.walk_nodup.sublist List.filter_sublist).sublist (pair.trans List.filter_sublist)
  rw [orphan l (by simp), orphan m (by simp)] at apart
  simp at apart

omit unique in
/-- Ids of visible nodes are those of some places, in the same order. -/
theorem exists_places {ids : List String} (visible : ∀ id ∈ ids, ∃ p ∈ root.walk, p.node.id = id) :
    ∃ places : List Located, places ⊆ root.walk ∧ places.map (·.node.id) = ids := by
  induction ids with
  | nil => exact ⟨[], List.nil_subset _, rfl⟩
  | cons id rest ih =>
    obtain ⟨⟨p, hp, rfl⟩, others⟩ := List.forall_mem_cons.mp visible
    obtain ⟨places, within, rfl⟩ := ih others
    exact ⟨p :: places, List.cons_subset.mpr ⟨hp, within⟩, rfl⟩

theorem parent_key_iff {id : String} : some id ∈ ((parented root).map (·.1)).eraseDups ↔
    ∃ p ∈ root.walk, p.node.id = id ∧ folding p ≠ [] := by
  rw [List.mem_eraseDups, parented, List.map_map, List.mem_map]
  constructor
  · rintro ⟨l, hl, parent⟩
    obtain ⟨hw, -, collapsible⟩ := mem_sections hl
    rcases Node.exists_parent hw with rfl | ⟨p, hp, child⟩
    · exact absurd ((Node.parentId?_top unique).symm.trans parent) nofun
    · have told := (Node.parentId?_shown unique hp child).symm.trans parent
      exact ⟨p, hp, Option.some.inj told,
        List.ne_nil_of_mem (List.mem_filter.mpr ⟨child, collapsible⟩)⟩
  · rintro ⟨p, hp, rfl, some_child⟩
    obtain ⟨l, hl⟩ := List.exists_mem_of_ne_nil _ some_child
    obtain ⟨child, collapsible⟩ := List.mem_filter.mp hl
    have hw := Located.shownChildren_subset hp child
    exact ⟨l, List.mem_filter.mpr ⟨hw, collapsible⟩, Node.parentId?_shown unique hp child⟩

/-- The groups in which something may be found are the folding children of one visible node each. -/
theorem affordanceFindings_eq : ∃ places : List Located, places.Nodup ∧
    (∀ p, p ∈ places ↔ p ∈ root.walk ∧ folding p ≠ []) ∧
    affordanceFindings root = places.filterMap fun p => familyFinding? (folding p) := by
  let keys := ((parented root).map (·.1)).eraseDups
  have known : ∀ id, id ∈ keys.filterMap (fun k => k) ↔ some id ∈ keys := fun id => by simp
  have visible : ∀ id ∈ keys.filterMap (fun k => k), ∃ p ∈ root.walk, p.node.id = id := by
    intro id hid
    obtain ⟨p, hp, same, -⟩ := (parent_key_iff unique).mp ((known id).mp hid)
    exact ⟨p, hp, same⟩
  obtain ⟨places, within, named⟩ := exists_places visible
  refine ⟨places, ?_, fun p => ?_, ?_⟩
  · refine .of_map _ (named ▸ (nodup_eraseDups _).filterMap ?_)
    rintro k k' id rfl rfl
    rfl
  · have mem : p ∈ places ↔ p ∈ root.walk ∧ some p.node.id ∈ keys := by
      rw [← known, ← named]
      refine ⟨fun hp => ⟨within hp, List.mem_map_of_mem hp⟩, fun ⟨hp, hid⟩ => ?_⟩
      obtain ⟨q, hq, same⟩ := List.mem_map.mp hid
      rwa [unique.shown.located_eq hp (within hq) same.symm]
    rw [mem]
    refine and_congr_right fun hp => (parent_key_iff unique).trans ⟨?_, fun some => ⟨p, hp, rfl, some⟩⟩
    rintro ⟨q, hq, same, some⟩
    rwa [← unique.shown.located_eq hq hp same]
  · have none_found : familyFinding? (Keyed.valuesOf (parented root) none) = none :=
      familyFinding?_eq_none.mpr (orphans_consistent unique)
    have keyed : affordanceFindings root =
        keys.filterMap fun k => familyFinding? (Keyed.valuesOf (parented root) k) := by
      rw [affordanceFindings, families_eq, List.filterMap_map]
      rfl
    have parents : (keys.filterMap fun k => familyFinding? (Keyed.valuesOf (parented root) k)) =
        (keys.filterMap fun k => k).filterMap fun id =>
          familyFinding? (Keyed.valuesOf (parented root) (some id)) := by
      rw [List.filterMap_filterMap]
      refine List.filterMap_congr fun k _ => ?_
      cases k with
      | none => exact none_found
      | some id => rfl
    rw [keyed, parents, ← named, List.filterMap_map]
    refine List.filterMap_congr fun p hp => ?_
    rw [Function.comp_apply, valuesOf_parent unique (within hp)]

end

/-! ## Findings -/

/-- The issue that tells of the sections of a node: it is about the first of them, and tells all of
    them in document order. -/
structure Told (p : Located) (i : Issue) : Prop where
  id : i.id = "disclosure-inconsistent-affordance"
  severity : i.severity = .warn
  first : ∃ first ∈ (folding p).head?, i.At first
  all : i.details = some (some [("collapsibleIds", .texts ((folding p).map (·.node.id)))])

theorem told_of_familyFinding? {p : Located} {i : Issue} (h : familyFinding? (folding p) = some i) :
    Told p i := by
  cases members : folding p with
  | nil =>
    rw [members] at h
    cases h
  | cons first rest =>
    rw [members, familyFinding?] at h
    obtain ⟨-, same⟩ := Option.ite_none_right_eq_some.mp h
    cases same
    exact ⟨rfl, rfl, ⟨first, by rw [members]; rfl, rfl, rfl⟩, by rw [members]; rfl⟩

/-! ## The same tokens in another way -/

/-- The visible nodes have the same tokens when they have these affordances. -/
def KeepsTokens (root : Node) (f : Header → Option (List String)) : Prop :=
  ∀ n ∈ root.visibleNodes, ∀ t, HasToken (n.withAffordances f) t ↔ HasToken n t

/-- In another order, and more or less often, affordances make the same tokens. -/
theorem keepsTokens_of_mem {f : Header → Option (List String)} (same : ∀ n ∈ root.visibleNodes,
    ∀ a, a ∈ (f n.header).getD [] ↔ a ∈ n.header.affordances.getD []) : KeepsTokens root f := by
  intro n hn t
  rw [HasToken, Node.header_withAffordances]
  exact exists_congr fun a => and_congr_left fun _ => same n hn a

theorem clashing_map {g : Located → Located} {members : List Located}
    (same : ∀ l ∈ members, ∀ t, HasToken (g l).node t ↔ HasToken l.node t) :
    Clashing (members.map g) ↔ Clashing members := by
  have some_token : ∀ l ∈ members, (∃ t, HasToken (g l).node t) ↔ ∃ t, HasToken l.node t :=
    fun l hl => exists_congr (same l hl)
  have apart : ∀ t, (∃ m ∈ members.map g, (∃ u, HasToken m.node u) ∧ ¬HasToken m.node t) ↔
      ∃ m ∈ members, (∃ u, HasToken m.node u) ∧ ¬HasToken m.node t := by
    intro t
    simp only [List.mem_map, exists_exists_and_eq_and]
    exact exists_congr fun m => and_congr_right fun hm => by rw [some_token m hm, same m hm t]
  constructor
  · rintro ⟨⟨l', m', pair, hl, hm⟩, none⟩
    obtain ⟨kept, sub, names⟩ := List.sublist_map_iff.mp pair
    obtain ⟨l, m, rfl⟩ : ∃ l m, kept = [l, m] := List.length_eq_two.mp (by
      simpa using (congrArg List.length names).symm)
    cases names
    have within := sub.subset
    exact ⟨⟨l, m, sub, (some_token l (within (by simp))).mp hl,
      (some_token m (within (by simp))).mp hm⟩, fun t => (apart t).mp (none t)⟩
  · rintro ⟨⟨l, m, pair, hl, hm⟩, none⟩
    have within := pair.subset
    exact ⟨⟨g l, g m, pair.map g, (some_token l (within (by simp))).mpr hl,
      (some_token m (within (by simp))).mpr hm⟩, fun t => (apart t).mpr (none t)⟩

section

variable (f : Header → Option (List String))

@[simp] theorem isCollapsible_withAffordances (n : Node) :
    isCollapsible (n.withAffordances f) = isCollapsible n := by
  rw [isCollapsible, Node.disclosure?_withAffordances, isCollapsible]

theorem families_withAffordances (root : Node) : families (root.withAffordances f) =
    Keyed.mapValues (List.map (Located.withAffordances f)) (families root) := by
  have same : parented (root.withAffordances f) =
      Keyed.mapValues (Located.withAffordances f) (parented root) := by
    simp only [parented, sections, Node.walk, Node.walkFrom_withAffordances, List.filter_map,
      List.map_map, Keyed.mapValues, Function.comp_def, Located.withAffordances,
      isCollapsible_withAffordances, Node.id_withAffordances, Node.parentId?_withAffordances]
  exact (congrArg Keyed.group same).trans (Keyed.group_mapValues _ _)

theorem affordanceFindings_withAffordances (root : Node) :
    affordanceFindings (root.withAffordances f) = (families root).filterMap fun g =>
      familyFinding? (g.2.map (Located.withAffordances f)) := by
  rw [affordanceFindings, families_withAffordances, Keyed.mapValues, List.filterMap_map]
  rfl

variable {f} (keeps : KeepsTokens root f)
include keeps

theorem KeepsTokens.inconsistent {members : List Located} (within : members ⊆ root.walk) :
    inconsistent (members.map (Located.withAffordances f)) = inconsistent members := by
  rw [Bool.eq_iff_iff, inconsistent_iff, inconsistent_iff]
  exact clashing_map fun l hl => keeps l.node (List.mem_map_of_mem (within hl))

theorem KeepsTokens.outline {members : List Located} (within : members ⊆ root.walk) :
    (familyFinding? (members.map (Located.withAffordances f))).map (fun i => (i.outline, i.details)) =
      (familyFinding? members).map fun i => (i.outline, i.details) := by
  have same := keeps.inconsistent within
  cases members with
  | nil => rfl
  | cons first rest =>
    rw [List.map_cons] at same ⊢
    rw [familyFinding?, familyFinding?, same]
    split
    · simp [Finding.toIssue, Finding.on, Issue.outline, Located.withAffordances, Function.comp_def]
    · rfl

theorem KeepsTokens.tokens {n : Node} (hn : n ∈ root.visibleNodes)
    (proper : ∀ a ∈ n.header.affordances.getD [], Text.Proper a) :
    tokens (n.withAffordances f) = tokens n := by
  have listed : ∀ {m : Node} {t : String}, t ∈ ((m.header.affordances.getD []).filter
      (!Text.isVoid ·)).map (fun a => Text.lower (Text.strip a)) ↔ HasToken m t :=
    fun {m t} => mem_sortedSet.symm.trans mem_tokens
  refine sortedSet_congr (fun t ht => ?_) fun t => ?_
  · exact ((keeps n hn t).mp (listed.mp ht)).proper proper
  · rw [listed, listed, keeps n hn t]

theorem KeepsTokens.finding {members : List Located} (within : members ⊆ root.walk)
    (proper : ∀ n ∈ root.visibleNodes, ∀ a ∈ n.header.affordances.getD [], Text.Proper a) :
    familyFinding? (members.map (Located.withAffordances f)) = familyFinding? members := by
  have same := keeps.inconsistent within
  have texts : (members.map (Located.withAffordances f)).map (fun l => tokensText l.node) =
      members.map fun l => tokensText l.node := by
    rw [List.map_map]
    refine List.map_congr_left fun l hl => ?_
    have hn : l.node ∈ root.visibleNodes := List.mem_map_of_mem (within hl)
    rw [Function.comp_apply, tokensText, tokensText, Located.withAffordances,
      keeps.tokens hn (proper l.node hn), Node.id_withAffordances]
  have ids : (members.map (Located.withAffordances f)).map (·.node.id) = members.map (·.node.id) := by
    rw [List.map_map]
    exact List.map_congr_left fun l _ => l.node.id_withAffordances f
  cases members with
  | nil => rfl
  | cons first rest =>
    rw [List.map_cons] at same texts ids ⊢
    rw [familyFinding?, familyFinding?, same, texts, ids]
    simp only [Finding.on, Located.withAffordances, Node.id_withAffordances]

end

/-! ## The rule -/

open scoped Classical in
/-- What the rule on affordances comes to on a tree. -/
structure AffordancesExact (root : Node) : Prop where
  /-- One finding for every visible node whose folding children clash, and no other. -/
  told : ∃ order : List Located, order.Perm (root.walk.filter fun p => Clashing (folding p)) ∧
    List.Forall₂ Told order (affordanceFindings root)
  /-- Other affordances that make the same tokens lead to findings about the same sections. -/
  outlines : ∀ f, KeepsTokens root f →
    (affordanceFindings (root.withAffordances f)).map (fun i => (i.outline, i.details)) =
      (affordanceFindings root).map fun i => (i.outline, i.details)
  /-- They are told in the same words, since the tokens of a node come in one order. -/
  words : ∀ f, KeepsTokens root f →
    (∀ n ∈ root.visibleNodes, ∀ a ∈ n.header.affordances.getD [], Text.Proper a) →
    affordanceFindings (root.withAffordances f) = affordanceFindings root

theorem affordances_exact (unique : root.UniqueIds) : AffordancesExact root where
  told := by
    classical
    obtain ⟨places, nodup, mem, found⟩ := affordanceFindings_eq unique
    refine ⟨places.filter fun p => Clashing (folding p), ?_, ?_⟩
    · refine (List.perm_ext_iff_of_nodup (nodup.filter _) (root.walk_nodup.filter _)).mpr fun p => ?_
      rw [List.mem_filter, List.mem_filter, mem, decide_eq_true_iff, and_assoc]
      exact and_congr_right fun _ => and_iff_right_of_imp folding_ne_nil
    · rw [found]
      refine forall₂_filterMap (fun p _ => ?_) fun p _ i => told_of_familyFinding?
      rw [familyFinding?_eq_none, ← Bool.not_eq_true, inconsistent_iff, decide_eq_false_iff_not]
  outlines f keeps := by
    rw [affordanceFindings_withAffordances, affordanceFindings, List.map_filterMap,
      List.map_filterMap]
    exact List.filterMap_congr fun g hg => keeps.outline (family_visible hg)
  words f keeps proper := by
    rw [affordanceFindings_withAffordances, affordanceFindings]
    exact List.filterMap_congr fun g hg => keeps.finding (family_visible hg) proper

/-- A section with some affordances. -/
def drawer (id : String) (affordances : List String) (children : List Node) : Node :=
  .stack { Header.plain id with
      behaviors := some ⟨some ⟨true, none, none, none, []⟩, none, []⟩
      affordances := some affordances }
    ⟨.vertical, none, none, .start, false⟩ children

/-- Of three drawers every two have a token in common, and all three have none. -/
def cabinet : Node :=
  .plainStack "cabinet" .vertical
    [drawer "top" ["v", " +"] [drawer "inner" ["#"] []], drawer "bare" [" "] [],
      drawer "middle" ["+", ">"] [], drawer "low" [">", "V"] []]

/-- The affordances in reverse order, and after that again. -/
def twice (h : Header) : Option (List String) := h.affordances.map fun as => as.reverse ++ as

theorem cabinet_exact : cabinet.UniqueIds ∧ AffordancesExact cabinet ∧
    affordanceFindings (cabinet.withAffordances twice) = affordanceFindings cabinet := by
  have unique : cabinet.UniqueIds := by decide +kernel
  have rule := affordances_exact unique
  have keeps : KeepsTokens cabinet twice := by
    refine keepsTokens_of_mem fun n _ a => ?_
    rw [twice]
    cases n.header.affordances with
    | none => rfl
    | some as => simp
  have plain : ∀ n ∈ cabinet.visibleNodes, ∀ a ∈ n.header.affordances.getD [],
      Text.mark ∉ a.toList := by decide +kernel
  exact ⟨unique, rule, rule.words twice keeps fun n hn a ha => .of_unmarked (plain n hn a ha)⟩

/-- The drawers of the cabinet are told, also the one without tokens, and not the inner one. -/
example : (affordanceFindings cabinet).map (·.details) =
    [some (some [("collapsibleIds", .texts ["top", "bare", "middle", "low"])])] := by cbv

end Collapsibles

end Wireframe
