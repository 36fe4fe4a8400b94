import Wireframe.Pattern.Collapsibles
import Wireframe.Proofs.Locations

/-
  Wireframe.Proofs.Pattern.HiddenSections — what hidden nodes are to collapsible sections.

  A section and its siblings are looked at in the full list of children, hidden ones included, so
  that positions are those of the document. A hidden node is no control, no label and no primary
  action, but it takes a position: it keeps two nodes apart that would be neighbours without it, and
  as the first child of a section it hides what comes next. Where it does neither, the rules find
  the same without it.

  Proved:
  - `siblings_prune`: the siblings of a visible node in a pruned tree.
  - `findControl_prune`: the same control, when no hidden child stands first in the section.
  - `hasLabel_prune`, `distance?_prune`: the same label and the same distance, when no hidden node
    stands between visible siblings.
  - `primaryFindings_prune`, `affordanceFindings_prune`, `earlyFindings_prune`: three rules that look
    at no positions.
-/

namespace Wireframe.Collapsibles

open Node hiding id
open Located

variable {root : Node}

/-! ## Nodes -/

theorem disclosure?_prune (n : Node) : n.prune.disclosure? = n.disclosure? := by
  rw [disclosure?, header_prune, disclosure?]

theorem isCollapsible_prune (n : Node) : isCollapsible n.prune = isCollapsible n := by
  rw [isCollapsible, disclosure?_prune, isCollapsible]

theorem namedControl?_prune (n : Node) : namedControl? n.prune = namedControl? n := by
  rw [namedControl?, disclosure?_prune, namedControl?]

theorem isCandidate_sees : SeesShown isCandidate where
  shown n h := by
    cases n with
    | button hd b => exact (Bool.and_eq_true_iff.mp h).1
    | stack | grid | box | text | field | form | table => cases h
  pruned n := by cases n <;> rfl

theorem isShownText_sees : SeesShown isShownText where
  shown n h := by
    cases n with
    | text hd t => exact (Bool.and_eq_true_iff.mp h).1
    | stack | grid | box | button | field | form | table => cases h
  pruned n := by cases n <;> rfl

theorem button?_prune (n : Node) (id : String) : button? n.prune id = (button? n id).map prune := by
  rw [button?, visibleNodes_prune, List.find?_map, button?]
  simp only [Function.comp_def, id_prune, isButton_prune]

/-- A button is looked for among visible nodes, so hidden siblings have none. -/
theorem findSome?_button_prune (ns : List Node) (id : String) :
    ((pruneAll ns).findSome? fun n => button? n id) =
      (ns.findSome? fun n => button? n id).map prune := by
  induction ns with
  | nil => rfl
  | cons n rest ih =>
    rw [List.findSome?_cons]
    cases hn : n.visible with
    | true =>
      rw [pruneAll_shown hn, List.findSome?_cons, button?_prune, ih]
      cases button? n id with
      | none => rfl
      | some b => rfl
    | false =>
      have nothing : button? n id = none := by rw [button?, visibleNodes_hidden hn]; rfl
      rw [pruneAll, if_neg (by simp [hn]), ih, nothing]

/-! ## Siblings -/

theorem position?_split {as bs : List Node} {n : Node} (fresh : ∀ a ∈ as, a.id ≠ n.id) :
    position? (as ++ n :: bs) n.id = some as.length := by
  induction as with
  | nil => simp [position?, List.findIdx?_cons]
  | cons a rest ih =>
    have ih := ih fun b hb => fresh b (List.mem_cons_of_mem a hb)
    have apart : (a.id == n.id) = false := beq_eq_false_iff_ne.mpr (fresh a List.mem_cons_self)
    rw [position?] at ih
    rw [position?, List.cons_append, List.findIdx?_cons, apart]
    simp [ih]

theorem fresh_pruneAll {as : List Node} {id : String} (fresh : ∀ a ∈ as, a.id ≠ id) :
    ∀ a ∈ pruneAll as, a.id ≠ id := by
  intro a ha
  rw [pruneAll_eq] at ha
  obtain ⟨b, hb, rfl⟩ := List.mem_map.mp ha
  rw [id_prune]
  exact fresh b (List.mem_of_mem_filter hb)

/-- Where ids are unique a child stands once in the list of children. -/
theorem exists_split (unique : root.UniqueIds) {p c : Node} (hp : p ∈ root.visibleNodes)
    (hc : c ∈ p.children) : ∃ as bs, p.children = as ++ c :: bs ∧ ∀ a ∈ as, a.id ≠ c.id := by
  obtain ⟨as, bs, split⟩ := List.append_of_mem hc
  have nodup := unique.children (root.visibleNodes_subset hp)
  exact ⟨as, bs, split, fresh_of_nodup (split ▸ nodup)⟩

/-- Every child of a visible node, with all children of this node. -/
def childEntries (root : Node) : List (Node × List Node) :=
  root.visibleNodes.flatMap fun n => n.children.map fun c => (c, n.children)

theorem siblings_eq (root : Node) (id : String) : siblings root id =
    (((childEntries root).reverse.find? (·.1.id == id)).map (·.2)).getD [] := by
  have entries : (root.visibleNodes.flatMap fun n => n.children.map fun c => (c.id, n.children)) =
      (childEntries root).map fun f => (f.1.id, f.2) := by
    rw [childEntries, List.map_flatMap]
    simp only [List.map_map, Function.comp_def]
  rw [siblings, siblingLists, Keyed.get?_ofList, entries, ← List.map_reverse, List.find?_map,
    Option.map_map]
  rfl

theorem siblings_cases (unique : root.UniqueIds) {n : Node} (hn : n ∈ root.visibleNodes) :
    siblings root n.id = [] ∨
      ∃ p ∈ root.visibleNodes, n ∈ p.children ∧ siblings root n.id = p.children := by
  rw [siblings_eq]
  cases found : (childEntries root).reverse.find? (·.1.id == n.id) with
  | none => exact .inl rfl
  | some f =>
    have hf := List.mem_reverse.mp (List.mem_of_find?_eq_some found)
    obtain ⟨p, hp, hf⟩ := List.mem_flatMap.mp hf
    obtain ⟨c, hc, rfl⟩ := List.mem_map.mp hf
    have same : c.id = n.id := eq_of_beq (List.find?_some found :)
    have within := mem_allNodes_trans (root.visibleNodes_subset hp) (mem_allNodes_child hc)
    obtain rfl := unique.eq_of_id within (root.visibleNodes_subset hn) same
    exact .inr ⟨p, hp, hc, rfl⟩

theorem childEntries_prune (root : Node) : childEntries root.prune =
    ((childEntries root).filter (·.1.visible)).map fun f => (f.1.prune, pruneAll f.2) := by
  rw [childEntries, childEntries, visibleNodes_prune, List.flatMap_map, List.filter_flatMap,
    List.map_flatMap]
  refine List.flatMap_congr fun n _ => ?_
  rw [children_prune, List.map_map, List.filter_map, List.map_map, ← pruneAll_eq]
  rfl

/-- The siblings of a visible node in the pruned tree are its visible siblings. -/
theorem siblings_prune (unique : root.UniqueIds) {n : Node} (hn : n ∈ root.visibleNodes) :
    siblings root.prune n.id = pruneAll (siblings root n.id) := by
  -- Entries of hidden children are lost, but none of these has the id of a visible node.
  have kept : ∀ f ∈ (childEntries root).reverse, (f.1.id == n.id) = true → f.1.visible = true := by
    intro f hf same
    obtain ⟨p, hp, hf⟩ := List.mem_flatMap.mp (List.mem_reverse.mp hf)
    obtain ⟨c, hc, rfl⟩ := List.mem_map.mp hf
    have within := mem_allNodes_trans (root.visibleNodes_subset hp) (mem_allNodes_child hc)
    rw [unique.eq_of_id within (root.visibleNodes_subset hn) (eq_of_beq same)]
    exact visible_of_mem_visibleNodes hn
  have found : (((childEntries root).filter (·.1.visible)).reverse.find? (·.1.id == n.id)) =
      (childEntries root).reverse.find? (·.1.id == n.id) := by
    rw [← List.filter_reverse, ← List.head?_filter, ← List.head?_filter, List.filter_filter]
    refine congrArg List.head? (List.filter_congr fun f hf => ?_)
    cases same : f.1.id == n.id with
    | false => rw [Bool.false_and]
    | true => rw [kept f hf same, Bool.and_self]
  rw [siblings_eq, siblings_eq, childEntries_prune, ← List.map_reverse, List.find?_map]
  simp only [Function.comp_def, id_prune]
  rw [found, Option.map_map]
  cases (childEntries root).reverse.find? (·.1.id == n.id) with
  | none => rfl
  | some f => rfl

/-! ## Controls -/

/-- The first child of the node, when it has one, is visible. -/
def StartsShown (n : Node) : Prop := ∀ c ∈ n.children.head?, c.visible = true

theorem inferControl_split {as bs : List Node} {n : Node} (fresh : ∀ a ∈ as, a.id ≠ n.id) :
    inferControl n (as ++ n :: bs) =
      ((as.reverse.find? isCandidate).or (bs.find? isCandidate)).or
        (n.children.head?.filter isCandidate) := by
  have rest : (as ++ n :: bs).drop (as.length + 1) = bs := by
    rw [List.drop_append, List.drop_eq_nil_of_le (Nat.le_succ _)]
    simp
  rw [inferControl, position?_split fresh, Option.bind_some, rest, List.take_left,
    Option.orElse_eq_or, Option.orElse_eq_or]

/-- In a list of siblings a section finds the same candidate. -/
theorem inferControl_prune {as bs : List Node} {n : Node} (hn : n.visible = true)
    (fresh : ∀ a ∈ as, a.id ≠ n.id) (starts : StartsShown n) :
    inferControl n.prune (pruneAll (as ++ n :: bs)) =
      (inferControl n (as ++ n :: bs)).map prune := by
  have fresh' : ∀ a ∈ pruneAll as, a.id ≠ n.prune.id := n.id_prune ▸ fresh_pruneAll fresh
  have before : (pruneAll as).reverse.find? isCandidate =
      (as.reverse.find? isCandidate).map prune := by
    rw [← isCandidate_sees.find?, pruneAll_eq, pruneAll_eq, ← List.map_reverse, List.filter_reverse]
  have head : n.prune.children.head?.filter isCandidate =
      (n.children.head?.filter isCandidate).map prune := by
    rw [children_prune]
    cases hc : n.children with
    | nil => rfl
    | cons c rest =>
      have shown : c.visible = true := starts c (by rw [hc]; rfl)
      rw [List.filter_cons_of_pos shown, List.map_cons, List.head?_cons, List.head?_cons]
      simp only [Option.filter_some, isCandidate_sees.pruned]
      split
      · rfl
      · rfl
  rw [pruneAll_append, pruneAll_shown hn, inferControl_split fresh', inferControl_split fresh, before,
    isCandidate_sees.find?, head, Option.map_or, Option.map_or]

/-- A section has the same control among its visible siblings. -/
theorem findControl_prune (unique : root.UniqueIds) {n : Node} (hn : n ∈ root.visibleNodes)
    (starts : namedControl? n = none → StartsShown n) :
    findControl n.prune (siblings root.prune n.id) =
      (findControl n (siblings root n.id)).map prune := by
  have shown := visible_of_mem_visibleNodes hn
  rw [siblings_prune unique hn]
  cases named : namedControl? n with
  | none =>
    simp only [findControl, namedControl?_prune, named]
    rcases siblings_cases unique hn with none | ⟨p, hp, hc, same⟩
    · rw [none]
      rfl
    · obtain ⟨as, bs, split, fresh⟩ := exists_split unique hp hc
      rw [same, split, inferControl_prune shown fresh (starts named)]
  | some id =>
    simp only [findControl, namedControl?_prune, named]
    have list : n.prune :: pruneAll (siblings root n.id) = pruneAll (n :: siblings root n.id) :=
      (pruneAll_shown shown _).symm
    rw [list, findSome?_button_prune]

/-! ## Labels and distances -/

theorem hasLabel_split {as bs : List Node} {n : Node} (fresh : ∀ a ∈ as, a.id ≠ n.id)
    (control : Option Node) : hasLabel n (as ++ n :: bs) control =
      ((control.any fun c => labelLength ≤ Text.size (Text.strip c.buttonText)) ||
        as.getLast?.any isShownText || n.children.any isShownText) := by
  rw [hasLabel, position?_split fresh]
  rcases List.eq_nil_or_concat as with rfl | ⟨init, m, rfl⟩
  · rfl
  · simp

/-- Without gaps a section has the same label. -/
theorem hasLabel_prune (unique : root.UniqueIds) (noGaps : NoGapsAround isCollapsible root) {n : Node}
    (hn : n ∈ root.visibleNodes) (collapsible : isCollapsible n = true) (control : Option Node) :
    hasLabel n.prune (siblings root.prune n.id) (control.map prune) =
      hasLabel n (siblings root n.id) control := by
  have shown := visible_of_mem_visibleNodes hn
  have text : ∀ c : Node, c.prune.buttonText = c.buttonText := fun c => by cases c <;> rfl
  have own : n.prune.children.any isShownText = n.children.any isShownText := by
    rw [children_prune, ← pruneAll_eq, isShownText_sees.any]
  have said : ((control.map prune).any fun c => labelLength ≤ Text.size (Text.strip c.buttonText)) =
      control.any fun c => labelLength ≤ Text.size (Text.strip c.buttonText) := by
    rw [Option.any_map]
    simp only [text]
  rw [siblings_prune unique hn]
  rcases siblings_cases unique hn with none | ⟨p, hp, hc, same⟩
  · rw [none, hasLabel, hasLabel, own, said]
    rfl
  · obtain ⟨as, bs, split, fresh⟩ := exists_split unique hp hc
    have gapless : Node.Gapless (as ++ n :: bs) := split ▸ noGaps p hp n hc shown collapsible
    have fresh' : ∀ a ∈ pruneAll as, a.id ≠ n.prune.id := n.id_prune ▸ fresh_pruneAll fresh
    rw [same, split, pruneAll_append, pruneAll_shown shown, hasLabel_split fresh',
      hasLabel_split fresh, own, said, gapless.before shown isShownText_sees]

/-- Two of a list of siblings stand as far apart as there are nodes between them. -/
theorem positions_split {as between bs : List Node} {a b : Node}
    (nodup : ((as ++ a :: (between ++ b :: bs)).map (·.id)).Nodup) :
    position? (as ++ a :: (between ++ b :: bs)) a.id = some as.length ∧
      position? (as ++ a :: (between ++ b :: bs)) b.id = some (as.length + (between.length + 1)) := by
  refine ⟨position?_split (fresh_of_nodup nodup), ?_⟩
  have regroup : as ++ a :: (between ++ b :: bs) = (as ++ a :: between) ++ b :: bs := by simp
  rw [regroup] at nodup ⊢
  rw [position?_split (fresh_of_nodup nodup)]
  simp

theorem pruneAll_ids_nodup {ns : List Node} (h : (ns.map (·.id)).Nodup) :
    ((pruneAll ns).map (·.id)).Nodup := by
  rw [pruneAll_eq, map_id_prune]
  exact h.sublist (List.filter_sublist.map _)

/-- Without gaps two visible siblings stand as far apart. -/
theorem positions_prune {as between bs : List Node} {a b : Node}
    (nodup : ((as ++ a :: (between ++ b :: bs)).map (·.id)).Nodup)
    (gapless : Node.Gapless (as ++ a :: (between ++ b :: bs))) (ha : a.visible = true)
    (hb : b.visible = true) :
    position? (pruneAll (as ++ a :: (between ++ b :: bs))) a.id = some (pruneAll as).length ∧
      position? (pruneAll (as ++ a :: (between ++ b :: bs))) b.id =
        some ((pruneAll as).length + (between.length + 1)) := by
  have nodup' := pruneAll_ids_nodup nodup
  have pruned : pruneAll (as ++ a :: (between ++ b :: bs)) =
      pruneAll as ++ a.prune :: (pruneAll between ++ b.prune :: pruneAll bs) := by
    rw [pruneAll_append, pruneAll_shown ha, pruneAll_append, pruneAll_shown hb]
  rw [pruned] at nodup' ⊢
  have apart := positions_split nodup'
  rwa [id_prune, id_prune, gapless.between ha hb] at apart

theorem position?_prune {as bs : List Node} {n : Node} (fresh : ∀ a ∈ as, a.id ≠ n.id)
    (hn : n.visible = true) :
    position? (pruneAll (as ++ n :: bs)) n.id = some (pruneAll as).length := by
  rw [pruneAll_append, pruneAll_shown hn, ← n.id_prune]
  exact position?_split (n.id_prune ▸ fresh_pruneAll fresh)

theorem position?_none {ns : List Node} {id : String} (other : ∀ a ∈ ns, a.id ≠ id) :
    position? ns id = none :=
  List.findIdx?_eq_none_iff.mpr fun a ha => beq_eq_false_iff_ne.mpr (other a ha)

/-- Without gaps a section and its control stand as far apart. -/
theorem distance?_prune (unique : root.UniqueIds) (noGaps : NoGapsAround isCollapsible root)
    {n c : Node} (hn : n ∈ root.visibleNodes) (collapsible : isCollapsible n = true)
    (hc : c ∈ root.visibleNodes) :
    distance? (siblings root.prune n.id) c.prune n.prune = distance? (siblings root n.id) c n := by
  rw [siblings_prune unique hn, distance?, distance?, id_prune, id_prune]
  rcases siblings_cases unique hn with none | ⟨p, hp, hn', same⟩
  · rw [none]
    rfl
  rw [same]
  have nodup := unique.children (root.visibleNodes_subset hp)
  have n_shown := visible_of_mem_visibleNodes hn
  have gapless := noGaps p hp n hn' n_shown collapsible
  have c_shown := visible_of_mem_visibleNodes hc
  by_cases sibling : c ∈ p.children
  case neg =>
    have other : ∀ a ∈ p.children, a.id ≠ c.id := by
      intro a ha alike
      have within := mem_allNodes_trans (root.visibleNodes_subset hp) (mem_allNodes_child ha)
      exact sibling (unique.eq_of_id within (root.visibleNodes_subset hc) alike ▸ ha)
    rw [position?_none other, position?_none (fresh_pruneAll other)]
  case pos =>
    obtain ⟨as, bs, split⟩ := List.append_of_mem hn'
    rw [split] at nodup gapless sibling ⊢
    rcases List.mem_append.mp sibling with before | after
    · obtain ⟨left, between, rfl⟩ := List.append_of_mem before
      simp only [List.append_assoc, List.cons_append] at nodup gapless ⊢
      obtain ⟨c_at, n_at⟩ := positions_split nodup
      obtain ⟨c_at', n_at'⟩ := positions_prune nodup gapless c_shown n_shown
      rw [c_at, n_at, c_at', n_at']
      simp only [Option.some.injEq]
      omega
    · rcases List.mem_cons.mp after with rfl | after
      · have fresh := fresh_of_nodup nodup
        rw [position?_split fresh, position?_prune fresh c_shown]
        simp only [Nat.sub_self]
      · obtain ⟨between, right, rfl⟩ := List.append_of_mem after
        obtain ⟨n_at, c_at⟩ := positions_split nodup
        obtain ⟨n_at', c_at'⟩ := positions_prune nodup gapless n_shown c_shown
        rw [c_at, n_at, c_at', n_at']
        simp only [Option.some.injEq]
        omega

/-! ## Rules -/

theorem sections_prune (h : root.UniqueShown) :
    sections root.prune = (sections root).map (Located.pruned root) := by
  rw [sections, h.walk_prune, (keeps_node h isCollapsible_prune).filter (List.Subset.refl _),
    sections]

/-- A section without a named control has no hidden child before its first one. -/
def SectionsStartShown (root : Node) : Prop :=
  ∀ n ∈ root.visibleNodes, isCollapsible n = true → namedControl? n = none → StartsShown n

theorem mem_sections {l : Located} (hl : l ∈ sections root) :
    l ∈ root.walk ∧ l.node ∈ root.visibleNodes ∧ isCollapsible l.node = true := by
  obtain ⟨hw, collapsible⟩ := List.mem_filter.mp hl
  exact ⟨hw, List.mem_map_of_mem hw, collapsible⟩

theorem controlFindings_prune (unique : root.UniqueIds) (starts : SectionsStartShown root) :
    PassesAlike root controlFindings := by
  rw [PassesAlike, controlFindings, controlFindings, sections_prune unique.shown,
    List.filterMap_eq_nil_iff, List.filterMap_eq_nil_iff, List.forall_mem_map]
  refine forall₂_congr fun l hl => ?_
  obtain ⟨hw, hn, collapsible⟩ := mem_sections hl
  rw [pruned_node unique.shown hw, id_prune,
    findControl_prune unique hn (starts l.node hn collapsible)]
  cases findControl l.node (siblings root l.node.id) with
  | none => simp
  | some c => simp

theorem labelFindings_prune (unique : root.UniqueIds) (starts : SectionsStartShown root)
    (noGaps : NoGapsAround isCollapsible root) : PassesAlike root labelFindings := by
  rw [PassesAlike, labelFindings, labelFindings, sections_prune unique.shown,
    List.filterMap_eq_nil_iff, List.filterMap_eq_nil_iff, List.forall_mem_map]
  refine forall₂_congr fun l hl => ?_
  obtain ⟨hw, hn, collapsible⟩ := mem_sections hl
  simp only [pruned_node unique.shown hw, id_prune,
    findControl_prune unique hn (starts l.node hn collapsible), hasLabel_prune unique noGaps hn collapsible,
    ite_eq_left_iff, reduceCtorEq, imp_false]

theorem button?_mem {n c : Node} {id : String} (h : button? n id = some c) : c ∈ n.visibleNodes :=
  List.mem_of_find?_eq_some h

/-- A control is a visible node of the tree. -/
theorem findControl_visible (unique : root.UniqueIds) {n c : Node} (hn : n ∈ root.visibleNodes)
    (hc : findControl n (siblings root n.id) = some c) : c ∈ root.visibleNodes := by
  have shown : ∀ p ∈ root.visibleNodes, ∀ m ∈ p.children, isCandidate m = true →
      m ∈ root.visibleNodes := fun p hp m hm candidate =>
    child_mem_visibleNodes hp hm (isCandidate_sees.shown m candidate)
  have parents := siblings_cases unique hn
  unfold findControl at hc
  split at hc
  · rcases parents with none | ⟨p, hp, hn', same⟩
    · rw [none] at hc
      cases hc
    · obtain ⟨as, bs, split, fresh⟩ := exists_split unique hp hn'
      rw [same, split, inferControl_split fresh, Option.or_eq_some_iff, Option.or_eq_some_iff] at hc
      rcases hc with (before | ⟨-, after⟩) | ⟨-, first⟩
      · have hm := List.mem_reverse.mp (List.mem_of_find?_eq_some before)
        exact shown p hp c (split ▸ List.mem_append_left _ hm) (List.find?_some before :)
      · have hm := List.mem_cons_of_mem n (List.mem_of_find?_eq_some after)
        exact shown p hp c (split ▸ List.mem_append_right _ hm) (List.find?_some after :)
      · obtain ⟨first, candidate⟩ := Option.filter_eq_some_iff.mp first
        exact shown n hn c (List.mem_of_mem_head? first) candidate
  · obtain ⟨m, hm, found⟩ := List.exists_of_findSome?_eq_some hc
    have inside := button?_mem found
    refine visibleNodes_trans ?_ inside
    rcases List.mem_cons.mp hm with rfl | hm
    · exact hn
    · rcases parents with none | ⟨p, hp, -, same⟩
      · rw [none] at hm
        cases hm
      · refine child_mem_visibleNodes hp (same ▸ hm) ?_
        by_contra hidden
        rw [visibleNodes_hidden (by simpa using hidden)] at inside
        cases inside

theorem distanceFindings_prune (unique : root.UniqueIds) (starts : SectionsStartShown root)
    (noGaps : NoGapsAround isCollapsible root) : PassesAlike root distanceFindings := by
  rw [PassesAlike, distanceFindings, distanceFindings, sections_prune unique.shown,
    List.filterMap_eq_nil_iff, List.filterMap_eq_nil_iff, List.forall_mem_map]
  refine forall₂_congr fun l hl => ?_
  obtain ⟨hw, hn, collapsible⟩ := mem_sections hl
  simp only [pruned_node unique.shown hw, id_prune,
    findControl_prune unique hn (starts l.node hn collapsible)]
  cases hc : findControl l.node (siblings root l.node.id) with
  | none => simp
  | some c =>
    have apart := distance?_prune unique noGaps hn collapsible (findControl_visible unique hn hc)
    simp only [Option.map_some, Option.bind_some, apart]
    cases distance? (siblings root l.node.id) c l.node with
    | none => simp
    | some d => simp only [Option.bind_some, ite_eq_left_iff, reduceCtorEq, imp_false]

theorem hidesPrimary_prune (n : Node) : hidesPrimary n.prune = hidesPrimary n := by
  rw [hidesPrimary, startsCollapsed, disclosure?_prune, visibleNodes_prune, List.any_map]
  simp only [Function.comp_def, isPrimaryButton_prune]
  rfl

theorem primaryFindings_prune (unique : root.UniqueShown) : PassesAlike root primaryFindings := by
  rw [PassesAlike, primaryFindings, primaryFindings, List.map_eq_nil_iff, List.map_eq_nil_iff,
    sections_prune unique,
    (keeps_node unique hidesPrimary_prune).filter (sections_visible root), List.map_eq_nil_iff]

/-! ### Affordances -/

theorem parents_prune (root : Node) (id : String) :
    Keyed.get? root.prune.parents id = (Keyed.get? root.parents id).map prune := by
  have entries : (root.prune.visibleNodes.flatMap fun n =>
      (n.children.filter (·.visible)).map fun c => (c.id, n)) =
        Keyed.mapValues prune (root.visibleNodes.flatMap fun n =>
          (n.children.filter (·.visible)).map fun c => (c.id, n)) := by
    rw [visibleNodes_prune, List.flatMap_map, Keyed.mapValues, List.map_flatMap]
    refine List.flatMap_congr fun n _ => ?_
    rw [children_prune, List.filter_map, List.filter_filter, List.map_map, List.map_map]
    simp only [Function.comp_def, visible_prune, Bool.and_self, id_prune]
  rw [parents, entries, Keyed.ofList_mapValues, Keyed.get?_mapValues, parents]

theorem families_prune (unique : root.UniqueShown) :
    families root.prune = Keyed.mapValues (List.map (Located.pruned root)) (families root) := by
  have entries : ((sections root).map (Located.pruned root)).map (fun l =>
      ((Keyed.get? root.prune.parents l.node.id).map (·.id), l)) =
        Keyed.mapValues (Located.pruned root) ((sections root).map fun l =>
          ((Keyed.get? root.parents l.node.id).map (·.id), l)) := by
    rw [Keyed.mapValues, List.map_map, List.map_map]
    refine List.map_congr_left fun l hl => ?_
    have hw := sections_visible root hl
    simp only [Function.comp_apply, pruned_node unique hw, id_prune, parents_prune, Option.map_map]
    simp only [Function.comp_def, id_prune]
  rw [families, sections_prune unique]
  exact (congrArg Keyed.group entries).trans (Keyed.group_mapValues _ _)

theorem familyFinding?_eq_none {members : List Located} :
    familyFinding? members = none ↔ inconsistent members = false := by
  cases members with
  | nil => exact iff_of_true rfl rfl
  | cons first rest =>
    simp only [familyFinding?, ite_eq_right_iff, reduceCtorEq, imp_false, Bool.not_eq_true]

theorem inconsistent_pruned (unique : root.UniqueShown) {members : List Located}
    (within : members ⊆ root.walk) :
    inconsistent (members.map (Located.pruned root)) = inconsistent members := by
  have same : Keeps root fun l => tokens l.node :=
    keeps_node unique fun n => by rw [tokens, header_prune, tokens]
  rw [inconsistent, same.map within, inconsistent]

theorem affordanceFindings_prune (unique : root.UniqueShown) :
    PassesAlike root affordanceFindings := by
  rw [PassesAlike, affordanceFindings, affordanceFindings, families_prune unique,
    List.filterMap_eq_nil_iff, List.filterMap_eq_nil_iff, Keyed.mapValues, List.forall_mem_map]
  refine forall₂_congr fun g hg => ?_
  rw [familyFinding?_eq_none, familyFinding?_eq_none, inconsistent_pruned unique (family_visible hg)]

/-! ### Required fields -/

/-- Is the node a field that has to be filled in? -/
def isRequired : Node → Bool
  | .field _ f => f.required == some true
  | _ => false

theorem firstRequired?_prune (root : Node) :
    firstRequired? root.prune = (firstRequired? root).map prune := by
  have required : ∀ n : Node, isRequired n.prune = isRequired n := fun n => by cases n <;> rfl
  show root.prune.visibleNodes.find? isRequired = (root.visibleNodes.find? isRequired).map prune
  rw [visibleNodes_prune, List.find?_map]
  simp only [Function.comp_def, required]

theorem earlyFindings_eq_nil : earlyFindings root = [] ↔ ∀ required ∈ firstRequired? root,
    (root.visibleNodes.takeWhile fun n => n.id != required.id).any isCollapsible = false := by
  unfold earlyFindings
  cases firstRequired? root with
  | none => simp
  | some required =>
    simp only [Option.mem_some_iff, forall_eq', Option.toList_eq_nil_iff, Option.map_eq_none_iff,
      visibleNodes, List.takeWhile_map, List.any_map, List.find?_eq_none, List.any_eq_false,
      Function.comp_def]

theorem earlyFindings_prune (root : Node) : PassesAlike root earlyFindings := by
  rw [PassesAlike, earlyFindings_eq_nil, earlyFindings_eq_nil, firstRequired?_prune]
  cases firstRequired? root with
  | none => simp
  | some required =>
    simp only [Option.map_some, Option.mem_some_iff, forall_eq', id_prune, visibleNodes_prune,
      List.takeWhile_map, Function.comp_def, List.any_map, isCollapsible_prune]

/-! ## The pattern -/

theorem pattern_prune (unique : root.UniqueIds) (starts : SectionsStartShown root)
    (noGaps : NoGapsAround isCollapsible root) : ∀ r ∈ pattern.rules, PassesAlike root r.check := by
  simp only [Pattern.rules, pattern, List.cons_append, List.nil_append, List.forall_mem_cons]
  exact ⟨controlFindings_prune unique starts, primaryFindings_prune unique.shown,
    labelFindings_prune unique starts noGaps, distanceFindings_prune unique starts noGaps,
    affordanceFindings_prune unique.shown, earlyFindings_prune root,
    fun _ h => absurd h List.not_mem_nil⟩

end Wireframe.Collapsibles
