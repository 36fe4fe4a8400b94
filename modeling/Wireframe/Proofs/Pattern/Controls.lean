import Wireframe.Proofs.Parents
import Wireframe.Proofs.Pattern.HiddenSections

/-
  Wireframe.Proofs.Pattern.Controls — the control of a collapsible section.

  A section that names its control has that one or none: a button with the id that is seen on the
  way down from the section or from a node next to it. Any other section has the candidate that is
  inferred: the closest one before it, else the closest one after it, else its first child, the row
  of its header. Before or after is asked first and how far away only then, so a candidate far
  before a section is preferred to one right after it.

  Siblings are looked up by id among the children of visible nodes. What is seen of a tree is there,
  but for its root, which is nobody's child. For the root the search ends before it starts: its own
  first child is not looked at, though it would be for a section anywhere else. So a section that is
  the whole screen and has its toggle in its first row is reported as one without a control.

  Proved:
  - `isCandidate_iff`: what a candidate is.
  - `inferControl_iff`: the candidate that is inferred.
  - `findControl_named_iff`: the button that is named.
  - `distance?_iff`: how far a control is from a section.
  - `control_found`: the control of a section that is not the root, and when it is told to be far.
  - `control_missing`: the sections without a name for their control that are reported.
-/

namespace Wireframe

/-! ## What is seen from a node down -/

namespace Node

/-- A way leads down from the first node to the second, and every node on it is visible. -/
inductive Shows : Node → Node → Prop where
  | here {n : Node} : n.visible = true → Shows n n
  | down {n c m : Node} : n.visible = true → c ∈ n.children → Shows c m → Shows n m

theorem mem_visibleNodes {n m : Node} : m ∈ n.visibleNodes ↔ n.Shows m := by
  constructor
  · intro h
    induction n using byChildren with
    | step n ih =>
      have shown : n.visible = true := by
        by_contra hidden
        rw [visibleNodes_hidden (by simpa using hidden)] at h
        cases h
      rw [visibleNodes_eq, if_pos shown] at h
      rcases List.mem_cons.mp h with rfl | h
      · exact .here shown
      · obtain ⟨c, hc, hm⟩ := List.mem_flatMap.mp h
        exact .down shown hc (ih c hc hm)
  · intro h
    induction h with
    | here shown => exact mem_visibleNodes_self shown
    | down shown hc _ ih =>
      rw [visibleNodes_eq, if_pos shown]
      exact List.mem_cons_of_mem _ (List.mem_flatMap.mpr ⟨_, hc, ih⟩)

end Node

/-! ## Findings at places -/

/-- Where at most one thing is found at every place, what is found about a place was found there. -/
theorem mem_filterMap_at {root : Node} {among : List Located} {find? : Located → Option Issue}
    (within : among ⊆ root.walk) (about : ∀ m i, find? m = some i → i.At m) {l : Located}
    (hl : l ∈ among) {i : Issue} : i ∈ among.filterMap find? ∧ i.At l ↔ find? l = some i := by
  constructor
  · rintro ⟨hi, own⟩
    obtain ⟨m, hm, found⟩ := List.mem_filterMap.mp hi
    have pointer := (about m i found).2.symm.trans own.2
    have nodup := root.pointers_nodup true rootPointer
    have same := List.inj_on_of_nodup_map nodup (within hm) (within hl) (by simpa using pointer)
    rwa [same] at found
  · exact fun found => ⟨List.mem_filterMap.mpr ⟨l, hl, found⟩, about l i found⟩

namespace Collapsibles

open Node hiding id

variable {root : Node}

/-! ## Candidates -/

/-- A visible button that says that it folds something, or looks like it. -/
structure Candidate (n : Node) : Prop where
  isButton : n.isButton = true
  visible : n.visible = true
  sign : Text.mentions controlWords n.buttonText = true ∨
    ∃ a ∈ n.header.affordances.getD [], a ∈ controlAffordances

theorem isCandidate_iff {n : Node} : isCandidate n = true ↔ Candidate n := by
  cases n with
  | button hd b =>
    rw [isCandidate, Bool.and_eq_true, Bool.or_eq_true, List.any_eq_true]
    simp only [List.contains_iff_mem]
    exact ⟨fun h => ⟨rfl, h.1, h.2⟩, fun h => ⟨h.visible, h.sign⟩⟩
  | stack | grid | box | text | field | form | table =>
    exact iff_of_false Bool.false_ne_true fun h => Bool.false_ne_true h.isButton

instance (n : Node) : Decidable (Candidate n) := decidable_of_iff _ isCandidate_iff

/-! ## The control that is inferred -/

/-- The control that is inferred for a section from what is before it and after it. -/
inductive ControlInferred (before after : List Node) (section_ : Node) : Option Node → Prop where
  /-- The last candidate before the section. -/
  | before {c : Node} : LastWith Candidate before c →
      ControlInferred before after section_ (some c)
  /-- When there is none, the first one after it. -/
  | after {c : Node} : (∀ b ∈ before, ¬Candidate b) → FirstWith Candidate after c →
      ControlInferred before after section_ (some c)
  /-- When there is none of these either, the first child of the section, if that is one. -/
  | own {c : Node} : (∀ b ∈ before, ¬Candidate b) → (∀ b ∈ after, ¬Candidate b) →
      c ∈ section_.children.head? → Candidate c → ControlInferred before after section_ (some c)
  /-- None, when none of these is a candidate. -/
  | none : (∀ b ∈ before, ¬Candidate b) → (∀ b ∈ after, ¬Candidate b) →
      (∀ c ∈ section_.children.head?, ¬Candidate c) →
      ControlInferred before after section_ Option.none

theorem inferControl_iff {as bs : List Node} {n : Node} (fresh : ∀ a ∈ as, a.id ≠ n.id)
    {control : Option Node} :
    inferControl n (as ++ n :: bs) = control ↔ ControlInferred as bs n control := by
  rw [inferControl_split fresh]
  constructor
  · rintro rfl
    cases before : as.reverse.find? isCandidate with
    | some c => exact .before ((find?_reverse_iff fun _ _ => isCandidate_iff).mp before)
    | none =>
    rw [List.find?_eq_none] at before
    have none_before : ∀ b ∈ as, ¬Candidate b := fun b hb candidate =>
      before b (List.mem_reverse.mpr hb) (isCandidate_iff.mpr candidate)
    cases after : bs.find? isCandidate with
    | some c =>
      exact .after none_before ((find?_iff_firstWith fun _ _ => isCandidate_iff).mp after)
    | none =>
    have none_after := (find?_eq_none_iff fun _ _ => isCandidate_iff).mp after
    cases own : n.children.head?.filter isCandidate with
    | some c =>
      obtain ⟨first, candidate⟩ := Option.filter_eq_some_iff.mp own
      exact .own none_before none_after first (isCandidate_iff.mp candidate)
    | none =>
      refine .none none_before none_after fun c hc candidate => ?_
      exact Option.filter_eq_none_iff.mp own c hc (isCandidate_iff.mpr candidate)
  · have none_before : (∀ b ∈ as, ¬Candidate b) → as.reverse.find? isCandidate = none :=
      fun h => (find?_eq_none_iff fun _ _ => isCandidate_iff).mpr
        fun b hb => h b (List.mem_reverse.mp hb)
    have none_after : (∀ b ∈ bs, ¬Candidate b) → bs.find? isCandidate = none :=
      (find?_eq_none_iff fun _ _ => isCandidate_iff).mpr
    intro chosen
    cases chosen with
    | before last =>
      rw [(find?_reverse_iff fun _ _ => isCandidate_iff).mpr last]
      rfl
    | after before first =>
      rw [none_before before, (find?_iff_firstWith fun _ _ => isCandidate_iff).mpr first]
      rfl
    | own before after first candidate =>
      rw [none_before before, none_after after,
        Option.filter_eq_some_iff.mpr ⟨first, isCandidate_iff.mpr candidate⟩]
      rfl
    | none before after own =>
      have none_own : n.children.head?.filter isCandidate = Option.none :=
        Option.filter_eq_none_iff.mpr fun c hc candidate =>
          own c hc (isCandidate_iff.mp candidate)
      rw [none_before before, none_after after, none_own]
      rfl

/-! ## The control that is named -/

/-- The button with an id that is seen from one of some nodes down. -/
inductive ControlNamed (around : List Node) (id : String) : Option Node → Prop where
  | shown {c : Node} : c.isButton = true → c.id = id → (∃ m ∈ around, m.Shows c) →
      ControlNamed around id (some c)
  /-- None, whatever else stands there. -/
  | none : (∀ c, c.isButton = true → c.id = id → ∀ m ∈ around, ¬m.Shows c) →
      ControlNamed around id Option.none

/-- The button with an id is seen from a node down. -/
theorem button?_shows {m c : Node} {id : String} (h : button? m id = some c) :
    c.isButton = true ∧ c.id = id ∧ m.Shows c := by
  have test : (c.id == id && c.isButton) = true := (List.find?_some h :)
  rw [Bool.and_eq_true, beq_iff_eq] at test
  exact ⟨test.2, test.1, mem_visibleNodes.mp (button?_mem h)⟩

theorem exists_button? {m c : Node} (button : c.isButton = true) (shows_ : m.Shows c) :
    ∃ d, button? m c.id = some d := by
  refine Option.isSome_iff_exists.mp (List.find?_isSome.mpr ⟨c, mem_visibleNodes.mpr shows_, ?_⟩)
  rw [button, beq_self_eq_true, Bool.and_self]

theorem findSome?_button_iff (unique : root.UniqueIds) {around : List Node}
    (within : around ⊆ root.allNodes) {id : String} {control : Option Node} :
    (around.findSome? fun m => button? m id) = control ↔ ControlNamed around id control := by
  constructor
  · rintro rfl
    cases found : around.findSome? fun m => button? m id with
    | some c =>
      obtain ⟨m, hm, found⟩ := List.exists_of_findSome?_eq_some found
      obtain ⟨button, named, shows_⟩ := button?_shows found
      exact .shown button named ⟨m, hm, shows_⟩
    | none =>
      refine .none fun c button named m hm shows_ => ?_
      obtain ⟨d, hd⟩ := exists_button? button shows_
      rw [named, List.findSome?_eq_none_iff.mp found m hm] at hd
      cases hd
  · intro chosen
    cases chosen with
    | @shown c button named shown =>
      obtain ⟨m, hm, shows_⟩ := shown
      obtain ⟨d, hd⟩ := exists_button? button shows_
      rw [named] at hd
      have some_found : (around.findSome? fun m => button? m id).isSome :=
        List.findSome?_isSome_iff.mpr ⟨m, hm, Option.isSome_of_eq_some hd⟩
      obtain ⟨e, he⟩ := Option.isSome_iff_exists.mp some_found
      obtain ⟨k, hk, found⟩ := List.exists_of_findSome?_eq_some he
      have inside : ∀ {m c : Node}, m ∈ around → m.Shows c → c ∈ root.allNodes := fun hm h =>
        mem_allNodes_trans (within hm) (visibleNodes_subset _ (mem_visibleNodes.mpr h))
      obtain ⟨-, same, shows_'⟩ := button?_shows found
      rw [he, unique.eq_of_id (inside hk shows_') (inside hm shows_) (same.trans named.symm)]
    | none absent =>
      refine List.findSome?_eq_none_iff.mpr fun m hm => ?_
      rw [Option.eq_none_iff_forall_ne_some]
      intro c found
      obtain ⟨button, named, shows_⟩ := button?_shows found
      exact absent c button named m hm shows_

/-! ## Siblings -/

/-- The siblings of a visible child are the children of its parent. -/
theorem siblings_child (unique : root.UniqueIds) {p l : Located} (hp : p ∈ root.walk)
    (hl : l ∈ p.shownChildren) : siblings root l.node.id = p.node.children := by
  have child := child_of_mem_shownChildren hl
  have visible : p.node ∈ root.visibleNodes := List.mem_map_of_mem hp
  have entry : (l.node.id, p.node.children) ∈
      root.visibleNodes.flatMap fun n => n.children.map fun c => (c.id, n.children) :=
    List.mem_flatMap.mpr ⟨p.node, visible,
      List.mem_map_of_mem (f := fun c : Node => (c.id, p.node.children)) child⟩
  obtain ⟨around, found, he⟩ := Keyed.exists_get?_ofList entry
  obtain ⟨n, hn, he⟩ := List.mem_flatMap.mp he
  obtain ⟨c, hc, same⟩ := List.mem_map.mp he
  obtain ⟨alike, rfl⟩ := Prod.mk.inj same
  rw [siblings, siblingLists, found, unique.parent_unique (root.visibleNodes_subset hn)
    (root.visibleNodes_subset visible) hc child alike]
  rfl

/-- The root has no siblings. -/
theorem siblings_root (unique : root.UniqueIds) : siblings root root.id = [] := by
  have absent : ∀ e ∈ (childEntries root).reverse, ¬(e.1.id == root.id) = true := by
    intro e he same
    obtain ⟨n, hn, he⟩ := List.mem_flatMap.mp (List.mem_reverse.mp he)
    obtain ⟨c, hc, rfl⟩ := List.mem_map.mp he
    exact unique.child_ne_root (root.visibleNodes_subset hn) hc (eq_of_beq same)
  rw [siblings_eq, List.find?_eq_none.mpr absent]
  rfl

/-! ## Distances -/

/-- Two of some siblings are so many apart, hidden ones counted. -/
def SiblingsApart (nodes : List Node) (a b : Node) (d : Nat) : Prop :=
  ∃ i j : Nat, nodes[i]? = some a ∧ nodes[j]? = some b ∧ (i + d = j ∨ j + d = i)

theorem position?_iff {nodes : List Node} {a : Node} (nodup : (nodes.map (·.id)).Nodup)
    (own : ∀ m ∈ nodes, m.id = a.id → m = a) {i : Nat} :
    position? nodes a.id = some i ↔ nodes[i]? = some a := by
  constructor
  · intro found
    obtain ⟨short, same, -⟩ := List.findIdx?_eq_some_iff_getElem.mp found
    rw [List.getElem?_eq_getElem short, own _ (List.getElem_mem short) (eq_of_beq same)]
  · intro here
    obtain ⟨short, same⟩ := List.getElem?_eq_some_iff.mp here
    have split : nodes = nodes.take i ++ a :: nodes.drop (i + 1) := by
      rw [← same, ← List.drop_eq_getElem_cons short, List.take_append_drop]
    rw [split] at nodup
    rw [split, position?_split (fresh_of_nodup nodup), List.length_take, Nat.min_eq_left short.le]

theorem distance?_iff {nodes : List Node} {a b : Node} (nodup : (nodes.map (·.id)).Nodup)
    (own_a : ∀ m ∈ nodes, m.id = a.id → m = a) (own_b : ∀ m ∈ nodes, m.id = b.id → m = b) {d : Nat} :
    distance? nodes a b = some d ↔ SiblingsApart nodes a b d := by
  unfold SiblingsApart
  simp only [← position?_iff nodup own_a, ← position?_iff nodup own_b]
  rw [distance?]
  cases position? nodes a.id with
  | none => simp
  | some i =>
  cases position? nodes b.id with
  | none => simp
  | some j =>
    simp only [Option.some.injEq, existsAndEq, true_and]
    omega

/-! ## The control of a section -/

theorem controlNamed_congr {as bs : List Node} (same : ∀ m, m ∈ as ↔ m ∈ bs) {id : String}
    {control : Option Node} : ControlNamed as id control ↔ ControlNamed bs id control := by
  have onward : ∀ {as bs : List Node}, (∀ m, m ∈ as ↔ m ∈ bs) → ControlNamed as id control →
      ControlNamed bs id control := by
    intro as bs same named
    cases named with
    | shown button named shown =>
      obtain ⟨m, hm, shows_⟩ := shown
      exact .shown button named ⟨m, (same m).mp hm, shows_⟩
    | none absent => exact .none fun c button named m hm => absent c button named m ((same m).mpr hm)
  exact ⟨onward same, onward fun m => (same m).symm⟩

/-- What is found for a section that stands between some of its siblings. -/
structure ControlFound (root : Node) (l : Located) (before after : List Node) : Prop where
  /-- When the section does not name its control, that is inferred. -/
  inferred : namedControl? l.node = none → ∀ control,
    findControl l.node (siblings root l.node.id) = control ↔
      ControlInferred before after l.node control
  /-- When it does, it is the button of that name that is seen from the section or one of its
  siblings down; and when there is no such button it is none, whatever could be inferred. -/
  named : ∀ id, namedControl? l.node = some id → ∀ control,
    findControl l.node (siblings root l.node.id) = control ↔
      ControlNamed (before ++ l.node :: after) id control
  /-- The control is told to be far away exactly when it is a sibling and two or more away. -/
  far : ∀ i, i ∈ distanceFindings root ∧ i.At l ↔ ∃ c d,
    findControl l.node (siblings root l.node.id) = some c ∧
      SiblingsApart (before ++ l.node :: after) c l.node d ∧ 2 ≤ d ∧ i = farFinding l c d

section

variable (unique : root.UniqueIds) {p l : Located} (hp : p ∈ root.walk) (child : l ∈ p.shownChildren)
include unique hp child

theorem findControl_unnamed {before after : List Node}
    (split : p.node.children = before ++ l.node :: after) (unnamed : namedControl? l.node = none)
    {control : Option Node} : findControl l.node (siblings root l.node.id) = control ↔
      ControlInferred before after l.node control := by
  have nodup := unique.children (node_mem_allNodes hp)
  rw [split] at nodup
  simp only [findControl, unnamed, siblings_child unique hp child, split]
  exact inferControl_iff (fresh_of_nodup nodup)

theorem findControl_named {id : String} (named : namedControl? l.node = some id)
    {control : Option Node} : findControl l.node (siblings root l.node.id) = control ↔
      ControlNamed p.node.children id control := by
  have own := child_of_mem_shownChildren child
  have within : l.node :: p.node.children ⊆ root.allNodes := by
    have parent := node_mem_allNodes hp
    refine List.cons_subset.mpr ⟨?_, ?_⟩
    · exact mem_allNodes_trans parent (mem_allNodes_child own)
    · exact fun c hc => mem_allNodes_trans parent (mem_allNodes_child hc)
  simp only [findControl, named, siblings_child unique hp child]
  rw [findSome?_button_iff unique within]
  refine controlNamed_congr fun m => ?_
  rw [List.mem_cons]
  exact or_iff_right_of_imp fun same => same ▸ own

theorem distanceFindings_at (hl : l ∈ sections root) {i : Issue} :
    i ∈ distanceFindings root ∧ i.At l ↔ ∃ c d,
      findControl l.node (siblings root l.node.id) = some c ∧
        SiblingsApart p.node.children c l.node d ∧ 2 ≤ d ∧ i = farFinding l c d := by
  have parent := node_mem_allNodes hp
  have nodup := unique.children parent
  have visible : l.node ∈ root.visibleNodes := (mem_sections hl).2.1
  have own : ∀ {c : Node}, c ∈ root.visibleNodes → ∀ m ∈ p.node.children, m.id = c.id → m = c :=
    fun hc m hm => unique.eq_of_id (mem_allNodes_trans parent (mem_allNodes_child hm))
      (root.visibleNodes_subset hc)
  refine (mem_filterMap_at (sections_visible root) (fun m i found => ?_) hl).trans ?_
  · obtain ⟨c, -, found⟩ := Option.bind_eq_some_iff.mp found
    obtain ⟨d, -, found⟩ := Option.bind_eq_some_iff.mp found
    obtain ⟨-, found⟩ := Option.ite_none_left_eq_some.mp found
    cases found
    exact ⟨rfl, rfl⟩
  · simp only [Option.bind_eq_some_iff, Option.ite_none_left_eq_some, Option.some.injEq]
    refine exists_congr fun c => ?_
    rw [← exists_and_left]
    refine exists_congr fun d => and_congr_right fun found => ?_
    have seen := own (findControl_visible unique visible found)
    rw [siblings_child unique hp child, distance?_iff nodup seen (own visible), Nat.not_le]
    exact and_congr_right fun _ => and_congr_right fun _ => eq_comm

end

/-- A section that is not the root has a control as it is inferred or named, and is told of when the
    control is far away. -/
theorem control_found (unique : root.UniqueIds) {l : Located} (hl : l ∈ sections root)
    (other : l ≠ ⟨root, rootPointer⟩) : ∃ p ∈ root.walk, l ∈ p.shownChildren ∧
      ∃ before after, p.node.children = before ++ l.node :: after ∧
        ControlFound root l before after := by
  rcases exists_parent (mem_sections hl).1 with top | ⟨p, hp, child⟩
  · exact absurd top other
  obtain ⟨before, after, split⟩ := List.append_of_mem (child_of_mem_shownChildren child)
  refine ⟨p, hp, child, before, after, split, ?_, ?_, ?_⟩
  · exact fun unnamed _ => findControl_unnamed unique hp child split unnamed
  · intro id named control
    rw [findControl_named unique hp child named, split]
  · intro i
    rw [distanceFindings_at unique hp child hl, split]

def filters (control : Option String) : Node :=
  .foldable "filters" control [.text (.plain "price") ⟨"Price", none, none, none⟩]

/-- Filters between two buttons, with a hidden note before them and a button further on. -/
def shelf (control : Option String) : Node :=
  .plainStack "shelf" .vertical
    [.plainButton "all" "Show all", .text (.hidden "note") ⟨"Note", none, none, none⟩,
      filters control, .plainButton "less" "Hide filters",
      .box (.plain "tray") none (some (.plainButton "sort" "Sort"))]

theorem shelf_found : (shelf none).UniqueIds ∧
    ⟨filters none, "/screen/root/children/2"⟩ ∈ sections (shelf none) ∧
    ∃ p ∈ (shelf none).walk, ⟨filters none, "/screen/root/children/2"⟩ ∈ p.shownChildren ∧
      ∃ before after, p.node.children = before ++ filters none :: after ∧
        ControlFound (shelf none) ⟨filters none, "/screen/root/children/2"⟩ before after := by
  have unique : (shelf none).UniqueIds := by decide +kernel
  have only : sections (shelf none) = [⟨filters none, "/screen/root/children/2"⟩] := rfl
  have here := only ▸ List.mem_singleton_self (⟨filters none, "/screen/root/children/2"⟩ : Located)
  refine ⟨unique, here, control_found unique here fun top => ?_⟩
  exact absurd (congrArg (·.pointer) top) (by decide)

/-- The button before the filters is preferred to the one right after them, and the hidden note makes
    it far away. -/
example : (distanceFindings (shelf none)).map (·.details) =
    [some (some [("controlId", .text "all"), ("distance", .nat 2)])] := rfl

/-- A button that is named may stand deeper, and then no distance is told. -/
example : (findControl (filters (some "sort")) (siblings (shelf (some "sort")) "filters")).map
    (·.id) = some "sort" ∧ distanceFindings (shelf (some "sort")) = [] := ⟨rfl, rfl⟩

/-! ## Sections without a control -/

/-- No sibling of a node is a candidate, and its first child is none either. -/
structure WithoutCandidate (root : Node) (l : Located) : Prop where
  siblings : ∀ p ∈ root.walk, l ∈ p.shownChildren → ∀ c ∈ p.node.children, c ≠ l.node → ¬Candidate c
  own : ∀ c ∈ l.node.children.head?, ¬Candidate c

theorem controlFindings_at {l : Located} (hl : l ∈ sections root) :
    (∃ i ∈ controlFindings root, i.At l) ↔ findControl l.node (siblings root l.node.id) = none := by
  refine (exists_congr fun i =>
    mem_filterMap_at (sections_visible root) (fun m i found => ?_) hl).trans ?_
  · split at found
    · cases found
    · cases found
      exact ⟨rfl, rfl⟩
  · cases findControl l.node (siblings root l.node.id) with
    | none => simp
    | some c => simp

/-- Nothing is inferred exactly when there is no candidate. -/
theorem controlInferred_none {before after : List Node} {n : Node} :
    ControlInferred before after n none ↔ (∀ c ∈ before ++ after, ¬Candidate c) ∧
      ∀ c ∈ n.children.head?, ¬Candidate c := by
  rw [List.forall_mem_append, and_assoc]
  refine ⟨fun inferred => ?_, fun ⟨before, after, own⟩ => .none before after own⟩
  cases inferred with
  | none before after own => exact ⟨before, after, own⟩

/-- Of the sections that do not name their control, those are reported that have no candidate next to
    them and none for their first child; and the root, whatever its first child is. -/
theorem control_missing (unique : root.UniqueIds) {l : Located} (hl : l ∈ sections root)
    (unnamed : namedControl? l.node = none) : (∃ i ∈ controlFindings root, i.At l) ↔
      l = ⟨root, rootPointer⟩ ∨ WithoutCandidate root l := by
  rw [controlFindings_at hl]
  rcases exists_parent (mem_sections hl).1 with rfl | ⟨p, hp, child⟩
  · refine iff_of_true ?_ (.inl rfl)
    simp only [findControl, unnamed, siblings_root unique]
    rfl
  have not_top : l ≠ ⟨root, rootPointer⟩ := by
    rintro rfl
    exact unique.child_ne_root (node_mem_allNodes hp) (child_of_mem_shownChildren child) rfl
  obtain ⟨before, after, split⟩ := List.append_of_mem (child_of_mem_shownChildren child)
  rw [findControl_unnamed unique hp child split unnamed, controlInferred_none,
    or_iff_right not_top]
  have others : ∀ c, c ∈ before ++ after ↔ c ∈ p.node.children ∧ c ≠ l.node := by
    have nodup := (unique.children (node_mem_allNodes hp)).of_map
    rw [split] at nodup ⊢
    have fresh := (List.nodup_cons.mp (List.nodup_middle.mp nodup)).1
    intro c
    constructor
    · intro hc
      refine ⟨?_, fun same => fresh (same ▸ hc)⟩
      rcases List.mem_append.mp hc with hc | hc
      · exact List.mem_append_left _ hc
      · exact List.mem_append_right _ (List.mem_cons_of_mem _ hc)
    · rintro ⟨hc, apart⟩
      simpa [apart] using hc
  constructor
  · rintro ⟨candidates, own⟩
    refine ⟨fun q hq child' c hc apart => candidates c ((others c).mpr ⟨?_, apart⟩), own⟩
    rwa [shownParent_unique unique hp hq child child']
  · rintro ⟨candidates, own⟩
    refine ⟨fun c hc => ?_, own⟩
    obtain ⟨hc, apart⟩ := (others c).mp hc
    exact candidates p hp child c hc apart

/-- A section with a button that folds it in its first row. -/
def panel : Node :=
  .foldable "panel" none
    [.plainButton "toggle" "Show details", .text (.plain "note") ⟨"Note", none, none, none⟩]

/-- In a page it is not reported. -/
theorem panel_in_page : (Node.plainStack "page" .vertical [panel]).UniqueIds ∧
    ⟨panel, "/screen/root/children/0"⟩ ∈ sections (.plainStack "page" .vertical [panel]) ∧
    namedControl? panel = none ∧
    ¬∃ i ∈ controlFindings (.plainStack "page" .vertical [panel]),
      i.At ⟨panel, "/screen/root/children/0"⟩ := by
  have unique : (Node.plainStack "page" .vertical [panel]).UniqueIds := by decide +kernel
  have only : sections (.plainStack "page" .vertical [panel]) =
      [⟨panel, "/screen/root/children/0"⟩] := rfl
  have here := only ▸ List.mem_singleton_self (⟨panel, "/screen/root/children/0"⟩ : Located)
  refine ⟨unique, here, rfl, fun reported => ?_⟩
  rcases (control_missing unique here rfl).mp reported with top | without
  · exact absurd (congrArg (·.pointer) top) (by decide)
  · exact without.own _ rfl (by decide)

/-- As the whole screen it is reported, although its first child is a candidate. -/
theorem panel_as_root : panel.UniqueIds ∧ ⟨panel, rootPointer⟩ ∈ sections panel ∧
    namedControl? panel = none ∧ (∃ c ∈ panel.children.head?, Candidate c) ∧
    (∃ i ∈ controlFindings panel, i.At ⟨panel, rootPointer⟩) ∧
    ¬WithoutCandidate panel ⟨panel, rootPointer⟩ := by
  have only : sections panel = [⟨panel, rootPointer⟩] := rfl
  have here : ⟨panel, rootPointer⟩ ∈ sections panel := only ▸ List.mem_singleton_self _
  have candidate : Candidate (.plainButton "toggle" "Show details") := by decide
  refine ⟨by decide +kernel, here, rfl, ⟨_, rfl, candidate⟩, ?_, ?_⟩
  · exact (controlFindings_at here).mpr rfl
  · exact fun without => without.own _ rfl candidate

end Collapsibles

end Wireframe
