import Wireframe.Proofs.Pattern.Hidden
import Wireframe.Proofs.Pattern.RenamedSteps

/-
  Wireframe.Proofs.Pattern.Renaming — ids matter only as far as they are equal.

  The rules of patterns look nodes up by ids, group them by the ids of their parents, and follow the
  ids that sections and wizards name. All of this is a matter of which ids are equal. None of them
  looks at how an id is spelled, or takes an id for another text.

  Proved:
  - `Forms.orderFindings_alike`, `Tables.adjacencyFindings_alike`, …: every rule finds the same on
    a renamed tree, about the nodes by their other names.
  - `findControl_renamed`, `families_renamed`: the control of a section, and the sections of one
    parent.
  - `Topic.pattern_alike`: every pattern of the catalog, whatever is known of a layout.
  - `ids_matter_by_equality`: layout, keyboard and patterns together.
-/

namespace Wireframe

variable (r : Renaming)

/-! ## Forms -/

namespace Forms

variable {r}

theorem labelFindings_alike : FindsAlike r labelFindings labelFindings := by
  refine .of_walk fun n p => ?_
  cases n with
  | field h f =>
    simp only [Node.renamed]
    split
    · rfl
    · rfl
  | stack | grid | box | text | button | form | table => rfl

theorem actionFindings_alike : FindsAlike r actionFindings actionFindings := by
  refine .of_walk fun n p => ?_
  cases n with
  | form h f fs as => cases as <;> rfl
  | stack | grid | box | text | button | field | table => rfl

theorem fieldAfterAction_renamed (n : Node) :
    fieldAfterAction (n.renamed r) = fieldAfterAction n := by
  simp only [fieldAfterAction, FormFlow.actionsOf_renamed, Node.map_id_renamed,
    Node.visibleNodes_renamed, List.dropWhile_map, List.any_map, Function.comp_def,
    Node.id_renamed, Node.isField_renamed, Renaming.contains_map]

theorem orderFindings_alike : FindsAlike r orderFindings orderFindings := by
  intro root
  unfold orderFindings
  rw [FormFlow.forms_renamed]
  refine .filterMap fun l _ => ?_
  rw [Located.node_renamed, fieldAfterAction_renamed]
  split
  · exact Finding.toldAlike r (congrArg some (l.node.id_renamed r)) rfl
  · rfl

theorem errorFields_renamed (ns : List Node) :
    errorFields (ns.map (Node.renamed r)) = (errorFields ns).map r := by
  rw [errorFields, errorFields, List.filterMap_map, List.map_filterMap]
  refine List.filterMap_congr fun n _ => ?_
  cases n with
  | field h f =>
    simp only [Function.comp_apply, Node.renamed]
    split
    · rfl
    · rfl
  | stack | grid | box | text | button | form | table => rfl

theorem errorStateFindings_alike : FindsAlike r errorStateFindings errorStateFindings := by
  refine .of_walk fun n p => ?_
  cases n with
  | form h f fs as =>
    simp only [Node.renamed, Node.renamedAll_eq, errorFields_renamed, List.isEmpty_map]
    split
    · rfl
    · rfl
  | stack | grid | box | text | button | field | table => rfl

theorem helpFindings_alike : FindsAlike r helpFindings helpFindings := by
  refine .of_walk fun n p => ?_
  cases n with
  | field h f =>
    simp only [Node.renamed]
    split
    · rfl
    · rfl
  | stack | grid | box | text | button | form | table => rfl

theorem pattern_alike : Forms.pattern.FindsAlike r Forms.pattern :=
  ⟨.cons labelFindings_alike (.cons actionFindings_alike (.cons orderFindings_alike
    (.cons errorStateFindings_alike .nil))), .cons helpFindings_alike .nil⟩

end Forms

/-! ## Tables -/

namespace Tables

variable {r}

theorem titleFindings_alike : FindsAlike r titleFindings titleFindings := by
  refine .of_walk fun n p => ?_
  cases n with
  | table h t =>
    simp only [Node.renamed]
    split
    · rfl
    · rfl
  | stack | grid | box | text | button | field | form => rfl

theorem strategyFindings_alike : FindsAlike r strategyFindings strategyFindings := by
  refine .of_walk fun n p => ?_
  cases n with
  | table h t =>
    simp only [Node.renamed, strategyProblem?]
    split
    · rfl
    · split
      · rfl
      · rfl
  | stack | grid | box | text | button | field | form => rfl

theorem fitFindings_alike (viewport : Option Number) :
    FindsAlike r (fitFindings viewport) (fitFindings viewport) := by
  refine .of_walk fun n p => ?_
  cases n with
  | table h t =>
    simp only [Node.renamed, fitFinding?]
    split
    · rfl
    · cases overrun? viewport t <;> rfl
  | stack | grid | box | text | button | field | form => rfl

theorem isControl_renamed (n : Node) : isControl (n.renamed r) = isControl n := by
  have leaf : ∀ n : Node, isControlLeaf (n.renamed r) = isControlLeaf n :=
    fun n => by cases n <;> rfl
  simp only [isControl, Node.visibleNodes_renamed, List.any_map, Function.comp_def, leaf]

theorem controlDistances_renamed (slots : List Slot) (position : Nat) :
    controlDistances (slots.map (Slot.renamed r)) position =
      Keyed.mapKeys r (controlDistances slots position) := by
  rw [controlDistances, controlDistances, ← Keyed.ofList_mapKeys r.injective, Keyed.mapKeys,
    List.zipIdx_map, List.filterMap_map, List.map_filterMap]
  refine congrArg Keyed.ofList (List.filterMap_congr fun placed _ => ?_)
  obtain ⟨s, i⟩ := placed
  simp only [Function.comp_apply, Prod.map, id_eq, Slot.renamed, Node.visible_renamed,
    isControl_renamed, Node.id_renamed]
  split
  · rfl
  · rfl

theorem adjacencyFindings_alike : FindsAlike r adjacencyFindings adjacencyFindings := by
  intro root
  unfold adjacencyFindings
  rw [Node.walk_renamed]
  refine .flatMap fun parent _ => ?_
  simp only [Located.node_renamed, Node.slots_renamed, List.zipIdx_map]
  refine .filterMap fun placed _ => ?_
  obtain ⟨s, i⟩ := placed
  have empty : ∀ ds : List (String × Nat), (Keyed.mapKeys r ds).isEmpty = ds.isEmpty :=
    fun ds => List.isEmpty_map
  have near : ∀ ds : List (String × Nat),
      (Keyed.mapKeys r ds).any (·.2 ≤ 1) = ds.any (·.2 ≤ 1) :=
    fun ds => List.any_map
  simp only [Prod.map, id_eq, adjacencyFinding?, controlDistances_renamed, Slot.renamed,
    Node.kind_renamed, Node.visible_renamed, empty, near]
  split
  · rfl
  · exact Finding.toldAlike r (congrArg some (s.node.id_renamed r)) rfl

theorem checkWidth_renamed (viewport : Option Number) (root : Node) :
    checkWidth viewport (root.renamed r) = checkWidth viewport root := by
  have own : ∀ n : Node, widthTold viewport (n.renamed r) = widthTold viewport n :=
    fun n => by cases n <;> rfl
  rw [checkWidth_eq, checkWidth_eq, Node.visibleNodes_renamed, List.forM_map]
  simp only [own]

theorem pattern_alike (viewport : Option Number) :
    (pattern viewport).FindsAlike r (pattern viewport) :=
  ⟨.cons titleFindings_alike (.cons strategyFindings_alike (.cons (fitFindings_alike viewport) .nil)),
    .cons adjacencyFindings_alike .nil⟩

end Tables

/-! ## Collapsible sections -/

namespace Collapsibles

variable {r}

@[simp] theorem isCollapsible_renamed (n : Node) : isCollapsible (n.renamed r) = isCollapsible n := by
  rw [isCollapsible, Node.disclosure?_renamed, Option.any_map, isCollapsible]
  rfl

theorem sections_renamed (root : Node) :
    sections (root.renamed r) = (sections root).map (Located.renamed r) := by
  simp only [sections, Node.walk_renamed, List.filter_map, Function.comp_def, Located.node_renamed,
    isCollapsible_renamed]

theorem siblings_renamed (root : Node) (id : String) :
    siblings (root.renamed r) (r id) = (siblings root id).map (Node.renamed r) := by
  have lists : siblingLists (root.renamed r) =
      Keyed.mapKeys r (Keyed.mapValues (List.map (Node.renamed r)) (siblingLists root)) := by
    rw [siblingLists, siblingLists, ← Keyed.ofList_mapValues, ← Keyed.ofList_mapKeys r.injective]
    refine congrArg Keyed.ofList ?_
    simp only [Node.visibleNodes_renamed, List.flatMap_map, Node.children_renamed, List.map_map,
      Keyed.mapKeys, Keyed.mapValues, List.map_flatMap, Function.comp_def, Node.id_renamed]
  rw [siblings, lists, Keyed.get?_mapKeys r.injective, Keyed.get?_mapValues, siblings]
  cases Keyed.get? (siblingLists root) id with
  | none => rfl
  | some ns => rfl

@[simp] theorem position?_renamed (ns : List Node) (id : String) :
    position? (ns.map (Node.renamed r)) (r id) = position? ns id := by
  simp only [position?, List.findIdx?_map, Function.comp_def, Node.id_renamed, Renaming.beq]

@[simp] theorem isCandidate_renamed (n : Node) : isCandidate (n.renamed r) = isCandidate n := by
  cases n <;> rfl

@[simp] theorem isShownText_renamed (n : Node) : isShownText (n.renamed r) = isShownText n := by
  cases n <;> rfl

/-! ### Controls -/

theorem inferControl_renamed (n : Node) (siblings : List Node) :
    inferControl (n.renamed r) (siblings.map (Node.renamed r)) =
      (inferControl n siblings).map (Node.renamed r) := by
  rw [inferControl, Node.id_renamed, position?_renamed, inferControl]
  cases position? siblings n.id with
  | none => rfl
  | some i =>
    simp only [Option.bind_some, ← List.map_take, ← List.map_drop, ← List.map_reverse,
      List.find?_map, Function.comp_def, isCandidate_renamed, Node.children_renamed,
      List.head?_map, Option.filter_map, Option.orElse_eq_or, Option.map_or]

theorem button?_renamed (n : Node) (id : String) :
    button? (n.renamed r) (r id) = (button? n id).map (Node.renamed r) := by
  simp only [button?, Node.visibleNodes_renamed, List.find?_map, Function.comp_def, Node.id_renamed,
    Renaming.beq, Node.isButton_renamed]

theorem namedControl?_renamed (n : Node) :
    namedControl? (n.renamed r) = (namedControl? n).map r := by
  rw [namedControl?, Node.disclosure?_renamed, namedControl?, ← Renaming.filter_map,
    Option.bind_map, Option.map_bind]
  rfl

theorem findControl_renamed (n : Node) (siblings : List Node) :
    findControl (n.renamed r) (siblings.map (Node.renamed r)) =
      (findControl n siblings).map (Node.renamed r) := by
  rw [findControl, namedControl?_renamed, findControl]
  cases namedControl? n with
  | none => exact inferControl_renamed n siblings
  | some id =>
    show ((n :: siblings).map (Node.renamed r)).findSome? _ = _
    rw [List.findSome?_map, List.map_findSome?]
    simp only [Function.comp_def, button?_renamed]

/-- The control of a section is that of the section by its other name. -/
theorem control_renamed (root n : Node) :
    findControl (n.renamed r) (siblings (root.renamed r) (n.renamed r).id) =
      (findControl n (siblings root n.id)).map (Node.renamed r) := by
  rw [Node.id_renamed, siblings_renamed, findControl_renamed]

/-! ### Rules -/

theorem controlFindings_alike : FindsAlike r controlFindings controlFindings := by
  intro root
  unfold controlFindings
  rw [sections_renamed]
  refine .filterMap fun l _ => ?_
  rw [Located.node_renamed, control_renamed]
  cases findControl l.node (siblings root l.node.id) with
  | some c => rfl
  | none => exact Finding.toldAlike r (congrArg some (l.node.id_renamed r)) rfl

theorem hidesPrimary_renamed (n : Node) : hidesPrimary (n.renamed r) = hidesPrimary n := by
  rw [hidesPrimary, startsCollapsed, Node.disclosure?_renamed, Option.any_map,
    Node.visibleNodes_renamed, List.any_map, hidesPrimary, startsCollapsed]
  simp only [Function.comp_def, Node.isPrimaryButton_renamed]
  rfl

theorem primaryFindings_alike : FindsAlike r primaryFindings primaryFindings := by
  intro root
  have found : (sections (root.renamed r)).filter (fun l => hidesPrimary l.node) =
      ((sections root).filter fun l => hidesPrimary l.node).map (Located.renamed r) := by
    simp only [sections_renamed, List.filter_map, Function.comp_def, Located.node_renamed,
      hidesPrimary_renamed]
  unfold primaryFindings
  rw [found]
  exact .map fun l _ => Finding.toldAlike r (congrArg some (l.node.id_renamed r)) rfl

theorem hasLabel_renamed (n : Node) (siblings : List Node) (control : Option Node) :
    hasLabel (n.renamed r) (siblings.map (Node.renamed r)) (control.map (Node.renamed r)) =
      hasLabel n siblings control := by
  simp only [hasLabel, Option.any_map, Function.comp_def, Node.buttonText_renamed, Node.id_renamed,
    position?_renamed, List.getElem?_map, isShownText_renamed, Node.children_renamed, List.any_map]

theorem labelFindings_alike : FindsAlike r labelFindings labelFindings := by
  intro root
  have same : ∀ n : Node, hasLabel (n.renamed r) (siblings (root.renamed r) (n.renamed r).id)
      (findControl (n.renamed r) (siblings (root.renamed r) (n.renamed r).id)) =
        hasLabel n (siblings root n.id) (findControl n (siblings root n.id)) := by
    intro n
    rw [control_renamed, Node.id_renamed, siblings_renamed, hasLabel_renamed]
  unfold labelFindings
  rw [sections_renamed]
  refine .filterMap fun l _ => ?_
  dsimp only
  rw [Located.node_renamed, same]
  split
  · rfl
  · exact Finding.toldAlike r (congrArg some (l.node.id_renamed r)) rfl

theorem distance?_renamed (siblings : List Node) (control n : Node) :
    distance? (siblings.map (Node.renamed r)) (control.renamed r) (n.renamed r) =
      distance? siblings control n := by
  rw [distance?, Node.id_renamed, Node.id_renamed, position?_renamed, position?_renamed, distance?]

theorem distanceFindings_alike : FindsAlike r distanceFindings distanceFindings := by
  intro root
  unfold distanceFindings
  rw [sections_renamed]
  refine .filterMap fun l _ => ?_
  simp only [Located.node_renamed, control_renamed]
  cases findControl l.node (siblings root l.node.id) with
  | none => rfl
  | some control =>
    simp only [Option.map_some, Option.bind_some, Node.id_renamed, siblings_renamed,
      distance?_renamed]
    cases distance? (siblings root l.node.id) control l.node with
    | none => rfl
    | some d =>
      simp only [Option.bind_some]
      split
      · rfl
      · exact Finding.toldAlike r (congrArg some (l.node.id_renamed r)) rfl

/-- Sections of one parent stay together, in their order. -/
theorem families_renamed (root : Node) : families (root.renamed r) =
    Keyed.mapKeys (Option.map r) (Keyed.mapValues (List.map (Located.renamed r)) (families root)) := by
  have injective : Function.Injective (Option.map r) := Option.map_injective r.injective
  rw [families, families, ← Keyed.group_mapValues, ← Keyed.group_mapKeys injective]
  refine congrArg Keyed.group ?_
  rw [sections_renamed, Keyed.mapKeys, Keyed.mapValues, List.map_map, List.map_map, List.map_map]
  refine List.map_congr_left fun l _ => ?_
  simp only [Function.comp_apply, Located.node_renamed, Node.id_renamed, Node.parents_renamed,
    Keyed.get?_mapKeys r.injective, Keyed.get?_mapValues, Option.map_map, Function.comp_def]

theorem tokens_renamed (n : Node) : tokens (n.renamed r) = tokens n := by
  rw [tokens, Node.header_renamed, tokens]
  rfl

theorem inconsistent_renamed (members : List Located) :
    inconsistent (members.map (Located.renamed r)) = inconsistent members := by
  simp only [inconsistent, List.map_map, Function.comp_def, Located.node_renamed, tokens_renamed]

theorem familyFinding?_alike (members : List Located) : ToldAlike r (familyFinding? members).toList
    (familyFinding? (members.map (Located.renamed r))).toList := by
  cases members with
  | nil => rfl
  | cons first rest =>
    have same : inconsistent (first.renamed r :: rest.map (Located.renamed r)) =
        inconsistent (first :: rest) := inconsistent_renamed (first :: rest)
    rw [List.map_cons]
    unfold familyFinding?
    dsimp only
    rw [same]
    split
    · exact Finding.toldAlike r (congrArg some (first.node.id_renamed r)) rfl
    · rfl

theorem affordanceFindings_alike : FindsAlike r affordanceFindings affordanceFindings := by
  intro root
  unfold affordanceFindings
  rw [families_renamed, Keyed.mapKeys, Keyed.mapValues, List.map_map]
  exact .filterMap fun g _ => familyFinding?_alike g.2

theorem firstRequired?_renamed (root : Node) :
    firstRequired? (root.renamed r) = (firstRequired? root).map (Node.renamed r) := by
  rw [firstRequired?, Node.visibleNodes_renamed, List.find?_map, firstRequired?]
  congr 2
  funext n
  cases n <;> rfl

theorem earlyFindings_alike : FindsAlike r earlyFindings earlyFindings := by
  intro root
  unfold earlyFindings
  rw [firstRequired?_renamed]
  cases firstRequired? root with
  | none => rfl
  | some required =>
    have before : ((root.renamed r).walk.takeWhile fun l => l.node.id != (required.renamed r).id).find?
        (fun l => isCollapsible l.node) = ((root.walk.takeWhile fun l => l.node.id != required.id).find?
          fun l => isCollapsible l.node).map (Located.renamed r) := by
      simp only [Node.walk_renamed, List.takeWhile_map, List.find?_map, Function.comp_def,
        Located.node_renamed, Node.id_renamed, Renaming.bne, isCollapsible_renamed]
    dsimp only [Option.map_some]
    rw [before]
    cases (root.walk.takeWhile fun l => l.node.id != required.id).find?
        fun l => isCollapsible l.node with
    | none => rfl
    | some l => exact Finding.toldAlike r (congrArg some (l.node.id_renamed r)) rfl

theorem pattern_alike : Collapsibles.pattern.FindsAlike r Collapsibles.pattern :=
  ⟨.cons controlFindings_alike (.cons primaryFindings_alike (.cons labelFindings_alike .nil)),
    .cons distanceFindings_alike (.cons affordanceFindings_alike (.cons earlyFindings_alike .nil))⟩

end Collapsibles

/-! ## The catalog -/

/-- What is known of a layout, with other ids of its frames. -/
def Surroundings.renamed (around : Surroundings) : Surroundings :=
  { around with sight := around.sight.map (Wizards.Sight.renamed r) }

namespace Topic

theorem pattern_alike (around : Surroundings) (t : Topic) :
    (t.pattern around).FindsAlike r (t.pattern (around.renamed r)) := by
  cases t with
  | forms => exact Forms.pattern_alike
  | tables => exact Tables.pattern_alike around.width
  | collapsibles => exact Collapsibles.pattern_alike
  | wizards => exact Wizards.pattern_alike around.sight

theorem check_renamed (room : Int) (around : Surroundings) (root : Node) (t : Topic) :
    t.check room (around.renamed r) (root.renamed r) = t.check room around root := by
  cases t with
  | tables => exact Tables.checkWidth_renamed around.width root
  | wizards => exact Wizards.checkNumbering_renamed room root
  | forms | collapsibles => rfl

end Topic

/-- Ids matter only as far as they are equal. With other names for all ids, and for the references
    to them, a tree has the same layout in every width, told with the same issues at the same
    pointers of a screen; the keyboard reaches the same nodes in the same order; and every pattern
    has the same verdict, or none, with the same issues at the same pointers. -/
theorem ids_matter_by_equality (root : Node) :
    (∀ (s : Surface Number) (width : Number) (v : Viewport) (screen : Node),
      ((root.renamed r).place s width).result =
          (root.place s width).result.map (Option.map (Placement.renamed (δ := Float) r)) ∧
        ToldAlike r ((root.place (δ := Float) s width).notes.map (·.toIssue v screen.pointers))
          (((root.renamed r).place (δ := Float) s width).notes.map
            (·.toIssue v (screen.renamed r).pointers))) ∧
    ((root.renamed r).focusOrder = root.focusOrder.map r ∧
      (root.renamed r).unreachable = root.unreachable.map r) ∧
    ∀ (room : Int) (around : Surroundings) (t : Topic),
      t.check room (around.renamed r) (root.renamed r) = t.check room around root ∧
        ((t.pattern (around.renamed r)).validate (root.renamed r)).CountsAlike
          ((t.pattern around).validate root) ∧
        ToldAlike r ((t.pattern around).validate root).issues
          ((t.pattern (around.renamed r)).validate (root.renamed r)).issues := by
  refine ⟨fun s width v screen => ?_, ⟨root.focusOrder_renamed r, root.unreachable_renamed r⟩,
    fun room around t => ⟨t.check_renamed r room around root, ?_, ?_⟩⟩
  · have laid := root.place_renames (r := r) (δ := Float) s width
    refine ⟨laid.result, ?_⟩
    rw [laid.notes]
    exact .map fun d _ => congrArg (fun o => [o]) (d.outline_renamed r v screen)
  · exact (t.pattern_alike r around).counts root
  · exact (t.pattern_alike r around).issues root

/-- Every id but the empty one gets a mark in front. -/
def Renaming.marked : Renaming where
  toFun id := if id = "" then "" else "x" ++ id
  injective := by
    intro a b h
    beta_reduce at h
    split at h <;> split at h
    · simp_all
    · simp at h
    · simp at h
    · simpa using h
  empty := if_pos rfl

/-- A section that names the button before it, and a wizard that names the section. -/
def Node.referring : Node :=
  .plainStack "page" .vertical
    [.plainButton "toggle" "Show details",
      .stack { Header.plain "section" with
          behaviors := some ⟨some ⟨true, none, some "toggle", none, ["collapsible", "controlsId"]⟩,
            none, ["disclosure"]⟩ }
        ⟨.vertical, none, none, .start, false⟩ [.sectionLabel],
      .stack { Header.plain "wizard" with
          behaviors := some ⟨none, some ⟨.wizard, none, none, none, none, some true, some "section",
            ["role", "hasProgress", "progressNodeId"]⟩, ["guidedFlow"]⟩ }
        ⟨.vertical, none, none, .start, false⟩ []]

/-- With marks in front the references lead where they led. -/
theorem Node.referring_marked :
    (Node.referring.renamed .marked).focusOrder = ["xtoggle"] ∧
    (∀ t : Topic, ((t.pattern .unknown).validate (Node.referring.renamed .marked)).CountsAlike
      ((t.pattern .unknown).validate .referring)) ∧
    ((Topic.wizards.pattern .unknown).validate (Node.referring.renamed .marked)).issues = [] := by
  obtain ⟨-, ⟨order, -⟩, verdicts⟩ := ids_matter_by_equality .marked .referring
  have quiet : ((Topic.wizards.pattern .unknown).validate .referring).issues.isEmpty = true := by
    decide +kernel
  refine ⟨order.trans (by decide +kernel), fun t => (verdicts 0 .unknown t).2.1, ?_⟩
  exact List.isEmpty_iff.mp ((verdicts 0 .unknown .wizards).2.2.isEmpty.trans quiet)

end Wireframe
