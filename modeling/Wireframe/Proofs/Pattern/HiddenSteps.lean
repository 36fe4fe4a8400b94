import Wireframe.Proofs.Hidden
import Wireframe.Proofs.Pattern.Wizards

/-
  Wireframe.Proofs.Pattern.HiddenSteps — hidden nodes take no part in a guided flow.

  Scopes, steps, rows and buttons are found on walks and among visible children. Where ids are
  unique each of them has its place in the pruned tree, and so the scopes of the pruned tree are
  those of the tree, place by place. The rules ask for nothing that is lost on the way.

  Proved:
  - `actionsOf_pruned`: a step has the same actions.
  - `scopes_prune`: the same scopes, with the same steps at the same indices.
  - `pattern_prune`: a rule of guided flows finds something on a tree exactly when it finds something
    on the pruned tree.
-/

namespace Wireframe.Wizards

open Node hiding id
open Located

variable {root : Node}

theorem guidedFlow?_prune (n : Node) : n.prune.guidedFlow? = n.guidedFlow? := by
  rw [guidedFlow?, header_prune, guidedFlow?]

theorem buttonText_prune (n : Node) : n.prune.buttonText = n.buttonText := by cases n <;> rfl

theorem isContainer_prune (n : Node) : n.prune.isContainer = n.isContainer := by
  rw [isContainer, kind_prune, isContainer]

theorem isHorizontal_prune (n : Node) : isHorizontal n.prune = isHorizontal n := by cases n <;> rfl

/-! ## Actions -/

section

variable (h : root.UniqueShown)

include h

theorem moveOf_keeps : Keeps root moveOf := by
  intro l hl
  rw [moveOf, moveOf, pruned_node h hl, buttonText_prune]

theorem isButton_keeps : Keeps root (·.node.isButton) := keeps_node h isButton_prune

theorem shownButtons_pruned {l : Located} (hl : l ∈ root.walk) :
    shownButtons (l.pruned root) = (shownButtons l).map (pruned root) := by
  rw [shownButtons, pruned_shownChildren h hl, (isButton_keeps h).filter (shownChildren_subset hl),
    shownButtons]

theorem isRow_keeps : Keeps root isRow := by
  intro l hl
  rw [isRow, isRow, shownButtons_pruned h hl, pruned_node h hl, kind_prune, List.isEmpty_map]

theorem rowOf?_pruned {step : Located} (hl : step ∈ root.walk) :
    rowOf? (step.pruned root) = (rowOf? step).map (pruned root) := by
  have within := subtree_subset hl
  have rows_within : step.subtree.filter isRow ⊆ root.walk :=
    fun _ hm => within (List.mem_of_mem_filter hm)
  have only_buttons : Keeps root fun l => l.shownChildren.all (·.node.isButton) := fun l hl => by
    beta_reduce
    rw [pruned_shownChildren h hl, (isButton_keeps h).all (shownChildren_subset hl)]
  have only_leaves : Keeps root fun l => !l.shownChildren.any (·.node.isContainer) := fun l hl => by
    beta_reduce
    rw [pruned_shownChildren h hl,
      (keeps_node h isContainer_prune).any (shownChildren_subset hl)]
  have level : Keeps root fun l => isHorizontal l.node := keeps_node h isHorizontal_prune
  have level_within : (step.subtree.filter isRow).filter (fun l => isHorizontal l.node) ⊆ root.walk :=
    fun _ hm => rows_within (List.mem_of_mem_filter hm)
  simp only [rowOf?, pruned_subtree h hl, (isRow_keeps h).filter within, level.filter rows_within,
    only_buttons.filter level_within, only_leaves.filter rows_within, List.getLast?_map,
    Option.orElse_eq_or, Option.map_or]

end

theorem buttons_subset {step : Located} (hl : step ∈ root.walk) :
    (actionsOf step).buttons ⊆ root.walk :=
  fun _ hb => subtree_subset hl (buttons_in_subtree (visible_of_mem hl) hb)

theorem rowOf?_in_walk {step row : Located} (hl : step ∈ root.walk) (hr : rowOf? step = some row) :
    row ∈ root.walk :=
  subtree_subset hl (rowOf?_in_subtree hr)

/-- The same actions in the pruned tree. -/
def Actions.pruned (root : Node) (a : Actions) : Actions :=
  ⟨a.row.map (Located.pruned root), a.buttons.map (Located.pruned root)⟩

/-- The buttons among the actions of a form. -/
def formButtons (step : Located) (actions : List Node) : List Located :=
  ((listSlots "actions" actions).map step.under).filter fun l => l.node.isButton && l.node.visible

theorem formButtons_nodes (step : Located) (actions : List Node) :
    (formButtons step actions).map (·.node) =
      actions.filter fun n => n.isButton && n.visible := by
  have nodes : ((listSlots "actions" actions).map step.under).map (·.node) = actions :=
    (List.map_map ..).trans (listSlots_nodes "actions" actions)
  rw [← nodes, List.filter_map, formButtons, nodes]
  rfl

theorem actionsOf_form {step : Located} {hd : Header} {f : FormContent} {fs as : List Node}
    (hn : step.node = .form hd f fs as) : actionsOf step = ⟨some step, formButtons step as⟩ := by
  unfold actionsOf
  rw [hn]
  rfl

theorem actionsOf_row {step : Located} (hn : step.node.kind ≠ .form) :
    actionsOf step = match rowOf? step with
      | some row => ⟨some row, shownButtons row⟩
      | none => ⟨none, []⟩ := by
  unfold actionsOf
  split
  · rename_i form
    exact absurd (congrArg kind form) hn
  · rfl

theorem actionsOf_pruned (h : root.UniqueShown) {step : Located} (hl : step ∈ root.walk) :
    actionsOf (step.pruned root) = (actionsOf step).pruned root := by
  have hn := pruned_node h hl
  by_cases form : step.node.kind = .form
  · cases own : step.node with
    | form hd f fs as =>
      rw [own] at hn
      have within : formButtons (step.pruned root) (pruneAll as) ⊆ root.prune.walk := by
        have all := buttons_subset (pruned_mem h hl)
        rwa [actionsOf_form hn] at all
      have nodes : (formButtons (step.pruned root) (pruneAll as)).map (·.node) =
          (formButtons step as).map (·.node.prune) := by
        have kept := congrArg (List.map prune) (formButtons_nodes step as)
        rw [List.map_map] at kept
        refine Eq.trans ?_ kept.symm
        simp only [formButtons_nodes, pruneAll_eq, List.filter_map, List.filter_filter,
          Function.comp_def, isButton_prune, visible_prune, Bool.and_assoc, Bool.and_self]
      rw [actionsOf_form hn, actionsOf_form own, h.eq_map_pruned within nodes]
      rfl
    | stack | grid | box | text | button | field | table => rw [own] at form; cases form
  · have form' : (step.pruned root).node.kind ≠ .form := by rwa [hn, kind_prune]
    rw [actionsOf_row form', actionsOf_row form, rowOf?_pruned h hl]
    cases hr : rowOf? step with
    | none => rfl
    | some row =>
      show Actions.mk (some (row.pruned root)) (shownButtons (row.pruned root)) = _
      rw [shownButtons_pruned h (rowOf?_in_walk hl hr)]
      rfl

/-! ## Scopes -/

/-- The same step in the pruned tree. -/
def Step.pruned (root : Node) (s : Step) : Step :=
  { s with place := s.place.pruned root, actions := s.actions.pruned root }

/-- The same scope in the pruned tree. -/
def Scope.pruned (root : Node) (scope : Scope) : Scope :=
  { scope with wizard := scope.wizard.map (Located.pruned root)
               steps := scope.steps.map (Step.pruned root) }

section

variable (h : root.UniqueShown)

include h

theorem plays_keeps (role : FlowRole) : Keeps root (plays role) := by
  intro l hl
  rw [plays, plays, pruned_node h hl, guidedFlow?_prune]

theorem statedTotal_keeps : Keeps root statedTotal := by
  intro l hl
  rw [statedTotal, statedTotal, pruned_node h hl, guidedFlow?_prune]

theorem indexOr_keeps (position : Nat) : Keeps root (indexOr position) := by
  intro l hl
  rw [indexOr, indexOr, pruned_node h hl, guidedFlow?_prune]

theorem keptSteps_pruned {places : List Located} (within : places ⊆ root.walk) :
    keptSteps (places.map (Located.pruned root)) = (keptSteps places).map (Step.pruned root) := by
  rw [keptSteps, keptSteps, List.zipIdx_map, List.filterMap_map, List.map_filterMap]
  refine List.filterMap_congr fun ⟨l, position⟩ hl => ?_
  have hl : l ∈ root.walk := within (List.fst_mem_of_mem_zipIdx hl)
  simp only [Function.comp_def, Prod.map, id_eq, indexOr_keeps h position l hl,
    statedTotal_keeps h l hl, actionsOf_pruned h hl]
  split
  · rfl
  · rfl

theorem totalOf_pruned {wizard : Option Located} (hw : ∀ w ∈ wizard, w ∈ root.walk)
    (steps : List Step) :
    totalOf (wizard.map (Located.pruned root)) (steps.map (Step.pruned root)) =
      totalOf wizard steps := by
  have stated : (wizard.map (Located.pruned root)).bind statedTotal = wizard.bind statedTotal := by
    cases wizard with
    | none => rfl
    | some w => exact statedTotal_keeps h w (hw w rfl)
  rw [totalOf, totalOf, stated, List.map_map, List.map_map]
  rfl

theorem Scope.of_pruned {wizard : Option Located} (hw : ∀ w ∈ wizard, w ∈ root.walk)
    {places : List Located} (within : places ⊆ root.walk) :
    Scope.of (wizard.map (Located.pruned root)) (places.map (Located.pruned root)) =
      (Scope.of wizard places).pruned root := by
  have completed : ∀ total, (Step.within total ∘ Step.pruned root) =
      (Step.pruned root ∘ Step.within total) := by
    intro total
    funext s
    by_cases unsaid : s.total = 0
    · simp [Step.within, Step.pruned, unsaid]
    · simp [Step.within, Step.pruned, unsaid]
  have sorted : ∀ steps : List Step,
      (steps.map (Step.pruned root)).mergeSort (fun a b => a.index ≤ b.index) =
        (steps.mergeSort fun a b => a.index ≤ b.index).map (Step.pruned root) := by
    intro steps
    refine (List.map_mergeSort ?_).symm
    exact fun _ _ _ _ => rfl
  simp only [Scope.of, keptSteps_pruned h within, totalOf_pruned h hw, List.map_map, completed]
  rw [← List.map_map, sorted]
  rfl

theorem owner?_pruned {wizards : List Located} (within : wizards ⊆ root.walk) {step : Located}
    (hl : step ∈ root.walk) :
    owner? (wizards.map (Located.pruned root)) (step.pruned root) = owner? wizards step := by
  have named : Keeps root fun l => l.node.id == step.node.id := by
    intro l hl
    beta_reduce
    rw [pruned_node h hl, id_prune]
  have owns : Keeps root fun w => w.subtree.any (·.node.id == step.node.id) := by
    intro w hw
    beta_reduce
    rw [pruned_subtree h hw, named.any (subtree_subset hw)]
  rw [owner?, pruned_node h hl, id_prune, owns.findIdx? within, owner?]

end

/-- The visible wizards of a tree. -/
def wizardsOf (root : Node) : List Located := root.walk.filter (plays .wizard)

/-- The visible steps of a tree that have this owner. -/
def stepsOf (root : Node) (owner : Option Nat) : List Located :=
  (((root.walk.filter (plays .step)).map fun l => (owner? (wizardsOf root) l, l)).filter
    (·.1 == owner)).map (·.2)

theorem scopes_eq (root : Node) : scopes root =
    ((wizardsOf root).zipIdx.map fun (w, i) => Scope.of (some w) (stepsOf root (some i))) ++
      (if (wizardsOf root).isEmpty || !(stepsOf root none).isEmpty then
        [Scope.of none (stepsOf root none)] else []) := rfl

theorem wizardsOf_subset (root : Node) : wizardsOf root ⊆ root.walk := List.filter_subset_self _

theorem stepsOf_subset (root : Node) (owner : Option Nat) : stepsOf root owner ⊆ root.walk := by
  intro l hl
  obtain ⟨_, kept, rfl⟩ := List.mem_map.mp hl
  obtain ⟨m, hm, rfl⟩ := List.mem_map.mp (List.mem_of_mem_filter kept)
  exact List.mem_of_mem_filter hm

theorem wizardsOf_prune (h : root.UniqueShown) :
    wizardsOf root.prune = (wizardsOf root).map (Located.pruned root) := by
  rw [wizardsOf, h.walk_prune, (plays_keeps h .wizard).filter (List.Subset.refl _), wizardsOf]

theorem stepsOf_prune (h : root.UniqueShown) (owner : Option Nat) :
    stepsOf root.prune owner = (stepsOf root owner).map (Located.pruned root) := by
  have owned : ((root.walk.filter (plays .step)).map (Located.pruned root)).map
      (fun l => (owner? ((wizardsOf root).map (Located.pruned root)) l, l)) =
        ((root.walk.filter (plays .step)).map fun l => (owner? (wizardsOf root) l, l)).map
          (Prod.map id (Located.pruned root)) := by
    rw [List.map_map, List.map_map]
    refine List.map_congr_left fun l hl => ?_
    rw [Function.comp_apply, owner?_pruned h (wizardsOf_subset root) (List.mem_of_mem_filter hl)]
    rfl
  rw [stepsOf, wizardsOf_prune h, h.walk_prune,
    (plays_keeps h .step).filter (List.Subset.refl _), owned, List.filter_map, List.map_map, stepsOf,
    List.map_map]
  rfl

theorem scopes_prune (h : root.UniqueShown) :
    scopes root.prune = (scopes root).map (Scope.pruned root) := by
  have wizards : ((wizardsOf root).zipIdx.map (Prod.map (Located.pruned root) id)).map
      (fun (w, i) => Scope.of (some w) ((stepsOf root (some i)).map (Located.pruned root))) =
        ((wizardsOf root).zipIdx.map fun (w, i) => Scope.of (some w) (stepsOf root (some i))).map
          (Scope.pruned root) := by
    rw [List.map_map, List.map_map]
    refine List.map_congr_left fun ⟨w, i⟩ hw => ?_
    have hw : w ∈ root.walk := wizardsOf_subset root (List.fst_mem_of_mem_zipIdx hw)
    have own : ∀ v ∈ some w, v ∈ root.walk := by
      intro v hv
      obtain rfl := Option.mem_some_iff.mp hv
      exact hw
    exact Scope.of_pruned h own (stepsOf_subset root (some i))
  have nobody : ∀ w ∈ (none : Option Located), w ∈ root.walk := fun _ hw => nomatch hw
  have screen : Scope.of none ((stepsOf root none).map (Located.pruned root)) =
      (Scope.of none (stepsOf root none)).pruned root :=
    Scope.of_pruned h nobody (stepsOf_subset root none)
  rw [scopes_eq, scopes_eq, wizardsOf_prune h, List.zipIdx_map]
  simp only [stepsOf_prune h, List.isEmpty_map, wizards, screen, List.map_append]
  congr 1
  split
  · rfl
  · rfl

/-! ## Rules -/

section

variable (h : root.UniqueShown)

include h

/-- A rule about every step passes alike when it says nothing about the same steps. -/
theorem stepFindings_prune {rule : String} {severity : Severity} {suggestion : String}
    {problem? : Scope → Step → Option (String × Object)}
    (same : ∀ scope : Scope, ∀ s ∈ scope.steps, s.place ∈ root.walk →
      s.actions.buttons ⊆ root.walk →
        (problem? (scope.pruned root) (s.pruned root) = none ↔ problem? scope s = none)) :
    PassesAlike root (stepFindings rule severity suggestion problem?) := by
  rw [PassesAlike, stepFindings_eq_nil, stepFindings_eq_nil, scopes_prune h, List.forall_mem_map]
  refine forall₂_congr fun scope hscope => ?_
  show (∀ s ∈ scope.steps.map (Step.pruned root), _) ↔ _
  rw [List.forall_mem_map]
  refine forall₂_congr fun s hs => ?_
  obtain ⟨hl, own⟩ := steps_in_walk hscope hs
  exact same scope s hs hl (own ▸ buttons_subset hl)

variable {s : Step} {scope : Scope}

theorem has_pruned (within : s.actions.buttons ⊆ root.walk) (m : Move) :
    (s.pruned root).has m = s.has m := by
  have moves : Keeps root fun b => moveOf b == m := by
    intro b hb
    beta_reduce
    rw [moveOf_keeps h b hb]
  exact moves.any within

theorem leadsOn_pruned (within : s.actions.buttons ⊆ root.walk) :
    (s.pruned root).leadsOn = s.leadsOn := by
  have leads : Keeps root fun b =>
      moveOf b == .next || (b.node.isPrimaryButton && moveOf b != .back) := by
    intro b hb
    beta_reduce
    rw [moveOf_keeps h b hb, pruned_node h hb, isPrimaryButton_prune]
  exact leads.any within

theorem primaries_pruned (within : s.actions.buttons ⊆ root.walk) :
    (s.pruned root).primaries = s.primaries.map (Located.pruned root) :=
  (keeps_node h isPrimaryButton_prune).filter within

/-- A step is divided at the place of its first button, which is in the pruned tree where this
    button is. -/
theorem aroundActions_pruned (hl : s.place ∈ root.walk) (within : s.actions.buttons ⊆ root.walk) :
    (s.pruned root).aroundActions =
      Prod.map (List.map (Located.pruned root)) (List.map (Located.pruned root)) s.aroundActions := by
  have first : ∀ l ∈ s.place.subtree,
      (!(s.actions.buttons.head?.map (Located.pruned root)).any (l.pruned root).isAt) =
        !s.actions.buttons.head?.any l.isAt := by
    intro l hm
    cases hb : s.actions.buttons.head? with
    | none => rfl
    | some b =>
      have hb : b ∈ root.walk := within (List.mem_of_mem_head? hb)
      simp only [Option.map_some, Option.any_some, pruned_isAt h (subtree_subset hl hm) hb]
  simp only [Step.aroundActions, Step.pruned, Actions.pruned, pruned_subtree h hl, List.head?_map,
    List.span_eq_takeWhile_dropWhile, List.takeWhile_map, List.dropWhile_map, Function.comp_def,
    takeWhile_congr first, dropWhile_congr first, Prod.map]

theorem misplacedFields_pruned (hl : s.place ∈ root.walk)
    (within : s.actions.buttons ⊆ root.walk) :
    (s.pruned root).misplacedFields = s.misplacedFields.map (Located.pruned root) := by
  have after_within : s.aroundActions.2.drop 1 ⊆ root.walk := by
    intro l hm
    have hm := List.mem_of_mem_drop hm
    rw [Step.aroundActions, List.span_eq_takeWhile_dropWhile] at hm
    exact subtree_subset hl ((List.dropWhile_sublist _).subset hm)
  rw [Step.misplacedFields, aroundActions_pruned h hl within, Prod.map, ← List.map_drop,
    (keeps_node h isField_prune).filter after_within, Step.misplacedFields]

theorem primary?_pruned (within : s.actions.buttons ⊆ root.walk) :
    (s.pruned root).primary? = s.primary?.map (Located.pruned root) := by
  have forward : Keeps root fun b => moveOf b == .next || moveOf b == .finish := by
    intro b hb
    beta_reduce
    rw [moveOf_keeps h b hb]
  have found : (s.pruned root).actions.buttons.find? (fun b => moveOf b == .next || moveOf b == .finish) =
      (s.actions.buttons.find? fun b => moveOf b == .next || moveOf b == .finish).map
        (Located.pruned root) :=
    forward.find? within
  rw [Step.primary?, primaries_pruned h within, found, Step.primary?, List.head?_map,
    Option.orElse_eq_or, Option.orElse_eq_or, Option.map_or]

omit h in
theorem primary?_in_walk (within : s.actions.buttons ⊆ root.walk) {b : Located}
    (hb : s.primary? = some b) : b ∈ root.walk := by
  rw [Step.primary?, Option.orElse_eq_or, Option.or_eq_some_iff] at hb
  rcases hb with hb | ⟨-, hb⟩
  · exact within (List.mem_of_mem_filter (List.mem_of_mem_head? hb))
  · exact within (List.mem_of_find?_eq_some hb)

theorem nextFindings_prune : PassesAlike root nextFindings := by
  refine stepFindings_prune h fun scope s _ _ within => ?_
  simp only [ite_eq_left_iff, reduceCtorEq, imp_false, leadsOn_pruned h within]
  rfl

theorem missingBackFindings_prune : PassesAlike root missingBackFindings := by
  refine stepFindings_prune h fun scope s _ _ within => ?_
  simp only [ite_eq_left_iff, reduceCtorEq, imp_false, has_pruned h within]
  rfl

theorem finishFindings_prune : PassesAlike root finishFindings := by
  refine stepFindings_prune h fun scope s _ _ within => ?_
  simp only [ite_eq_left_iff, reduceCtorEq, imp_false, has_pruned h within]
  rfl

theorem fieldFindings_prune : PassesAlike root fieldFindings := by
  refine stepFindings_prune h fun scope s _ hl within => ?_
  simp only [ite_eq_left_iff, reduceCtorEq, imp_false, misplacedFields_pruned h hl within,
    List.isEmpty_map]

theorem primaryFindings_prune : PassesAlike root primaryFindings := by
  refine stepFindings_prune h fun scope s _ _ within => ?_
  simp only [ite_eq_left_iff, reduceCtorEq, imp_false, primaries_pruned h within, List.length_map]

theorem orderFindings_prune : PassesAlike root orderFindings := by
  refine stepFindings_prune h fun scope s _ _ within => ?_
  have moves : (s.pruned root).actions.buttons.map moveOf = s.actions.buttons.map moveOf :=
    (moveOf_keeps h).map within
  simp only [moves, ite_eq_right_iff, reduceCtorEq, imp_false]

theorem titleFindings_prune : PassesAlike root titleFindings := by
  refine stepFindings_prune h fun scope s _ hl within => ?_
  have before_within : s.aroundActions.1 ⊆ root.walk := by
    intro l hm
    rw [Step.aroundActions, List.span_eq_takeWhile_dropWhile] at hm
    exact subtree_subset hl ((List.takeWhile_sublist _).subset hm)
  have text : Keeps root fun l => l.node.kind == .text := by
    intro l hl
    beta_reduce
    rw [pruned_node h hl, kind_prune]
  simp only [ite_eq_left_iff, reduceCtorEq, imp_false, aroundActions_pruned h hl within, Prod.map,
    text.any before_within]

theorem foldFindings_prune (sight : Option Sight) : PassesAlike root (foldFindings sight) := by
  cases sight with
  | none => exact Iff.rfl
  | some v =>
    refine stepFindings_prune h fun scope s _ _ within => ?_
    have below : (v.belowFold? (s.pruned root)).isNone = (v.belowFold? s).isNone := by
      rw [Sight.belowFold?, Sight.belowFold?, primary?_pruned h within]
      cases hb : s.primary? with
      | none => rfl
      | some b =>
        simp only [Option.map_some, Option.bind_some,
          pruned_node h (primary?_in_walk within hb), id_prune]
        cases v.frame? b.node.id with
        | none => rfl
        | some f =>
          simp only [Option.bind_some]
          split
          · rfl
          · rfl
    rw [Option.map_eq_none_iff, Option.map_eq_none_iff, ← Option.isNone_iff_eq_none, below,
      Option.isNone_iff_eq_none]

theorem numberingFindings_prune : PassesAlike root numberingFindings := by
  rw [PassesAlike, numberingFindings_eq_nil, numberingFindings_eq_nil, scopes_prune h,
    List.forall_mem_map]
  refine forall₂_congr fun scope _ => ?_
  have indices : (scope.pruned root).indices = scope.indices := by
    rw [Scope.indices, Scope.pruned, List.map_map]
    rfl
  have steps : (scope.pruned root).steps ≠ [] ↔ scope.steps ≠ [] := not_congr List.map_eq_nil_iff
  have numbered : (scope.pruned root).Numbered ↔ scope.Numbered := by
    rw [← isComplete_iff, ← isComplete_iff, isComplete, indices]
    rfl
  rw [steps, numbered]

theorem illegalBackFindings_prune : PassesAlike root illegalBackFindings := by
  rw [PassesAlike, illegalBackFindings_eq_nil, illegalBackFindings_eq_nil, scopes_prune h,
    List.forall_mem_map]
  refine forall₂_congr fun scope hscope => ?_
  have first : (scope.pruned root).steps.find? (·.index == 1) =
      (scope.steps.find? (·.index == 1)).map (Step.pruned root) := List.find?_map ..
  simp only [first, Option.map_eq_some_iff, forall_exists_index, and_imp,
    forall_apply_eq_imp_iff₂]
  refine forall₂_congr fun s hs => ?_
  obtain ⟨hl, own⟩ := steps_in_walk hscope (List.mem_of_find?_eq_some hs)
  rw [← Step.has_iff, ← Step.has_iff, has_pruned h (own ▸ buttons_subset hl)]

omit h in
theorem progressFindings_eq_nil : progressFindings root = [] ↔
    ∀ scope ∈ scopes root, ∀ w ∈ scope.wizard, promisesProgress w = true →
      progressNode? root w.node ≠ none := by
  simp only [progressFindings, List.filterMap_eq_nil_iff, Option.bind_eq_none_iff,
    Option.filter_eq_some_iff, and_imp]
  refine forall₂_congr fun scope _ => forall₃_congr fun w _ _ => ?_
  cases progressNode? root w.node with
  | none => simp
  | some n => simp

theorem promisesProgress_keeps : Keeps root promisesProgress := by
  intro l hl
  rw [promisesProgress, promisesProgress, pruned_node h hl, guidedFlow?_prune]

omit h in
theorem find?_prune (root : Node) (id : String) :
    root.prune.find? id true = (root.find? id true).map prune := by
  have visible : ∀ n : Node, n.find? id true = n.visibleNodes.find? (·.id == id) := by
    intro n
    rw [Node.find?, visibleNodes, List.find?_map]
    rfl
  rw [visible, visible, visibleNodes_prune, List.find?_map]
  simp only [Function.comp_def, id_prune]

/-- Is the node a text that tells a progress? -/
def tellsProgress : Node → Bool
  | .text _ t => Text.tellsProgress t.text
  | _ => false

omit h in
theorem progressNode?_prune (root wizard : Node) :
    progressNode? root.prune wizard.prune = (progressNode? root wizard).map prune := by
  rw [progressNode?, progressNode?, guidedFlow?_prune]
  split
  · exact find?_prune root _
  · have told : ∀ n : Node, tellsProgress n.prune = tellsProgress n := fun n => by cases n <;> rfl
    have marked : ∀ n : Node, (n.prune.header.affordances.getD []).contains progressAffordance =
        (n.header.affordances.getD []).contains progressAffordance := fun n => by rw [header_prune]
    show ((wizard.prune.visibleNodes.take searchedNodes).find? tellsProgress).orElse _ =
      Option.map prune (((wizard.visibleNodes.take searchedNodes).find? tellsProgress).orElse _)
    simp only [visibleNodes_prune, ← List.map_take, List.find?_map, Function.comp_def, told, marked,
      Option.orElse_eq_or, Option.map_or]

theorem progressFindings_prune : PassesAlike root progressFindings := by
  rw [PassesAlike, progressFindings_eq_nil, progressFindings_eq_nil, scopes_prune h,
    List.forall_mem_map]
  refine forall₂_congr fun scope hscope => ?_
  cases hw : scope.wizard with
  | none => simp [Scope.pruned, hw]
  | some w =>
    have hl := wizard_in_walk hscope hw
    simp only [Scope.pruned, hw, Option.map_some, Option.mem_some_iff, forall_eq',
      promisesProgress_keeps h w hl, pruned_node h hl, progressNode?_prune, ne_eq,
      Option.map_eq_none_iff]

theorem pattern_prune (sight : Option Sight) :
    ∀ r ∈ (pattern sight).rules, PassesAlike root r.check := by
  simp only [Pattern.rules, pattern, List.cons_append, List.nil_append, List.forall_mem_cons]
  exact ⟨numberingFindings_prune h, nextFindings_prune h, illegalBackFindings_prune h,
    missingBackFindings_prune h, finishFindings_prune h, fieldFindings_prune h,
    primaryFindings_prune h, progressFindings_prune h, orderFindings_prune h,
    titleFindings_prune h, foldFindings_prune h sight, fun _ h => absurd h List.not_mem_nil⟩

end

end Wireframe.Wizards
