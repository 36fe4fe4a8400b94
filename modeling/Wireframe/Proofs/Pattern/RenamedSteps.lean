import Wireframe.Proofs.Focus.Renaming
import Wireframe.Proofs.Layout.Renaming
import Wireframe.Proofs.Pattern.HiddenSteps

/-
  Wireframe.Proofs.Pattern.RenamedSteps — guided flows whose nodes have other names.

  A step belongs to the first wizard that has a node of its id among its visible nodes, and the
  indicator of a wizard's progress is found by the id that the wizard names; every other part of a
  step is found by its place. So the scopes of a renamed tree are those of the tree, and the rules
  find the same. The one rule that looks at a layout finds the frame of a primary action by its id.

  Proved:
  - `actionsOf_renamed`, `scopes_renamed`: the same scopes and steps, with the same actions.
  - `stepFindings_alike`: a rule about every step finds alike when it has something to tell about
    the same steps.
  - `pattern_alike`: all rules of guided flows find alike.
-/

namespace Wireframe.Wizards

open Node hiding id

variable (r : Renaming)

def Actions.renamed (a : Actions) : Actions :=
  ⟨a.row.map (Located.renamed r), a.buttons.map (Located.renamed r)⟩

def Step.renamed (s : Step) : Step :=
  { s with place := s.place.renamed r, actions := s.actions.renamed r }

def Scope.renamed (scope : Scope) : Scope :=
  { scope with wizard := scope.wizard.map (Located.renamed r)
               steps := scope.steps.map (Step.renamed r) }

def Sight.renamed (v : Sight) : Sight := { v with frames := v.frames.map (Frame.renamed r) }

variable {r}

/-! ## Actions -/

@[simp] theorem moveOf_renamed (b : Located) : moveOf (b.renamed r) = moveOf b := by
  rw [moveOf, Located.node_renamed, buttonText_renamed, moveOf]

@[simp] theorem isHorizontal_renamed (n : Node) : isHorizontal (n.renamed r) = isHorizontal n := by
  cases n <;> rfl

theorem shownButtons_renamed (l : Located) :
    shownButtons (l.renamed r) = (shownButtons l).map (Located.renamed r) := by
  simp only [shownButtons, Located.shownChildren_renamed, List.filter_map, Function.comp_def,
    Located.node_renamed, isButton_renamed]

theorem rowOf?_renamed (step : Located) :
    rowOf? (step.renamed r) = (rowOf? step).map (Located.renamed r) := by
  have row : ∀ l : Located, isRow (l.renamed r) = isRow l := by
    intro l
    rw [isRow, shownButtons_renamed, List.isEmpty_map, Located.node_renamed, kind_renamed, isRow]
  simp only [rowOf?, Located.subtree_renamed, List.filter_map, Function.comp_def, row,
    Located.node_renamed, isHorizontal_renamed, Located.shownChildren_renamed, List.all_map,
    isButton_renamed, List.any_map, isContainer_renamed, List.getLast?_map, Option.orElse_eq_or,
    Option.map_or]

theorem actionsOf_renamed (step : Located) :
    actionsOf (step.renamed r) = (actionsOf step).renamed r := by
  by_cases form : step.node.kind = .form
  · cases own : step.node with
    | form h c fs as =>
      have own' : (step.renamed r).node =
          .form (h.renamed r) c (fs.map (renamed r)) (as.map (renamed r)) := by
        rw [Located.node_renamed, own, renamed, renamedAll_eq, renamedAll_eq]
      have buttons : formButtons (step.renamed r) (as.map (renamed r)) =
          (formButtons step as).map (Located.renamed r) := by
        simp only [formButtons, listSlots_renamed, List.map_map, List.filter_map,
          Function.comp_def, Located.under_renamed, Located.node_renamed, isButton_renamed,
          visible_renamed]
      rw [actionsOf_form own', actionsOf_form own, buttons]
      rfl
    | stack | grid | box | text | button | field | table => rw [own] at form; cases form
  · have form' : (step.renamed r).node.kind ≠ .form := by
      rwa [Located.node_renamed, kind_renamed]
    rw [actionsOf_row form', actionsOf_row form, rowOf?_renamed]
    cases rowOf? step with
    | none => rfl
    | some row =>
      show Actions.mk (some (row.renamed r)) (shownButtons (row.renamed r)) = _
      rw [shownButtons_renamed]
      rfl

/-! ## Scopes -/

@[simp] theorem plays_renamed (role : FlowRole) (l : Located) :
    plays role (l.renamed r) = plays role l := by
  rw [plays, Located.node_renamed, guidedFlow?_renamed, Option.any_map, plays]
  rfl

theorem statedTotal_renamed (l : Located) : statedTotal (l.renamed r) = statedTotal l := by
  rw [statedTotal, Located.node_renamed, guidedFlow?_renamed, Option.bind_map, statedTotal]
  rfl

theorem indexOr_renamed (position : Nat) (l : Located) :
    indexOr position (l.renamed r) = indexOr position l := by
  rw [indexOr, Located.node_renamed, guidedFlow?_renamed, Option.bind_map, indexOr]
  rfl

theorem keptSteps_renamed (places : List Located) :
    keptSteps (places.map (Located.renamed r)) = (keptSteps places).map (Step.renamed r) := by
  rw [keptSteps, keptSteps, List.zipIdx_map, List.filterMap_map, List.map_filterMap]
  refine List.filterMap_congr fun place _ => ?_
  obtain ⟨l, position⟩ := place
  simp only [Function.comp_def, Prod.map, id_eq, indexOr_renamed, statedTotal_renamed,
    actionsOf_renamed]
  split
  · rfl
  · rfl

theorem totalOf_renamed (wizard : Option Located) (steps : List Step) :
    totalOf (wizard.map (Located.renamed r)) (steps.map (Step.renamed r)) = totalOf wizard steps := by
  have stated : (wizard.map (Located.renamed r)).bind statedTotal = wizard.bind statedTotal := by
    cases wizard with
    | none => rfl
    | some w => exact statedTotal_renamed w
  rw [totalOf, totalOf, stated, List.map_map, List.map_map]
  rfl

theorem Scope.of_renamed (wizard : Option Located) (places : List Located) :
    Scope.of (wizard.map (Located.renamed r)) (places.map (Located.renamed r)) =
      (Scope.of wizard places).renamed r := by
  have completed : ∀ total, (Step.within total ∘ Step.renamed r) =
      (Step.renamed r ∘ Step.within total) := by
    intro total
    funext s
    by_cases unsaid : s.total = 0
    · simp [Step.within, Step.renamed, unsaid]
    · simp [Step.within, Step.renamed, unsaid]
  have sorted : ∀ steps : List Step,
      (steps.map (Step.renamed r)).mergeSort (fun a b => a.index ≤ b.index) =
        (steps.mergeSort fun a b => a.index ≤ b.index).map (Step.renamed r) := by
    intro steps
    refine (List.map_mergeSort ?_).symm
    exact fun _ _ _ _ => rfl
  simp only [Scope.of, keptSteps_renamed, totalOf_renamed, List.map_map, completed]
  rw [← List.map_map, sorted]
  rfl

theorem owner?_renamed (wizards : List Located) (step : Located) :
    owner? (wizards.map (Located.renamed r)) (step.renamed r) = owner? wizards step := by
  simp only [owner?, List.findIdx?_map, Function.comp_def, Located.subtree_renamed, List.any_map,
    Located.node_renamed, Node.id_renamed, Renaming.beq]

theorem wizardsOf_renamed (root : Node) :
    wizardsOf (root.renamed r) = (wizardsOf root).map (Located.renamed r) := by
  simp only [wizardsOf, walk_renamed, List.filter_map, Function.comp_def, plays_renamed]

theorem stepsOf_renamed (root : Node) (owner : Option Nat) :
    stepsOf (root.renamed r) owner = (stepsOf root owner).map (Located.renamed r) := by
  simp only [stepsOf, walk_renamed, wizardsOf_renamed, List.filter_map, List.map_map,
    Function.comp_def, plays_renamed, owner?_renamed]

theorem scopes_renamed (root : Node) :
    scopes (root.renamed r) = (scopes root).map (Scope.renamed r) := by
  have wizard : ∀ (w : Located) (places : List Located),
      Scope.of (some (w.renamed r)) (places.map (Located.renamed r)) =
        (Scope.of (some w) places).renamed r :=
    fun w places => Scope.of_renamed (some w) places
  have screen : ∀ places : List Located, Scope.of none (places.map (Located.renamed r)) =
      (Scope.of none places).renamed r :=
    fun places => Scope.of_renamed none places
  rw [scopes_eq, scopes_eq, wizardsOf_renamed, List.zipIdx_map]
  simp only [stepsOf_renamed, List.isEmpty_map, List.map_map, List.map_append, Function.comp_def,
    Prod.map, id_eq, wizard, screen]
  congr 1
  split
  · rfl
  · rfl

theorem checkNumbering_renamed (room : Int) (root : Node) :
    checkNumbering room (root.renamed r) = checkNumbering room root := by
  have steps : ∀ scope : Scope, (scope.renamed r).steps.isEmpty = scope.steps.isEmpty :=
    fun scope => List.isEmpty_map
  rw [checkNumbering, checkNumbering, scopes_renamed, List.forM_eq_forM, List.forM_map]
  simp only [steps]
  rfl

/-! ## Rules -/

/-- A finding of guided flows has the pointer of the id of its node. -/
theorem finding_toldAlike {rule : String} {severity : Severity} {message message' : String}
    {suggestion suggestion' : String} {details details' : Object} (root : Node) (l : Located) :
    ToldAlike r [finding rule severity root.pointers l message suggestion details]
      [finding rule severity (root.renamed r).pointers (l.renamed r) message' suggestion' details'] := by
  refine Finding.toldAlike r (congrArg some (l.node.id_renamed r)) ?_
  show Keyed.get? (root.renamed r).pointers (l.node.renamed r).id = _
  rw [Node.id_renamed, pointer_renamed]

/-- A rule about every step finds alike when it has something to tell about the same steps. -/
theorem stepFindings_alike {rule : String} {severity : Severity} {suggestion : String}
    {problem? problem?' : Scope → Step → Option (String × Object)}
    (same : ∀ (scope : Scope) (s : Step),
      problem?' (scope.renamed r) (s.renamed r) = none ↔ problem? scope s = none) :
    FindsAlike r (stepFindings rule severity suggestion problem?)
      (stepFindings rule severity suggestion problem?') := by
  intro root
  unfold stepFindings
  rw [scopes_renamed]
  refine .flatMap fun scope _ => .filterMap fun s _ => ?_
  have alike := same scope s
  cases here : problem? scope s with
  | none =>
    rw [alike.mpr here]
    rfl
  | some told =>
    cases there : problem?' (scope.renamed r) (s.renamed r) with
    | none => rw [alike.mp there] at here; cases here
    | some told' => exact finding_toldAlike root s.place

section

variable (s : Step)

@[simp] theorem has_renamed (m : Move) : (s.renamed r).has m = s.has m := by
  show ((s.actions.buttons.map (Located.renamed r)).any fun b => moveOf b == m) = _
  simp only [List.any_map, Function.comp_def, moveOf_renamed, Step.has]

@[simp] theorem leadsOn_renamed : (s.renamed r).leadsOn = s.leadsOn := by
  show ((s.actions.buttons.map (Located.renamed r)).any fun b =>
    moveOf b == .next || (b.node.isPrimaryButton && moveOf b != .back)) = _
  simp only [List.any_map, Function.comp_def, moveOf_renamed, Located.node_renamed,
    isPrimaryButton_renamed, Step.leadsOn]

theorem primaries_renamed : (s.renamed r).primaries = s.primaries.map (Located.renamed r) := by
  show (s.actions.buttons.map (Located.renamed r)).filter (·.node.isPrimaryButton) = _
  simp only [List.filter_map, Function.comp_def, Located.node_renamed, isPrimaryButton_renamed,
    Step.primaries]

theorem aroundActions_renamed : (s.renamed r).aroundActions =
    Prod.map (List.map (Located.renamed r)) (List.map (Located.renamed r)) s.aroundActions := by
  have first : ∀ l : Located, ((s.actions.buttons.head?.map (Located.renamed r)).any
      (l.renamed r).isAt) = s.actions.buttons.head?.any l.isAt := by
    intro l
    rw [Option.any_map]
    rfl
  simp only [Step.aroundActions, Step.renamed, Actions.renamed, Located.subtree_renamed,
    List.head?_map, List.span_eq_takeWhile_dropWhile, List.takeWhile_map, List.dropWhile_map,
    Function.comp_def, first, Prod.map]

theorem misplacedFields_renamed :
    (s.renamed r).misplacedFields = s.misplacedFields.map (Located.renamed r) := by
  simp only [Step.misplacedFields, aroundActions_renamed, Prod.map, ← List.map_drop, List.filter_map,
    Function.comp_def, Located.node_renamed, isField_renamed]

theorem primary?_renamed : (s.renamed r).primary? = s.primary?.map (Located.renamed r) := by
  have found : (s.renamed r).actions.buttons.find? (fun b => moveOf b == .next || moveOf b == .finish) =
      (s.actions.buttons.find? fun b => moveOf b == .next || moveOf b == .finish).map
        (Located.renamed r) := by
    show (s.actions.buttons.map (Located.renamed r)).find? _ = _
    simp only [List.find?_map, Function.comp_def, moveOf_renamed]
  rw [Step.primary?, primaries_renamed, found, Step.primary?, List.head?_map,
    Option.orElse_eq_or, Option.orElse_eq_or, Option.map_or]

end

theorem nextFindings_alike : FindsAlike r nextFindings nextFindings := by
  refine stepFindings_alike fun scope s => ?_
  simp only [ite_eq_left_iff, reduceCtorEq, imp_false, leadsOn_renamed]
  rfl

theorem missingBackFindings_alike : FindsAlike r missingBackFindings missingBackFindings := by
  refine stepFindings_alike fun scope s => ?_
  simp only [ite_eq_left_iff, reduceCtorEq, imp_false, has_renamed]
  rfl

theorem finishFindings_alike : FindsAlike r finishFindings finishFindings := by
  refine stepFindings_alike fun scope s => ?_
  simp only [ite_eq_left_iff, reduceCtorEq, imp_false, has_renamed]
  rfl

theorem fieldFindings_alike : FindsAlike r fieldFindings fieldFindings := by
  refine stepFindings_alike fun scope s => ?_
  simp only [ite_eq_left_iff, reduceCtorEq, imp_false, misplacedFields_renamed, List.isEmpty_map]

theorem primaryFindings_alike : FindsAlike r primaryFindings primaryFindings := by
  refine stepFindings_alike fun scope s => ?_
  simp only [ite_eq_left_iff, reduceCtorEq, imp_false, primaries_renamed, List.length_map]

theorem orderFindings_alike : FindsAlike r orderFindings orderFindings := by
  refine stepFindings_alike fun scope s => ?_
  have moves : (s.renamed r).actions.buttons.map moveOf = s.actions.buttons.map moveOf := by
    show (s.actions.buttons.map (Located.renamed r)).map moveOf = _
    simp only [List.map_map, Function.comp_def, moveOf_renamed]
  simp only [moves, ite_eq_right_iff, reduceCtorEq, imp_false]

theorem titleFindings_alike : FindsAlike r titleFindings titleFindings := by
  refine stepFindings_alike fun scope s => ?_
  simp only [ite_eq_left_iff, reduceCtorEq, imp_false, aroundActions_renamed, Prod.map, List.any_map,
    Function.comp_def, Located.node_renamed, kind_renamed]

theorem frame?_renamed (v : Sight) (id : String) :
    (v.renamed r).frame? (r id) = (v.frame? id).map (Frame.renamed r) := by
  simp only [Sight.frame?, Sight.renamed, ← List.map_reverse, List.find?_map, Function.comp_def,
    Frame.renamed, Renaming.beq]

theorem foldFindings_alike (sight : Option Sight) :
    FindsAlike r (foldFindings sight) (foldFindings (sight.map (Sight.renamed r))) := by
  cases sight with
  | none => exact fun _ => rfl
  | some v =>
    refine stepFindings_alike fun scope s => ?_
    have below : (v.renamed r).belowFold? (s.renamed r) = none ↔ v.belowFold? s = none := by
      rw [Sight.belowFold?, Sight.belowFold?, primary?_renamed]
      cases s.primary? with
      | none => rfl
      | some b =>
        simp only [Option.map_some, Option.bind_some, Located.node_renamed, Node.id_renamed,
          frame?_renamed]
        cases v.frame? b.node.id with
        | none => rfl
        | some f =>
          simp only [Option.map_some, Option.bind_some, ite_eq_left_iff, reduceCtorEq, imp_false]
          rfl
    rw [Option.map_eq_none_iff, Option.map_eq_none_iff, below]

theorem isComplete_renamed (scope : Scope) : isComplete (scope.renamed r) = isComplete scope := by
  have indices : (scope.renamed r).indices = scope.indices := by
    rw [Scope.indices, Scope.renamed, List.map_map]
    rfl
  rw [isComplete, indices]
  rfl

theorem numberingFindings_alike : FindsAlike r numberingFindings numberingFindings := by
  intro root
  unfold numberingFindings
  rw [scopes_renamed]
  refine .filterMap fun scope _ => ?_
  have steps : (scope.renamed r).steps = scope.steps.map (Step.renamed r) := rfl
  unfold numberingFinding?
  rw [steps]
  cases scope.steps with
  | nil => rfl
  | cons first rest =>
    have wizard : (scope.renamed r).wizard.getD (first.renamed r).place =
        (scope.wizard.getD first.place).renamed r := Option.getD_map ..
    rw [List.map_cons, isComplete_renamed]
    dsimp only
    rw [wizard]
    split
    · rfl
    · exact finding_toldAlike root _

theorem illegalBackFindings_alike : FindsAlike r illegalBackFindings illegalBackFindings := by
  intro root
  unfold illegalBackFindings
  rw [scopes_renamed]
  refine .filterMap fun scope _ => ?_
  have first : (scope.renamed r).steps.find? (·.index == 1) =
      (scope.steps.find? (·.index == 1)).map (Step.renamed r) := List.find?_map ..
  rw [first]
  cases scope.steps.find? (·.index == 1) with
  | none => rfl
  | some s =>
    simp only [Option.map_some, Option.bind_some, has_renamed]
    split
    · exact finding_toldAlike root s.place
    · rfl

theorem progressNode?_renamed (root wizard : Node) :
    progressNode? (root.renamed r) (wizard.renamed r) =
      (progressNode? root wizard).map (renamed r) := by
  have named : ((wizard.renamed r).guidedFlow?.bind (·.progressNodeId)).filter (· != "") =
      ((wizard.guidedFlow?.bind (·.progressNodeId)).filter (· != "")).map r := by
    rw [guidedFlow?_renamed, ← Renaming.filter_map, Option.bind_map, Option.map_bind]
    rfl
  rw [progressNode?, progressNode?, named]
  cases (wizard.guidedFlow?.bind (·.progressNodeId)).filter (· != "") with
  | some id => exact find?_renamed r root id true
  | none =>
    have told : ∀ n : Node, tellsProgress (n.renamed r) = tellsProgress n :=
      fun n => by cases n <;> rfl
    have marked : ∀ n : Node,
        ((n.renamed r).header.affordances.getD []).contains progressAffordance =
          (n.header.affordances.getD []).contains progressAffordance :=
      fun n => by rw [header_renamed]; rfl
    show (((wizard.renamed r).visibleNodes.take searchedNodes).find? tellsProgress).orElse _ =
      Option.map (renamed r) (((wizard.visibleNodes.take searchedNodes).find? tellsProgress).orElse _)
    simp only [visibleNodes_renamed, ← List.map_take, List.find?_map, Function.comp_def, told, marked,
      Option.orElse_eq_or, Option.map_or]

theorem progressFindings_alike : FindsAlike r progressFindings progressFindings := by
  intro root
  have promises : ∀ w : Located, promisesProgress (w.renamed r) = promisesProgress w := by
    intro w
    rw [promisesProgress, Located.node_renamed, guidedFlow?_renamed, Option.any_map, promisesProgress]
    rfl
  unfold progressFindings
  rw [scopes_renamed]
  refine .filterMap fun scope _ => ?_
  have wizard : (scope.renamed r).wizard = scope.wizard.map (Located.renamed r) := rfl
  rw [wizard]
  cases scope.wizard with
  | none => rfl
  | some w =>
    rw [Option.map_some, Option.filter_some, Option.filter_some, promises]
    split
    · simp only [Option.bind_some, Located.node_renamed, progressNode?_renamed]
      cases progressNode? root w.node with
      | some n => rfl
      | none => exact finding_toldAlike root w
    · rfl

theorem pattern_alike (sight : Option Sight) :
    (pattern sight).FindsAlike r (pattern (sight.map (Sight.renamed r))) := by
  constructor
  · exact .cons numberingFindings_alike (.cons nextFindings_alike (.cons illegalBackFindings_alike
      (.cons missingBackFindings_alike (.cons finishFindings_alike (.cons fieldFindings_alike
        (.cons primaryFindings_alike .nil))))))
  · exact .cons progressFindings_alike (.cons orderFindings_alike (.cons titleFindings_alike
      (.cons (foldFindings_alike sight) .nil)))

end Wireframe.Wizards
