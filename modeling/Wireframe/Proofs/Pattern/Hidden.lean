import Wireframe.Pattern.Catalog
import Wireframe.Proofs.Focus.Hidden
import Wireframe.Proofs.Pattern.HiddenSections
import Wireframe.Proofs.Pattern.HiddenSteps

/-
  Wireframe.Proofs.Pattern.Hidden — what hidden nodes are to the verdicts on patterns.

  Most rules look at visible nodes one by one, or at places on walks, and find the same without the
  hidden parts of a tree. Some look at lists of children as the document has them. A table and its
  controls, a section and its label or control are neighbours by their positions there, hidden nodes
  counted. Two rules on forms count what a form holds without a look at whether it is visible, where
  the rules beside them leave out what is hidden: a form that shows no action passes for one that
  has one.

  Proved:
  - `Forms.contentCounted`: what these two rules ask of a tree, and of its visible part.
  - `Forms.pattern_prune`, `Tables.pattern_prune`: what has to be so for their rules to find the same.
  - `Topic.verdicts_prune`: for which rules hidden parts make no difference, and when for the counts.
  - `Node.unsent_passes`: a form passes with a hidden action only.
-/

namespace Wireframe

open Node hiding id
open Located

variable {root : Node}

/-- A check that asks something of every visible node passes alike when pruning changes nothing of
    what it asks. -/
theorem passesAlike_of_nodes {check : Node → List Issue} {bad : Node → Bool}
    (asks : ∀ root, check root = [] ↔ ∀ n ∈ root.visibleNodes, bad n = false)
    (same : ∀ n ∈ root.visibleNodes, bad n.prune = bad n) : PassesAlike root check := by
  rw [PassesAlike, asks, asks, visibleNodes_prune, List.forall_mem_map]
  exact forall₂_congr fun n hn => by rw [same n hn]

/-- What a check asks of the places of a walk it asks of the nodes there. -/
theorem filterMap_walk_eq_nil {find? : Located → Option Issue} {bad : Node → Bool}
    (told : ∀ l, find? l = none ↔ bad l.node = false) (root : Node) :
    root.walk.filterMap find? = [] ↔ ∀ n ∈ root.visibleNodes, bad n = false := by
  rw [List.filterMap_eq_nil_iff, visibleNodes, List.forall_mem_map]
  exact forall₂_congr fun l _ => told l

/-- The children before and after what is in a slot. -/
theorem Located.children_split (l : Located) {s : Slot} {i : Nat} (hs : l.node.slots[i]? = some s) :
    ∃ before after, l.node.children = before ++ s.node :: after ∧ before.length = i := by
  have stands : l.node.children[i]? = some s.node := by
    rw [← l.node.slots_nodes, List.getElem?_map, hs]
    rfl
  obtain ⟨within, same⟩ := List.getElem?_eq_some_iff.mp stands
  refine ⟨l.node.children.take i, l.node.children.drop (i + 1), ?_, List.length_take_of_le within.le⟩
  rw [← same, List.getElem_cons_drop, List.take_append_drop]

/-! ## Forms -/

namespace Forms

/-- Is the node a field without a label? -/
def lacksLabel : Node → Bool
  | .field _ f => Text.isVoid f.label
  | _ => false

theorem labelFindings_eq_nil (root : Node) :
    labelFindings root = [] ↔ ∀ n ∈ root.visibleNodes, lacksLabel n = false := by
  refine filterMap_walk_eq_nil (fun l => ?_) root
  obtain ⟨n, p⟩ := l
  cases n with
  | field h f => simp [lacksLabel]
  | stack | grid | box | text | button | form | table => simp [lacksLabel]

theorem labelFindings_prune : PassesAlike root labelFindings :=
  passesAlike_of_nodes labelFindings_eq_nil fun n _ => by cases n <;> rfl

/-- Is the node a field whose label does not stand alone? -/
def lacksHelp : Node → Bool
  | .field _ f => needsHelp f
  | _ => false

theorem helpFindings_eq_nil (root : Node) :
    helpFindings root = [] ↔ ∀ n ∈ root.visibleNodes, lacksHelp n = false := by
  refine filterMap_walk_eq_nil (fun l => ?_) root
  obtain ⟨n, p⟩ := l
  cases n with
  | field h f => simp [lacksHelp]
  | stack | grid | box | text | button | form | table => simp [lacksHelp]

theorem helpFindings_prune : PassesAlike root helpFindings :=
  passesAlike_of_nodes helpFindings_eq_nil fun n _ => by cases n <;> rfl

theorem fieldAfterAction_prune (unique : root.UniqueIds) {n : Node} (hn : n ∈ root.visibleNodes) :
    fieldAfterAction n.prune = fieldAfterAction n := by
  have known : ∀ m ∈ n.visibleNodes, (!((FormFlow.actionsOf n.prune).map (·.id)).contains m.id) =
      !((FormFlow.actionsOf n).map (·.id)).contains m.id :=
    fun m hm => congrArg (!·) (FormFlow.actionIds_prune unique hn hm)
  simp only [fieldAfterAction, visibleNodes_prune, List.dropWhile_map, List.any_map,
    Function.comp_def, id_prune, isField_prune]
  rw [dropWhile_congr known, Bool.eq_iff_iff, List.any_eq_true, List.any_eq_true]
  refine exists_congr fun m => and_congr_right fun hm => ?_
  rw [known m ((List.dropWhile_sublist _).subset hm)]

theorem orderFindings_prune (unique : root.UniqueIds) : PassesAlike root orderFindings := by
  have asks : ∀ root : Node, orderFindings root = [] ↔
      ∀ n ∈ root.visibleNodes, (n.kind == .form && fieldAfterAction n) = false := by
    intro root
    rw [orderFindings, FormFlow.forms, List.filterMap_filter]
    refine filterMap_walk_eq_nil (fun l => ?_) root
    by_cases form : l.node.kind = .form
    · simp [form]
    · simp [form]
  refine passesAlike_of_nodes asks fun n hn => ?_
  rw [kind_prune, fieldAfterAction_prune unique hn]

/-! ### Actions and errors, hidden or not -/

/-- The fields right below a form, none of anything else. -/
def fieldsOf : Node → List Node
  | .form _ _ fs _ => fs
  | _ => []

/-- Is the node a field with an error? -/
def hasError : Node → Bool
  | .field _ f => !Text.isVoid (f.errorText.getD "")
  | _ => false

/-- A form that has an action has a visible one. -/
def ActionsShown (root : Node) : Prop :=
  ∀ n ∈ root.visibleNodes, FormFlow.actionsOf n ≠ [] →
    ∃ a ∈ FormFlow.actionsOf n, a.visible = true

/-- A form that has a field with an error right below it has a visible one. -/
def ErrorsShown (root : Node) : Prop :=
  ∀ n ∈ root.visibleNodes, (fieldsOf n).any hasError = true →
    ∃ f ∈ fieldsOf n, f.visible = true ∧ hasError f = true

/-- Is the node a form without an action? -/
def lacksAction (n : Node) : Bool := n.kind == .form && (FormFlow.actionsOf n).isEmpty

theorem actionFindings_eq_nil (root : Node) :
    actionFindings root = [] ↔ ∀ n ∈ root.visibleNodes, lacksAction n = false := by
  refine filterMap_walk_eq_nil (fun l => ?_) root
  obtain ⟨n, p⟩ := l
  cases n with
  | form h f fs as => cases as <;> simp [lacksAction, kind, FormFlow.actionsOf]
  | stack | grid | box | text | button | field | table => simp [lacksAction, kind]

theorem lacksAction_eq_false_iff {n : Node} :
    lacksAction n = false ↔ (n.kind = .form → FormFlow.actionsOf n ≠ []) := by
  rw [lacksAction, Bool.and_eq_false_imp, beq_iff_eq]
  exact imp_congr_right fun _ => List.isEmpty_eq_false_iff

/-- Without its hidden children a form has the visible ones of its actions. -/
theorem lacksAction_prune_eq_false_iff {n : Node} : lacksAction n.prune = false ↔
    (n.kind = .form → ∃ a ∈ FormFlow.actionsOf n, a.visible = true) := by
  rw [lacksAction_eq_false_iff, kind_prune, FormFlow.actionsOf_prune]
  refine imp_congr_right fun _ => ?_
  rw [ne_eq, List.map_eq_nil_iff, List.filter_eq_nil_iff]
  simp only [not_forall, not_not, exists_prop]

theorem actionFindings_prune (shown : ActionsShown root) : PassesAlike root actionFindings := by
  refine passesAlike_of_nodes actionFindings_eq_nil fun n hn => ?_
  rw [Bool.eq_iff_iff, ← not_iff_not, Bool.not_eq_true, Bool.not_eq_true,
    lacksAction_prune_eq_false_iff, lacksAction_eq_false_iff]
  refine imp_congr_right fun _ => ⟨?_, shown n hn⟩
  rintro ⟨a, ha, -⟩
  exact List.ne_nil_of_mem ha

/-- Is the node a form with an error and no state for it? -/
def lacksErrorState : Node → Bool
  | .form _ f fields _ => fields.any hasError && !(f.states.getD []).contains "error"
  | _ => false

theorem errorFields_isEmpty (fields : List Node) :
    (errorFields fields).isEmpty = !fields.any hasError := by
  rw [Bool.eq_iff_iff, List.isEmpty_iff, errorFields, List.filterMap_eq_nil_iff, Bool.not_eq_true',
    List.any_eq_false]
  refine forall₂_congr fun n _ => ?_
  cases n with
  | field h f => simp [hasError]
  | stack | grid | box | text | button | form | table => simp [hasError]

theorem errorStateFindings_eq_nil (root : Node) :
    errorStateFindings root = [] ↔ ∀ n ∈ root.visibleNodes, lacksErrorState n = false := by
  refine filterMap_walk_eq_nil (fun l => ?_) root
  obtain ⟨n, p⟩ := l
  cases n with
  | form h f fs as =>
    simp only [errorFields_isEmpty, Bool.not_not, lacksErrorState, ite_eq_right_iff, reduceCtorEq,
      imp_false, Bool.not_eq_true]
  | stack | grid | box | text | button | field | table => simp [lacksErrorState]

/-- Has the node a state for errors, if it is a form? -/
def StatesError : Node → Prop
  | .form _ f _ _ => "error" ∈ f.states.getD []
  | _ => True

theorem lacksErrorState_eq_false_iff {n : Node} :
    lacksErrorState n = false ↔ ((∃ f ∈ fieldsOf n, hasError f = true) → StatesError n) := by
  cases n with
  | form h f fs as => simp [lacksErrorState, fieldsOf, StatesError]
  | stack | grid | box | text | button | field | table => simp [lacksErrorState, StatesError]

theorem hasError_prune (n : Node) : hasError n.prune = hasError n := by cases n <;> rfl

/-- Without its hidden children a form has the visible ones of its fields. -/
theorem lacksErrorState_prune_eq_false_iff {n : Node} : lacksErrorState n.prune = false ↔
    ((∃ f ∈ fieldsOf n, f.visible = true ∧ hasError f = true) → StatesError n) := by
  rw [lacksErrorState_eq_false_iff]
  cases n with
  | form h f fs as =>
    refine imp_congr ?_ Iff.rfl
    simp only [prune, fieldsOf, pruneAll_eq, List.mem_map, List.mem_filter, and_assoc]
    constructor
    · rintro ⟨_, ⟨f, hf, visible, rfl⟩, error⟩
      exact ⟨f, hf, visible, (hasError_prune f).symm.trans error⟩
    · rintro ⟨f, hf, visible, error⟩
      exact ⟨f.prune, ⟨f, hf, visible, rfl⟩, (hasError_prune f).trans error⟩
  | stack | grid | box | text | button | field | table => simp [prune, StatesError]

theorem errorStateFindings_prune (shown : ErrorsShown root) :
    PassesAlike root errorStateFindings := by
  refine passesAlike_of_nodes errorStateFindings_eq_nil fun n hn => ?_
  rw [Bool.eq_iff_iff, ← not_iff_not, Bool.not_eq_true, Bool.not_eq_true,
    lacksErrorState_prune_eq_false_iff, lacksErrorState_eq_false_iff]
  constructor
  · intro states found
    exact states (shown n hn (List.any_eq_true.mpr found))
  · rintro states ⟨f, hf, -, error⟩
    exact states ⟨f, hf, error⟩

/-- What the rules on actions and on errors ask of a tree and of its visible part: they count what a
    form holds, and of the visible part only what is visible is left. -/
structure ContentCounted (root : Node) : Prop where
  actions : actionFindings root = [] ↔
    ∀ n ∈ root.visibleNodes, n.kind = .form → FormFlow.actionsOf n ≠ []
  shownActions : actionFindings root.prune = [] ↔
    ∀ n ∈ root.visibleNodes, n.kind = .form → ∃ a ∈ FormFlow.actionsOf n, a.visible = true
  errors : errorStateFindings root = [] ↔
    ∀ n ∈ root.visibleNodes, (∃ f ∈ fieldsOf n, hasError f = true) → StatesError n
  shownErrors : errorStateFindings root.prune = [] ↔
    ∀ n ∈ root.visibleNodes, (∃ f ∈ fieldsOf n, f.visible = true ∧ hasError f = true) → StatesError n

theorem contentCounted (root : Node) : ContentCounted root where
  actions := (actionFindings_eq_nil root).trans (forall₂_congr fun _ _ => lacksAction_eq_false_iff)
  shownActions := by
    rw [actionFindings_eq_nil, visibleNodes_prune, List.forall_mem_map]
    exact forall₂_congr fun _ _ => lacksAction_prune_eq_false_iff
  errors :=
    (errorStateFindings_eq_nil root).trans (forall₂_congr fun _ _ => lacksErrorState_eq_false_iff)
  shownErrors := by
    rw [errorStateFindings_eq_nil, visibleNodes_prune, List.forall_mem_map]
    exact forall₂_congr fun _ _ => lacksErrorState_prune_eq_false_iff

theorem pattern_prune (unique : root.UniqueIds) (actions : ActionsShown root)
    (errors : ErrorsShown root) : ∀ r ∈ pattern.rules, PassesAlike root r.check := by
  simp only [Pattern.rules, pattern, List.cons_append, List.nil_append, List.forall_mem_cons]
  exact ⟨labelFindings_prune, actionFindings_prune actions, orderFindings_prune unique,
    errorStateFindings_prune errors, helpFindings_prune, fun _ h => absurd h List.not_mem_nil⟩

end Forms

/-! ## Tables -/

namespace Tables

/-- Is the node a table for which a check of tables finds something? -/
def tableWith (problem : TableContent → Bool) : Node → Bool
  | .table _ t => problem t
  | _ => false

/-- A check that asks something of the content of every visible table passes alike. -/
theorem passesAlike_of_tables {check : Node → List Issue} {problem : TableContent → Bool}
    (asks : ∀ root, check root = [] ↔ ∀ n ∈ root.visibleNodes, tableWith problem n = false) :
    PassesAlike root check :=
  passesAlike_of_nodes asks fun n _ => by cases n <;> rfl

theorem titleFindings_prune : PassesAlike root titleFindings := by
  have asks : ∀ root : Node, titleFindings root = [] ↔ ∀ n ∈ root.visibleNodes,
      tableWith (fun t => Text.isVoid (t.title.getD "")) n = false := by
    refine filterMap_walk_eq_nil fun l => ?_
    obtain ⟨n, p⟩ := l
    cases n with
    | table h t => simp [tableWith]
    | stack | grid | box | text | button | field | form => simp [tableWith]
  exact passesAlike_of_tables asks

theorem strategyProblem?_isSome (id id' : String) (t : TableContent) :
    (strategyProblem? id t).isSome = (strategyProblem? id' t).isSome := by
  unfold strategyProblem?
  cases strategy? t with
  | none => rfl
  | some s =>
    dsimp only
    split
    · rfl
    · rfl

theorem strategyFindings_prune : PassesAlike root strategyFindings := by
  have asks : ∀ root : Node, strategyFindings root = [] ↔ ∀ n ∈ root.visibleNodes,
      tableWith (fun t => (strategyProblem? "" t).isSome) n = false := by
    refine filterMap_walk_eq_nil fun l => ?_
    obtain ⟨n, p⟩ := l
    cases n with
    | table h t =>
      simp only [Option.map_eq_none_iff, tableWith, strategyProblem?_isSome "" h.id t,
        Option.isSome_eq_false_iff, Option.isNone_iff_eq_none]
      rfl
    | stack | grid | box | text | button | field | form => simp [tableWith]
  exact passesAlike_of_tables asks

/-- Does a table fail to fit, wherever it stands? -/
def unfit (viewport : Option Number) (t : TableContent) : Bool :=
  (strategy? t).isNone || (overrun? viewport t).isSome

theorem fitFinding?_eq_none {viewport : Option Number} {l : Located} {t : TableContent} :
    fitFinding? viewport l t = none ↔ unfit viewport t = false := by
  unfold fitFinding? unfit
  cases strategy? t with
  | none => simp
  | some s => simp [Option.isSome_eq_false_iff]

theorem fitFindings_prune (viewport : Option Number) :
    PassesAlike root (fitFindings viewport) := by
  have asks : ∀ root : Node, fitFindings viewport root = [] ↔ ∀ n ∈ root.visibleNodes,
      tableWith (unfit viewport) n = false := by
    refine filterMap_walk_eq_nil fun l => ?_
    obtain ⟨n, p⟩ := l
    cases n with
    | table h t => exact fitFinding?_eq_none
    | stack | grid | box | text | button | field | form => simp [tableWith]
  exact passesAlike_of_tables asks

/-! ### Controls next to tables -/

theorem isControlLeaf_prune (n : Node) : isControlLeaf n.prune = isControlLeaf n := by
  cases n <;> rfl

theorem isControl_sees : SeesShown isControl where
  shown n h := by
    by_contra hidden
    rw [isControl, visibleNodes_hidden (by simpa using hidden)] at h
    cases h
  pruned n := by
    simp only [isControl, visibleNodes_prune, List.any_map, Function.comp_def, isControlLeaf_prune]

/-- The table stands among controls, and none of them is next to it. -/
structure Apart (before : List Node) (table : Node) (after : List Node) : Prop where
  kind : table.kind = .table
  shown : table.visible = true
  controls : before.any isControl = true ∨ after.any isControl = true
  before : before.getLast?.any isControl = false
  after : after.head?.any isControl = false

/-- Where ids are unique there is a distance for every control, in the order of the slots. -/
theorem controlDistances_eq {slots : List Slot} {position : Nat}
    (nodup : (slots.map (·.node.id)).Nodup) : controlDistances slots position =
      (slots.zipIdx.filter fun (s, i) => i ≠ position ∧ s.node.visible ∧ isControl s.node).map
        fun (s, i) => (s.node.id, (i - position) + (position - i)) := by
  let distance := fun si : Slot × Nat => (si.1.node.id, (si.2 - position) + (position - si.2))
  let chosen := fun si : Slot × Nat =>
    decide (si.2 ≠ position ∧ si.1.node.visible ∧ isControl si.1.node)
  have entries : controlDistances slots position =
      Keyed.ofList ((slots.zipIdx.filter chosen).map distance) := by
    rw [← List.filterMap_eq_map, List.filterMap_filter, controlDistances]
    simp [chosen, distance]
  have keys : (((slots.zipIdx.filter chosen).map distance).map (·.1)).Nodup := by
    have ids : slots.zipIdx.map (fun si => si.1.node.id) = slots.map (·.node.id) := by
      rw [← List.zipIdx_map_fst 0 slots, List.map_map, List.zipIdx_map_fst]
      rfl
    rw [List.map_map]
    exact nodup.sublist (ids ▸ List.filter_sublist.map _)
  rw [entries, Keyed.ofList_of_nodup keys]

theorem mem_controlDistances {slots : List Slot} {position : Nat} {e : String × Nat}
    (nodup : (slots.map (·.node.id)).Nodup) : e ∈ controlDistances slots position ↔
      ∃ i s, slots[i]? = some s ∧ i ≠ position ∧ isControl s.node = true ∧
        (s.node.id, (i - position) + (position - i)) = e := by
  rw [controlDistances_eq nodup]
  simp only [List.mem_map, List.mem_filter, Prod.exists, List.mk_mem_zipIdx_iff_getElem?,
    decide_eq_true_eq]
  constructor
  · rintro ⟨s, i, ⟨hs, other, -, control⟩, rfl⟩
    exact ⟨i, s, hs, other, control, rfl⟩
  · rintro ⟨i, s, hs, other, control, rfl⟩
    exact ⟨s, i, ⟨hs, other, isControl_sees.shown _ control, control⟩, rfl⟩

section

variable {slots : List Slot} {as bs : List Node} {t : Node}

/-- The distances of controls before and after the node in between. -/
theorem mem_controlDistances_split (split : slots.map (·.node) = as ++ t :: bs)
    (nodup : ((as ++ t :: bs).map (·.id)).Nodup) {e : String × Nat} :
    e ∈ controlDistances slots as.length ↔
      (∃ i n, as[i]? = some n ∧ isControl n = true ∧ (n.id, as.length - i) = e) ∨
        ∃ i n, bs[i]? = some n ∧ isControl n = true ∧ (n.id, i + 1) = e := by
  have ids : (slots.map (·.node.id)).Nodup := by rwa [← split, List.map_map] at nodup
  have stands : ∀ (i : Nat) (n : Node),
      (∃ s : Slot, slots[i]? = some s ∧ s.node = n) ↔ (as ++ t :: bs)[i]? = some n := by
    intro i n
    rw [← split, List.getElem?_map, Option.map_eq_some_iff]
  rw [mem_controlDistances ids]
  constructor
  · rintro ⟨i, s, hs, other, control, rfl⟩
    have here := (stands i s.node).mp ⟨s, hs, rfl⟩
    rw [List.getElem?_append] at here
    split at here
    case isTrue before =>
      exact .inl ⟨i, s.node, here, control, by simp; omega⟩
    case isFalse after =>
      obtain ⟨k, hk⟩ : ∃ k, i - as.length = k + 1 := ⟨i - as.length - 1, by omega⟩
      rw [hk, List.getElem?_cons_succ] at here
      exact .inr ⟨k, s.node, here, control, by simp; omega⟩
  · rintro (⟨i, n, here, control, rfl⟩ | ⟨i, n, here, control, rfl⟩)
    · have before : i < as.length := (List.getElem?_eq_some_iff.mp here).1
      obtain ⟨s, hs, rfl⟩ := (stands i n).mpr (by rw [List.getElem?_append_left before, here])
      exact ⟨i, s, hs, by omega, control, by simp; omega⟩
    · have after : (as ++ t :: bs)[as.length + (i + 1)]? = some n := by
        rw [List.getElem?_append_right (by omega), Nat.add_sub_cancel_left,
          List.getElem?_cons_succ, here]
      obtain ⟨s, hs, rfl⟩ := (stands _ n).mpr after
      exact ⟨as.length + (i + 1), s, hs, by omega, control, by simp⟩

theorem controlDistances_ne_nil (split : slots.map (·.node) = as ++ t :: bs)
    (nodup : ((as ++ t :: bs).map (·.id)).Nodup) :
    controlDistances slots as.length ≠ [] ↔ as.any isControl = true ∨ bs.any isControl = true := by
  rw [ne_eq, List.eq_nil_iff_forall_not_mem, not_forall_not, List.any_eq_true, List.any_eq_true]
  constructor
  · rintro ⟨e, he⟩
    rcases (mem_controlDistances_split split nodup).mp he with
      ⟨i, n, here, control, -⟩ | ⟨i, n, here, control, -⟩
    · exact .inl ⟨n, List.mem_of_getElem? here, control⟩
    · exact .inr ⟨n, List.mem_of_getElem? here, control⟩
  · rintro (⟨n, hn, control⟩ | ⟨n, hn, control⟩)
    · obtain ⟨i, here⟩ := List.mem_iff_getElem?.mp hn
      exact ⟨_, (mem_controlDistances_split split nodup).mpr (.inl ⟨i, n, here, control, rfl⟩)⟩
    · obtain ⟨i, here⟩ := List.mem_iff_getElem?.mp hn
      exact ⟨_, (mem_controlDistances_split split nodup).mpr (.inr ⟨i, n, here, control, rfl⟩)⟩

/-- A control is at most one position away exactly when it stands right before or right after. -/
theorem controlDistances_close (split : slots.map (·.node) = as ++ t :: bs)
    (nodup : ((as ++ t :: bs).map (·.id)).Nodup) :
    (controlDistances slots as.length).any (·.2 ≤ 1) = true ↔
      as.getLast?.any isControl = true ∨ bs.head?.any isControl = true := by
  simp only [List.any_eq_true, decide_eq_true_eq, Option.any_eq_true, List.getLast?_eq_getElem?,
    List.head?_eq_getElem?]
  constructor
  · rintro ⟨e, he, close⟩
    rcases (mem_controlDistances_split split nodup).mp he with
      ⟨i, n, here, control, rfl⟩ | ⟨i, n, here, control, rfl⟩
    · have before : i < as.length := (List.getElem?_eq_some_iff.mp here).1
      have last : i = as.length - 1 := by dsimp only at close; omega
      exact .inl ⟨n, last ▸ here, control⟩
    · have first : i = 0 := by dsimp only at close; omega
      exact .inr ⟨n, first ▸ here, control⟩
  · rintro (⟨n, here, control⟩ | ⟨n, here, control⟩)
    · have before : as.length - 1 < as.length := (List.getElem?_eq_some_iff.mp here).1
      exact ⟨_, (mem_controlDistances_split split nodup).mpr (.inl ⟨_, n, here, control, rfl⟩),
        by dsimp only; omega⟩
    · exact ⟨_, (mem_controlDistances_split split nodup).mpr (.inr ⟨_, n, here, control, rfl⟩),
        le_rfl⟩

theorem adjacencyFinding?_eq_none (parent : Located) {s : Slot} (here : s.node = t)
    (split : slots.map (·.node) = as ++ t :: bs) (nodup : ((as ++ t :: bs).map (·.id)).Nodup) :
    adjacencyFinding? parent slots s as.length = none ↔ ¬Apart as t bs := by
  have some_control := controlDistances_ne_nil split nodup
  have close := controlDistances_close split nodup
  unfold adjacencyFinding?
  simp only [ite_eq_left_iff, reduceCtorEq, imp_false, not_not, here, List.isEmpty_iff, close]
  constructor
  · rintro quiet ⟨kind, shown, controls, before, after⟩
    rcases quiet with other | hidden | none | next | next
    · exact other kind
    · simp [shown] at hidden
    · exact some_control.mpr controls none
    · rw [before] at next
      cases next
    · rw [after] at next
      cases next
  · intro fine
    by_contra loud
    push Not at loud
    obtain ⟨kind, shown, controls, before, after⟩ := loud
    exact fine ⟨kind, by simpa using shown, some_control.mp controls, by simpa using before,
      by simpa using after⟩

end

theorem adjacencyFindings_eq_nil (unique : ∀ n ∈ root.visibleNodes, (n.children.map (·.id)).Nodup) :
    adjacencyFindings root = [] ↔
      ∀ p ∈ root.visibleNodes, ∀ as t bs, p.children = as ++ t :: bs → ¬Apart as t bs := by
  rw [adjacencyFindings, List.flatMap_eq_nil_iff, visibleNodes, List.forall_mem_map]
  refine forall₂_congr fun l hl => ?_
  have nodup := unique l.node (List.mem_map_of_mem hl)
  rw [List.filterMap_eq_nil_iff]
  constructor
  · intro quiet as t bs split
    have stands : l.node.children[as.length]? = some t := by
      rw [split, List.getElem?_append_right le_rfl, Nat.sub_self]
      rfl
    rw [← l.node.slots_nodes, List.getElem?_map, Option.map_eq_some_iff] at stands
    obtain ⟨s, hs, here⟩ := stands
    have silent := quiet (s, as.length) (List.mk_mem_zipIdx_iff_getElem?.mpr hs)
    exact (adjacencyFinding?_eq_none l here (l.node.slots_nodes.trans split)
      (split ▸ nodup)).mp silent
  · rintro fine ⟨s, i⟩ hs
    obtain ⟨as, bs, split, rfl⟩ := l.children_split (List.mk_mem_zipIdx_iff_getElem?.mp hs)
    exact (adjacencyFinding?_eq_none l rfl (l.node.slots_nodes.trans split)
      (split ▸ nodup)).mpr (fine _ _ _ split)

/-- Pruning keeps a table apart from controls when no hidden node stands between. -/
theorem apart_prune {as bs : List Node} {t : Node} (shown : t.visible = true)
    (gapless : t.kind = .table → Gapless (as ++ t :: bs)) :
    Apart (pruneAll as) t.prune (pruneAll bs) ↔ Apart as t bs := by
  constructor
  · rintro ⟨kind, -, controls, before, after⟩
    have kind : t.kind = .table := t.kind_prune ▸ kind
    have gapless := gapless kind
    rw [isControl_sees.any, isControl_sees.any] at controls
    rw [gapless.before shown isControl_sees] at before
    rw [gapless.after shown isControl_sees] at after
    exact ⟨kind, shown, controls, before, after⟩
  · rintro ⟨kind, -, controls, before, after⟩
    have gapless := gapless kind
    refine ⟨t.kind_prune.trans kind, t.visible_prune.trans shown, ?_, ?_, ?_⟩
    · rwa [isControl_sees.any, isControl_sees.any]
    · rwa [gapless.before shown isControl_sees]
    · rwa [gapless.after shown isControl_sees]

/-- Is the node a table? -/
def isTable (n : Node) : Bool := n.kind == .table

theorem adjacencyFindings_prune (unique : root.UniqueIds) (noGaps : NoGapsAround isTable root) :
    PassesAlike root adjacencyFindings := by
  have nodup : ∀ p ∈ root.visibleNodes, (p.children.map (·.id)).Nodup :=
    fun p hp => unique.children (root.visibleNodes_subset hp)
  have pruned : ∀ p ∈ root.prune.visibleNodes, (p.children.map (·.id)).Nodup := by
    rw [visibleNodes_prune, List.forall_mem_map]
    intro p hp
    rw [children_prune, ← pruneAll_eq]
    exact Collapsibles.pruneAll_ids_nodup (nodup p hp)
  rw [PassesAlike, adjacencyFindings_eq_nil pruned, adjacencyFindings_eq_nil nodup,
    visibleNodes_prune, List.forall_mem_map]
  refine forall₂_congr fun p hp => ?_
  rw [children_prune, ← pruneAll_eq]
  have gapless : ∀ as t bs, p.children = as ++ t :: bs → t.visible = true → t.kind = .table →
      Gapless (as ++ t :: bs) := by
    intro as t bs split shown kind
    rw [← split]
    exact noGaps p hp t (by simp [split]) shown (by simp [isTable, kind])
  constructor
  · intro fine as t bs split apart
    have apart' := (apart_prune apart.shown (gapless as t bs split apart.shown)).mpr apart
    exact fine _ _ _ (pruneAll_eq_append.mpr ⟨as, t, bs, split, apart.shown, rfl, rfl, rfl⟩) apart'
  · intro fine as' t' bs' split' apart'
    obtain ⟨as, t, bs, split, shown, rfl, rfl, rfl⟩ := pruneAll_eq_append.mp split'
    exact fine as t bs split ((apart_prune shown (gapless as t bs split shown)).mp apart')

theorem pattern_prune (viewport : Option Number) (unique : root.UniqueIds)
    (noGaps : NoGapsAround isTable root) :
    ∀ r ∈ (pattern viewport).rules, PassesAlike root r.check := by
  simp only [Pattern.rules, pattern, List.cons_append, List.nil_append, List.forall_mem_cons]
  exact ⟨titleFindings_prune, strategyFindings_prune, fitFindings_prune viewport,
    adjacencyFindings_prune unique noGaps, fun _ h => absurd h List.not_mem_nil⟩

end Tables

/-! ## The catalog -/

/-- Can the width that a table needs be told? -/
def Tables.widthTold (viewport : Option Number) : Node → Calculation Unit
  | .table _ t => match strategy? t, overrun? viewport t with
    | some _, some (v, _, _) => v.toDouble.map fun _ => ()
    | _, _ => .ok ()
  | _ => .ok ()

theorem Tables.checkWidth_eq (viewport : Option Number) (root : Node) :
    checkWidth viewport root = forM root.visibleNodes (widthTold viewport) := by
  rw [visibleNodes, List.forM_map]
  rfl

theorem Tables.checkWidth_prune (viewport : Option Number) (root : Node) :
    checkWidth viewport root.prune = checkWidth viewport root := by
  have own : ∀ n : Node, widthTold viewport n.prune = widthTold viewport n :=
    fun n => by cases n <;> rfl
  rw [checkWidth_eq, checkWidth_eq, visibleNodes_prune, List.forM_map]
  simp only [own]

theorem Wizards.checkNumbering_prune (room : Int) (h : root.UniqueShown) :
    checkNumbering room root.prune = checkNumbering room root := by
  have steps : ∀ scope : Scope, (scope.pruned root).steps.isEmpty = scope.steps.isEmpty :=
    fun scope => List.isEmpty_map
  rw [checkNumbering, checkNumbering, scopes_prune h, List.forM_eq_forM, List.forM_map]
  simp only [steps]
  rfl

namespace Topic

/-- The rules that count what a form holds, visible or not. -/
def rulesOnContent : List String := ["actions-exist", "has-error-state"]

/-- The rules that look at positions in lists of children, in which hidden nodes count. -/
def rulesOnPositions : List String :=
  ["controls-adjacent", "disclosure-no-control", "disclosure-missing-label", "disclosure-control-far"]

/-- Nothing hidden is where these rules look. -/
def Undisturbed (root : Node) : Topic → Prop
  | forms => Forms.ActionsShown root ∧ Forms.ErrorsShown root
  | tables => NoGapsAround Tables.isTable root
  | collapsibles =>
    Collapsibles.SectionsStartShown root ∧ NoGapsAround Collapsibles.isCollapsible root
  | wizards => True

theorem check_prune (room : Int) (around : Surroundings) (unique : root.UniqueShown) (t : Topic) :
    t.check room around root.prune = t.check room around root := by
  cases t with
  | tables => exact Tables.checkWidth_prune around.width root
  | wizards => exact Wizards.checkNumbering_prune room unique
  | forms | collapsibles => rfl

theorem rules_prune (around : Surroundings) (unique : root.UniqueIds) {t : Topic} {r : Rule}
    (hr : r ∈ (t.pattern around).rules) (other : r.id ∉ rulesOnContent ++ rulesOnPositions) :
    PassesAlike root r.check := by
  cases t with
  | forms =>
    simp only [pattern, Forms.pattern, Pattern.rules, List.cons_append, List.nil_append,
      List.mem_cons, List.not_mem_nil, or_false] at hr
    rcases hr with rfl | rfl | rfl | rfl | rfl
    · exact Forms.labelFindings_prune
    · exact absurd (by decide) other
    · exact Forms.orderFindings_prune unique
    · exact absurd (by decide) other
    · exact Forms.helpFindings_prune
  | tables =>
    simp only [pattern, Tables.pattern, Pattern.rules, List.cons_append, List.nil_append,
      List.mem_cons, List.not_mem_nil, or_false] at hr
    rcases hr with rfl | rfl | rfl | rfl
    · exact Tables.titleFindings_prune
    · exact Tables.strategyFindings_prune
    · exact Tables.fitFindings_prune around.width
    · exact absurd (by decide) other
  | collapsibles =>
    simp only [pattern, Collapsibles.pattern, Pattern.rules, List.cons_append, List.nil_append,
      List.mem_cons, List.not_mem_nil, or_false] at hr
    rcases hr with rfl | rfl | rfl | rfl | rfl | rfl
    · exact absurd (by decide) other
    · exact Collapsibles.primaryFindings_prune unique.shown
    · exact absurd (by decide) other
    · exact absurd (by decide) other
    · exact Collapsibles.affordanceFindings_prune unique.shown
    · exact Collapsibles.earlyFindings_prune root
  | wizards => exact Wizards.pattern_prune unique.shown around.sight r hr

theorem pattern_prune (around : Surroundings) (unique : root.UniqueIds) {t : Topic}
    (undisturbed : t.Undisturbed root) :
    ∀ r ∈ (t.pattern around).rules, PassesAlike root r.check := by
  cases t with
  | forms => exact Forms.pattern_prune unique undisturbed.1 undisturbed.2
  | tables => exact Tables.pattern_prune around.width unique undisturbed
  | collapsibles => exact Collapsibles.pattern_prune unique undisturbed.1 undisturbed.2
  | wizards => exact Wizards.pattern_prune unique.shown around.sight

/-- Where ids are unique, whatever is known of layouts, hidden nodes make no difference to whether a
    pattern can be judged, nor to a rule that neither counts what a form holds nor looks at positions
    among children. A form with hidden actions only passes for one with actions, and one with errors in
    hidden fields only for one with errors. Where no hidden node is where these rules look, none makes a
    difference to how many rules pass and fail. -/
theorem verdicts_prune (room : Int) (around : Surroundings) (root : Node) (unique : root.UniqueIds)
    (t : Topic) :
    t.check room around root.prune = t.check room around root ∧
    (∀ r ∈ (t.pattern around).rules,
      r.id ∉ rulesOnContent ++ rulesOnPositions → PassesAlike root r.check) ∧
    Forms.ContentCounted root ∧
    (t.Undisturbed root →
      ((t.pattern around).validate root.prune).CountsAlike ((t.pattern around).validate root)) :=
  ⟨check_prune room around unique.shown t, fun _ hr other => rules_prune around unique hr other,
    Forms.contentCounted root,
    fun undisturbed => Pattern.countsAlike (pattern_prune around unique undisturbed)⟩

end Topic

def Node.sectionLabel : Node := .text (.plain "label") ⟨"Details", none, none, none⟩

def Node.foldedSection : Node :=
  .stack { Header.plain "section" with
      behaviors := some ⟨some ⟨true, none, none, none, ["collapsible"]⟩, none, ["disclosure"]⟩ }
    ⟨.vertical, none, none, .start, false⟩ [.sectionLabel]

def Node.hiddenNote : Node := .text (.hidden "note") ⟨"Note", none, none, none⟩

/-- A page with a section that a button folds, and with other nodes in between and after. -/
def Node.folding (between after : List Node) : Node :=
  .plainStack "page" .vertical
    (.plainButton "toggle" "Show details" :: (between ++ .foldedSection :: after))

/-- A hidden note after the section is where no rule looks. -/
theorem Node.folding_undisturbed (t : Topic) : t.Undisturbed (.folding [] [.hiddenNote]) := by
  have shownNodes : (Node.folding [] [.hiddenNote]).visibleNodes =
      [.folding [] [.hiddenNote], .plainButton "toggle" "Show details", .foldedSection,
        .sectionLabel] := rfl
  have noGaps : ∀ test, NoGapsAround test (.folding [] [.hiddenNote]) := by
    have page : Gapless (Node.folding [] [.hiddenNote]).children := by
      show Gapless ([.plainButton "toggle" "Show details", .foldedSection] ++ [.hiddenNote])
      exact gapless_append (by decide +kernel) (by decide +kernel)
    have nothing : Gapless [] := gapless_append (List.forall_mem_nil _) (List.forall_mem_nil _)
    have label : Gapless [.sectionLabel] := by
      show Gapless ([.sectionLabel] ++ [])
      exact gapless_append (by decide +kernel) (List.forall_mem_nil _)
    have each : ∀ p ∈ (Node.folding [] [.hiddenNote]).visibleNodes, Gapless p.children := by
      simp only [shownNodes, List.forall_mem_cons]
      exact ⟨page, nothing, label, nothing, List.forall_mem_nil _⟩
    exact fun test p hp _ _ _ _ => each p hp
  cases t with
  | forms =>
    have noForm : ∀ n ∈ (Node.folding [] [.hiddenNote]).visibleNodes,
        FormFlow.actionsOf n = [] ∧ Forms.fieldsOf n = [] := by
      simp only [shownNodes, List.forall_mem_cons]
      exact ⟨⟨rfl, rfl⟩, ⟨rfl, rfl⟩, ⟨rfl, rfl⟩, ⟨rfl, rfl⟩, List.forall_mem_nil _⟩
    refine ⟨fun n hn some => absurd (noForm n hn).1 some, fun n hn some => ?_⟩
    rw [(noForm n hn).2] at some
    cases some
  | tables => exact noGaps _
  | collapsibles =>
    refine ⟨?_, noGaps _⟩
    have starts : Collapsibles.StartsShown .foldedSection := by
      rintro c ⟨⟩
      rfl
    simp only [Collapsibles.SectionsStartShown, shownNodes, List.forall_mem_cons]
    exact ⟨fun collapsible => absurd collapsible (by decide +kernel),
      fun collapsible => absurd collapsible (by decide +kernel), fun _ _ => starts,
      fun collapsible => absurd collapsible (by decide +kernel), List.forall_mem_nil _⟩
  | wizards => trivial

/-- Without the note the page is judged the same. -/
theorem Node.folding_alike : (Node.folding [] [.hiddenNote]).UniqueIds ∧
    ∀ t : Topic, ((t.pattern .unknown).validate (Node.folding [] [.hiddenNote]).prune).CountsAlike
      ((t.pattern .unknown).validate (.folding [] [.hiddenNote])) := by
  have unique : (Node.folding [] [.hiddenNote]).UniqueIds := by decide +kernel
  exact ⟨unique, fun t => (Topic.verdicts_prune 0 .unknown _ unique t).2.2.2 (folding_undisturbed t)⟩

/-- A hidden note between the button and the section takes a position, so the button is far away. -/
example : ((Topic.collapsibles.pattern .unknown).validate (.folding [.hiddenNote] [])).shouldFailed = 1 ∧
    ((Topic.collapsibles.pattern .unknown).validate
      (Node.folding [.hiddenNote] []).prune).shouldFailed = 0 := by
  decide +kernel

/-- A form with one field, whose only action is hidden. -/
def Node.unsent : Node :=
  .form (.plain "sign-up") ⟨none, none⟩
    [.field (.plain "email") ⟨"Email address", none, none, none, none⟩]
    [.button (.hidden "send") ⟨"Send", some .primary⟩]

/-- It passes all musts, and without the hidden button it has no action and fails one. -/
theorem Node.unsent_passes : Node.unsent.visible = true ∧ Node.unsent.UniqueIds ∧
    ((Topic.forms.pattern .unknown).validate .unsent).mustFailed = 0 ∧
    ((Topic.forms.pattern .unknown).validate Node.unsent.prune).mustFailed = 1 ∧
    ¬((Topic.forms.pattern .unknown).validate Node.unsent.prune).CountsAlike
      ((Topic.forms.pattern .unknown).validate .unsent) := by
  have passes : ((Topic.forms.pattern .unknown).validate .unsent).mustFailed = 0 := by decide +kernel
  have fails : ((Topic.forms.pattern .unknown).validate Node.unsent.prune).mustFailed = 1 := by
    decide +kernel
  refine ⟨rfl, by decide +kernel, passes, fails, fun alike => ?_⟩
  have same := alike.mustFailed
  rw [passes, fails] at same
  cases same

end Wireframe
