import Wireframe.Focus.FormFlow
import Wireframe.Proofs.Order
import Wireframe.Proofs.Pattern.HiddenSteps

/-
  Wireframe.Proofs.Pattern.ActionRows — where the actions of a step are.

  Three searches share a walk, and every one looks for the last. A row that passes the first search
  passes the second one too, so a later search counts only when there is nothing for the earlier
  ones. The third search is no weaker than the second: it also takes rows from top to bottom, but
  none that holds a container.

  Where there are actions the first one is a node of the step. So the step is divided there, and only
  a step without actions is not divided.

  Proved:
  - `rowOf?_iff`: the row that is chosen among those in a step.
  - `shownButtons_ne_nil`: a row has a button that is seen.
  - `Step.aroundActions_eq`: a step is divided at its first action.
  - `actions_found`: the row and the buttons of a step.
-/

namespace Wireframe.Wizards

open Located

/-! ## Rows -/

/-- A stack with a visible button in it. -/
structure Row (l : Located) : Prop where
  isStack : l.node.kind = .stack
  button : ∃ b ∈ l.shownChildren, b.node.isButton = true

/-- A row from side to side. -/
structure LevelRow (l : Located) : Prop extends Row l where
  level : isHorizontal l.node = true

/-- A row from side to side in which only buttons are visible. -/
structure ButtonRow (l : Located) : Prop extends LevelRow l where
  only : ∀ c ∈ l.shownChildren, c.node.isButton = true

/-- A row in which no container is visible. -/
structure LeafRow (l : Located) : Prop extends Row l where
  leaves : ∀ c ∈ l.shownChildren, c.node.isContainer = false

/-- The row that is chosen in a list of nodes. -/
inductive RowChosen (nodes : List Located) : Option Located → Prop where
  /-- The last one from side to side with nothing but buttons. -/
  | buttons {row : Located} : LastWith ButtonRow nodes row → RowChosen nodes (some row)
  /-- When there is none, the last one from side to side. -/
  | level {row : Located} : (∀ l ∈ nodes, ¬ButtonRow l) → LastWith LevelRow nodes row →
      RowChosen nodes (some row)
  /-- When there is none of these either, the last one without a container. -/
  | leaves {row : Located} : (∀ l ∈ nodes, ¬LevelRow l) → LastWith LeafRow nodes row →
      RowChosen nodes (some row)
  /-- None, when every row is from top to bottom and has a container. -/
  | none : (∀ l ∈ nodes, Row l →
      isHorizontal l.node = false ∧ ∃ c ∈ l.shownChildren, c.node.isContainer = true) →
      RowChosen nodes none

theorem isRow_iff {l : Located} : isRow l = true ↔ Row l := by
  have button : (!(shownButtons l).isEmpty) = true ↔
      ∃ b ∈ l.shownChildren, b.node.isButton = true := by
    rw [Bool.not_eq_true', List.isEmpty_eq_false_iff_exists_mem]
    simp only [shownButtons, List.mem_filter]
  rw [isRow, Bool.and_eq_true, beq_iff_eq, button]
  exact ⟨fun h => ⟨h.1, h.2⟩, fun row => ⟨row.isStack, row.button⟩⟩

theorem levelRow_iff {l : Located} : (isHorizontal l.node && isRow l) = true ↔ LevelRow l := by
  rw [Bool.and_eq_true, isRow_iff]
  exact ⟨fun h => ⟨h.2, h.1⟩, fun row => ⟨row.level, row.toRow⟩⟩

theorem buttonRow_iff {l : Located} : (l.shownChildren.all (·.node.isButton) &&
    (isHorizontal l.node && isRow l)) = true ↔ ButtonRow l := by
  rw [Bool.and_eq_true, levelRow_iff, List.all_eq_true]
  exact ⟨fun h => ⟨h.2, h.1⟩, fun row => ⟨row.only, row.toLevelRow⟩⟩

theorem leafRow_iff {l : Located} :
    (!l.shownChildren.any (·.node.isContainer) && isRow l) = true ↔ LeafRow l := by
  rw [Bool.and_eq_true, isRow_iff, Bool.not_eq_true', List.any_eq_false]
  simp only [Bool.not_eq_true]
  exact ⟨fun h => ⟨h.2, h.1⟩, fun row => ⟨row.leaves, row.toRow⟩⟩

theorem rowOf?_eq (step : Located) : rowOf? step =
    ((step.subtree.filter fun l => l.shownChildren.all (·.node.isButton) &&
        (isHorizontal l.node && isRow l)).getLast?.or
      (step.subtree.filter fun l => isHorizontal l.node && isRow l).getLast?).or
    (step.subtree.filter fun l =>
      !l.shownChildren.any (·.node.isContainer) && isRow l).getLast? := by
  simp only [rowOf?, Option.orElse_eq_or, List.filter_filter]

theorem rowOf?_iff {step : Located} {chosen : Option Located} :
    rowOf? step = chosen ↔ RowChosen step.subtree chosen := by
  rw [rowOf?_eq]
  constructor
  · rintro rfl
    cases first : (step.subtree.filter fun l => l.shownChildren.all (·.node.isButton) &&
        (isHorizontal l.node && isRow l)).getLast? with
    | some row => exact .buttons ((getLast?_filter_iff fun _ _ => buttonRow_iff).mp first)
    | none =>
    have no_buttons := (getLast?_filter_eq_none fun _ _ => buttonRow_iff).mp first
    cases second : (step.subtree.filter fun l => isHorizontal l.node && isRow l).getLast? with
    | some row => exact .level no_buttons ((getLast?_filter_iff fun _ _ => levelRow_iff).mp second)
    | none =>
    have no_level := (getLast?_filter_eq_none fun _ _ => levelRow_iff).mp second
    cases third : (step.subtree.filter fun l =>
        !l.shownChildren.any (·.node.isContainer) && isRow l).getLast? with
    | some row => exact .leaves no_level ((getLast?_filter_iff fun _ _ => leafRow_iff).mp third)
    | none =>
      have no_leaves := (getLast?_filter_eq_none fun _ _ => leafRow_iff).mp third
      refine .none fun l hl row => ⟨?_, ?_⟩
      · by_contra level
        exact no_level l hl ⟨row, by simpa using level⟩
      · by_contra leaves
        exact no_leaves l hl ⟨row, by simpa using leaves⟩
  · intro chosen
    cases chosen with
    | buttons last =>
      rw [(getLast?_filter_iff fun _ _ => buttonRow_iff).mpr last]
      rfl
    | level no_buttons last =>
      rw [(getLast?_filter_eq_none fun _ _ => buttonRow_iff).mpr no_buttons,
        (getLast?_filter_iff fun _ _ => levelRow_iff).mpr last]
      rfl
    | leaves no_level last =>
      rw [(getLast?_filter_eq_none fun _ _ => buttonRow_iff).mpr fun l hl h =>
          no_level l hl h.toLevelRow,
        (getLast?_filter_eq_none fun _ _ => levelRow_iff).mpr no_level,
        (getLast?_filter_iff fun _ _ => leafRow_iff).mpr last]
      rfl
    | none low =>
      have no_level : ∀ l ∈ step.subtree, ¬LevelRow l := fun l hl h =>
        absurd h.level (by rw [(low l hl h.toRow).1]; exact Bool.false_ne_true)
      have no_leaves : ∀ l ∈ step.subtree, ¬LeafRow l := fun l hl h => by
        obtain ⟨-, c, hc, container⟩ := low l hl h.toRow
        rw [h.leaves c hc] at container
        cases container
      rw [(getLast?_filter_eq_none fun _ _ => buttonRow_iff).mpr fun l hl h =>
          no_level l hl h.toLevelRow,
        (getLast?_filter_eq_none fun _ _ => levelRow_iff).mpr no_level,
        (getLast?_filter_eq_none fun _ _ => leafRow_iff).mpr no_leaves]
      rfl

theorem rowChosen_none {nodes : List Located} : RowChosen nodes none ↔ ∀ l ∈ nodes, Row l →
    isHorizontal l.node = false ∧ ∃ c ∈ l.shownChildren, c.node.isContainer = true := by
  refine ⟨fun chosen => ?_, .none⟩
  cases chosen with
  | none low => exact low

/-- Whatever row is chosen, it is one. -/
theorem RowChosen.row {nodes : List Located} {row : Located} (h : RowChosen nodes (some row)) :
    Row row := by
  cases h with
  | buttons last => obtain ⟨_, _, -, row, -⟩ := last; exact row.toRow
  | level _ last => obtain ⟨_, _, -, row, -⟩ := last; exact row.toRow
  | leaves _ last => obtain ⟨_, _, -, row, -⟩ := last; exact row.toRow

/-- A row has a button that is seen. -/
theorem shownButtons_ne_nil {row : Located} (h : Row row) : shownButtons row ≠ [] := by
  obtain ⟨b, hb, button⟩ := h.button
  exact List.ne_nil_of_mem (List.mem_filter.mpr ⟨hb, button⟩)

/-! ## The boundary of a step -/

/-- A step is divided at its first action, and a step without actions is not divided. -/
theorem Step.aroundActions_eq {s : Step} (hv : s.place.node.visible = true)
    (own : s.actions = actionsOf s.place) :
    (s.actions.buttons = [] → s.aroundActions = (s.place.subtree, [])) ∧
    ∀ first rest, s.actions.buttons = first :: rest → ∃ before after,
      s.place.subtree = before ++ first :: after ∧ s.aroundActions = (before, first :: after) := by
  refine ⟨fun none => ?_, fun first rest some => ?_⟩
  · rw [aroundActions, none, List.span_eq_takeWhile_dropWhile]
    simp
  · have inside : first ∈ s.place.subtree :=
      buttons_in_subtree hv (own ▸ some ▸ List.mem_cons_self)
    obtain ⟨before, after, halves⟩ := List.append_of_mem inside
    refine ⟨before, after, halves, ?_⟩
    rw [aroundActions, some]
    exact span_at_pointer (Node.pointers_nodup _ _ _) halves

/-! ## The actions of a step -/

/-- What is found for the actions of a visible step. -/
structure ActionsFound (step : Located) (actions : Actions) : Prop where
  /-- A form has its own: those that are visible buttons, in order. -/
  form : step.node.kind = .form → actions =
    ⟨some step, ((listSlots "actions" (FormFlow.actionsOf step.node)).map step.under).filter fun l =>
      l.node.isButton && l.node.visible⟩
  /-- Any other step has a row among what is visible in it. -/
  row : step.node.kind ≠ .form → RowChosen step.subtree actions.row
  /-- Its actions are the visible buttons of the row, in order. -/
  buttons : step.node.kind ≠ .form →
    actions.buttons = (actions.row.map fun row => row.shownChildren.filter (·.node.isButton)).getD []
  /-- There are some when there is a row. -/
  some_button : step.node.kind ≠ .form → ∀ row, actions.row = some row → actions.buttons ≠ []
  /-- There is neither a row nor an action exactly when every row is from top to bottom and has a
  container. -/
  absent : step.node.kind ≠ .form → (actions = ⟨none, []⟩ ↔ ∀ l ∈ step.subtree, Row l →
    isHorizontal l.node = false ∧ ∃ c ∈ l.shownChildren, c.node.isContainer = true)
  /-- The actions are visible nodes of the step. -/
  within : actions.buttons ⊆ step.subtree
  /-- The step is divided at the first of them; and it is not divided exactly when there are none. -/
  boundary : ∀ s : Step, s.place = step → s.actions = actions →
    (s.aroundActions.2 = [] ↔ actions.buttons = []) ∧
    (actions.buttons = [] → s.aroundActions.1 = step.subtree) ∧
    ∀ first ∈ actions.buttons.head?, ∃ before after, step.subtree = before ++ first :: after ∧
      s.aroundActions = (before, first :: after)

/-- The actions of any visible step are those of the form that it is, or the buttons of the row that
    is chosen in it. -/
theorem actions_found {step : Located} (visible : step.node.visible = true) :
    ActionsFound step (actionsOf step) where
  form kind := by
    cases own : step.node with
    | form hd f fs as => exact actionsOf_form own
    | stack | grid | box | text | button | field | table => rw [own] at kind; cases kind
  row other := by
    have chosen := rowOf?_iff.mp (Eq.refl (rowOf? step))
    rw [actionsOf_row other]
    cases found : rowOf? step with
    | none => rwa [found] at chosen
    | some row => rwa [found] at chosen
  buttons other := by
    rw [actionsOf_row other]
    cases rowOf? step with
    | none => rfl
    | some row => rfl
  some_button other := by
    rw [actionsOf_row other]
    cases found : rowOf? step with
    | none => rintro _ ⟨⟩
    | some row => exact fun _ _ => shownButtons_ne_nil (rowOf?_iff.mp found).row
  absent other := by
    have no_row : rowOf? step = none ↔ _ := rowOf?_iff.trans rowChosen_none
    rw [← no_row, actionsOf_row other]
    cases rowOf? step with
    | none => exact iff_of_true rfl rfl
    | some row => exact iff_of_false nofun nofun
  within _ := buttons_in_subtree visible
  boundary := by
    rintro s rfl own
    obtain ⟨whole, halves⟩ := s.aroundActions_eq visible own
    rw [← own]
    cases buttons : s.actions.buttons with
    | nil => simp [whole buttons]
    | cons first rest =>
      obtain ⟨before, after, split, around⟩ := halves first rest buttons
      refine ⟨by simp [around], by simp, fun b hb => ?_⟩
      obtain rfl : first = b := Option.some.inj hb
      exact ⟨before, after, split, around⟩

/-- A step with three rows: in a form one with buttons and a hidden note, then one with a note that is
    seen, and last a column. -/
def crowdedStep : Node :=
  .plainStack "step" .vertical
    [.text (.plain "title") ⟨"Step 1", none, none, none⟩,
      .form (.plain "account") ⟨none, none⟩ []
        [.plainStack "row" .horizontal
          [.plainButton "back" "Back", .text (.hidden "note") ⟨"Note", none, none, none⟩,
            .plainButton "next" "Next", .button (.hidden "off") ⟨"Off", none⟩]],
      .plainStack "mixed" .horizontal
        [.plainButton "help" "Help", .text (.plain "hint") ⟨"Hint", none, none, none⟩],
      .plainStack "column" .vertical [.plainButton "skip" "Skip"]]

theorem crowdedStep_found : crowdedStep.visible = true ∧
    ActionsFound ⟨crowdedStep, rootPointer⟩ (actionsOf ⟨crowdedStep, rootPointer⟩) :=
  ⟨rfl, actions_found rfl⟩

/-- Of its three rows it is the first one, where only buttons are seen. -/
example : (actionsOf ⟨crowdedStep, rootPointer⟩).buttons.map (·.node.id) = ["back", "next"] := by
  decide +kernel

end Wireframe.Wizards
