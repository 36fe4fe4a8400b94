import Mathlib.Data.List.TakeWhile
import Wireframe.Pattern.Forms
import Wireframe.Proofs.Focus.Hidden

/-
  Wireframe.Proofs.Focus.LateFields — two rules that look for fields after the actions of a form.

  The keyboard and the pattern of forms both look through a form from its first action on. They
  part over a field that is itself one of the actions. The keyboard counts it, also when it is the
  first action and so comes after none; the pattern passes over it, also when other actions come
  before it.

  Proved:
  - `reportsLate_iff`, `reportsOrder_iff`: what each rule reports, by the visible nodes of the form.
  - `fieldFrom_iff`: a field from the first action on is no action, or it is a visible one.
  - `late_fields_reported`: the keyboard reports the forms that the pattern reports, and those with
    a visible action that is a field.
-/

namespace Wireframe

open Node

/-- What a test does not pass is not passed over. -/
theorem mem_dropWhile_of_not {α : Type} {p : α → Bool} {as : List α} {a : α} (ha : a ∈ as)
    (stops : p a = false) : a ∈ as.dropWhile p := by
  rw [← List.takeWhile_append_dropWhile (p := p) (l := as)] at ha
  rcases List.mem_append.mp ha with before | after
  · have passed := List.mem_takeWhile_imp before
    rw [stops] at passed
    cases passed
  · exact after

namespace FormFlow

/-! ## What is reported -/

def isAction (form n : Node) : Bool := ((actionsOf form).map (·.id)).contains n.id

/-- The visible nodes of a form from its first action on. -/
def fromActions (form : Node) : List Node := form.visibleNodes.dropWhile fun n => !isAction form n

/-- The keyboard reports a late field of the form with this id. -/
def ReportsLate (root : Node) (id : String) : Prop :=
  ∃ i ∈ issues root, i.id = "field-after-actions" ∧
    ∃ d, i.details = some (some d) ∧ Keyed.get? d "formId" = some (.text id)

/-- The pattern reports the order in the form with this id. -/
def ReportsOrder (root : Node) (id : String) : Prop :=
  ∃ i ∈ Forms.orderFindings root, i.nodeId = some (some id)

theorem lateNode?_isSome (form : Node) :
    (lateNode? form).isSome = true ↔ ∃ n ∈ fromActions form, n.isField = true := by
  have none_iff : lateNode? form = none ↔ ∀ n ∈ fromActions form, ¬n.isField = true := by
    rw [lateNode?, List.getLast?_eq_none_iff, List.filter_eq_nil_iff]
    rfl
  rw [Option.isSome_iff_ne_none, Ne, none_iff]
  push Not
  rfl

theorem fieldAfterAction_iff (form : Node) : Forms.fieldAfterAction form = true ↔
    ∃ n ∈ fromActions form, n.isField = true ∧ isAction form n = false := by
  simp only [Forms.fieldAfterAction, List.any_eq_true, Bool.and_eq_true, Bool.not_eq_true']
  rfl

section

variable {root : Node} (unique : root.UniqueIds) {form : Located} (hform : form ∈ forms root)
include unique hform

/-- A form with the id of a form is this form. -/
theorem form_eq {other : Located} (h : other ∈ forms root) (same : other.node.id = form.node.id) :
    other = form :=
  unique.shown.located_eq (List.mem_of_mem_filter h) (List.mem_of_mem_filter hform) same

theorem reportsLate_iff :
    ReportsLate root form.node.id ↔ ∃ n ∈ fromActions form.node, n.isField = true := by
  rw [← lateNode?_isSome, ← lateField?_node form.node form.pointer, Option.isSome_map]
  constructor
  · rintro ⟨i, hi, late, d, hd, hid⟩
    obtain ⟨other, hother, hi⟩ := List.mem_flatMap.mp hi
    rcases List.mem_append.mp hi with hi | hi
    · -- The other rule of the keyboard has another name.
      obtain ⟨cancel, -, rfl⟩ := Option.map_eq_some_iff.mp (Option.mem_toList.mp hi)
      simp at late
    · obtain ⟨field, hfield, rfl⟩ := Option.map_eq_some_iff.mp (Option.mem_toList.mp hi)
      cases hd
      have same : other.node.id = form.node.id := by simpa [Keyed.get?] using hid
      obtain rfl := form_eq unique hform hother same
      exact Option.isSome_of_mem hfield
  · intro h
    obtain ⟨field, hfield⟩ := Option.isSome_iff_exists.mp h
    have told : lateFieldIssue? form = (some field).map _ := congrArg (Option.map _) hfield
    refine ⟨_, List.mem_flatMap.mpr ⟨form, hform, List.mem_append_right _
      (Option.mem_toList.mpr told)⟩, rfl, _, rfl, ?_⟩
    simp [Keyed.get?]

theorem reportsOrder_iff : ReportsOrder root form.node.id ↔
    ∃ n ∈ fromActions form.node, n.isField = true ∧ isAction form.node n = false := by
  rw [← fieldAfterAction_iff]
  constructor
  · rintro ⟨i, hi, told⟩
    obtain ⟨other, hother, hi⟩ := List.mem_filterMap.mp hi
    by_cases late : Forms.fieldAfterAction other.node = true
    · rw [if_pos late] at hi
      cases hi
      have same : other.node.id = form.node.id := by simpa [Finding.toIssue, Finding.on] using told
      obtain rfl := form_eq unique hform hother same
      exact late
    · rw [if_neg late] at hi
      cases hi
  · intro late
    exact ⟨_, List.mem_filterMap.mpr ⟨form, hform, if_pos late⟩, rfl⟩

/-- A visible node with the id of an action is this action. -/
theorem action_of_isAction {n : Node} (hn : n ∈ form.node.visibleNodes)
    (h : isAction form.node n = true) : n ∈ actionsOf form.node := by
  rw [isAction, List.contains_iff_mem] at h
  obtain ⟨a, ha, same⟩ := List.mem_map.mp h
  have within := node_mem_allNodes (List.mem_of_mem_filter hform)
  have ha' := mem_allNodes_trans within (mem_allNodes_child (actionsOf_subset form.node ha))
  have hn' := mem_allNodes_trans within (form.node.visibleNodes_subset hn)
  exact unique.eq_of_id ha' hn' same ▸ ha

/-- From the first action of a form on, a field is no action, or it is a visible one. -/
theorem fieldFrom_iff : (∃ n ∈ fromActions form.node, n.isField = true) ↔
    (∃ n ∈ fromActions form.node, n.isField = true ∧ isAction form.node n = false) ∨
      ∃ a ∈ actionsOf form.node, a.visible = true ∧ a.isField = true := by
  constructor
  · rintro ⟨n, hn, field⟩
    by_cases action : isAction form.node n = true
    · have seen := (List.dropWhile_sublist _).subset hn
      exact .inr ⟨n, action_of_isAction unique hform seen action,
        visible_of_mem_visibleNodes seen, field⟩
    · exact .inl ⟨n, hn, field, by simpa using action⟩
  · rintro (⟨n, hn, field, -⟩ | ⟨a, ha, seen, field⟩)
    · exact ⟨n, hn, field⟩
    · refine ⟨a, mem_dropWhile_of_not ?_ ?_, field⟩
      · have shown := visible_of_mem (List.mem_of_mem_filter hform)
        exact child_mem_visibleNodes (mem_visibleNodes_self shown) (actionsOf_subset _ ha) seen
      · rw [isAction, List.contains_iff_mem.mpr (List.mem_map_of_mem ha)]
        rfl

end

end FormFlow

/-- On a screen with unique ids the keyboard reports a late field of a visible form exactly when the
    pattern of forms reports its order, or one of its visible actions is itself a field. So the two
    agree on forms none of whose visible actions is a field, and otherwise the keyboard reports
    whatever the pattern does. -/
theorem FormFlow.late_fields_reported {root : Node} (unique : root.UniqueIds) {form : Located}
    (hform : form ∈ forms root) :
    ReportsLate root form.node.id ↔ ReportsOrder root form.node.id ∨
      ∃ a ∈ actionsOf form.node, a.visible = true ∧ a.isField = true := by
  rw [reportsLate_iff unique hform, reportsOrder_iff unique hform, fieldFrom_iff unique hform]

/-- A form with two fields among its actions, after the button that sends it. -/
def Node.addressForm : Node :=
  .form (.plain "address") ⟨none, none⟩ []
    [.plainButton "send" "Send", .field (.plain "street") ⟨"Street and number", none, none, none, none⟩,
      .field (.plain "town") ⟨"Town or city", none, none, none, none⟩]

theorem FormFlow.addressForm_reported : addressForm.UniqueIds ∧
    (⟨addressForm, rootPointer⟩ : Located) ∈ forms addressForm ∧
    (ReportsLate addressForm "address" ↔ ReportsOrder addressForm "address" ∨
      ∃ a ∈ actionsOf addressForm, a.visible = true ∧ a.isField = true) := by
  have unique : addressForm.UniqueIds := by decide +kernel
  have here : (⟨addressForm, rootPointer⟩ : Located) ∈ forms addressForm :=
    List.mem_filter.mpr ⟨mem_walkFrom_self fun _ => rfl, rfl⟩
  exact ⟨unique, here, late_fields_reported unique here⟩

/-- Only the keyboard reports it. -/
theorem FormFlow.addressForm_disputed : addressForm.UniqueIds ∧
    (⟨addressForm, rootPointer⟩ : Located) ∈ forms addressForm ∧
    ¬(ReportsOrder addressForm "address" ↔ ReportsLate addressForm "address") := by
  have unique : addressForm.UniqueIds := by decide +kernel
  have here : (⟨addressForm, rootPointer⟩ : Located) ∈ forms addressForm :=
    List.mem_filter.mpr ⟨mem_walkFrom_self fun _ => rfl, rfl⟩
  refine ⟨unique, here, fun agree => ?_⟩
  have late : ReportsLate addressForm "address" := by
    refine (reportsLate_iff unique here).mpr ?_
    decide +kernel
  have order := (reportsOrder_iff unique here).mp (agree.mpr late)
  revert order
  decide +kernel

end Wireframe
