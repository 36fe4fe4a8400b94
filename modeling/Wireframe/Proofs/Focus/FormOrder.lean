import Wireframe.Proofs.Focus.LateFields
import Wireframe.Proofs.Locations
import Wireframe.Proofs.Order

/-
  Wireframe.Proofs.Focus.FormOrder — what the keyboard tells of the order in a form.

  A late field is found in a flat list: the visible nodes of the form, from the first one on that has
  the id of an action. Hidden actions are among those whose ids are looked for. What is meant is a
  question about places: does a visible field stand at or inside of a visible action? It comes to the
  same because a form lists its fields and all that is in them before its actions, and because where
  ids are unique nothing before the actions has the id of one, and nothing visible that of a hidden
  one.

  Proved:
  - `cancelBeforePrimary?_iff`: the two buttons that are found.
  - `subtree_form`: a form comes first, then what is in its fields, then what is in its actions.
  - `fromActions_eq`: from the first action on, there is what is in the actions and nothing else.
  - `lateField?_iff`: the field that is found is the last late one.
  - `form_order_told`: what is told of the forms of a screen.
-/

namespace Wireframe.FormFlow

open Node Located

/-! ## What is meant -/

/-- The nodes in the first slots of a form, none of anything else. -/
def fieldsOf : Node → List Node
  | .form _ _ fs _ => fs
  | _ => []

/-- Where the nodes in the first slots of a form stand. -/
def fieldPlaces (form : Located) : List Located :=
  (listSlots "fields" (fieldsOf form.node)).map form.under

/-- Where the actions of a form stand. -/
def actionPlaces (form : Located) : List Located :=
  (listSlots "actions" (actionsOf form.node)).map form.under

/-- Of some actions, this is the first button that leaves the form, and it comes before the first
    primary button, which is that one. -/
structure LeavesFirst (actions : List Node) (cancel primary : Node) : Prop where
  leaves : isCancel cancel = true
  sends : primary.isPrimaryButton = true
  order : ∃ before between after, actions = before ++ cancel :: between ++ primary :: after ∧
    (∀ a ∈ before, isCancel a = false) ∧
    ∀ a ∈ before ++ cancel :: between, a.isPrimaryButton = false

/-- A field that is visible, with all that it stands in, at or inside of an action of a form. -/
structure Late (form field : Located) : Prop where
  shown : field ∈ form.subtree
  isField : field.node.isField = true
  within : ∃ action ∈ actionPlaces form,
    action.node.visible = true ∧ (field = action ∨ field.Inside action)

/-! ## Buttons -/

theorem cancelBeforePrimary?_append {before after : List Node} {primary : Node}
    (none_before : ∀ a ∈ before, a.isPrimaryButton = false) (sends : primary.isPrimaryButton = true) :
    cancelBeforePrimary? (before ++ primary :: after) =
      (before.find? isCancel).map fun cancel => (cancel, primary) := by
  have ahead : ∀ a ∈ before, (!a.isPrimaryButton) = true := fun a ha => by rw [none_before a ha]; rfl
  have stop : (!primary.isPrimaryButton) = false := by rw [sends]; rfl
  rw [cancelBeforePrimary?, List.takeWhile_append_of_pos ahead, List.dropWhile_append_of_pos ahead]
  simp only [List.dropWhile_cons, List.takeWhile_cons, stop, Bool.false_eq_true, if_false,
    List.append_nil]

theorem cancelBeforePrimary?_iff {actions : List Node} {cancel primary : Node} :
    cancelBeforePrimary? actions = some (cancel, primary) ↔ LeavesFirst actions cancel primary := by
  constructor
  · intro found
    cases sending : actions.find? (·.isPrimaryButton) with
    | none =>
      have none_left : actions.dropWhile (fun a => !a.isPrimaryButton) = [] :=
        List.dropWhile_eq_nil_iff.mpr fun a ha => by
          simpa using List.find?_eq_none.mp sending a ha
      rw [cancelBeforePrimary?, none_left] at found
      cases found
    | some p =>
      obtain ⟨sends, before, after, rfl, none_before⟩ := List.find?_eq_some_iff_append.mp sending
      have none_before : ∀ a ∈ before, a.isPrimaryButton = false := by simpa using none_before
      rw [cancelBeforePrimary?_append none_before sends] at found
      obtain ⟨c, hc, same⟩ := Option.map_eq_some_iff.mp found
      cases same
      obtain ⟨leaves, first, between, rfl, none_first⟩ := List.find?_eq_some_iff_append.mp hc
      exact ⟨leaves, sends, first, between, after, rfl, by simpa using none_first, none_before⟩
  · rintro ⟨leaves, sends, before, between, after, rfl, none_before, none_sends⟩
    rw [cancelBeforePrimary?_append none_sends sends]
    refine Option.map_eq_some_iff.mpr ⟨cancel, List.find?_eq_some_iff_append.mpr ?_, rfl⟩
    exact ⟨leaves, before, between, rfl, by simpa using none_before⟩

/-! ## Fields -/

theorem slots_form {n : Node} (h : n.kind = .form) :
    n.slots = listSlots "fields" (fieldsOf n) ++ listSlots "actions" (actionsOf n) := by
  cases n with
  | form => rfl
  | _ => cases h

theorem children_form {n : Node} (h : n.kind = .form) : n.children = fieldsOf n ++ actionsOf n := by
  cases n with
  | form => rfl
  | _ => cases h

variable {form : Located}

/-- A form comes first, then what is in its fields, then what is in its actions. -/
theorem subtree_form (kind : form.node.kind = .form) (visible : form.node.visible = true) :
    form.subtree =
      form :: (fieldPlaces form).flatMap subtree ++ (actionPlaces form).flatMap subtree := by
  rw [subtree, walkFrom_eq, if_neg (by simp [visible]), slots_form kind, List.flatMap_append,
    fieldPlaces, actionPlaces, List.flatMap_map, List.flatMap_map]
  rfl

theorem mem_actionPlaces {action : Located} (h : action ∈ actionPlaces form) :
    action.node ∈ actionsOf form.node := by
  obtain ⟨s, hs, rfl⟩ := List.mem_map.mp h
  have := List.mem_map_of_mem (f := Slot.node) hs
  rwa [listSlots_nodes] at this

/-- What is looked through from places with the ids of actions on is all that is in them: a hidden one
    has nothing in it that is seen, and a visible one comes before what is in it. -/
theorem dropWhile_places {places : List Located}
    (actions : ∀ action ∈ places, isAction form.node action.node = true) :
    (places.flatMap subtree).dropWhile (fun l => !isAction form.node l.node) =
      places.flatMap subtree := by
  induction places with
  | nil => rfl
  | cons action rest ih =>
    obtain ⟨own, others⟩ := List.forall_mem_cons.mp actions
    rw [List.flatMap_cons]
    cases visible : action.node.visible with
    | false =>
      have hidden : action.subtree = [] := by rw [subtree, walkFrom_eq, visible]; rfl
      rw [hidden, List.nil_append, ih others]
    | true =>
      obtain ⟨below, first⟩ : ∃ below, action.subtree = action :: below :=
        ⟨_, by rw [subtree, walkFrom_eq, if_neg (by simp [visible])]⟩
      rw [first, List.cons_append, List.dropWhile_cons, own]
      rfl

section

variable {root : Node} (unique : root.UniqueIds) (hform : form ∈ forms root)
include hform

theorem kind_of_forms : form.node.kind = .form := eq_of_beq (List.mem_filter.mp hform).2

theorem form_mem_walk : form ∈ root.walk := List.mem_of_mem_filter hform

include unique

/-- Nothing that comes before the actions of a form has the id of one. -/
theorem isAction_before {l : Located} (hl : l ∈ form :: (fieldPlaces form).flatMap subtree) :
    isAction form.node l.node = false := by
  have within := node_mem_allNodes (form_mem_walk hform)
  have ids : (form.node.allNodes.map (·.id)).Nodup :=
    List.Nodup.sublist ((allNodes_sublist within).map _) unique
  rw [allNodes_eq, children_form (kind_of_forms hform), List.flatMap_append, ← List.cons_append,
    List.map_append, List.nodup_append] at ids
  have before : l.node ∈ form.node :: (fieldsOf form.node).flatMap allNodes := by
    rcases List.mem_cons.mp hl with rfl | hl
    · exact List.mem_cons_self
    · obtain ⟨place, hplace, hl⟩ := List.mem_flatMap.mp hl
      obtain ⟨s, hs, rfl⟩ := List.mem_map.mp hplace
      have field : s.node ∈ fieldsOf form.node := by
        have := List.mem_map_of_mem (f := Slot.node) hs
        rwa [listSlots_nodes] at this
      have below : l.node ∈ s.node.visibleNodes := by
        rw [← s.node.walkFrom_nodes (form.under s).pointer]
        exact List.mem_map_of_mem hl
      exact List.mem_cons_of_mem _ (List.mem_flatMap.mpr ⟨_, field, visibleNodes_subset _ below⟩)
  rw [← Bool.not_eq_true, isAction, List.contains_iff_mem]
  intro same
  obtain ⟨a, ha, same⟩ := List.mem_map.mp same
  have action : a ∈ (actionsOf form.node).flatMap allNodes :=
    List.mem_flatMap.mpr ⟨a, ha, a.mem_allNodes_self⟩
  exact ids.2.2 _ (List.mem_map_of_mem before) _ (List.mem_map_of_mem action) same.symm

/-- From its first action on, a form has what is in its actions and nothing else. -/
theorem fromActions_eq : form.subtree.dropWhile (fun l => !isAction form.node l.node) =
    (actionPlaces form).flatMap subtree := by
  rw [subtree_form (kind_of_forms hform) (visible_of_mem (form_mem_walk hform)),
    List.dropWhile_append_of_pos fun l hl => by rw [isAction_before unique hform hl]; rfl]
  refine dropWhile_places fun action ha => ?_
  rw [isAction, List.contains_iff_mem]
  exact List.mem_map_of_mem (mem_actionPlaces ha)

end

/-! ## Late fields -/

/-- What is in the fields of a form is in none of its actions. -/
theorem not_late_of_fields (kind : form.node.kind = .form) {place field : Located}
    (hplace : place ∈ fieldPlaces form) (place_or_below : field = place ∨ field.Inside place) :
    ¬Late form field := by
  rintro ⟨-, -, action, haction, -, action_or_below⟩
  obtain ⟨s, hs, rfl⟩ := List.mem_map.mp hplace
  obtain ⟨t, ht, rfl⟩ := List.mem_map.mp haction
  have both : s = t := by
    refine slot_of_place ?_ ?_ place_or_below action_or_below <;> rw [slots_form kind]
    · exact List.mem_append_left _ hs
    · exact List.mem_append_right _ ht
  obtain ⟨i, n, -, rfl⟩ := mem_listSlots.mp hs
  obtain ⟨j, m, -, rfl⟩ := mem_listSlots.mp ht
  exact absurd (congrArg Slot.name both) (by decide : "fields" ≠ "actions")

/-- A form is in none of its actions. -/
theorem not_late_self (kind : form.node.kind = .form) : ¬Late form form := by
  rintro ⟨-, -, action, haction, -, action_or_below⟩
  obtain ⟨t, ht, rfl⟩ := List.mem_map.mp haction
  have inside : (form.under t).Inside form :=
    .slot (by rw [slots_form kind]; exact List.mem_append_right _ ht)
  rcases action_or_below with same | below
  · exact inside.ne same.symm
  · exact (below.trans inside).ne rfl

/-- The late ones among the visible nodes of a form are the fields among those in its actions. -/
theorem late_filter (kind : form.node.kind = .form) (visible : form.node.visible = true)
    [DecidablePred (Late form)] : form.subtree.filter (fun l => decide (Late form l)) =
      ((actionPlaces form).flatMap subtree).filter (·.node.isField) := by
  have whole := subtree_form kind visible
  have before : (form :: (fieldPlaces form).flatMap subtree).filter (fun l => decide (Late form l)) =
      [] := by
    refine List.filter_eq_nil_iff.mpr fun l hl late => ?_
    rcases List.mem_cons.mp hl with rfl | hl
    · exact not_late_self kind (of_decide_eq_true late)
    · obtain ⟨place, hplace, hl⟩ := List.mem_flatMap.mp hl
      exact not_late_of_fields kind hplace (inside_of_mem_walkFrom hl) (of_decide_eq_true late)
  conv_lhs => rw [whole, List.filter_append, before, List.nil_append]
  refine List.filter_congr fun l hl => ?_
  rw [Bool.eq_iff_iff, decide_eq_true_iff]
  refine ⟨Late.isField, fun field => ⟨whole ▸ List.mem_append_right _ hl, field, ?_⟩⟩
  obtain ⟨action, haction, hl⟩ := List.mem_flatMap.mp hl
  have seen : action.node.visible = true := by
    by_contra hidden
    rw [subtree, walkFrom_eq, if_pos (by simpa using hidden)] at hl
    cases hl
  exact ⟨action, haction, seen, inside_of_mem_walkFrom hl⟩

/-- The field that is found is the last late one. -/
theorem lateField?_iff {root : Node} (unique : root.UniqueIds) (hform : form ∈ forms root)
    {field : Located} : lateField? form = some field ↔ LastWith (Late form) form.subtree field := by
  classical
  have found : lateField? form =
      ((form.subtree.dropWhile fun l => !isAction form.node l.node).filter
        (·.node.isField)).getLast? := rfl
  rw [found, fromActions_eq unique hform, ← late_filter (kind_of_forms hform)
    (visible_of_mem (form_mem_walk hform))]
  exact getLast?_filter_iff fun l _ => decide_eq_true_iff

/-! ## Screens -/

/-- The issue about a button that leaves a form before the primary one. -/
def leaveIssue (form : Located) (cancel primary : Node) : Issue :=
  { id := "cancel-before-primary", severity := .warn
    message := "Cancel/back button " ++ cancel.id ++ " appears before the primary button in Form " ++
      form.node.id
    nodeId := some (some form.node.id), jsonPointer := some (some form.pointer)
    details := some (some [("cancelId", .text cancel.id), ("primaryId", .text primary.id)])
    suggestion := some (some "Place the primary action before the cancel/back button") }

/-- The issue about a late field of a form. -/
def fieldIssue (form field : Located) : Issue :=
  { id := "field-after-actions", severity := .error
    message := "Field \"" ++ fieldLabel field.node ++ "\" appears after action buttons in Form " ++
      form.node.id
    nodeId := some (some field.node.id), jsonPointer := some (some field.pointer)
    details := some (some [("formId", .text form.node.id)])
    suggestion := some (some "Move all fields before the action buttons") }

/-- What the keyboard tells of a form, of its buttons first and then of its fields. -/
structure OrderTold (form : Located) (buttons fields : Option Issue) : Prop where
  /-- Of its buttons it tells when, of the visible actions, one that leaves comes before the first
  primary one. -/
  buttons_iff : ∀ i, buttons = some i ↔ ∃ cancel primary,
    LeavesFirst ((actionsOf form.node).filter (·.visible)) cancel primary ∧
      i = leaveIssue form cancel primary
  /-- Of its fields it tells the last late one. -/
  fields_iff : ∀ i, fields = some i ↔ ∃ field, LastWith (Late form) form.subtree field ∧
    i = fieldIssue form field
  /-- It does so when there is a late one. -/
  fields_isSome : fields.isSome = true ↔ ∃ field, Late form field
  /-- None that is in its fields is a late one, however deep and in whatever form it is. -/
  fields_in_time : ∀ place ∈ fieldPlaces form, ∀ field, (field = place ∨ field.Inside place) →
    ¬Late form field

theorem orderTold {root : Node} (unique : root.UniqueIds) (hform : form ∈ forms root) :
    OrderTold form (cancelIssue? form) (lateFieldIssue? form) where
  buttons_iff i := by
    rw [cancelIssue?, Option.map_eq_some_iff]
    constructor
    · rintro ⟨⟨cancel, primary⟩, found, rfl⟩
      exact ⟨cancel, primary, cancelBeforePrimary?_iff.mp found, rfl⟩
    · rintro ⟨cancel, primary, first, rfl⟩
      exact ⟨(cancel, primary), cancelBeforePrimary?_iff.mpr first, rfl⟩
  fields_iff i := by
    rw [lateFieldIssue?, Option.map_eq_some_iff]
    constructor
    · rintro ⟨field, found, rfl⟩
      exact ⟨field, (lateField?_iff unique hform).mp found, rfl⟩
    · rintro ⟨field, last, rfl⟩
      exact ⟨field, (lateField?_iff unique hform).mpr last, rfl⟩
  fields_isSome := by
    rw [lateFieldIssue?, Option.isSome_map, Option.isSome_iff_exists]
    simp only [lateField?_iff unique hform, exists_lastWith]
    exact exists_congr fun l => and_iff_right_of_imp Late.shown
  fields_in_time place hplace field within :=
    not_late_of_fields (kind_of_forms hform) hplace within

/-- Of a tree with unique ids the keyboard tells form by form, in the order of the visible forms: of
    a button that leaves before the primary one, and of the last field in an action. It tells nothing
    else. -/
theorem form_order_told {root : Node} (unique : root.UniqueIds) :
    ∃ told : List (Option Issue × Option Issue),
      issues root = told.flatMap (fun t => t.1.toList ++ t.2.toList) ∧
      List.Forall₂ (fun form t => OrderTold form t.1 t.2)
        (root.walk.filter (·.node.kind == .form)) told := by
  refine ⟨(forms root).map fun form => (cancelIssue? form, lateFieldIssue? form), ?_, ?_⟩
  · rw [List.flatMap_map]
    rfl
  · refine List.forall₂_map_right_iff.mpr (List.forall₂_same.mpr fun form hform => ?_)
    exact orderTold unique hform

/-- A form whose button to go back comes first, with a field in a hidden action and two in a visible
    one. In its fields is another form, which has a field for its action. -/
def movingForm : Node :=
  .form (.plain "moving") ⟨none, none⟩
    [.form (.plain "from") ⟨none, none⟩ []
      [.field (.plain "street") ⟨"Street and number", none, none, none, none⟩]]
    [.plainButton "back" "Back",
      .box (.hidden "later") none (some (.field (.plain "date") ⟨"Date", none, none, none, none⟩)),
      .button (.plain "send") ⟨"Send", some .primary⟩,
      .plainStack "more" .vertical
        [.field (.plain "note") ⟨"Note", none, none, none, none⟩,
          .field (.plain "floor") ⟨"Floor", none, none, none, none⟩]]

theorem movingForm_told : movingForm.UniqueIds ∧ ∃ told : List (Option Issue × Option Issue),
    issues movingForm = told.flatMap (fun t => t.1.toList ++ t.2.toList) ∧
    List.Forall₂ (fun form t => OrderTold form t.1 t.2)
      (movingForm.walk.filter (·.node.kind == .form)) told := by
  have unique : movingForm.UniqueIds := by decide +kernel
  exact ⟨unique, form_order_told unique⟩

/-- The outer form is told of twice, once about the last of its fields, and then the inner one. -/
example : (issues movingForm).map (fun i => (i.id, i.nodeId)) =
    [("cancel-before-primary", some (some "moving")), ("field-after-actions", some (some "floor")),
      ("field-after-actions", some (some "street"))] := by decide +kernel

end Wireframe.FormFlow
