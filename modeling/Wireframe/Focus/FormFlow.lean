import Wireframe.Node.Tree
import Wireframe.Issue
import Wireframe.Text.Keyword

/-
  Wireframe.Focus.FormFlow — the order in which a form's parts take the focus.

  - `cancel-before-primary`: a button that leaves the form stands before the primary one.
  - `field-after-actions`: a field comes after the first action.
-/

namespace Wireframe.FormFlow

/-- Is the node a button that leaves, by its label? -/
def isCancel : Node → Bool
  | .button _ b => Text.mentions ["cancel", "back"] b.text
  | _ => false

/-- The actions of a form, none of anything else. -/
def actionsOf : Node → List Node
  | .form _ _ _ as => as
  | _ => []

def fieldLabel : Node → String
  | .field _ f => f.label
  | _ => ""

/-- The first button that leaves before the first primary button, and that one. -/
def cancelBeforePrimary? (actions : List Node) : Option (Node × Node) :=
  let before := actions.takeWhile (!·.isPrimaryButton)
  match actions.dropWhile (!·.isPrimaryButton) with
  | [] => none
  | primary :: _ => (before.find? isCancel).map fun cancel => (cancel, primary)

def cancelIssue? (form : Located) : Option Issue :=
  (cancelBeforePrimary? ((actionsOf form.node).filter (·.visible))).map fun (cancel, primary) =>
    { id := "cancel-before-primary", severity := .warn
      message := "Cancel/back button " ++ cancel.id ++ " appears before the primary button in Form " ++
        form.node.id
      nodeId := some (some form.node.id), jsonPointer := some (some form.pointer)
      details := some (some [("cancelId", .text cancel.id), ("primaryId", .text primary.id)])
      suggestion := some (some "Place the primary action before the cancel/back button") }

/-- The last field of a form from its first action on. -/
def lateField? (form : Located) : Option Located :=
  let actions := (actionsOf form.node).map (·.id)
  let rest := (form.node.walkFrom true form.pointer).dropWhile fun l => !actions.contains l.node.id
  (rest.filter (·.node.isField)).getLast?

def lateFieldIssue? (form : Located) : Option Issue :=
  (lateField? form).map fun field =>
    { id := "field-after-actions", severity := .error
      message := "Field \"" ++ fieldLabel field.node ++ "\" appears after action buttons in Form " ++
        form.node.id
      nodeId := some (some field.node.id), jsonPointer := some (some field.pointer)
      details := some (some [("formId", .text form.node.id)])
      suggestion := some (some "Move all fields before the action buttons") }

/-- The visible forms of a tree. -/
def forms (root : Node) : List Located := root.walk.filter (·.node.kind == .form)

/-- The issues of every visible form. -/
def issues (root : Node) : List Issue :=
  (forms root).flatMap fun form => (cancelIssue? form).toList ++ (lateFieldIssue? form).toList

end Wireframe.FormFlow
