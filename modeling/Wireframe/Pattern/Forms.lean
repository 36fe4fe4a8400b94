import Wireframe.Pattern.Rule
import Wireframe.Focus.FormFlow
import Wireframe.Text.Point

/-
  Wireframe.Pattern.Forms — the pattern of a simple form.

  Fields have labels, forms have actions and no field after them, forms with errors have a state
  for it; and labels that are short or technical come with help.
-/

namespace Wireframe.Forms

def patternName : String := "Form.Basic"

def sourceAt (path : String) : Provenance :=
  { pattern := patternName, name := some (some "GOV.UK Design System")
    url := some (some ("https://design-system.service.gov.uk" ++ path)) }

def textInputSource : Provenance := sourceAt "/components/text-input/"

def questionPagesSource : Provenance := sourceAt "/patterns/question-pages/"

def errorMessageSource : Provenance := sourceAt "/components/error-message/"

/-! ## Musts -/

def labelFindings (root : Node) : List Issue :=
  root.walk.filterMap fun l => match l.node with
    | .field _ f =>
      if Text.isVoid f.label then
        some (Finding.toIssue "field-has-label" .error (Finding.on l textInputSource
          ("Field \"" ++ l.node.id ++ "\" has empty or missing label")
          "Give the field a visible label, e.g. \"label\": \"Email address\""))
      else none
    | _ => none

def actionFindings (root : Node) : List Issue :=
  root.walk.filterMap fun l => match l.node with
    | .form _ _ _ [] =>
      some (Finding.toIssue "actions-exist" .error (Finding.on l questionPagesSource
        ("Form \"" ++ l.node.id ++ "\" has no action buttons")
        ("Add a submit action: \x7b\"type\":\"Button\",\"id\":\"submit\",\"text\":\"Continue\"," ++
          "\"roleHint\":\"primary\"\x7d")))
    | _ => none

/-- Does a field that is no action itself come after the first action? -/
def fieldAfterAction (form : Node) : Bool :=
  let actions := (FormFlow.actionsOf form).map (·.id)
  let rest := form.visibleNodes.dropWhile fun n => !actions.contains n.id
  rest.any fun n => n.isField && !actions.contains n.id

def orderFindings (root : Node) : List Issue :=
  (FormFlow.forms root).filterMap fun l =>
    if fieldAfterAction l.node then
      some (Finding.toIssue "actions-after-fields" .error (Finding.on l questionPagesSource
        ("Form \"" ++ l.node.id ++ "\" has fields appearing after action buttons")
        "Move every field above the actions row"))
    else none

/-- The ids of the fields right below a form that have an error. -/
def errorFields (fields : List Node) : List String :=
  fields.filterMap fun n => match n with
    | .field h f => if Text.isVoid (f.errorText.getD "") then none else some h.id
    | _ => none

def errorStateFindings (root : Node) : List Issue :=
  root.walk.filterMap fun l => match l.node with
    | .form _ f fields _ =>
      let ids := errorFields fields
      if !ids.isEmpty && !(f.states.getD []).contains "error" then
        some (Finding.toIssue "has-error-state" .error { Finding.on l errorMessageSource
            ("Form \"" ++ l.node.id ++
              "\" has fields with errorText but states does not include \"error\"")
            "Add \"error\" to the form states: \"states\": [\"default\", \"error\"]" with
          details := some [("fieldIds", .texts ids)] })
      else none
    | _ => none

/-! ## Shoulds -/

/-- Labels up to this length do not stand alone. -/
def shortLabel : Nat := 5

def technicalTerms : List String := ["id", "uuid", "api", "url", "uri", "ssn", "ein"]

/-- Is the label of a field without help too short or too technical to stand alone? -/
def needsHelp (f : FieldContent) : Bool :=
  (f.helpText.getD "").isEmpty &&
    (Text.size f.label ≤ shortLabel || Text.mentions technicalTerms f.label)

def helpFindings (root : Node) : List Issue :=
  root.walk.filterMap fun l => match l.node with
    | .field _ f =>
      if needsHelp f then
        some (Finding.toIssue "help-text" .warn (Finding.on l textInputSource
          ("Field \"" ++ l.node.id ++ "\" with label \"" ++ f.label ++
            "\" should have helpText for clarity")
          "Add helpText explaining the expected value and its format"))
      else none
    | _ => none

def pattern : Pattern :=
  { name := patternName, source := questionPagesSource
    must :=
      [⟨"field-has-label", .must, "Every Field.label must be non-empty", labelFindings⟩,
        ⟨"actions-exist", .must, "Form.actions must not be empty", actionFindings⟩,
        ⟨"actions-after-fields", .must, "Actions must appear after all fields in the same Form",
          orderFindings⟩,
        ⟨"has-error-state", .must, "If any Field.errorText exists, Form.states must include \"error\"",
          errorStateFindings⟩]
    should := [⟨"help-text", .should, "Provide helpText for ambiguous labels", helpFindings⟩] }

end Wireframe.Forms
