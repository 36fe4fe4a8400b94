import Wireframe.Pattern.Steps
import Wireframe.Layout.Placement
import Wireframe.Room

/-
  Wireframe.Pattern.Wizards — the pattern of guided flows.

  The steps of a scope are numbered without gaps and each has the actions that lead on and back,
  after its fields; and a wizard shows its progress, titles its steps, and has the primary action
  of every step in sight.
-/

namespace Wireframe.Wizards

def patternName : String := "Guided.Flow"

def source : Provenance :=
  { pattern := patternName, name := some (some "Nielsen Norman Group: Wizards")
    url := some (some "https://www.nngroup.com/articles/wizard-design/") }

/-- A finding about a node, at the pointer that its id has on the screen. -/
def finding (rule : String) (severity : Severity) (pointers : List (String × String)) (l : Located)
    (message suggestion : String) (details : Object) : Issue :=
  Finding.toIssue rule severity
    { nodeId := some l.node.id, pointer := Keyed.get? pointers l.node.id, message := message
      source := source, details := some details, suggestion := some suggestion }

/-- One finding for every step at which there is something to tell: a message and details. -/
def stepFindings (rule : String) (severity : Severity) (suggestion : String)
    (problem? : Scope → Step → Option (String × Object)) (root : Node) : List Issue :=
  let pointers := root.pointers
  (scopes root).flatMap fun scope => scope.steps.filterMap fun step =>
    (problem? scope step).map fun (message, details) =>
      finding rule severity pointers step.place message suggestion details

/-! ## Musts -/

/-- The indices that a scope should have. -/
def expectedIndices (scope : Scope) : List Int :=
  (List.range scope.totalSteps.toNat).map fun (i : Nat) => (i : Int) + 1

/-- The indices that scopes with steps should have are listed, so there has to be room for them. -/
def checkNumbering (room : Int) (root : Node) : Calculation Unit :=
  (scopes root).forM fun scope =>
    if scope.steps.isEmpty then .ok () else checkRoom room (max 0 scope.totalSteps)

/-- As many indices as steps are expected, all of these among them, and none twice. -/
def isComplete (scope : Scope) : Bool :=
  let expected := expectedIndices scope
  scope.indices.length == expected.length && expected.all (scope.indices.contains ·) &&
    scope.indices.eraseDups.length == scope.indices.length

def numberingFinding? (pointers : List (String × String)) (scope : Scope) : Option Issue :=
  match scope.steps with
  | [] => none
  | first :: _ =>
    if isComplete scope then none
    else some (finding "wizard-steps-missing" .error pointers (scope.wizard.getD first.place)
      "Step indices must be unique & contiguous 1..N"
      ("Define contiguous stepIndex values 1..N. Example: " ++
        "\x7b\"behaviors\":\x7b\"guidedFlow\":\x7b\"role\":\"step\",\"stepIndex\":2,\"totalSteps\":4\x7d\x7d\x7d")
      ([("expectedRange", .list ((expectedIndices scope).map .int)),
        ("foundIndices", .list (scope.indices.map .int)), ("totalSteps", .int scope.totalSteps)] ++
        setField "scopeNodeId" (fun (w : Located) => .text w.node.id) scope.wizard))

def numberingFindings (root : Node) : List Issue :=
  let pointers := root.pointers
  (scopes root).filterMap (numberingFinding? pointers)

def Step.has (s : Step) (m : Move) : Bool := s.actions.buttons.any (moveOf · == m)

/-- Has a step a button that leads on: one that says so, or a primary one that does not lead
    back? -/
def Step.leadsOn (s : Step) : Bool :=
  s.actions.buttons.any fun b => moveOf b == .next || (b.node.isPrimaryButton && moveOf b != .back)

def Scope.isLast (scope : Scope) (s : Step) : Bool :=
  0 < scope.totalSteps && s.index == scope.totalSteps

/-- What is told about a step with an action missing. -/
def missingDetails (scope : Scope) (s : Step) : Object :=
  [("stepIndex", .int s.index), ("totalSteps", .int scope.totalSteps)] ++
    setField "actionsRowNodeId" (fun (row : Located) => .text row.node.id) s.actions.row

def nextFindings : Node → List Issue :=
  stepFindings "wizard-next-missing" .error ("Add a Next button: " ++
      "\x7b\"id\":\"next-<i>\",\"type\":\"Button\",\"text\":\"Next\",\"roleHint\":\"primary\"\x7d")
    fun scope s =>
      if scope.isLast s || s.leadsOn then none
      else some ("Step " ++ toString s.index ++ " missing Next action", missingDetails scope s)

/-- Only the first of several steps with the index one is looked at. -/
def illegalBackFindings (root : Node) : List Issue :=
  let pointers := root.pointers
  (scopes root).filterMap fun scope => (scope.steps.find? (·.index == 1)).bind fun s =>
    if s.has .back then
      some (finding "wizard-back-illegal" .error pointers s.place
        "Back button not allowed on first step"
        "Remove Back from the first step or move it to step 2."
        (("stepIndex", .int s.index) ::
          setField "actionsRowNodeId" (fun (row : Located) => .text row.node.id) s.actions.row))
    else none

def missingBackFindings : Node → List Issue :=
  stepFindings "wizard-back-missing" .error ("Add a Back button before Next: " ++
      "\x7b\"id\":\"back-<i>\",\"type\":\"Button\",\"text\":\"Back\"\x7d")
    fun scope s =>
      if s.index ≤ 1 || scope.totalSteps ≤ s.index || s.has .back then none
      else some ("Step " ++ toString s.index ++ " missing Back action", missingDetails scope s)

def finishFindings : Node → List Issue :=
  stepFindings "wizard-finish-missing" .error ("Add a Finish action: " ++
      "\x7b\"id\":\"finish\",\"type\":\"Button\",\"text\":\"Finish\",\"roleHint\":\"primary\"\x7d")
    fun scope s =>
      if !scope.isLast s || s.has .finish then none
      else some ("Last step " ++ toString s.index ++ " missing Finish action",
        missingDetails scope s)

/-- The nodes of a step from its first action on, and those before it; all are before when it has
    no action. -/
def Step.aroundActions (s : Step) : List Located × List Located :=
  s.place.subtree.span fun l => !s.actions.buttons.head?.any l.isAt

/-- The fields after the first action of a step. -/
def Step.misplacedFields (s : Step) : List Located :=
  (s.aroundActions.2.drop 1).filter (·.node.isField)

def fieldFindings : Node → List Issue :=
  stepFindings "wizard-field-after-actions" .error
    "Ensure fields appear before the actions row. Move the actions Stack below all Field nodes."
    fun _ s =>
      if s.misplacedFields.isEmpty then none
      else some ("Fields appear after actions row in step " ++ toString s.index,
        [("stepIndex", .int s.index)] ++
          setField "actionsRowId" (fun (row : Located) => .text row.node.id) s.actions.row ++
          [("misplacedFieldIds", .texts (s.misplacedFields.map (·.node.id)))])

def Step.primaries (s : Step) : List Located := s.actions.buttons.filter (·.node.isPrimaryButton)

def primaryFindings : Node → List Issue :=
  stepFindings "wizard-multiple-primary" .error
    "Keep only one primary action per step; remove roleHint or demote extras."
    fun _ s =>
      if s.primaries.length ≤ 1 then none
      else some ("Multiple primary actions in step " ++ toString s.index,
        [("stepIndex", .int s.index),
          ("primaryButtonIds", .texts (s.primaries.map (·.node.id)))])

/-! ## Shoulds -/

def promisesProgress (l : Located) : Bool := l.node.guidedFlow?.any (·.hasProgress == some true)

def progressFindings (root : Node) : List Issue :=
  let pointers := root.pointers
  (scopes root).filterMap fun scope => (scope.wizard.filter promisesProgress).bind fun w =>
    match progressNode? root w.node with
    | some _ => none
    | none => some (finding "wizard-progress-missing" .warn pointers w
        "Progress indicator missing for wizard"
        ("Add a visible progress indicator: " ++
          "\x7b\"id\":\"progress-1\",\"type\":\"Text\",\"text\":\"Step 1 of 4\"\x7d " ++
          "and reference it via behaviors.guidedFlow.progressNodeId.")
        [("scopeNodeId", .text w.node.id), ("hasProgress", .bool true)])

/-- Does the first way back come after the first way to finish, or, when there is none, after the
    first way on? -/
def backAfterForward (moves : List Move) : Bool :=
  let forward := if moves.contains .finish then Move.finish else .next
  match moves.findIdx? (· == .back), moves.findIdx? (· == forward) with
  | some i, some j => j < i
  | _, _ => false

def orderFindings : Node → List Issue :=
  stepFindings "wizard-actions-order" .warn
    "Order actions as Back then Next/Finish inside the actions row."
    fun _ s =>
      let moves := s.actions.buttons.map moveOf
      if backAfterForward moves then
        some ("Back action appears after Next/Finish in step " ++ toString s.index,
          [("stepIndex", .int s.index), ("order", .texts (moves.map Move.name))])
      else none

def titleFindings : Node → List Issue :=
  stepFindings "wizard-step-title-missing" .warn ("Add a heading Text near the top of each step: " ++
      "\x7b\"id\":\"step-<i>-title\",\"type\":\"Text\",\"text\":\"Step <i>: Details\"\x7d")
    fun _ s =>
      if s.aroundActions.1.any (·.node.kind == .text) then none
      else some ("Step " ++ toString s.index ++ " missing title/heading",
        [("stepIndex", .int s.index)])

/-- The primary action of a step: the first primary button, else the first that leads on or
    finishes. -/
def Step.primary? (s : Step) : Option Located :=
  s.primaries.head?.orElse fun _ =>
    s.actions.buttons.find? fun b => moveOf b == .next || moveOf b == .finish

/-- Where a screen was laid out: the frames, and the height of the viewport. -/
structure Sight where
  frames : List (Frame Number Float)
  height : Number

/-- The last frame of an id. -/
def Sight.frame? (v : Sight) (id : String) : Option (Frame Number Float) :=
  v.frames.reverse.find? (·.id == id)

/-- The primary action of a step and its lower end, when this is below what is in sight. -/
def Sight.belowFold? (v : Sight) (s : Step) : Option (Located × Float) :=
  s.primary?.bind fun b => (v.frame? b.node.id).bind fun f =>
    if Number.le (.float f.bottom) v.height then none else some (b, f.bottom)

/-- Nothing is below the fold where nothing was laid out. -/
def foldFindings : Option Sight → Node → List Issue
  | none, _ => []
  | some v, root =>
    stepFindings "wizard-primary-below-fold" .warn
      "Move the primary action higher in the step or shorten the content above it."
      (fun _ s => (v.belowFold? s).map fun (b, bottom) =>
        ("Primary action " ++ b.node.id ++ " of step " ++ toString s.index ++ " is below the fold",
          [("stepIndex", .int s.index), ("primaryId", .text b.node.id), ("bottom", .real bottom),
            ("viewportHeight", .number v.height)]))
      root

/-- The pattern, when a layout of the screen is known or not. -/
def pattern (sight : Option Sight) : Pattern :=
  { name := patternName, source := source
    must :=
      [⟨"wizard-steps-missing", .must, "Steps must form contiguous 1..N sequence",
          numberingFindings⟩,
        ⟨"wizard-next-missing", .must, "Each non-final step must have a next action",
          nextFindings⟩,
        ⟨"wizard-back-illegal", .must, "Back action must not appear on first step",
          illegalBackFindings⟩,
        ⟨"wizard-back-missing", .must, "Intermediate steps must include back action",
          missingBackFindings⟩,
        ⟨"wizard-finish-missing", .must, "Last step must provide a finish/submit action",
          finishFindings⟩,
        ⟨"wizard-field-after-actions", .must, "Fields must appear before actions row in a step",
          fieldFindings⟩,
        ⟨"wizard-multiple-primary", .must, "Only one primary action per step", primaryFindings⟩]
    should :=
      [⟨"wizard-progress-missing", .should, "Progress indicator should exist when hasProgress=true",
          progressFindings⟩,
        ⟨"wizard-actions-order", .should, "Back should precede Next/Finish in action sequence",
          orderFindings⟩,
        ⟨"wizard-step-title-missing", .should, "Each step should expose a visible title",
          titleFindings⟩,
        ⟨"wizard-primary-below-fold", .should,
          "Primary action should appear within the smallest viewport", foldFindings sight⟩] }

end Wireframe.Wizards
