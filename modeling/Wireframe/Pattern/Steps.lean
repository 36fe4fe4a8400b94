import Wireframe.Pattern.Rule
import Wireframe.Text.Case
import Wireframe.Text.Keyword

/-
  Wireframe.Pattern.Steps — the steps of guided flows, and what belongs to each.

  A node is a wizard or a step by its role. The visible steps fall into scopes: a step belongs to
  the first wizard, in document order, that it stands in, and to the screen when there is none.
  Within a scope steps have indices and are in the order of these; a step that names no index
  takes its position, and steps with an index below one are passed over.

  The actions of a step are a form's own, or the buttons of one of the stacks in it.
-/

namespace Wireframe.Wizards

/-! ## Actions -/

/-- What a button does to the flow, by what it says. -/
inductive Move where
  | back
  | next
  | finish
  | other
  deriving DecidableEq

def Move.name : Move → String
  | back => "back"
  | next => "next"
  | finish => "finish"
  | other => "other"

/-- The move of a label, whatever its case and the blanks around it. -/
def Move.ofLabel (label : String) : Move :=
  match Text.lower (Text.strip label) with
  | "back" | "previous" => .back
  | "next" | "continue" => .next
  | "finish" | "submit" | "done" => .finish
  | _ => .other

def moveOf (button : Located) : Move := Move.ofLabel button.node.buttonText

/-- The buttons that end a step, and the node that holds them. -/
structure Actions where
  row : Option Located
  buttons : List Located

def shownButtons (l : Located) : List Located := l.shownChildren.filter (·.node.isButton)

/-- Is the node a stack with a visible button in it? -/
def isRow (l : Located) : Bool := l.node.kind == .stack && !(shownButtons l).isEmpty

def isHorizontal : Node → Bool
  | .stack _ c _ => c.direction == .horizontal
  | _ => false

/-- The row of a step that is no form: the last horizontal stack with buttons and nothing else,
    or the last horizontal one with a button, or the last stack with a button and leaves only. -/
def rowOf? (step : Located) : Option Located :=
  let rows := step.subtree.filter isRow
  let level := rows.filter fun l => isHorizontal l.node
  ((level.filter fun l => l.shownChildren.all (·.node.isButton)).getLast?.orElse fun _ =>
    level.getLast?).orElse fun _ =>
      (rows.filter fun l => !l.shownChildren.any (·.node.isContainer)).getLast?

def actionsOf (step : Located) : Actions :=
  match step.node with
  | .form _ _ _ as =>
    ⟨some step, ((listSlots "actions" as).map step.under).filter fun l =>
      l.node.isButton && l.node.visible⟩
  | _ => match rowOf? step with
    | some row => ⟨some row, shownButtons row⟩
    | none => ⟨none, []⟩

/-! ## Scopes -/

structure Step where
  place : Located
  /-- Counted from one. -/
  index : Int
  /-- How many steps the step says there are, zero when it does not. -/
  total : Int
  actions : Actions

/-- The steps of one wizard, or of the screen outside all wizards. -/
structure Scope where
  wizard : Option Located
  /-- In the order of their indices. -/
  steps : List Step
  totalSteps : Int

def plays (role : FlowRole) (l : Located) : Bool := l.node.guidedFlow?.any (·.role == role)

def indexOr (position : Nat) (l : Located) : Int :=
  (l.node.guidedFlow?.bind (·.stepIndex)).getD position

def statedTotal (l : Located) : Option Int := l.node.guidedFlow?.bind (·.totalSteps)

/-- The steps of a scope in document order, without those whose index is below one. -/
def keptSteps (places : List Located) : List Step :=
  (places.zipIdx 1).filterMap fun (l, position) =>
    let index := indexOr position l
    if index < 1 then none else some ⟨l, index, (statedTotal l).getD 0, actionsOf l⟩

/-- How many steps there should be: what the wizard says, else what the first step says that says
    something, else the largest index. Only positive numbers count. -/
def totalOf (wizard : Option Located) (steps : List Step) : Int :=
  let stated := (wizard.bind statedTotal).toList ++ steps.map (·.total)
  match stated.find? (0 < ·) with
  | some n => n
  | none => (steps.map (·.index)).foldl max 0

/-- A step with the number of steps it does not say itself. -/
def Step.within (totalSteps : Int) (s : Step) : Step :=
  if s.total = 0 then { s with total := totalSteps } else s

def Scope.of (wizard : Option Located) (places : List Located) : Scope :=
  let steps := keptSteps places
  let totalSteps := totalOf wizard steps
  { wizard := wizard
    steps := (steps.map (·.within totalSteps)).mergeSort fun a b => a.index ≤ b.index
    totalSteps := totalSteps }

def Scope.indices (s : Scope) : List Int := s.steps.map (·.index)

/-- The position of the first wizard that a step stands in. -/
def owner? (wizards : List Located) (step : Located) : Option Nat :=
  wizards.findIdx? fun w => w.subtree.any (·.node.id == step.node.id)

/-- One scope for every visible wizard; and last the screen's, when it has a step or there is no
    wizard. -/
def scopes (root : Node) : List Scope :=
  let nodes := root.walk
  let wizards := nodes.filter (plays .wizard)
  let owned := (nodes.filter (plays .step)).map fun l => (owner? wizards l, l)
  let stepsOf (owner : Option Nat) := (owned.filter (·.1 == owner)).map (·.2)
  let rest := stepsOf none
  (wizards.zipIdx.map fun (w, i) => Scope.of (some w) (stepsOf (some i))) ++
    (if wizards.isEmpty || !rest.isEmpty then [Scope.of none rest] else [])

/-! ## Progress -/

/-- How many of a wizard's first nodes are looked at for an indicator. -/
def searchedNodes : Nat := 6

def progressAffordance : String := "progress-indicator"

/-- The indicator of a wizard's progress: the visible node it names; when it names none, a text
    among its first nodes that tells a progress, or one of these with the affordance for it. -/
def progressNode? (root wizard : Node) : Option Node :=
  match (wizard.guidedFlow?.bind (·.progressNodeId)).filter (· != "") with
  | some id => root.find? id true
  | none =>
    let head := wizard.visibleNodes.take searchedNodes
    (head.find? fun n => match n with
      | .text _ t => Text.tellsProgress t.text
      | _ => false).orElse fun _ =>
        head.find? fun n => (n.header.affordances.getD []).contains progressAffordance

end Wireframe.Wizards
