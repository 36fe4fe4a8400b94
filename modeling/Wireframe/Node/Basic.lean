import Wireframe.Spacing

/-
  Wireframe.Node.Basic — the nodes of a screen.

  A screen is a tree of nodes of eight kinds. Stacks, grids, boxes and forms hold other nodes;
  texts, buttons, fields and tables are leaves. Every node has a header with what all kinds
  share: its id, whether it is visible, how it is sized, how it changes with the width of the
  viewport, and what it is there for.

  Every record keeps the camel-case keys of the fields that were written for it (`given`).
-/

namespace Wireframe

/-! ## Words -/

inductive SizePolicy where
  | hug
  | fill
  | fixed
  deriving DecidableEq

inductive Direction where
  | vertical
  | horizontal
  deriving DecidableEq

/-- Where the children of a stack stand across its direction. -/
inductive Align where
  | start
  | center
  | finish
  | stretch
  deriving DecidableEq

/-- The weight of a button. -/
inductive Emphasis where
  | primary
  | secondary
  | danger
  | link
  deriving DecidableEq

inductive FlowRole where
  | wizard
  | step
  deriving DecidableEq

inductive Folding where
  | collapsed
  | expanded
  deriving DecidableEq

def SizePolicy.words : List (String × SizePolicy) :=
  [("hug", .hug), ("fill", .fill), ("fixed", .fixed)]

def Direction.words : List (String × Direction) :=
  [("vertical", .vertical), ("horizontal", .horizontal)]

def Align.words : List (String × Align) :=
  [("start", .start), ("center", .center), ("end", .finish), ("stretch", .stretch)]

def Emphasis.words : List (String × Emphasis) :=
  [("primary", .primary), ("secondary", .secondary), ("danger", .danger), ("link", .link)]

def FlowRole.words : List (String × FlowRole) := [("wizard", .wizard), ("step", .step)]

def Folding.words : List (String × Folding) := [("collapsed", .collapsed), ("expanded", .expanded)]

/-- The word of a value in its list of words. -/
def wordOf [BEq α] (words : List (String × α)) (a : α) : String :=
  ((words.find? (·.2 == a)).map (·.1)).getD ""

/-! ## Shared records -/

/-- A width and a height, each with or without a value. -/
structure Bounds where
  w : Option Float
  h : Option Float
  given : List String

/-- How a collapsible section folds. -/
structure Disclosure where
  collapsible : Bool
  defaultState : Option Folding
  /-- The id of the control that folds the section. -/
  controlsId : Option String
  ariaSummaryText : Option String
  given : List String

/-- What a node is in a guided flow: the wizard or one of its steps. -/
structure GuidedFlow where
  role : FlowRole
  stepIndex : Option Int
  totalSteps : Option Int
  nextId : Option String
  prevId : Option String
  hasProgress : Option Bool
  progressNodeId : Option String
  given : List String

structure Behaviors where
  disclosure : Option Disclosure
  guidedFlow : Option GuidedFlow
  given : List String

/-- What a table does on narrow viewports. -/
structure Narrowing where
  strategy : Option String
  minColumnWidth : Option Float
  given : List String

/-- What all nodes have. -/
structure Header where
  id : String
  visible : Bool
  widthPolicy : SizePolicy
  heightPolicy : SizePolicy
  minSize : Option Bounds
  maxSize : Option Bounds
  /-- Partial nodes, untyped, each under a condition on the width of the viewport. -/
  overrides : Option (List (String × Option Object))
  pattern : Option String
  behaviors : Option Behaviors
  affordances : Option (List String)
  focusable : Option Bool
  tabIndex : Option Int
  given : List String

/-! ## What the kinds have besides -/

structure StackContent where
  direction : Direction
  gap : Option (Spacing Float)
  padding : Option (Spacing Float)
  align : Align
  wrap : Bool

structure GridContent where
  columns : Int
  gap : Option (Spacing Float)
  minColWidth : Option Float

structure TextContent where
  text : String
  fontSize : Option Float
  maxLines : Option Int
  intrinsicTextWidth : Option Float

structure ButtonContent where
  text : String
  roleHint : Option Emphasis

structure FieldContent where
  label : String
  inputType : Option String
  required : Option Bool
  helpText : Option String
  errorText : Option String

structure FormContent where
  title : Option String
  states : Option (List String)

structure TableContent where
  title : Option String
  columns : List String
  rows : Option Int
  responsive : Option Narrowing
  states : Option (List String)

inductive Node where
  | stack (header : Header) (content : StackContent) (children : List Node)
  | grid (header : Header) (content : GridContent) (children : List Node)
  | box (header : Header) (padding : Option (Spacing Float)) (child : Option Node)
  | text (header : Header) (content : TextContent)
  | button (header : Header) (content : ButtonContent)
  | field (header : Header) (content : FieldContent)
  /-- The fields come before the actions. -/
  | form (header : Header) (content : FormContent) (fields actions : List Node)
  | table (header : Header) (content : TableContent)

inductive Kind where
  | stack
  | grid
  | box
  | text
  | button
  | field
  | form
  | table
  deriving DecidableEq

def Kind.words : List (String × Kind) :=
  [("Stack", .stack), ("Grid", .grid), ("Box", .box), ("Text", .text), ("Button", .button),
    ("Field", .field), ("Form", .form), ("Table", .table)]

def Kind.name (k : Kind) : String := wordOf Kind.words k

def Kind.isContainer : Kind → Bool
  | .stack | .grid | .box | .form => true
  | _ => false

namespace Node

def header : Node → Header
  | stack h .. | grid h .. | box h .. | text h .. | button h .. | field h .. | form h .. | table h .. => h

def kind : Node → Kind
  | stack .. => .stack
  | grid .. => .grid
  | box .. => .box
  | text .. => .text
  | button .. => .button
  | field .. => .field
  | form .. => .form
  | table .. => .table

def id (n : Node) : String := n.header.id

def visible (n : Node) : Bool := n.header.visible

/-- The name of the node's kind. -/
def typeName (n : Node) : String := n.kind.name

def isContainer (n : Node) : Bool := n.kind.isContainer

def disclosure? (n : Node) : Option Disclosure := n.header.behaviors.bind (·.disclosure)

def guidedFlow? (n : Node) : Option GuidedFlow := n.header.behaviors.bind (·.guidedFlow)

def isPrimaryButton : Node → Bool
  | button _ b => b.roleHint == some .primary
  | _ => false

def isButton : Node → Bool
  | button .. => true
  | _ => false

/-- What a button says, nothing for other nodes. -/
def buttonText : Node → String
  | button _ b => b.text
  | _ => ""

def isField : Node → Bool
  | field .. => true
  | _ => false

/-- The children of a node, in order. -/
def children : Node → List Node
  | stack _ _ cs | grid _ _ cs => cs
  | box _ _ c => c.toList
  | form _ _ fs as => fs ++ as
  | _ => []

end Node

end Wireframe
