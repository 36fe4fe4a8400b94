import Wireframe.Node.Basic
import Wireframe.Record.Reading

/-
  Wireframe.Node.Reading — nodes from documents.

  The member `type` says which kind of node an object is, and with it which fields it has. The
  faults of a node stand under the name of its kind. The fields of the header come first, then
  those of the kind, the children in their places.
-/

namespace Wireframe

open Shape

/-! ## Keys -/

namespace Keys

def id : Key := .plain "id"
def visible : Key := .plain "visible"
def widthPolicy : Key := ⟨"widthPolicy", "width_policy"⟩
def heightPolicy : Key := ⟨"heightPolicy", "height_policy"⟩
def minSize : Key := ⟨"minSize", "min_size"⟩
def maxSize : Key := ⟨"maxSize", "max_size"⟩
def overrides : Key := .plain "at"
def pattern : Key := .plain "pattern"
def behaviors : Key := .plain "behaviors"
def affordances : Key := .plain "affordances"
def focusable : Key := .plain "focusable"
def tabIndex : Key := ⟨"tabIndex", "tab_index"⟩

def width : Key := .plain "w"
def height : Key := .plain "h"
def collapsible : Key := .plain "collapsible"
def defaultState : Key := ⟨"defaultState", "default_state"⟩
def controlsId : Key := ⟨"controlsId", "controls_id"⟩
def ariaSummaryText : Key := ⟨"ariaSummaryText", "aria_summary_text"⟩
def role : Key := .plain "role"
def stepIndex : Key := ⟨"stepIndex", "step_index"⟩
def totalSteps : Key := ⟨"totalSteps", "total_steps"⟩
def nextId : Key := ⟨"nextId", "next_id"⟩
def prevId : Key := ⟨"prevId", "prev_id"⟩
def hasProgress : Key := ⟨"hasProgress", "has_progress"⟩
def progressNodeId : Key := ⟨"progressNodeId", "progress_node_id"⟩
def disclosure : Key := .plain "disclosure"
def guidedFlow : Key := ⟨"guidedFlow", "guided_flow"⟩
def strategy : Key := .plain "strategy"
def minColumnWidth : Key := ⟨"minColumnWidth", "min_column_width"⟩

def direction : Key := .plain "direction"
def gap : Key := .plain "gap"
def padding : Key := .plain "padding"
def align : Key := .plain "align"
def wrap : Key := .plain "wrap"
def columns : Key := .plain "columns"
def minColWidth : Key := ⟨"minColWidth", "min_col_width"⟩
def text : Key := .plain "text"
def fontSize : Key := ⟨"fontSize", "font_size"⟩
def maxLines : Key := ⟨"maxLines", "max_lines"⟩
def intrinsicTextWidth : Key := ⟨"intrinsicTextWidth", "intrinsic_text_width"⟩
def roleHint : Key := ⟨"roleHint", "role_hint"⟩
def label : Key := .plain "label"
def inputType : Key := ⟨"inputType", "input_type"⟩
def required : Key := .plain "required"
def helpText : Key := ⟨"helpText", "help_text"⟩
def errorText : Key := ⟨"errorText", "error_text"⟩
def title : Key := .plain "title"
def states : Key := .plain "states"
def rows : Key := .plain "rows"
def responsive : Key := .plain "responsive"

def children : Key := .plain "children"
def child : Key := .plain "child"
def fields : Key := .plain "fields"
def actions : Key := .plain "actions"

end Keys

namespace Reading

/-! ## Shared records -/

def bounds : Reading Bounds :=
  noted (Bounds.mk <$> nullable Keys.width real <*> nullable Keys.height real)

def disclosure : Reading Disclosure :=
  noted (Disclosure.mk <$> optional Keys.collapsible boolean false
    <*> nullable Keys.defaultState (word Folding.words)
    <*> nullable Keys.controlsId Shape.text
    <*> nullable Keys.ariaSummaryText Shape.text)

def guidedFlow : Reading GuidedFlow :=
  noted (GuidedFlow.mk <$> required Keys.role (choice FlowRole.words)
    <*> nullable Keys.stepIndex integer
    <*> nullable Keys.totalSteps integer
    <*> nullable Keys.nextId Shape.text
    <*> nullable Keys.prevId Shape.text
    <*> nullable Keys.hasProgress boolean
    <*> nullable Keys.progressNodeId Shape.text)

def behaviors : Reading Behaviors :=
  noted (Behaviors.mk <$> nullable Keys.disclosure (record "DisclosureBehavior" disclosure)
    <*> nullable Keys.guidedFlow (record "GuidedFlowBehavior" guidedFlow))

def narrowing : Reading Narrowing :=
  noted (Narrowing.mk <$> nullable Keys.strategy Shape.text
    <*> nullable Keys.minColumnWidth real)

/-- An override block: an object with any members. -/
def block : Shape Object := dictionary untyped

def header : Reading Header :=
  noted (Header.mk <$> required Keys.id Shape.text
    <*> optional Keys.visible boolean true
    <*> optional Keys.widthPolicy (choice SizePolicy.words) .hug
    <*> optional Keys.heightPolicy (choice SizePolicy.words) .hug
    <*> nullable Keys.minSize (record "Size" bounds)
    <*> nullable Keys.maxSize (record "Size" bounds)
    <*> nullable Keys.overrides (dictionary (Shape.nullable block))
    <*> nullable Keys.pattern Shape.text
    <*> nullable Keys.behaviors (record "Behaviors" behaviors)
    <*> nullable Keys.affordances (list Shape.text)
    <*> nullable Keys.focusable boolean
    <*> nullable Keys.tabIndex integer)

/-! ## Contents -/

def stackContent : Reading StackContent :=
  StackContent.mk <$> optional Keys.direction (choice Direction.words) .vertical
    <*> nullable Keys.gap Spacing.read
    <*> nullable Keys.padding Spacing.read
    <*> optional Keys.align (choice Align.words) .start
    <*> optional Keys.wrap boolean false

def gridContent : Reading GridContent :=
  GridContent.mk <$> optional Keys.columns (integerFrom 1) 1
    <*> nullable Keys.gap Spacing.read
    <*> nullable Keys.minColWidth real

def textContent : Reading TextContent :=
  TextContent.mk <$> optional Keys.text Shape.text ""
    <*> nullable Keys.fontSize real
    <*> nullable Keys.maxLines integer
    <*> nullable Keys.intrinsicTextWidth real

def buttonContent : Reading ButtonContent :=
  ButtonContent.mk <$> optional Keys.text Shape.text ""
    <*> nullable Keys.roleHint (choice Emphasis.words)

def fieldContent : Reading FieldContent :=
  FieldContent.mk <$> optional Keys.label Shape.text ""
    <*> nullable Keys.inputType Shape.text
    <*> nullable Keys.required boolean
    <*> nullable Keys.helpText Shape.text
    <*> nullable Keys.errorText Shape.text

def tableContent : Reading TableContent :=
  TableContent.mk <$> nullable Keys.title Shape.text
    <*> optional Keys.columns (list Shape.text) []
    <*> nullable Keys.rows integer
    <*> nullable Keys.responsive (record "TableResponsive" narrowing)
    <*> nullable Keys.states (list Shape.text)

/-- A form's title stands before its children and its states after them. -/
def formNode (child : Shape Node) : Reading (Header → Node) :=
  (fun title fields actions states h => Node.form h ⟨title, states⟩ fields actions)
    <$> nullable Keys.title Shape.text
    <*> optional Keys.fields (list child) []
    <*> optional Keys.actions (list child) []
    <*> nullable Keys.states (list Shape.text)

/-- The fields of a kind besides the header. -/
def content (child : Shape Node) : Kind → Reading (Header → Node)
  | .stack => (fun s cs h => Node.stack h s cs) <$> stackContent
      <*> optional Keys.children (list child) []
  | .grid => (fun g cs h => Node.grid h g cs) <$> gridContent
      <*> optional Keys.children (list child) []
  | .box => (fun p c h => Node.box h p c) <$> nullable Keys.padding Spacing.read
      <*> nullable Keys.child child
  | .text => (fun t h => Node.text h t) <$> textContent
  | .button => (fun b h => Node.button h b) <$> buttonContent
  | .field => (fun f h => Node.field h f) <$> fieldContent
  | .form => formNode child
  | .table => (fun t h => Node.table h t) <$> tableContent

/-- A node of a kind; its header keeps the keys that were written for the whole node. -/
def node (child : Shape Node) (k : Kind) : Reading Node :=
  noted ((fun h content given => content { h with given := given }) <$> header <*> content child k)

end Reading

namespace Node

/-- Reads nodes whose objects nest at most so deep. -/
def readWithin : Nat → Shape Node
  | n + 1, .object o => match Keyed.get? o "type" with
    | none => refuse .noType
    | some tag => match tag with
      | .text name => match Kind.words.find? (·.1 == name) with
        | some (_, k) => underPlace (.key name) (((Reading.node (readWithin n) k).run o).map (·.1))
        | none => refuse (.unknownType (Text.withoutHalves name) (Kind.words.map (·.1)))
      | _ => refuse (.unknownType tag.shown (Kind.words.map (·.1)))
  | _, _ => refuse .node

/-- The node that a document writes. -/
def read : Shape Node := fun v => readWithin v.depth v

end Node

end Wireframe
