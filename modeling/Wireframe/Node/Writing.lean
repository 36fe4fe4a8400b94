import Wireframe.Node.Reading

/-
  Wireframe.Node.Writing — documents from nodes.

  A node is written with every field, or with the fields that were written for it. Either way the
  document reads back as the node. The member `type` is always written.
-/

namespace Wireframe

namespace Node

def boundsValue (w : Writing) (b : Bounds) : Value :=
  .object (w.fields b.given [("w", .orNull .real b.w), ("h", .orNull .real b.h)])

def disclosureValue (w : Writing) (d : Disclosure) : Value :=
  .object (w.fields d.given
    [("collapsible", .bool d.collapsible),
      ("defaultState", .orNull (fun s => .text (wordOf Folding.words s)) d.defaultState),
      ("controlsId", .orNull .text d.controlsId),
      ("ariaSummaryText", .orNull .text d.ariaSummaryText)])

def guidedFlowValue (w : Writing) (g : GuidedFlow) : Value :=
  .object (w.fields g.given
    [("role", .text (wordOf FlowRole.words g.role)), ("stepIndex", .orNull .int g.stepIndex),
      ("totalSteps", .orNull .int g.totalSteps), ("nextId", .orNull .text g.nextId),
      ("prevId", .orNull .text g.prevId), ("hasProgress", .orNull .bool g.hasProgress),
      ("progressNodeId", .orNull .text g.progressNodeId)])

def behaviorsValue (w : Writing) (b : Behaviors) : Value :=
  .object (w.fields b.given
    [("disclosure", .orNull (disclosureValue w) b.disclosure),
      ("guidedFlow", .orNull (guidedFlowValue w) b.guidedFlow)])

def narrowingValue (w : Writing) (n : Narrowing) : Value :=
  .object (w.fields n.given
    [("strategy", .orNull .text n.strategy), ("minColumnWidth", .orNull .real n.minColumnWidth)])

def overridesValue (w : Writing) (blocks : List (String × Option Object)) : Value :=
  .object (w.keyed (blocks.map fun (k, block) => (k, .orNull w.dictionary block)))

/-- The fields of the header. -/
def headerFields (w : Writing) (h : Header) : Object :=
  [("id", .text h.id), ("visible", .bool h.visible),
    ("widthPolicy", .text (wordOf SizePolicy.words h.widthPolicy)),
    ("heightPolicy", .text (wordOf SizePolicy.words h.heightPolicy)),
    ("minSize", .orNull (boundsValue w) h.minSize), ("maxSize", .orNull (boundsValue w) h.maxSize),
    ("at", .orNull (overridesValue w) h.overrides), ("pattern", .orNull .text h.pattern),
    ("behaviors", .orNull (behaviorsValue w) h.behaviors),
    ("affordances", .orNull .texts h.affordances), ("focusable", .orNull .bool h.focusable),
    ("tabIndex", .orNull .int h.tabIndex)]

def stackFields (w : Writing) (s : StackContent) : Object :=
  [("direction", .text (wordOf Direction.words s.direction)), ("gap", .orNull (Spacing.write w) s.gap),
    ("padding", .orNull (Spacing.write w) s.padding), ("align", .text (wordOf Align.words s.align)),
    ("wrap", .bool s.wrap)]

def gridFields (w : Writing) (g : GridContent) : Object :=
  [("columns", .int g.columns), ("gap", .orNull (Spacing.write w) g.gap),
    ("minColWidth", .orNull .real g.minColWidth)]

def textFields (t : TextContent) : Object :=
  [("text", .text t.text), ("fontSize", .orNull .real t.fontSize),
    ("maxLines", .orNull .int t.maxLines),
    ("intrinsicTextWidth", .orNull .real t.intrinsicTextWidth)]

def buttonFields (b : ButtonContent) : Object :=
  [("text", .text b.text),
    ("roleHint", .orNull (fun r => .text (wordOf Emphasis.words r)) b.roleHint)]

def fieldFields (f : FieldContent) : Object :=
  [("label", .text f.label), ("inputType", .orNull .text f.inputType),
    ("required", .orNull .bool f.required), ("helpText", .orNull .text f.helpText),
    ("errorText", .orNull .text f.errorText)]

def tableFields (w : Writing) (t : TableContent) : Object :=
  [("title", .orNull .text t.title), ("columns", .texts t.columns), ("rows", .orNull .int t.rows),
    ("responsive", .orNull (narrowingValue w) t.responsive), ("states", .orNull .texts t.states)]

/-- The object of a node: the header, the type, the rest. -/
def assemble (w : Writing) (h : Header) (k : Kind) (rest : Object) : Value :=
  .object (w.fields ("type" :: h.given) (headerFields w h ++ ("type", .text k.name) :: rest))

mutual

def write (w : Writing) : Node → Value
  | stack h s cs => assemble w h .stack (stackFields w s ++ [("children", .list (writeAll w cs))])
  | grid h g cs => assemble w h .grid (gridFields w g ++ [("children", .list (writeAll w cs))])
  | box h p none => assemble w h .box [("padding", .orNull (Spacing.write w) p), ("child", .null)]
  | box h p (some c) => assemble w h .box [("padding", .orNull (Spacing.write w) p), ("child", write w c)]
  | text h t => assemble w h .text (textFields t)
  | button h b => assemble w h .button (buttonFields b)
  | field h f => assemble w h .field (fieldFields f)
  | form h f fs as => assemble w h .form
      [("title", .orNull .text f.title), ("fields", .list (writeAll w fs)),
        ("actions", .list (writeAll w as)), ("states", .orNull .texts f.states)]
  | table h t => assemble w h .table (tableFields w t)

def writeAll (w : Writing) : List Node → List Value
  | [] => []
  | n :: rest => n.write w :: writeAll w rest

end

end Node

end Wireframe
