import Wireframe.Pattern.Rule
import Wireframe.Text.Keyword

/-
  Wireframe.Pattern.Tables — the pattern of a simple table.

  Tables have titles and a strategy for narrow viewports, fit the narrowest one or are safe from
  running over; and controls that filter, search or sort stand next to them.
-/

namespace Wireframe.Tables

def patternName : String := "Table.Simple"

def source : Provenance :=
  { pattern := patternName, name := some (some "IBM Carbon Design System")
    url := some (some "https://carbondesignsystem.com/components/data-table/usage/") }

def strategies : List String := ["wrap", "scroll", "cards"]

/-- With these a table never runs over. -/
def safeStrategies : List String := ["scroll", "cards"]

/-- The strategy of a table, when it has one that is not empty. -/
def strategy? (t : TableContent) : Option String :=
  (t.responsive.bind (·.strategy)).filter (· != "")

/-! ## Musts -/

def titleFindings (root : Node) : List Issue :=
  root.walk.filterMap fun l => match l.node with
    | .table _ t =>
      if Text.isVoid (t.title.getD "") then
        some (Finding.toIssue "title-exists" .error (Finding.on l source
          ("Table \"" ++ l.node.id ++ "\" has empty or missing title")
          "Give the table a title, e.g. \"title\": \"Recent orders\""))
      else none
    | _ => none

/-- What is wrong with the strategy of a table. -/
def strategyProblem? (id : String) (t : TableContent) : Option String :=
  match strategy? t with
  | none => some ("Table \"" ++ id ++ "\" is missing responsive.strategy")
  | some s =>
    if strategies.contains s then none
    else some ("Table \"" ++ id ++ "\" has invalid responsive.strategy \"" ++ s ++
      "\" (must be: wrap, scroll, or cards)")

def strategyFindings (root : Node) : List Issue :=
  root.walk.filterMap fun l => match l.node with
    | .table _ t => (strategyProblem? l.node.id t).map fun problem =>
      Finding.toIssue "responsive-strategy" .error
        { Finding.on l source problem "Set \"responsive\": \x7b\"strategy\": \"scroll\"\x7d" with
          expected := some (.texts strategies)
          found := some (.orNull .text (t.responsive.bind (·.strategy))) }
    | _ => none

/-- The width a table needs for its columns, when it tells how wide they are at least. -/
def requiredWidth? (t : TableContent) : Option (Float × Float) :=
  if t.columns.isEmpty then none
  else (t.responsive.bind (·.minColumnWidth)).map fun m => (m, m * Float.ofNat t.columns.length)

def tooWide (l : Located) (t : TableContent) (s : String) (minimum required : Float)
    (viewport : Number) : Finding :=
  { Finding.on l source
      ("Table \"" ++ l.node.id ++ "\" needs " ++ Decimal.messageText required ++ "px for " ++
        toString t.columns.length ++ " columns but the smallest viewport is " ++
        viewport.message ++ "px wide")
      "Switch to \"scroll\" or \"cards\", or reduce the column count" with
    expected := some (.number viewport), found := some (.real required)
    details := some [("strategy", .text s), ("minColumnWidth", .real minimum)] }

/-- The width of the narrowest viewport and the widths of a column and of the table, when the table
    is too wide and its strategy is not a safe one. -/
def overrun? (viewport : Option Number) (t : TableContent) : Option (Number × Float × Float) :=
  if (strategy? t).any safeStrategies.contains then none
  else match viewport, requiredWidth? t with
    | some v, some (m, required) => if v.lt (.float required) then some (v, m, required) else none
    | _, _ => none

/-- A table may run over when it has no strategy, or when it needs more than the width of the
    narrowest viewport and its strategy is not a safe one. -/
def fitFinding? (viewport : Option Number) (l : Located) (t : TableContent) : Option Issue :=
  match strategy? t with
  | none => some (Finding.toIssue "min-width-fit-or-scroll" .error (Finding.on l source
      ("Table \"" ++ l.node.id ++ "\" has no responsive strategy; may overflow on small viewports")
      "Use \"scroll\" or \"cards\" for wide tables"))
  | some s => (overrun? viewport t).map fun (v, m, required) =>
      Finding.toIssue "min-width-fit-or-scroll" .error (tooWide l t s m required v)

/-- A width that the messages tell has to be within the range of doubles. -/
def checkWidth (viewport : Option Number) (root : Node) : Calculation Unit :=
  root.walk.forM fun l => match l.node with
    | .table _ t => match strategy? t, overrun? viewport t with
      | some _, some (v, _, _) => v.toDouble.map fun _ => ()
      | _, _ => .ok ()
    | _ => .ok ()

def fitFindings (viewport : Option Number) (root : Node) : List Issue :=
  root.walk.filterMap fun l => match l.node with
    | .table _ t => fitFinding? viewport l t
    | _ => none

/-! ## Shoulds -/

def controlWords : List String := ["filter", "search", "sort"]

def isControlLeaf : Node → Bool
  | .button _ b => Text.beginsWord controlWords b.text
  | .field _ f => Text.beginsWord controlWords f.label
  | _ => false

/-- Is the node a control for tables, or does it hold one that is visible? -/
def isControl (n : Node) : Bool := n.visibleNodes.any isControlLeaf

/-- The controls among the siblings of a position, with their distances from it. -/
def controlDistances (slots : List Slot) (position : Nat) : List (String × Nat) :=
  Keyed.ofList (slots.zipIdx.filterMap fun (s, i) =>
    if i ≠ position ∧ s.node.visible ∧ isControl s.node then
      some (s.node.id, (i - position) + (position - i))
    else none)

def adjacencyFinding? (parent : Located) (slots : List Slot) (s : Slot) (position : Nat) :
    Option Issue :=
  let distances := controlDistances slots position
  if s.node.kind ≠ .table ∨ !s.node.visible ∨ distances.isEmpty ∨ distances.any (·.2 ≤ 1) then none
  else
    some (Finding.toIssue "controls-adjacent" .warn { Finding.on (parent.under s) source
        ("Table \"" ++ s.node.id ++ "\" controls are not adjacent to the table")
        "Place filter, search and sort controls directly above the table" with
      details := some [("controlIds", .texts (distances.map (·.1))),
        ("parentId", .text parent.node.id)] })

def adjacencyFindings (root : Node) : List Issue :=
  root.walk.flatMap fun parent =>
    let slots := parent.node.slots
    slots.zipIdx.filterMap fun (s, i) => adjacencyFinding? parent slots s i

/-- The pattern, when the width of the narrowest viewport is known or not. -/
def pattern (viewport : Option Number) : Pattern :=
  { name := patternName, source := source
    must :=
      [⟨"title-exists", .must, "Table.title must be non-empty", titleFindings⟩,
        ⟨"responsive-strategy", .must,
          "Table.responsive.strategy must be one of: wrap, scroll, cards", strategyFindings⟩,
        ⟨"min-width-fit-or-scroll", .must,
          "At the smallest viewport the table fits or uses scroll/cards", fitFindings viewport⟩]
    should :=
      [⟨"controls-adjacent", .should, "Filters and controls should be adjacent to the table",
        adjacencyFindings⟩] }

end Wireframe.Tables
