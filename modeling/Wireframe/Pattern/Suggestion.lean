import Wireframe.Pattern.Catalog

/-
  Wireframe.Pattern.Suggestion — the patterns that a screen seems to follow.

  A suggestion rests on the nodes of the tree, hidden ones included, and has a score. Suggestions
  with a high score are selected when no patterns are named; what is suggested and not selected
  is a gap in the coverage.
-/

namespace Wireframe

inductive Confidence where
  | high
  | medium
  | low
  deriving DecidableEq

def Confidence.name : Confidence → String
  | high => "high"
  | medium => "medium"
  | low => "low"

/-- Scores from here on are high. -/
def highScore : Int := 80

/-- Scores from here on are medium at least. -/
def mediumScore : Int := 50

def Confidence.ofScore (score : Number) : Confidence :=
  if Number.le (.int highScore) score then .high
  else if Number.le (.int mediumScore) score then .medium
  else .low

structure Suggestion where
  topic : Topic
  reason : String
  score : Int

namespace Suggestion

def confidence (s : Suggestion) : Confidence := Confidence.ofScore (.int s.score)

def toValue (s : Suggestion) : Value :=
  .object [("pattern", .text s.topic.name), ("reason", .text s.reason),
    ("confidence", .text s.confidence.name), ("confidenceScore", .int s.score)]

/-! ## Signs -/

/-- What a node is a sign of. -/
inductive Sign where
  | form (fields actions : Nat)
  | table (columns : Nat) (strategy : Option String)
  | folding
  /-- A hint of a guided flow, in the words of the screen. -/
  | step (hint : String)

def flowWords : List String := ["next", "previous", "prev", "back"]

/-- Does a label in small letters hold a word of guided flows, or number a step? -/
def isFlowLabel (label : String) : Bool :=
  flowWords.any (Text.contains · label) || Text.numbersStep label

/-- A node is a sign of one thing at most: of what it is, before how it behaves. -/
def sign? : Node → Option Sign
  | .form _ _ fs as => some (.form fs.length as.length)
  | .table _ t => some (.table t.columns.length (t.responsive.bind (·.strategy)))
  | n =>
    if Collapsibles.isCollapsible n then some .folding
    else if n.isButton then
      let label := Text.lower n.buttonText
      if isFlowLabel label then some (.step label) else none
    else if n.guidedFlow?.isSome then some (.step n.id)
    else none

def signs (root : Node) : List Sign := root.allNodes.filterMap sign?

def forms (signs : List Sign) : List (Nat × Nat) :=
  signs.filterMap fun s => match s with
    | .form fields actions => some (fields, actions)
    | _ => none

def tables (signs : List Sign) : List (Nat × Option String) :=
  signs.filterMap fun s => match s with
    | .table columns strategy => some (columns, strategy)
    | _ => none

def hasFolding (signs : List Sign) : Bool :=
  signs.any fun s => match s with
    | .folding => true
    | _ => false

def hints (signs : List Sign) : List String :=
  signs.filterMap fun s => match s with
    | .step hint => some hint
    | _ => none

/-! ## Suggestions -/

def ofForms : List (Nat × Nat) → Option Suggestion
  | [] => none
  | fs => some
    { topic := .forms, score := 95
      reason := "Detected Form node with " ++ toString (sumOf (fun f => (f.1 : Int)) fs) ++ " field(s) and " ++
        toString (sumOf (fun f => (f.2 : Int)) fs) ++ " action(s)" }

/-- The strategy is that of the last table. -/
def ofTables : List (Nat × Option String) → Option Suggestion
  | [] => none
  | ts =>
    let columns := sumOf (fun t => (t.1 : Int)) ts
    let strategy := (ts.getLast?.bind (·.2)).filter (· != "")
    some
      { topic := .tables, score := if 0 < columns then 90 else 60
        reason := "Detected Table node (" ++ toString columns ++ " columns, responsive.strategy=" ++
          strategy.getD "none" ++ ")" }

def ofFolding (found : Bool) : Option Suggestion :=
  if found then some
    { topic := .collapsibles, score := 92
      reason := "Found collapsible disclosure behavior on one or more nodes" }
  else none

/-- One hint alone is weak, and more than three are strong. -/
def ofHints : List String → Option Suggestion
  | [] => none
  | [hint] => some
    { topic := .wizards, score := 40, reason := "Single guided-flow hint (" ++ hint ++ ") detected" }
  | hs => some
    { topic := .wizards, score := if 3 < hs.length then 88 else 70
      reason := "Found multi-step indicators (" ++ ", ".intercalate (hs.take 5) ++
        ") suggesting a wizard flow" }

/-- The suggestions for a tree, in the order of the catalog. -/
def compute (root : Node) : List Suggestion :=
  let found := signs root
  (ofForms (forms found)).toList ++ (ofTables (tables found)).toList ++
    (ofFolding (hasFolding found)).toList ++ (ofHints (hints found)).toList

def entry (ss : List Suggestion) : Entry :=
  Entry.debug "patterns.suggestions" ("Suggested " ++ (Value.texts (ss.map (·.topic.name))).shown)

/-! ## Selection -/

/-- Is a node of the tree collapsible? -/
def hasDisclosureHints (root : Node) : Bool := root.allNodes.any Collapsibles.isCollapsible

/-- Has a node of the tree a role in a guided flow? -/
def hasFlowHints (root : Node) : Bool := root.allNodes.any (·.guidedFlow?.isSome)

/-- The topics that the behaviours of a tree ask for. -/
def hinted (root : Node) : List Topic :=
  (if hasDisclosureHints root then [.collapsibles] else []) ++
    (if hasFlowHints root then [.wizards] else [])

/-- The topics with a high score. -/
def confident (ss : List Suggestion) : List Topic :=
  (ss.filter fun s => highScore ≤ s.score).map (·.topic)

/-- The topics that are named, each once, and besides, unless that is switched off, those that
    the behaviours of the tree ask for; when none is named, the suggestions with a high score. -/
def select (root : Node) (names : List String) (auto : Bool) : Trail Entry Failure (List Topic) := do
  let named ← Trail.ofExcept (names.mapM Topic.get)
  if !auto then return named.eraseDups
  if !names.isEmpty then return (named ++ hinted root).eraseDups
  let ss := compute root
  Trail.note (entry ss)
  return confident ss

end Suggestion

/-! ## Coverage -/

/-- How many patterns of the catalog are active, and the suggestions that are not followed. -/
structure Coverage where
  activated : Nat
  total : Nat
  percent : Float
  gaps : List Suggestion

namespace Coverage

/-- A suggestion is a gap when its score is medium at least and its pattern is not active. -/
def compute (ss : List Suggestion) (active : List String) : Coverage :=
  let activated := active.eraseDups.length
  { activated := activated, total := Topic.all.length
    percent := Decimal.roundTo 2
      (Float.ofNat activated / Float.ofNat Topic.all.length * 100.0)
    gaps := ss.filter fun s => s.confidence != .low && !active.contains s.topic.name }

def toValue (c : Coverage) : Value :=
  .object [("activated", .nat c.activated), ("nTotal", .nat c.total), ("percent", .real c.percent),
    ("gaps", .list (c.gaps.map fun s =>
      .object [("pattern", .text s.topic.name), ("reason", .text s.reason)]))]

end Coverage

end Wireframe
