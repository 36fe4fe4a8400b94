import Wireframe.Pattern.Rule
import Wireframe.Text.Keyword
import Wireframe.Text.Point
import Wireframe.Text.Case

/-
  Wireframe.Pattern.Collapsibles — the pattern of progressive disclosure.

  A collapsible section has a control that is close to it and a label, does not hide the primary
  action, looks like the sections next to it, and comes after the fields that are required.
-/

namespace Wireframe.Collapsibles

def patternName : String := "Progressive.Disclosure"

/-! ## Sections and their siblings -/

def isCollapsible (n : Node) : Bool := n.disclosure?.any (·.collapsible)

/-- The visible collapsible sections of a tree. -/
def sections (root : Node) : List Located := root.walk.filter fun l => isCollapsible l.node

/-- The children of the parent of every node by id, hidden ones included; of equal ids the last
    one counts. The root has no entry. -/
def siblingLists (root : Node) : List (String × List Node) :=
  Keyed.ofList (root.visibleNodes.flatMap fun n => n.children.map fun c => (c.id, n.children))

def siblings (root : Node) (id : String) : List Node := (Keyed.get? (siblingLists root) id).getD []

def position? (nodes : List Node) (id : String) : Option Nat := nodes.findIdx? (·.id == id)

/-! ## Controls -/

def controlWords : List String :=
  ["show", "hide", "expand", "collapse", "advanced", "details", "more"]

def controlAffordances : List String := ["chevron", "details"]

/-- Is the node a visible button that looks like it folds something? -/
def isCandidate : Node → Bool
  | .button h b => h.visible &&
      (Text.mentions controlWords b.text ||
        (h.affordances.getD []).any fun a => controlAffordances.contains a)
  | _ => false

/-- The first candidate before a section, from the section up; else the first one after it; else
    the first child of the section. -/
def inferControl (section_ : Node) (siblings : List Node) : Option Node :=
  (position? siblings section_.id).bind fun i =>
    (((siblings.take i).reverse.find? isCandidate).orElse fun _ =>
      (siblings.drop (i + 1)).find? isCandidate).orElse fun _ =>
        section_.children.head?.filter isCandidate

/-- The visible button with an id in a subtree. -/
def button? (root : Node) (id : String) : Option Node :=
  root.visibleNodes.find? fun n => n.id == id && n.isButton

/-- The id of the control that a section names, when it is not empty. -/
def namedControl? (section_ : Node) : Option String :=
  (section_.disclosure?.bind (·.controlsId)).filter (· != "")

/-- The control of a section. One that is named has to be a visible button in the section or in
    one of its siblings; it is not looked for elsewhere. -/
def findControl (section_ : Node) (siblings : List Node) : Option Node :=
  match namedControl? section_ with
  | none => inferControl section_ siblings
  | some id => (section_ :: siblings).findSome? fun n => button? n id

/-! ## What a section shows and hides -/

/-- Is a section collapsed unless it is said to start expanded? -/
def startsCollapsed (n : Node) : Bool :=
  n.disclosure?.any fun d => d.collapsible && d.defaultState != some .expanded

def hidesPrimary (n : Node) : Bool := startsCollapsed n && n.visibleNodes.any (·.isPrimaryButton)

def isShownText : Node → Bool
  | .text h t => h.visible && !Text.isVoid t.text
  | _ => false

/-- A control needs so many characters to serve as a label. -/
def labelLength : Nat := 2

/-- Has a section a label: its control's, a text right before it, or a text of its own? -/
def hasLabel (section_ : Node) (siblings : List Node) (control : Option Node) : Bool :=
  (control.any fun c => labelLength ≤ Text.size (Text.strip c.buttonText)) ||
    (match position? siblings section_.id with
      | some (i + 1) => (siblings[i]?).any isShownText
      | _ => false) ||
    section_.children.any isShownText

/-- A list without repetitions, in the order of texts. -/
def sortedSet (ss : List String) : List String := (ss.mergeSort Text.notAfter).eraseDups

/-- The affordances of a node, trimmed and in small letters, without blank ones. -/
def tokens (n : Node) : List String :=
  sortedSet (((n.header.affordances.getD []).filter (!Text.isVoid ·)).map fun a =>
    Text.lower (Text.strip a))

def firstRequired? (root : Node) : Option Node :=
  root.visibleNodes.find? fun n => match n with
    | .field _ f => f.required == some true
    | _ => false

/-! ## Sources and suggestions -/

def overviewUrl : String := "https://www.nngroup.com/articles/progressive-disclosure/"

def sourceOf (name url : String) : Provenance :=
  { pattern := patternName, name := some (some name), url := some (some url) }

def disclosureSource : Provenance :=
  sourceOf "Nielsen Norman Group: Progressive Disclosure" overviewUrl

def detailsSource : Provenance :=
  sourceOf "GOV.UK Design System: Details"
    "https://design-system.service.gov.uk/components/details/"

def accordionSource : Provenance :=
  sourceOf "USWDS: Accordion" "https://designsystem.digital.gov/components/accordion/"

def controlSuggestion (id : String) : String :=
  "Add a control Button near the section and reference it:\n" ++
    "\"behaviors\": \x7b \"disclosure\": \x7b \"collapsible\": true, \"controlsId\": \"toggle-" ++ id ++
    "\", \"defaultState\": \"collapsed\" \x7d \x7d\n" ++
    "...and define the control:\n" ++
    "\x7b \"id\": \"toggle-" ++ id ++ "\", \"type\": \"Button\", \"text\": \"Show details\" \x7d"

def labelSuggestion (id : String) : String :=
  "Add a sibling Text label before the section:\n" ++
    "\x7b \"type\":\"Text\", \"id\":\"" ++ id ++ "-label\", \"text\":\"Section title\" \x7d"

def primarySuggestion : String :=
  "Move the primary action outside the collapsible section OR set:\n" ++
    "\"behaviors\": \x7b \"disclosure\": \x7b \"defaultState\": \"expanded\" \x7d \x7d"

def distanceSuggestion : String :=
  "Place the control as a preceding sibling or within a header row next to the section."

def affordanceSuggestion : String :=
  "Align affordances across collapsible sections, e.g. \"affordances\":[\"chevron\"]."

def earlySuggestion : String :=
  "Move collapsible sections after required fields and before the action row."

/-- An id, or another word where it is missing or empty. -/
def idOr (word : String) (id : Option String) : String := (id.filter (· != "")).getD word

/-- What to do about a rule that fails at a node, or anywhere. -/
def suggestion? (rule : String) (id : Option String) : Option String :=
  match rule with
  | "disclosure-no-control" => some (controlSuggestion (idOr "advanced" id))
  | "disclosure-missing-label" => some (labelSuggestion (idOr "section" id))
  | "disclosure-hides-primary" => some primarySuggestion
  | "disclosure-control-far" => some distanceSuggestion
  | "disclosure-inconsistent-affordance" => some affordanceSuggestion
  | "disclosure-early-section" => some earlySuggestion
  | _ => none

/-! ## Musts -/

def controlFindings (root : Node) : List Issue :=
  (sections root).filterMap fun l =>
    match findControl l.node (siblings root l.node.id) with
    | some _ => none
    | none => some (Finding.toIssue "disclosure-no-control" .error { Finding.on l disclosureSource
          ("Collapsible section \"" ++ l.node.id ++ "\" has no associated control")
          (controlSuggestion (idOr "advanced" (some l.node.id))) with
        expected := some (.text
          "controlsId referencing a Button or nearby Button with disclosure keywords")
        found := some (.orNull .text (l.node.disclosure?.bind (·.controlsId))) })

/-- The state in which a section starts. -/
def startState (n : Node) : Folding :=
  ((n.disclosure?.bind (·.defaultState)).getD .collapsed)

def primaryFindings (root : Node) : List Issue :=
  ((sections root).filter fun l => hidesPrimary l.node).map fun l =>
    Finding.toIssue "disclosure-hides-primary" .error { Finding.on l detailsSource
        ("Primary action is hidden by default within collapsed section \"" ++ l.node.id ++ "\"")
        primarySuggestion with
      expected := some (.text "Primary action outside collapsed section or defaultState expanded")
      found := some (.text ("defaultState: " ++ wordOf Folding.words (startState l.node) ++
        ", primary inside section")) }

def labelFindings (root : Node) : List Issue :=
  (sections root).filterMap fun l =>
    let around := siblings root l.node.id
    if hasLabel l.node around (findControl l.node around) then none
    else some (Finding.toIssue "disclosure-missing-label" .error { Finding.on l accordionSource
          ("Collapsible section \"" ++ l.node.id ++ "\" lacks a visible label or summary")
          (labelSuggestion (idOr "section" (some l.node.id))) with
        expected := some (.text
          "Sibling Text label, child Text summary, or control button with meaningful text") })

/-! ## Shoulds -/

/-- How far a section stands from a control next to it, in siblings. -/
def distance? (siblings : List Node) (control section_ : Node) : Option Nat :=
  match position? siblings control.id, position? siblings section_.id with
  | some i, some j => some ((i - j) + (j - i))
  | _, _ => none

def farFinding (l : Located) (control : Node) (distance : Nat) : Issue :=
  Finding.toIssue "disclosure-control-far" .warn { Finding.on l disclosureSource
      ("Control \"" ++ control.id ++ "\" is not adjacent to collapsible section \"" ++ l.node.id ++
        "\" (distance: " ++ toString distance ++ " siblings)")
      distanceSuggestion with
    details := some [("controlId", .text control.id), ("distance", .nat distance)]
    expected := some (.text "Control adjacent to collapsible (distance <= 1)")
    found := some (.text ("Control at distance " ++ toString distance ++ " from collapsible")) }

def distanceFindings (root : Node) : List Issue :=
  (sections root).filterMap fun l =>
    let around := siblings root l.node.id
    (findControl l.node around).bind fun control =>
      (distance? around control l.node).bind fun d =>
        if d ≤ 1 then none else some (farFinding l control d)

/-- The sections in groups of one parent. -/
def families (root : Node) : List (Option String × List Located) :=
  let parents := root.parents
  Keyed.group ((sections root).map fun l =>
    ((Keyed.get? parents l.node.id).map (·.id), l))

/-- Have all of some sets a token in common? -/
def shareToken : List (List String) → Bool
  | [] => false
  | first :: rest => first.any fun t => rest.all (·.contains t)

def tokensText (n : Node) : String :=
  "\"" ++ n.id ++ "\": [" ++
    ", ".intercalate ((tokens n).map fun t => "\"" ++ t ++ "\"") ++ "]"

/-- Two or more sections of one parent have affordances, and none that all of these share. -/
def inconsistent (members : List Located) : Bool :=
  let sets := (members.map fun l => tokens l.node).filter (!·.isEmpty)
  2 ≤ sets.length && !shareToken sets

def familyFinding? (members : List Located) : Option Issue :=
  match members with
  | [] => none
  | first :: _ =>
    if inconsistent members then
      let summary := "; ".intercalate (members.map fun l => tokensText l.node)
      some (Finding.toIssue "disclosure-inconsistent-affordance" .warn { Finding.on first detailsSource
          ("Multiple collapsibles use inconsistent affordances: " ++ summary)
          affordanceSuggestion with
        details := some [("collapsibleIds", .texts (members.map (·.node.id)))]
        expected := some (.text "Common affordance token across all collapsibles")
        found := some (.text ("No intersection: " ++ summary)) })
    else none

def affordanceFindings (root : Node) : List Issue :=
  (families root).filterMap fun g => familyFinding? g.2

def earlyFinding (l : Located) (required : Node) : Issue :=
  Finding.toIssue "disclosure-early-section" .warn { Finding.on l accordionSource
      ("Collapsible section \"" ++ l.node.id ++ "\" appears before the first required field \"" ++
        required.id ++ "\"")
      earlySuggestion with
    details := some [("firstRequiredFieldId", .text required.id)]
    expected := some (.text "Collapsible after primary content (required fields)")
    found := some (.text ("Collapsible \"" ++ l.node.id ++ "\" before required field \"" ++
      required.id ++ "\"")) }

def earlyFindings (root : Node) : List Issue :=
  match firstRequired? root with
  | none => []
  | some required =>
    let before := root.walk.takeWhile fun l => l.node.id != required.id
    ((before.find? fun l => isCollapsible l.node).map fun l => earlyFinding l required).toList

def pattern : Pattern :=
  { name := patternName, source := sourceOf "Nielsen Norman Group" overviewUrl
    must :=
      [⟨"disclosure-no-control", .must, "Collapsible section must have an associated control",
          controlFindings⟩,
        ⟨"disclosure-hides-primary", .must,
          "Primary action must not be hidden by default in collapsed section", primaryFindings⟩,
        ⟨"disclosure-missing-label", .must,
          "Collapsible section must have a visible label or summary", labelFindings⟩]
    should :=
      [⟨"disclosure-control-far", .should, "Control should be adjacent to collapsible section",
          distanceFindings⟩,
        ⟨"disclosure-inconsistent-affordance", .should,
          "Multiple collapsibles should use consistent affordances", affordanceFindings⟩,
        ⟨"disclosure-early-section", .should,
          "Collapsible content should follow primary content", earlyFindings⟩] }

end Wireframe.Collapsibles
