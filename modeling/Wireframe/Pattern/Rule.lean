import Wireframe.Node.Tree
import Wireframe.Issue
import Wireframe.Trail
import Wireframe.Journal
import Wireframe.Sum

/-
  Wireframe.Pattern.Rule — patterns of design, and what a screen makes of their rules.

  A rule looks at a tree and tells what it finds as issues. It fails when there is one, and passes
  otherwise, however many there are. The check of a rule writes the id and the severity of its
  issues; the rule tells its own id, and whether it is a must or a should.
-/

namespace Wireframe

/-- What a rule finds in one place. -/
structure Finding where
  nodeId : Option String
  pointer : Option String
  message : String
  source : Provenance
  details : Option Object := none
  suggestion : Option String := none
  expected : Option Value := none
  /-- What was found instead; null when that is nothing. -/
  found : Option Value := none

inductive RuleLevel where
  | must
  | should
  deriving DecidableEq

def RuleLevel.name : RuleLevel → String
  | .must => "must"
  | .should => "should"

namespace Finding

/-- A finding about a node where it stands. -/
def on (l : Located) (source : Provenance) (message suggestion : String) : Finding :=
  { nodeId := some l.node.id, pointer := some l.pointer, message := message, source := source
    suggestion := some suggestion }

/-- A finding as the issue that the check of a rule tells. -/
def toIssue (rule : String) (severity : Severity) (f : Finding) : Issue :=
  { id := rule, severity := severity, message := f.message
    nodeId := f.nodeId.map some, jsonPointer := f.pointer.map some
    details := f.details.map some, source := some (some f.source)
    suggestion := f.suggestion.map some, expected := f.expected, found := f.found }

end Finding

structure Rule where
  id : String
  level : RuleLevel
  /-- What the rule asks for. -/
  description : String
  check : Node → List Issue

/-- The issues of a rule at a tree. -/
def Rule.evaluate (r : Rule) (root : Node) : List Issue := r.check root

structure Pattern where
  name : String
  source : Provenance
  must : List Rule
  should : List Rule

/-- The musts, then the shoulds. -/
def Pattern.rules (p : Pattern) : List Rule := p.must ++ p.should

/-- How many rules of a pattern pass and fail, and the issues of those that fail. -/
structure Verdict where
  pattern : String
  source : Provenance
  mustPassed : Int
  mustFailed : Int
  shouldPassed : Int
  shouldFailed : Int
  issues : List Issue

def passedCount (rules : List Rule) (root : Node) : Nat :=
  rules.countP fun r => (r.evaluate root).isEmpty

def failedCount (rules : List Rule) (root : Node) : Nat :=
  rules.countP fun r => !(r.evaluate root).isEmpty

namespace Pattern

def validate (p : Pattern) (root : Node) : Verdict :=
  { pattern := p.name, source := p.source
    mustPassed := passedCount p.must root, mustFailed := failedCount p.must root
    shouldPassed := passedCount p.should root, shouldFailed := failedCount p.should root
    issues := p.rules.flatMap (·.evaluate root) }

def entry (p : Pattern) (v : Verdict) : Entry :=
  Entry.debug "patterns" (p.name ++ ": must " ++ toString v.mustPassed ++ "/" ++
    toString p.must.length ++ " passed, should " ++ toString v.shouldPassed ++ "/" ++
    toString p.should.length ++ " passed")

end Pattern

/-- The verdicts on several patterns. -/
structure Verdicts where
  patterns : List Verdict
  hasMustFailures : Bool
  totalIssues : Nat

namespace Verdicts

def of (results : List Verdict) : Verdicts :=
  { patterns := results, hasMustFailures := results.any (0 < ·.mustFailed)
    totalIssues := (results.flatMap (·.issues)).length }

/-- The issues of all patterns. -/
def issues (vs : Verdicts) : List Issue := vs.patterns.flatMap (·.issues)

/-- One tree against several patterns. -/
def compute (patterns : List Pattern) (root : Node) : Verdicts :=
  of (patterns.map (·.validate root))

/-- What is told about the work of these patterns. -/
def entries (vs : Verdicts) (patterns : List Pattern) : List Entry :=
  List.zipWith Pattern.entry patterns vs.patterns

end Verdicts

namespace Verdict

def toValue (v : Verdict) : Value :=
  .object [("pattern", .text v.pattern), ("source", v.source.toValue),
    ("mustPassed", .int v.mustPassed), ("mustFailed", .int v.mustFailed),
    ("shouldPassed", .int v.shouldPassed), ("shouldFailed", .int v.shouldFailed),
    ("issues", Issue.listValue v.issues)]

def reading : Reading Verdict :=
  Verdict.mk <$> .required Keys.pattern Shape.text
    <*> .required (.plain "source") Provenance.read
    <*> .optional ⟨"mustPassed", "must_passed"⟩ Shape.integer 0
    <*> .optional ⟨"mustFailed", "must_failed"⟩ Shape.integer 0
    <*> .optional ⟨"shouldPassed", "should_passed"⟩ Shape.integer 0
    <*> .optional ⟨"shouldFailed", "should_failed"⟩ Shape.integer 0
    <*> .optional (.plain "issues") (Shape.list Issue.read) []

def read : Shape Verdict := Shape.record "PatternResult" reading

end Verdict

def Verdicts.toValue (vs : Verdicts) : Value :=
  .object [("patterns", .list (vs.patterns.map Verdict.toValue)),
    ("hasMustFailures", .bool vs.hasMustFailures), ("totalIssues", .nat vs.totalIssues)]

end Wireframe
