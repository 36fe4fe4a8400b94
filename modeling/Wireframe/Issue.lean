import Wireframe.Node.Writing

/-
  Wireframe.Issue — what is found to be wrong with a screen.

  An issue is written with the fields that were set, and a field may be set to null. So a field
  that may be left out has two layers: whether it is set, and what to.
-/

namespace Wireframe

/-- From the least to the greatest. -/
inductive Severity where
  | info
  | warn
  | error
  | critical
  deriving DecidableEq

def Severity.words : List (String × Severity) :=
  [("info", .info), ("warn", .warn), ("error", .error), ("critical", .critical)]

def Severity.name (s : Severity) : String := wordOf Severity.words s

def Severity.rank : Severity → Nat
  | .info => 0
  | .warn => 1
  | .error => 2
  | .critical => 3

/-- Where a rule of a pattern comes from. -/
structure Provenance where
  pattern : String
  name : Option (Option String) := none
  url : Option (Option String) := none
  deriving DecidableEq

structure Issue where
  /-- The name of the defect, the same wherever it is found. -/
  id : String
  severity : Severity
  message : String
  nodeId : Option (Option String) := none
  jsonPointer : Option (Option String) := none
  viewport : Option (Option String) := none
  details : Option (Option Object) := none
  source : Option (Option Provenance) := none
  /-- What to do about it. -/
  suggestion : Option (Option String) := none
  expected : Option Value := none
  found : Option Value := none

namespace Reading

open Shape

def provenance : Reading Provenance :=
  Provenance.mk <$> required (.plain "pattern") Shape.text
    <*> written (.plain "name") (Shape.nullable Shape.text)
    <*> written (.plain "url") (Shape.nullable Shape.text)

def issue : Reading Issue :=
  Issue.mk <$> required Keys.id Shape.text
    <*> required (.plain "severity") (choice Severity.words)
    <*> required (.plain "message") Shape.text
    <*> written ⟨"nodeId", "node_id"⟩ (Shape.nullable Shape.text)
    <*> written ⟨"jsonPointer", "json_pointer"⟩ (Shape.nullable Shape.text)
    <*> written (.plain "viewport") (Shape.nullable Shape.text)
    <*> written (.plain "details") (Shape.nullable (dictionary untyped))
    <*> written (.plain "source") (Shape.nullable (record "IssueSource" provenance))
    <*> written (.plain "suggestion") (Shape.nullable Shape.text)
    <*> written (.plain "expected") untyped
    <*> written (.plain "found") untyped

end Reading

/-- A field that is written when it is set. -/
def setField (key : String) (f : α → Value) : Option α → Object
  | some a => [(key, f a)]
  | none => []

def Provenance.read : Shape Provenance := Shape.record "IssueSource" Reading.provenance

def Provenance.toValue (p : Provenance) : Value :=
  .object (("pattern", .text p.pattern) :: (setField "name" (.orNull .text) p.name ++
    setField "url" (.orNull .text) p.url))

namespace Issue

def read : Shape Issue := Shape.record "Issue" Reading.issue

/-- The fields that were set; infinities and not-a-number in untyped values are written as null. -/
def toValue (i : Issue) : Value :=
  .object ([("id", .text i.id), ("severity", .text i.severity.name), ("message", .text i.message)] ++
    setField "nodeId" (.orNull .text) i.nodeId ++
    setField "jsonPointer" (.orNull .text) i.jsonPointer ++
    setField "viewport" (.orNull .text) i.viewport ++
    setField "details" (.orNull Writing.full.dictionary) i.details ++
    setField "source" (.orNull Provenance.toValue) i.source ++
    setField "suggestion" (.orNull .text) i.suggestion ++
    setField "expected" Value.finite i.expected ++
    setField "found" Value.finite i.found)

def listValue (issues : List Issue) : Value := .list (issues.map toValue)

/-- How many issues have this id and this severity, each when it is asked for. -/
def count (issues : List Issue) (id : Option String) (severity : Option String) : Nat :=
  issues.countP fun i =>
    (id.all (i.id == ·)) && (severity.all (i.severity.name == ·))

/-- The greatest severity. -/
def maxSeverity : List Issue → Option Severity
  | [] => none
  | i :: rest => some (rest.foldl (fun s j => if s.rank < j.severity.rank then j.severity else s) i.severity)

end Issue

end Wireframe
