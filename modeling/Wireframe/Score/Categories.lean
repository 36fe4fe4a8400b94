import Wireframe.Focus.Order
import Wireframe.Layout.Screen
import Wireframe.Pattern.Rule

/-
  Wireframe.Score.Categories — the quality of a screen in four categories.

  Every category starts at a hundred points and loses some for every defect, down to none. The
  overall score is the sum of the categories by their weights, rounded, a half upwards.
-/

namespace Wireframe

/-- One value for every category. -/
structure Categories (α : Type) where
  /-- The rules of the patterns that pass. -/
  patternFidelity : α
  /-- What the keyboard reaches. -/
  flowReachability : α
  /-- Fields before actions, and spacing on the scale. -/
  hierarchyGrouping : α
  /-- What fits the viewports. -/
  responsiveBehavior : α

namespace Categories

def map (f : α → β) (c : Categories α) : Categories β :=
  ⟨f c.patternFidelity, f c.flowReachability, f c.hierarchyGrouping, f c.responsiveBehavior⟩

def patternFidelityKey : Key := ⟨"patternFidelity", "pattern_fidelity"⟩

def flowReachabilityKey : Key := ⟨"flowReachability", "flow_reachability"⟩

def hierarchyGroupingKey : Key := ⟨"hierarchyGrouping", "hierarchy_grouping"⟩

def responsiveBehaviorKey : Key := ⟨"responsiveBehavior", "responsive_behavior"⟩

def toValue (c : Categories Float) : Value :=
  .object [(patternFidelityKey.camel, .real c.patternFidelity),
    (flowReachabilityKey.camel, .real c.flowReachability),
    (hierarchyGroupingKey.camel, .real c.hierarchyGrouping),
    (responsiveBehaviorKey.camel, .real c.responsiveBehavior)]

/-! ## Weights -/

section Arithmetic

variable {α : Type} [Scalar α]

open Scalar

def total (w : Categories α) : α :=
  w.patternFidelity + w.flowReachability + w.hierarchyGrouping + w.responsiveBehavior

/-- How far the sum of weights may be from one. -/
def weightTolerance : α := decimal 1 2

/-- Do weights sum to one, within the tolerance? -/
def isBalanced (w : Categories α) : Bool :=
  !(lt weightTolerance (w.total - ofInt 1) || lt weightTolerance (ofInt 1 - w.total))

def weighted (weights scores : Categories α) : α :=
  weights.patternFidelity * scores.patternFidelity +
    weights.flowReachability * scores.flowReachability +
    weights.hierarchyGrouping * scores.hierarchyGrouping +
    weights.responsiveBehavior * scores.responsiveBehavior

/-- The overall score: the noise beyond six places is dropped before the sum is rounded. -/
def overall (weights scores : Categories α) : Calculation Int :=
  floor (roundTo 6 (weighted weights scores) + decimal 5 1)

/-! ## Points -/

/-- What is left of a hundred points. -/
def pointsLeft (lost : Int) : Int := max 0 (100 - lost)

def patternPoints (vs : List Verdict) : Int :=
  pointsLeft (30 * sumOf (·.mustFailed) vs + 10 * sumOf (·.shouldFailed) vs)

def focusPoints (f : Focus) : Int :=
  pointsLeft (30 * f.unreachable.length + 10 * Issue.count f.issues none (some Severity.warn.name))

/-- So many spacing defects count as one. -/
def spacingCluster : Nat := 3

def groupingPoints (focusIssues layoutIssues : List Issue) : Int :=
  pointsLeft (10 * Issue.count focusIssues (some "field-after-actions") none +
    5 * (Issue.count layoutIssues (some "spacing-off-scale") none / spacingCluster : Nat))

/-- What one viewport loses. -/
def viewportPenalty (issues : List Issue) : Int :=
  30 * (Issue.count issues (some "overflow-x") none : Nat) +
    20 * (Issue.count issues (some "primary-below-fold") none : Nat)

/-- A hundred points less what the viewports lose on average. -/
def viewportPoints (penalties : List Int) : α :=
  if penalties.isEmpty then ofInt 100
  else larger zero (ofInt 100 - ofInt (sumOf id penalties) / ofInt penalties.length)

/-- The scores of a screen, by what was found in it. -/
def scores (vs : List Verdict) (f : Focus) (layouts : List Layout) : Categories α :=
  { patternFidelity := ofInt (patternPoints vs)
    flowReachability := ofInt (focusPoints f)
    hierarchyGrouping := ofInt (groupingPoints f.issues (layouts.flatMap (·.issues)))
    responsiveBehavior := viewportPoints (layouts.map fun l => viewportPenalty l.issues) }

/-- A score is a finite number between zero and a hundred. -/
def checkScore (key : Key) (x : α) : Except Faults α :=
  underPlace (.key key.snake)
    (match floor x with
      | .error _ => Shape.refuse .real
      | .ok _ =>
        if le x (ofInt 100) then (if le zero x then .ok x else Shape.refuse (.atLeast 0))
        else Shape.refuse (.atMost 100))

/-- The scores, if all of them lie where they should. -/
def check (c : Categories α) : Except Faults (Categories α) :=
  (together (together (checkScore patternFidelityKey c.patternFidelity)
      (checkScore flowReachabilityKey c.flowReachability))
    (together (checkScore hierarchyGroupingKey c.hierarchyGrouping)
      (checkScore responsiveBehaviorKey c.responsiveBehavior))).map
    fun ((p, f), (h, r)) => ⟨p, f, h, r⟩

end Arithmetic

/-! ## Reading -/

/-- Weights where none are given. -/
def standardWeights : Categories Float := ⟨0.45, 0.25, 0.20, 0.10⟩

def scoreReading : Reading (Categories Float) :=
  Categories.mk <$> .required patternFidelityKey (Shape.realIn 0 100)
    <*> .required flowReachabilityKey (Shape.realIn 0 100)
    <*> .required hierarchyGroupingKey (Shape.realIn 0 100)
    <*> .required responsiveBehaviorKey (Shape.realIn 0 100)

def weightReading : Reading (Categories Float) :=
  Categories.mk
    <$> .optional patternFidelityKey (Shape.realIn 0 1) standardWeights.patternFidelity
    <*> .optional flowReachabilityKey (Shape.realIn 0 1) standardWeights.flowReachability
    <*> .optional hierarchyGroupingKey (Shape.realIn 0 1) standardWeights.hierarchyGrouping
    <*> .optional responsiveBehaviorKey (Shape.realIn 0 1) standardWeights.responsiveBehavior

def readScores : Shape (Categories Float) := Shape.record "CategoryScores" scoreReading

/-- Weights that sum to one. -/
def readWeights : Shape (Categories Float) := fun v => do
  let w ← Shape.record "ScoreWeights" weightReading v
  if w.isBalanced then return w
  else Shape.refuse (.condition ("Score weights must sum to 1.0, got " ++ Decimal.fixedText 3 w.total))

end Categories

end Wireframe
