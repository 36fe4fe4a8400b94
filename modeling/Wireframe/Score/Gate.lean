import Wireframe.Score.Categories

/-
  Wireframe.Score.Gate — whether a screen passes.

  There are three criteria, and each can be switched off: no rule that is a must fails, every
  node is reached, and the overall score is not below a minimum. A screen passes when none of
  them is violated.
-/

namespace Wireframe

structure Criteria where
  noMustFailures : Bool
  noCriticalFlowErrors : Bool
  minOverallScore : Option Int
  deriving DecidableEq

/-- A criterion that is violated. -/
inductive FailReason where
  | mustFailures (count : Int)
  | unreachable (count : Number)
  | belowMinimum (overall : Number) (minimum : Int)

def FailReason.message : FailReason → String
  | mustFailures n => toString n ++ " MUST failure(s) in pattern validation"
  | unreachable n => n.text ++ " unreachable node(s)"
  | belowMinimum overall minimum =>
    "Overall score " ++ overall.text ++ " below minimum " ++ toString minimum

/-- The numbers that are told. -/
def FailReason.numbers : FailReason → List Number
  | mustFailures n => [.int n]
  | unreachable n => [n]
  | belowMinimum overall minimum => [overall, .int minimum]

namespace Criteria

/-- All criteria, with the minimum that is configured. -/
def configured (env : Environment) : Criteria := ⟨true, true, some env.minOverallScore⟩

def reading (env : Environment) : Reading Criteria :=
  Criteria.mk <$> .optional ⟨"noMustFailures", "no_must_failures"⟩ Shape.boolean true
    <*> .optional ⟨"noCriticalFlowErrors", "no_critical_flow_errors"⟩ Shape.boolean true
    <*> .optional ⟨"minOverallScore", "min_overall_score"⟩ (Shape.nullable Shape.integer)
      (some env.minOverallScore)

def read (env : Environment) : Shape Criteria := Shape.record "PassCriteria" (reading env)

def toValue (c : Criteria) : Value :=
  .object [("noMustFailures", .bool c.noMustFailures),
    ("noCriticalFlowErrors", .bool c.noCriticalFlowErrors),
    ("minOverallScore", .orNull .int c.minOverallScore)]

/-- The criteria that are violated. -/
def violations (c : Criteria) (overall : Number) (vs : List Verdict) (unreachable : Number) :
    List FailReason :=
  let mustFailures := sumOf (·.mustFailed) vs
  (if c.noMustFailures ∧ 0 < mustFailures then [.mustFailures mustFailures] else []) ++
    (if c.noCriticalFlowErrors && Number.lt .zero unreachable then [.unreachable unreachable] else []) ++
    (match c.minOverallScore with
      | some minimum =>
        if Number.lt overall (.int minimum) then [.belowMinimum overall minimum] else []
      | none => [])

/-- The criteria that are violated, if all of them can be told. -/
def judge (c : Criteria) (overall : Number) (vs : List Verdict) (unreachable : Number) :
    Calculation (List FailReason) :=
  let reasons := c.violations overall vs unreachable
  if reasons.all fun r => r.numbers.all (·.hasText) then .ok reasons else .error .tooManyDigits

end Criteria

/-- The score of a screen, and what it was judged by. -/
structure Score where
  categories : Categories Float
  weights : Categories Float
  overall : Int
  criteria : Criteria
  failReasons : List FailReason

namespace Score

def passed (s : Score) : Bool := s.failReasons.isEmpty

def entry (s : Score) : Entry :=
  Entry.debug "scoring" ("Overall score " ++ toString s.overall ++ ", pass=" ++
    (Value.bool s.passed).shown)

/-- The score of what was found in a screen. -/
def compute (weights : Categories Float) (criteria : Criteria) (vs : List Verdict) (f : Focus)
    (layouts : List Layout) : Trail Entry Failure Score := do
  let categories ← Trail.ofExcept ((Categories.scores vs f layouts).check.mapError .faults)
  let overall ← Trail.ofExcept ((weights.overall categories).mapError .calculation)
  let reasons ← Trail.ofExcept
    ((criteria.judge (.int overall) vs (.int f.unreachable.length)).mapError .calculation)
  let s : Score :=
    { categories := categories, weights := weights, overall := overall, criteria := criteria
      failReasons := reasons }
  Trail.note s.entry
  return s

def toValue (s : Score) : Value :=
  .object [("categories", s.categories.toValue), ("weights", s.weights.toValue),
    ("overall", .int s.overall), ("criteria", s.criteria.toValue), ("pass", .bool s.passed),
    ("failReasons", .texts (s.failReasons.map (·.message)))]

end Score

end Wireframe
