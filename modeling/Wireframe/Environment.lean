import Wireframe.Failure
import Wireframe.Scaffold
import Wireframe.Text.Case
import Wireframe.Value.Writer

/-
  Wireframe.Environment — configuration from environment variables.

  Every variable has a default, which counts when the variable is not set or its text is not of
  the right type. A value given outright takes the place of either.
-/

namespace Wireframe

/-- The variables that are set. -/
abbrev Environment := List (String × String)

inductive Variable where
  | logLevel
  | minOverallScore
  | primaryDetection
  | defaultBreakpoints
  deriving DecidableEq

/-- What the text of a variable is read as. -/
inductive VariableType where
  | text
  | integer
  | list
  deriving DecidableEq

def VariableType.name : VariableType → String
  | .text => "str"
  | .integer => "int"
  | .list => "list"

namespace Variable

def all : List Variable := [logLevel, minOverallScore, primaryDetection, defaultBreakpoints]

def name : Variable → String
  | logLevel => "SCAFFOLD_LOG_LEVEL"
  | minOverallScore => "SCAFFOLD_MIN_OVERALL_SCORE"
  | primaryDetection => "SCAFFOLD_PRIMARY_DETECTION"
  | defaultBreakpoints => "SCAFFOLD_DEFAULT_BREAKPOINTS"

def type : Variable → VariableType
  | logLevel => .text
  | minOverallScore => .integer
  | primaryDetection => .text
  | defaultBreakpoints => .list

def default : Variable → Value
  | logLevel => .text "INFO"
  | minOverallScore => .int 85
  | primaryDetection => .text "role"
  | defaultBreakpoints => .texts standardBreakpoints

def description : Variable → String
  | logLevel => "Log level for the command-line entry point"
  | minOverallScore => "Minimum overall score required to pass"
  | primaryDetection => "How the primary action is found for the fold check (role, id)"
  | defaultBreakpoints => "Comma-separated viewports used when a scaffold declares none"

def category : Variable → String
  | logLevel => "logging"
  | minOverallScore => "scoring"
  | primaryDetection => "layout"
  | defaultBreakpoints => "layout"

def named (name : String) : Except Failure Variable :=
  match all.find? (·.name == name) with
  | some v => .ok v
  | none => .error (.unknownVariable name)

/-- The variables of a category, or all. -/
def ofCategory : Option String → List Variable
  | none => all
  | some c => all.filter (·.category == c)

end Variable

/-- The parts between commas that are not blank, without blanks around them. -/
def splitList (s : String) : List String :=
  (((s.splitOn ",").map Text.strip).filter (· != ""))

namespace Environment

/-- The text of a variable, as a value of its type. -/
def convert (v : Variable) (s : String) : Value :=
  match v.type with
  | .text => .text s
  | .integer => match Text.integer? s with
    | some n => .int n
    | none => v.default
  | .list => match splitList s with
    | [] => v.default
    | parts => .texts parts

/-- The value of a variable, unless one is given outright. -/
def get (env : Environment) (v : Variable) (override : Option Value) : Value :=
  match override, Keyed.get? env v.name with
  | some given, _ => given
  | none, some s => convert v s
  | none, none => v.default

/-- The name of the log level, in capitals. -/
def logLevel (env : Environment) (override : Option Value) : String :=
  Text.upper (env.get .logLevel override).shown

/-- `role` or `id`; other words count as `role`. -/
def primaryDetection (env : Environment) (override : Option Value) : String :=
  let word := Text.lower (Text.strip (env.get .primaryDetection override).shown)
  if word == "id" then word else "role"

/-- The least overall score with which a screen passes. -/
def minOverallScore (env : Environment) : Int :=
  match env.get .minOverallScore none with
  | .number (.int n) => n
  | _ => 85

/-- The viewports to check when a screen names none. A text given outright is split at commas, and
    of an object the keys count. -/
def defaultBreakpointsValue (env : Environment) : Option Value → Except Failure Value
  | some (.text s) => .ok (.texts (splitList s))
  | some (.object members) => .ok (.texts (members.map (·.1)))
  | some (.bool _) => .error (.noItems "bool")
  | some (.number (.int _)) => .error (.noItems "int")
  | some (.number (.float _)) => .error (.noItems "float")
  | other => .ok (env.get .defaultBreakpoints other)

def defaultBreakpoints (env : Environment) : List String :=
  match Keyed.get? env Variable.defaultBreakpoints.name with
  | none => standardBreakpoints
  | some s => match splitList s with
    | [] => standardBreakpoints
    | parts => parts

end Environment

end Wireframe
