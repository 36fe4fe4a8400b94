/-
  Wireframe.Journal — what the checks tell about their work.

  Every entry has a source, a level and a text. Entries below a level can be left out.
-/

namespace Wireframe

/-- The name that all sources stand under. -/
def journalName : String := "scaffold-audit"

/-- The full name of a source; a name that starts like the common one is full already. -/
def sourceName : Option String → String
  | none => journalName
  | some name =>
    if journalName.toList.isPrefixOf name.toList then name else journalName ++ "." ++ name

inductive Level where
  | debug
  | info
  | warning
  | error
  | critical
  deriving DecidableEq

def Level.name : Level → String
  | .debug => "DEBUG"
  | .info => "INFO"
  | .warning => "WARNING"
  | .error => "ERROR"
  | .critical => "CRITICAL"

def Level.rank : Level → Nat
  | .debug => 10
  | .info => 20
  | .warning => 30
  | .error => 40
  | .critical => 50

/-- The least rank that is told under the name of a level; an unknown name counts as `INFO`. -/
def thresholdOf (name : String) : Nat :=
  match name with
  | "NOTSET" => 0
  | "DEBUG" => 10
  | "WARN" | "WARNING" => 30
  | "ERROR" => 40
  | "FATAL" | "CRITICAL" => 50
  | _ => 20

structure Entry where
  source : String
  level : Level
  text : String
  deriving DecidableEq

namespace Entry

def debug (source text : String) : Entry := ⟨source, .debug, text⟩

def info (source text : String) : Entry := ⟨source, .info, text⟩

def error (source text : String) : Entry := ⟨source, .error, text⟩

def render (e : Entry) : String :=
  sourceName (some e.source) ++ " - " ++ e.level.name ++ " - " ++ e.text

/-- The entries from a rank on. -/
def select (threshold : Nat) (entries : List Entry) : List Entry :=
  entries.filter fun e => threshold ≤ e.level.rank

end Entry

end Wireframe
