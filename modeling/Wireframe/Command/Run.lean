import Wireframe.Command.Arguments
import Wireframe.Command.Files
import Wireframe.Report
import Wireframe.Room
import Wireframe.Value.Reader

/-
  Wireframe.Command.Run — what the commands do.

  A run sees the environment, files, and how a child program ends. It tells messages and a text
  for the output, and leaves the files as they are or with one more written.

  - `analyze` reads a scaffold and puts out the report on it; it exits with 2 when the screen does
    not pass, and with 1 when there is no report.
  - `patterns` lists the patterns with their rules, and `env` the variables with their values.
  - `test` runs the tests as a child program.
-/

namespace Wireframe.Command

/-- How a child program ends. -/
inductive ChildEnd where
  | exited (code : Int)
  | interrupted
  deriving DecidableEq

def ChildEnd.code : ChildEnd → Int
  | exited n => n
  | interrupted => 130

structure World where
  env : Environment
  files : Files
  child : List String → ChildEnd
  /-- As many items or characters as there is room for. -/
  room : Int

/-- A message: an entry of the journal, or a plain one that is always told. -/
inductive Notice where
  | entry (e : Entry)
  | plain (text : String)
  deriving DecidableEq

/-- The text of a message, unless it is below the level. -/
def Notice.shown? (threshold : Nat) : Notice → Option String
  | entry e => if threshold ≤ e.level.rank then some e.render else none
  | plain s => some s

structure Outcome where
  exit : Int
  notices : List Notice := []
  output : String := ""
  files : Files
  /-- The arguments of a child program that was run. -/
  spawned : Option (List String) := none

/-- The messages that are told at the level of the environment. -/
def Outcome.messages (o : Outcome) (env : Environment) : List String :=
  o.notices.filterMap (Notice.shown? (thresholdOf (env.logLevel none)))

inductive Result where
  | finished (o : Outcome)
  /-- The command line is not understood. -/
  | refused (r : Refusal)
  /-- The run ends at a failure that it does not report. -/
  | broken (f : Failure)
  /-- The run ends at a file that cannot be read or written. -/
  | stopped (f : FileFault)

def lines (ss : List String) : String := String.join (ss.map (· ++ "\n"))

/-! ## Files -/

/-- A text with every end of line as a line feed. -/
def withLineFeeds : List Char → List Char
  | '\r' :: '\n' :: rest => '\n' :: withLineFeeds rest
  | '\r' :: rest => '\n' :: withLineFeeds rest
  | c :: rest => c :: withLineFeeds rest
  | [] => []

/-! ## The report -/

/-- Where a fault is and what it is, on two lines. -/
def faultText (f : Fault) : String :=
  let steps := f.location.map fun p => match p with
    | .key k => k
    | .item i => toString i
  "\n" ++ ".".intercalate steps ++ "\n  " ++ f.cause.message

/-- How a failure is reported; some are not. -/
def complaint? (f : Failure) : Option String :=
  match f with
  | .faults fs | .overlay fs | .frame fs =>
    some ("Invalid scaffold: " ++ f.message ++ String.join (fs.map faultText))
  | .viewport _ | .digits _ | .calculation .notANumber | .calculation .tooManyDigits => some f.message
  | .unknownPattern .. => some (Text.quoted f.message)
  | _ => none

/-- The criteria, with the minimum that is asked for. -/
def Options.criteria (o : Options) (env : Environment) : Except Failure Criteria :=
  match o.minScore.getD (some env.minOverallScore) with
  | some n => .ok { Criteria.configured env with minOverallScore := some n }
  | none => .error (.faults [⟨[.key "min_overall_score"], .integer⟩])

/-- The values up to the first flag without one. -/
def leading (values : List (Option String)) : List String :=
  (values.takeWhile (·.isSome)).filterMap id

def Options.inquiry (o : Options) (w : World) : Except Failure Inquiry :=
  (o.criteria w.env).map fun criteria =>
    { patterns := leading o.patterns
      viewports := if o.viewports.isEmpty then none else some (leading o.viewports)
      unnamedPattern := o.patterns.contains none
      unsizedViewport := o.viewports.contains none
      weights := Categories.standardWeights, criteria := criteria
      detection := PrimaryDetection.configured w.env, room := w.room }

/-- The report as it is put out, if there is room for the indentation. -/
def reportText (w : World) (o : Options) (r : Report) : Except Failure String :=
  match o.indent with
  | none => .error .noIndentation
  | some step =>
    ((checkRoom w.room step).map fun _ => r.toValue.indented step ++ "\n").mapError .calculation

def exitCode (o : Options) (r : Report) : Int := if r.score.passed || o.noFail then 0 else 2

/-- The run when there is no report. -/
def withoutReport (w : World) (entries : List Entry) (message : String) : Outcome :=
  { exit := 1, files := w.files
    notices := (entries ++ [Entry.error "cli" message]).map .entry }

/-- The run with the text of a report: it goes to a file when one is named, else to the output. -/
def withText (w : World) (o : Options) (entries : List Entry) (exit : Int) (text : String) : Result :=
  match o.output.filter (· != "") with
  | some path => match w.files.write path text with
    | .ok files => .finished
      { exit := exit, files := files
        notices := (entries ++ [Entry.info "cli" ("Report written to " ++ path)]).map .entry }
    | .error f => .stopped f
  | none => .finished
    { exit := exit, files := w.files, output := text, notices := entries.map .entry }

/-- The run with a report. -/
def withReport (w : World) (o : Options) (entries : List Entry) (r : Report) : Result :=
  match reportText w o r with
  | .ok text => withText w o entries (exitCode o r) text
  | .error f => .broken f

/-- The report on the scaffold that a text writes. -/
def analyzeText (w : World) (o : Options) (text : String) : Result :=
  let document := String.ofList (withLineFeeds text.toList)
  match Value.ofText document with
  | .error ⟨.tooManyDigits f, _⟩ => .broken (.digits f)
  | .error ⟨.tooDeep, _⟩ => .broken .tooDeep
  | .error f =>
    .finished (withoutReport w [] ("Scaffold file is not valid JSON: " ++ f.message document))
  | .ok value => match o.inquiry w with
    | .error f => .broken f
    | .ok q =>
      let t := Report.ofValue w.env q value
      match t.result with
      | .ok r => withReport w o t.notes r
      | .error f => match complaint? f with
        | some message => .finished (withoutReport w t.notes message)
        | none => .broken f

def analyze (w : World) (o : Options) : Result :=
  match w.files.read o.scaffold with
  | .ok text => analyzeText w o text
  | .error .missing =>
    .finished (withoutReport w [] ("Scaffold file not found: " ++ plainName o.scaffold))
  | .error f => .stopped f

/-! ## Lists -/

def topicLines (t : Topic) : List String :=
  let p := t.pattern .unknown
  let aliases := if t.aliasesOf.isEmpty then "" else
    " (aliases: " ++ ", ".intercalate t.aliasesOf ++ ")"
  let name := (p.source.name.bind fun n => n.filter (· != "")).getD p.source.pattern
  (p.name ++ aliases) :: ("  source: " ++ name) ::
    p.rules.map fun r => "  [" ++ r.level.name ++ "] " ++ r.id ++ ": " ++ r.description

def patternsText : String := lines (Topic.all.flatMap topicLines)

def variableLine (env : Environment) (v : Variable) : String :=
  v.name ++ "=" ++ (env.get v none).shown ++ "  [" ++ v.category ++ "] " ++ v.description

/-- The variables of a category, or all. -/
def variablesText (env : Environment) (category : Option String) : String :=
  lines ((Variable.ofCategory category).map (variableLine env))

/-! ## Tests -/

/-- The arguments that a tier of tests stands for. -/
def tierArguments? : String → Option (List String)
  | "--unit" => some ["-m", "unit"]
  | "--integration" => some ["-m", "integration"]
  | "--all" => some []
  | _ => none

/-- The arguments of the child program: those of the tiers first, then all others. -/
def testArguments (arguments : List String) : List String :=
  ["-m", "pytest"] ++ arguments.flatMap (fun s => (tierArguments? s).getD []) ++
    arguments.filter fun s => (tierArguments? s).isNone

def test (w : World) (arguments : List String) : Outcome :=
  let child := testArguments arguments
  { exit := (w.child child).code, files := w.files, spawned := some child
    notices := [.entry (Entry.info "cli" ("Running: " ++ " ".intercalate ("python" :: child)))] }

/-! ## Commands -/

def helpText : String :=
  lines ["Usage: python . \x7bcommand\x7d [args]", "", "=== Analysis ===",
    "  analyze    Analyze a scaffold JSON file",
    "  patterns   List registered patterns and their rules",
    "  env        Show configuration variables", "", "=== Development ===",
    "  test       Run the test suite", "", "Examples:", "  python . analyze screen.json",
    "  python . analyze screen.json -p form -v 320x640 -v 1280x800", "  python . env scoring",
    "  python . test --unit"]

def analyzeUsage : String :=
  lines ["usage: python . analyze [-h] [--pattern PATTERN] [--viewport VIEWPORT]",
    "                        [--min-score MIN_SCORE] [--output OUTPUT]",
    "                        [--indent INDENT] [--no-fail]",
    "                        scaffold"]

/-- One run of the program. -/
def run (w : World) : List String → Result
  | [] => .finished { exit := 1, output := helpText, files := w.files }
  | "-h" :: _ | "--help" :: _ => .finished { exit := 0, output := helpText, files := w.files }
  | "analyze" :: rest => match Options.parse rest with
    | .ok o => analyze w o
    | .error .help => .finished { exit := 0, output := analyzeUsage, files := w.files }
    | .error (.refused r) => .refused r
  | "patterns" :: _ => .finished { exit := 0, output := patternsText, files := w.files }
  | "env" :: rest =>
    .finished { exit := 0, output := variablesText w.env rest.head?, files := w.files }
  | "test" :: rest => .finished (test w rest)
  | command :: _ =>
    .finished { exit := 1, output := helpText, files := w.files
                notices := [.plain ("Unknown command: " ++ command)] }

end Wireframe.Command
