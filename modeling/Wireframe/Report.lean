import Wireframe.Pattern.Suggestion
import Wireframe.Score.Gate

/-
  Wireframe.Report — everything that is found in one screen.

  The screen is laid out at every viewport, its focus order is taken, its patterns are checked
  with what is known of the narrowest viewport, and the findings are scored.
-/

namespace Wireframe

/-- What a report is asked for. -/
structure Inquiry where
  /-- Names of patterns; none of them selects by suggestion. -/
  patterns : List String
  /-- The viewports, unless those of the screen are meant. -/
  viewports : Option (List String)
  /-- Is a further pattern asked for without its name? -/
  unnamedPattern : Bool := false
  /-- Is a further viewport asked for without its size? -/
  unsizedViewport : Bool := false
  weights : Categories Float
  criteria : Criteria
  detection : PrimaryDetection
  /-- As many items of a list as there is room for. -/
  room : Int

structure Report where
  layouts : List Layout
  focus : Focus
  verdicts : Verdicts
  score : Score
  suggestions : List Suggestion
  coverage : Coverage

/-- What the layouts tell about the smallest viewport, the first of several. -/
def Surroundings.of (layouts : List (Viewport × Layout)) : Surroundings :=
  match Viewport.smallest? (layouts.map (·.1)) with
  | none => .unknown
  | some v =>
    { width := some (.int v.width)
      sight := (layouts.find? (·.1 == v)).map fun l => ⟨l.2.frames, .int v.height⟩ }

namespace Report

def startEntry (s : Screen) (viewports : List Viewport) : Entry :=
  let labels := if viewports.isEmpty then "no viewports"
    else ", ".intercalate (viewports.map (·.label))
  Entry.info "analysis" ("Analyzing screen '" ++ s.id ++ "' at " ++ labels)

def endEntry (s : Screen) (r : Report) : Entry :=
  Entry.info "analysis" ("Screen '" ++ s.id ++ "': score " ++ toString r.score.overall ++ ", " ++
    (if r.score.passed then "pass" else "fail") ++ ", " ++ toString r.verdicts.totalIssues ++
    " pattern issue(s), " ++ toString r.focus.unreachable.length ++ " unreachable")

def parseViewports (texts : List String) : Except Failure (List Viewport) :=
  texts.mapM fun t => (Viewport.parse t).mapError .viewport

/-- The report on a screen. -/
def compute (env : Environment) (q : Inquiry) (s : Scaffold) : Trail Entry Failure Report := do
  let root := s.screen.root
  let viewports ← Trail.ofExcept (parseViewports (Layout.viewportTexts env s q.viewports))
  if q.unsizedViewport then Trail.fail .unsizedViewport
  Trail.note (startEntry s.screen viewports)
  let layouts ← Trail.each (Layout.compute s q.detection) viewports
  let focus ← Focus.compute s none
  let topics ← Suggestion.select root q.patterns true
  if q.unnamedPattern then Trail.fail .unnamedPattern
  let around := Surroundings.of (viewports.zip layouts)
  let patterns := topics.map (Topic.pattern around)
  let verdicts ← Trail.ofExcept ((Topic.judge q.room around topics root).mapError .calculation)
  Trail.leave (verdicts.entries patterns)
  let suggestions := Suggestion.compute root
  Trail.note (Suggestion.entry suggestions)
  let score ← Score.compute q.weights q.criteria verdicts.patterns focus layouts
  let report : Report :=
    { layouts := layouts, focus := focus, verdicts := verdicts, score := score
      suggestions := suggestions
      coverage := Coverage.compute suggestions (patterns.map (·.name)) }
  Trail.note (report.endEntry s.screen)
  return report

/-- The report on a screen that is read from a document. -/
def ofValue (env : Environment) (q : Inquiry) (document : Value) : Trail Entry Failure Report := do
  let s ← Trail.ofExcept ((Scaffold.read document).mapError .faults)
  compute env q s

def toValue (r : Report) : Value :=
  .object [("layouts", .list (r.layouts.map Layout.toValue)), ("keyboard", r.focus.toValue),
    ("flow", r.verdicts.toValue), ("score", r.score.toValue),
    ("suggestions", .list (r.suggestions.map Suggestion.toValue)),
    ("coverage", r.coverage.toValue)]

end Report

end Wireframe
