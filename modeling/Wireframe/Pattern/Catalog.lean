import Wireframe.Failure
import Wireframe.Pattern.Collapsibles
import Wireframe.Pattern.Forms
import Wireframe.Pattern.Tables
import Wireframe.Pattern.Wizards
import Wireframe.Text.Blank

/-
  Wireframe.Pattern.Catalog — the patterns there are, and their names.

  Every pattern has one name and some aliases. A name is looked up in any case and with blanks
  around it. Some rules look at a layout of the screen, when there is one.
-/

namespace Wireframe

/-- What the rules may know of a layout: the width of the narrowest viewport, and the layout
    there. -/
structure Surroundings where
  width : Option Number
  sight : Option Wizards.Sight

/-- Nothing is known of any layout. -/
def Surroundings.unknown : Surroundings := ⟨none, none⟩

/-- The patterns of the catalog. -/
inductive Topic where
  | forms
  | tables
  | collapsibles
  | wizards
  deriving DecidableEq

namespace Topic

/-- In the order of the catalog. -/
def all : List Topic := [forms, tables, collapsibles, wizards]

def name : Topic → String
  | forms => Forms.patternName
  | tables => Tables.patternName
  | collapsibles => Collapsibles.patternName
  | wizards => Wizards.patternName

def pattern (around : Surroundings) : Topic → Pattern
  | forms => Forms.pattern
  | tables => Tables.pattern around.width
  | collapsibles => Collapsibles.pattern
  | wizards => Wizards.pattern around.sight

/-- Can what the rules find be told, where there is room for so many items? -/
def check (room : Int) (around : Surroundings) (root : Node) : Topic → Calculation Unit
  | tables => Tables.checkWidth around.width root
  | wizards => Wizards.checkNumbering room root
  | _ => .ok ()

/-- The verdicts on a tree by the patterns of some topics. -/
def judge (room : Int) (around : Surroundings) (topics : List Topic) (root : Node) :
    Calculation Verdicts := do
  topics.forM (check room around root)
  return Verdicts.compute (topics.map (pattern around)) root

def aliases : List (String × Topic) :=
  [("form", forms), ("form-basic", forms), ("table", tables), ("table-simple", tables),
    ("pd", collapsibles), ("progressive-disclosure", collapsibles), ("wizard", wizards),
    ("guided-flow", wizards), ("flow-wizard", wizards)]

def aliasesOf (t : Topic) : List String := (aliases.filter (·.2 == t)).map (·.1)

/-- The names, then the aliases. -/
def allNames : List String := all.map name ++ aliases.map (·.1)

/-- How a name is compared. -/
def normal (s : String) : String := Text.lower (Text.strip s)

/-- The topics under their names and aliases in small letters. -/
def index : List (String × Topic) :=
  Keyed.ofList ((all.map fun t => (Text.lower t.name, t)) ++
    aliases.map fun (s, t) => (Text.lower s, t))

/-- The topic of a name or an alias. -/
def find? (s : String) : Option Topic := Keyed.get? index (normal s)

/-- The names that a text is a part of. -/
def near (s : String) : List String :=
  let part := normal s
  if part.isEmpty then [] else allNames.filter fun n => Text.contains part (Text.lower n)

/-- The topic of a name, or what the name may have meant. -/
def get (s : String) : Except Failure Topic :=
  match find? s with
  | some t => .ok t
  | none => .error (.unknownPattern s (near s) allNames)

end Topic

end Wireframe
