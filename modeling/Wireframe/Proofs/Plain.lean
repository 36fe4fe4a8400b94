import Wireframe.Scaffold

/-
  Wireframe.Proofs.Plain — headers and scaffolds with no more than they must have.
-/

namespace Wireframe

/-- The header of a node that is written with its id alone. -/
def Header.plain (id : String) : Header :=
  { id := id, visible := true, widthPolicy := .hug, heightPolicy := .hug, minSize := none
    maxSize := none, overrides := none, pattern := none, behaviors := none, affordances := none
    focusable := none, tabIndex := none, given := ["id"] }

/-- The same with override blocks. -/
def Header.cascading (id : String) (blocks : List (String × Option Object)) : Header :=
  { Header.plain id with overrides := some blocks, given := ["id", "at"] }

/-- The same for a node that is hidden. -/
def Header.hidden (id : String) : Header :=
  { Header.plain id with visible := false, given := ["id", "visible"] }

/-- A button of any weight. -/
def Node.plainButton (id text : String) : Node := .button (.plain id) ⟨text, none⟩

/-- A stack from top to bottom, or from side to side. -/
def Node.plainStack (id : String) (direction : Direction) (children : List Node) : Node :=
  .stack (.plain id) ⟨direction, none, none, .start, false⟩ children

/-- A stack that takes part in a guided flow, as the wizard or as a step. -/
def Node.inFlow (id : String) (role : FlowRole) (index total : Option Int)
    (children : List Node) : Node :=
  .stack { Header.plain id with
      behaviors := some ⟨none, some ⟨role, index, total, none, none, none, none, []⟩, []⟩ }
    ⟨.vertical, none, none, .start, false⟩ children

/-- A stack that folds, with the id of its control. -/
def Node.foldable (id : String) (control : Option String) (children : List Node) : Node :=
  .stack { Header.plain id with
      behaviors := some ⟨some ⟨true, none, control, none, []⟩, none, []⟩ }
    ⟨.vertical, none, none, .start, false⟩ children

/-- A scaffold with this root and standard settings. -/
def Scaffold.around (root : Node) : Scaffold :=
  ⟨"1.0.0", ⟨"screen", none, root, ["id", "root"]⟩, Settings.standard, ["screen"]⟩

end Wireframe
