import Wireframe.Value.Basic
import Wireframe.Text.Digit

/-
  Wireframe.Cascade.Condition — conditions on the width of the viewport, and the order in which
  the blocks under them apply.

  A block under `>=N` applies from width `N` on, and one under `<=N` up to width `N`. The first
  kind comes first, the wider the later; then the second kind, the narrower the later. So the
  tightest condition has the last word. Blocks of equal conditions keep their order. Keys of any
  other form are no conditions. A threshold of too many digits cannot be read, and then no block
  of the node applies.
-/

namespace Wireframe

inductive Condition where
  | atLeast (threshold : Nat)
  | atMost (threshold : Nat)
  deriving DecidableEq

namespace Condition

/-- The digits up to the end, or up to a line break at the end. -/
def thresholdDigits? (cs : List Char) : Option (List Char) :=
  let digits := cs.takeWhile Text.isDigit
  let rest := cs.dropWhile Text.isDigit
  if !digits.isEmpty && (rest == [] || rest == ['\n']) then some digits else none

/-- The condition with the threshold that digits write, none without digits. -/
def ofDigits (make : Nat → Condition) (cs : List Char) : Except Text.TooManyDigits (Option Condition) :=
  match thresholdDigits? cs with
  | none => .ok none
  | some digits => (Text.readDigits digits).map fun n => some (make n)

/-- The condition that a key writes, none when it has another form. -/
def parse (key : String) : Except Text.TooManyDigits (Option Condition) :=
  match key.toList with
  | '>' :: '=' :: rest => ofDigits atLeast rest
  | '<' :: '=' :: rest => ofDigits atMost rest
  | _ => .ok none

def operator : Condition → String
  | atLeast _ => ">="
  | atMost _ => "<="

def threshold : Condition → Nat
  | atLeast t | atMost t => t

def holds (width : Number) : Condition → Bool
  | atLeast t => Number.le (.int t) width
  | atMost t => Number.le width (.int t)

/-- Does a block under the first condition apply before one under the second, or with it? -/
def precedes : Condition → Condition → Bool
  | atLeast t, atLeast u => t ≤ u
  | atLeast _, atMost _ => true
  | atMost _, atLeast _ => false
  | atMost t, atMost u => u ≤ t

end Condition

/-- Override blocks under their keys; a block may be null. -/
abbrev Blocks := List (String × Option Object)

namespace Blocks

/-- The blocks under a condition, with the condition. -/
def conditional (blocks : Blocks) : Except Text.TooManyDigits (List (Condition × String × Option Object)) := do
  let parsed ← blocks.mapM fun b => return (← Condition.parse b.1).map fun c => (c, b)
  return parsed.filterMap id

/-- The blocks that apply at a width, in the order in which they apply. -/
def ordered (blocks : Blocks) (width : Number) : Except Text.TooManyDigits Blocks := do
  let applicable := (← blocks.conditional).filter fun b => b.1.holds width
  return (applicable.mergeSort fun a b => a.1.precedes b.1).map (·.2)

end Blocks

end Wireframe
