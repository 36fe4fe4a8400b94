import Wireframe.Record.Fault
import Wireframe.Text.Point
import Wireframe.Text.Numeral

/-
  Wireframe.Record.Shape — what a value has to look like.

  A shape reads a value or tells every fault in it. Shapes are generous: numbers and booleans may
  be written as texts, whole numbers as doubles and the other way round. They are strict about
  texts, choices, lists and objects.
-/

namespace Wireframe

abbrev Faults := List Fault

/-- Reads a value as an `α`. -/
abbrev Shape (α : Type) := Value → Except Faults α

/-- Moves faults under a step. -/
def underPlace (p : Place) : Except Faults α → Except Faults α
  | .ok a => .ok a
  | .error faults => .error (faults.map (Fault.under p))

/-- Both results, or the faults of both in order. -/
def together : Except Faults α → Except Faults β → Except Faults (α × β)
  | .ok a, .ok b => .ok (a, b)
  | .ok _, .error f => .error f
  | .error f, .ok _ => .error f
  | .error f, .error g => .error (f ++ g)

namespace Shape

def refuse (cause : Cause) : Except Faults α := .error [Fault.here cause]

/-- Refuses a text that is not what it should be. -/
def refuseText (s : String) (cause : Cause) : Except Faults α :=
  refuse (if Text.hasHalf s then .halfText else cause)

/-- Any value, as it is. -/
def untyped : Shape Value := .ok

def text : Shape String
  | .text s => .ok s
  | _ => refuse .text

/-- Doubles from here on are outside the range of 64-bit words. -/
def wordBound : Int := 9223372036854775808

/-- The words for true and false, in any case. -/
def booleanWord? (s : String) : Option Bool :=
  match String.ofList (s.toList.map Char.toLower) with
  | "0" | "off" | "f" | "false" | "n" | "no" => some false
  | "1" | "on" | "t" | "true" | "y" | "yes" => some true
  | _ => none

/-- Zero and one mean false and true; other numbers of 64-bit words are taken for words that mean
    neither. -/
def booleanOfInt (n : Int) : Except Faults Bool :=
  if n = 0 then .ok false
  else if n = 1 then .ok true
  else if -wordBound ≤ n ∧ n < wordBound then refuse .booleanWord
  else refuse .boolean

/-- A double stands for the whole number it is, inside the range of 64-bit words. -/
def booleanOfFloat (x : Float) : Except Faults Bool :=
  match Number.floor (.float x), Number.ceil (.float x) with
  | .ok low, .ok high =>
    if low = high ∧ -wordBound < low ∧ low < wordBound then booleanOfInt low else refuse .boolean
  | _, _ => refuse .boolean

def boolean : Shape Bool
  | .bool b => .ok b
  | .text s => match booleanWord? s with
    | some b => .ok b
    | none => refuseText s .booleanWord
  | .number (.int n) => booleanOfInt n
  | .number (.float x) => booleanOfFloat x
  | _ => refuse .boolean

/-- A double that is a whole number inside the range of 64-bit words. -/
def integerOfFloat (x : Float) : Except Faults Int :=
  match Number.floor (.float x), Number.ceil (.float x) with
  | .ok low, .ok high =>
    if low ≠ high then refuse .fraction
    else if -wordBound < low ∧ low < wordBound then .ok low else refuse .integerSize
  | _, _ => refuse .notFinite

def integer : Shape Int
  | .number (.int n) => .ok n
  | .number (.float x) => integerOfFloat x
  | .bool b => .ok (if b then 1 else 0)
  | .text s => match Text.wholeNumber s with
    | .ok n => .ok n
    | .error .malformed => refuseText s .integerText
    | .error .tooLarge => refuseText s .integerSize
  | _ => refuse .integer

def real : Shape Float
  | .number n => match n.toDouble with
    | .ok x => .ok x
    | .error _ => refuse .real
  | .bool b => .ok (if b then 1.0 else 0.0)
  | .text s => match Text.realNumber? s with
    | some x => .ok x
    | none => refuseText s .realText
  | _ => refuse .real

/-- A double, as one of the numbers of a document. -/
def number : Shape Number := fun v => (real v).map .float

/-- A whole number from a bound on. -/
def integerFrom (bound : Int) : Shape Int := fun v => do
  let n ← integer v
  if bound ≤ n then .ok n else refuse (.atLeast bound)

/-- A number between two bounds; not-a-number is above every bound. -/
def realIn (low high : Int) : Shape Float := fun v => do
  let x ← real v
  if Number.le (.float x) (.int high) then
    (if Number.le (.int low) (.float x) then .ok x else refuse (.atLeast low))
  else refuse (.atMost high)

def lookUp (table : List (String × α)) (cause : List String → Cause) : Shape α := fun v =>
  match v with
  | .text s => match table.find? (·.1 == s) with
    | some (_, a) => .ok a
    | none => refuseText s (cause (table.map (·.1)))
  | _ => refuse (cause (table.map (·.1)))

/-- One of a list of names. -/
def choice (table : List (String × α)) : Shape α := lookUp table .choice

/-- One of a list of words. -/
def word (table : List (String × α)) : Shape α := lookUp table .word

def nullable (shape : Shape α) : Shape (Option α)
  | .null => .ok none
  | v => (shape v).map some

def listFrom (shape : Shape α) (index : Nat) : List Value → Except Faults (List α)
  | [] => .ok []
  | v :: rest =>
    (together (underPlace (.item index) (shape v)) (listFrom shape (index + 1) rest)).map
      fun (a, as) => a :: as

/-- A list; the faults of every item are told. -/
def list (shape : Shape α) : Shape (List α)
  | .list items => listFrom shape 0 items
  | _ => refuse .list

def membersOf (shape : Shape α) : List (String × Value) → Except Faults (List (String × α))
  | [] => .ok []
  | (k, v) :: rest =>
    (together (underPlace (.key (Text.withoutHalves k)) (shape v)) (membersOf shape rest)).map
      fun (a, as) => (k, a) :: as

/-- An object with any keys; the faults of every member are told. -/
def dictionary (shape : Shape α) : Shape (List (String × α))
  | .object members => membersOf shape members
  | _ => refuse .dictionary

end Shape

end Wireframe
