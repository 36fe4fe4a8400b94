import Wireframe.Value.Number
import Wireframe.Keyed
import Wireframe.Text.Point

/-
  Wireframe.Value.Basic — documents: null, booleans, numbers, texts, lists and objects.

  The members of an object are kept in order, and each key stands once.
-/

namespace Wireframe

inductive Value where
  | null
  | bool (b : Bool)
  | number (n : Number)
  | text (s : String)
  | list (items : List Value)
  | object (members : List (String × Value))

instance : Inhabited Value := ⟨.null⟩

/-- The members of an object, in order. -/
abbrev Object := List (String × Value)

namespace Value

def int (n : Int) : Value := .number (.int n)

def nat (n : Nat) : Value := .number (.int n)

def real (x : Float) : Value := .number (.float x)

def texts (ss : List String) : Value := .list (ss.map .text)

/-- A value that may be missing, as null. -/
def orNull (f : α → Value) : Option α → Value
  | some a => f a
  | none => .null

mutual

/-- How deep objects nest in a value. -/
def depth : Value → Nat
  | .list items => depthItems items
  | .object members => depthMembers members + 1
  | _ => 0

def depthItems : List Value → Nat
  | [] => 0
  | v :: rest => max v.depth (depthItems rest)

def depthMembers : List (String × Value) → Nat
  | [] => 0
  | (_, v) :: rest => max v.depth (depthMembers rest)

end

mutual

/-- How many objects a value holds, itself included. -/
def objects : Value → Nat
  | .list items => objectsItems items
  | .object members => objectsMembers members + 1
  | _ => 0

def objectsItems : List Value → Nat
  | [] => 0
  | v :: rest => v.objects + objectsItems rest

def objectsMembers : List (String × Value) → Nat
  | [] => 0
  | (_, v) :: rest => v.objects + objectsMembers rest

end

mutual

/-- The value with null in place of every infinity and not-a-number. -/
def finite : Value → Value
  | .number n => if n.isFinite then .number n else .null
  | .list items => .list (finiteItems items)
  | .object members => .object (finiteMembers members)
  | v => v

def finiteItems : List Value → List Value
  | [] => []
  | v :: rest => v.finite :: finiteItems rest

def finiteMembers : List (String × Value) → List (String × Value)
  | [] => []
  | (k, v) :: rest => (k, v.finite) :: finiteMembers rest

end

mutual

/-- Is there a half without the other one in a key of an object? Such a value is not written. -/
def hasHalfKey : Value → Bool
  | .list items => anyHalfKey items
  | .object members => membersHaveHalfKey members
  | _ => false

def anyHalfKey : List Value → Bool
  | [] => false
  | v :: rest => v.hasHalfKey || anyHalfKey rest

def membersHaveHalfKey : List (String × Value) → Bool
  | [] => false
  | (k, v) :: rest => Text.hasHalf k || v.hasHalfKey || membersHaveHalfKey rest

end

end Value

end Wireframe
