/-
  Wireframe.Keyed — lists of values under keys, in the order in which the keys came.

  A key stands once. `put` changes a value in its place and adds a new key at the end, so the
  value of a key is the last one that was put.
-/

namespace Wireframe.Keyed

variable {κ α : Type} [BEq κ]

def get? : List (κ × α) → κ → Option α
  | [], _ => none
  | (k, v) :: rest, key => if k == key then some v else get? rest key

def put : List (κ × α) → κ → α → List (κ × α)
  | [], key, value => [(key, value)]
  | (k, v) :: rest, key, value =>
    if k == key then (k, value) :: rest else (k, v) :: put rest key value

def erase (entries : List (κ × α)) (key : κ) : List (κ × α) :=
  entries.filter (·.1 != key)

/-- The entries put one after the other. -/
def ofList (entries : List (κ × α)) : List (κ × α) :=
  entries.foldl (fun all e => put all e.1 e.2) []

/-- Adds a value to the group of a key. -/
def addTo (groups : List (κ × List α)) (key : κ) (value : α) : List (κ × List α) :=
  put groups key ((get? groups key).getD [] ++ [value])

/-- The values in groups, the groups in the order of their first values. -/
def group (entries : List (κ × α)) : List (κ × List α) :=
  entries.foldl (fun groups e => addTo groups e.1 e.2) []

end Wireframe.Keyed
