import Wireframe.Value.Basic

/-
  Wireframe.Cascade.Merge — one object laid over another.

  Members of the upper object take the place of those below. Where both are objects, the members
  of the upper one are put into the lower one, one level deep. Null in the upper object leaves
  what is below; inside such a pair of objects it does not.
-/

namespace Wireframe.Object

/-- All members of `upper` put into `lower`. -/
def cover (lower upper : Object) : Object := upper.foldl (fun o m => Keyed.put o m.1 m.2) lower

/-- One member laid over an object. -/
def layMember (o : Object) (key : String) (value : Value) : Object :=
  match value, Keyed.get? o key with
  | .null, _ => o
  | .object upper, some (.object lower) => Keyed.put o key (.object (cover lower upper))
  | _, _ => Keyed.put o key value

/-- A block laid over an object; no block changes nothing. -/
def lay (o : Object) (block : Option Object) : Object :=
  (block.getD []).foldl (fun o m => layMember o m.1 m.2) o

end Wireframe.Object
