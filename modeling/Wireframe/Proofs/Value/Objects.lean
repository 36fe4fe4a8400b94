import Wireframe.Cascade.Merge
import Wireframe.Proofs.Keyed
import Mathlib.Algebra.Order.BigOperators.Group.List
import Mathlib.Algebra.Order.Ring.Nat

/-
  Wireframe.Proofs.Value.Objects — how many objects a document holds, when its members change.

  A value that is put takes the place of what stood under its key, so it adds at most its own
  objects. One object laid over another adds at most the objects of its members. Nothing of this
  reaches a key that is erased afterwards.

  Proved:
  - `objectsMembers_put_le` / `objectsMembers_layMember`: what a member adds at most.
  - `objectsMembers_erase_layAll`: what blocks add at most to an object without one of its keys.
-/

namespace Wireframe

namespace Value

theorem objectsMembers_append (a b : Object) :
    objectsMembers (a ++ b) = objectsMembers a + objectsMembers b := by
  induction a with
  | nil => simp [objectsMembers]
  | cons m rest ih => simp only [List.cons_append, objectsMembers, ih]; omega

theorem objectsItems_eq_sum (items : List Value) :
    objectsItems items = (items.map objects).sum := by
  induction items with
  | nil => rfl
  | cons v rest ih => simp only [objectsItems, ih, List.map_cons, List.sum_cons]

theorem objectsMembers_eq_sum (members : Object) :
    objectsMembers members = (members.map (·.2.objects)).sum := by
  induction members with
  | nil => rfl
  | cons m rest ih => simp only [objectsMembers, ih, List.map_cons, List.sum_cons]

end Value

open Value

/-! ## One member -/

namespace Keyed

theorem objectsMembers_put_le (o : Object) (k : String) (v : Value) :
    objectsMembers (put o k v) ≤ objectsMembers o + v.objects := by
  induction o with
  | nil => simp [put, objectsMembers]
  | cons m rest ih =>
    unfold put
    split
    · simp only [objectsMembers]; omega
    · simp only [objectsMembers]; omega

/-- What stood under the key makes room for what is put. -/
theorem objectsMembers_put_of_get? {o : Object} {k : String} {old : Value} (h : get? o k = some old)
    (v : Value) : objectsMembers (put o k v) + old.objects = objectsMembers o + v.objects := by
  induction o with
  | nil => cases h
  | cons m rest ih =>
    unfold get? at h
    unfold put
    split at h
    · rename_i same
      cases h
      simp only [same, if_true, objectsMembers]; omega
    · rename_i other
      simp only [other, Bool.false_eq_true, if_false, objectsMembers]
      have := ih h
      omega

/-- What is erased takes its objects along. -/
theorem objectsMembers_erase (o : Object) (key : String) :
    objectsMembers (erase o key) + ((get? o key).elim 0 objects) ≤ objectsMembers o := by
  induction o with
  | nil => simp [erase, get?, objectsMembers]
  | cons m rest ih =>
    rw [erase_cons, get?]
    split
    · simp only [Option.elim_some, objectsMembers]; omega
    · simp only [objectsMembers]; omega

end Keyed

/-! ## One object over another -/

namespace Object

theorem objectsMembers_cover (lower upper : Object) :
    objectsMembers (cover lower upper) ≤ objectsMembers lower + objectsMembers upper := by
  induction upper generalizing lower with
  | nil => exact Nat.le_refl _
  | cons m rest ih =>
    have first := Keyed.objectsMembers_put_le lower m.1 m.2
    have more := ih (Keyed.put lower m.1 m.2)
    simp only [cover, List.foldl_cons, objectsMembers] at more ⊢
    omega

theorem objectsMembers_layMember (o : Object) (key : String) (v : Value) :
    objectsMembers (layMember o key v) ≤ objectsMembers o + v.objects := by
  unfold layMember
  split
  · omega
  · rename_i upper lower found
    have := Keyed.objectsMembers_put_of_get? found (.object (cover lower upper))
    have := objectsMembers_cover lower upper
    simp only [objects] at *
    omega
  · exact Keyed.objectsMembers_put_le o key _

theorem erase_layMember_self (o : Object) (key : String) (v : Value) :
    Keyed.erase (layMember o key v) key = Keyed.erase o key := by
  unfold layMember
  split
  · rfl
  · exact Keyed.erase_put_self ..
  · exact Keyed.erase_put_self ..

theorem erase_layMember_of_ne (o : Object) {k key : String} (h : k ≠ key) (v : Value) :
    Keyed.erase (layMember o k v) key = layMember (Keyed.erase o key) k v := by
  unfold layMember
  rw [Keyed.get?_erase_of_ne o h]
  split
  · rfl
  · exact Keyed.erase_put_of_ne o h _
  · exact Keyed.erase_put_of_ne o h _

/-- A block adds at most its own objects to an object without a key. -/
theorem objectsMembers_erase_lay (o : Object) (block : Option Object) (key : String) :
    objectsMembers (Keyed.erase (lay o block) key) ≤
      objectsMembers (Keyed.erase o key) + objectsMembers (block.getD []) := by
  unfold lay
  generalize block.getD [] = members
  induction members generalizing o with
  | nil => exact Nat.le_refl _
  | cons m rest ih =>
    have more := ih (layMember o m.1 m.2)
    have first : objectsMembers (Keyed.erase (layMember o m.1 m.2) key) ≤
        objectsMembers (Keyed.erase o key) + m.2.objects := by
      by_cases same : m.1 = key
      · rw [← same, erase_layMember_self]; omega
      · rw [erase_layMember_of_ne o same]; exact objectsMembers_layMember ..
    simp only [List.foldl_cons, objectsMembers] at more ⊢
    omega

/-- So do some blocks, laid one after the other. -/
theorem objectsMembers_erase_layAll (o : Object) (blocks : List (String × Option Object))
    (key : String) :
    objectsMembers (Keyed.erase (blocks.foldl (fun o b => lay o b.2) o) key) ≤
      objectsMembers (Keyed.erase o key) +
        (blocks.map fun b => objectsMembers (b.2.getD [])).sum := by
  induction blocks generalizing o with
  | nil => exact Nat.le_refl _
  | cons b rest ih =>
    have first := objectsMembers_erase_lay o b.2 key
    have more := ih (lay o b.2)
    simp only [List.foldl_cons, List.map_cons, List.sum_cons] at more ⊢
    omega

end Object

end Wireframe
