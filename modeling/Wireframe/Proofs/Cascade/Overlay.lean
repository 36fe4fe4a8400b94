import Mathlib.Data.List.Basic
import Wireframe.Cascade.Resolve
import Wireframe.Proofs.Keyed

/-
  Wireframe.Proofs.Cascade.Overlay — what stands under a key after blocks were laid over an object.

  Whatever the blocks hold besides, one key is decided by the values under this key alone, one after
  the other. A null leaves what is there, an object goes into an object that is there, everything
  else takes its place. So the outcome depends on what was there when a value came, and this may
  itself be from a block before: an object that found null starts a new one, into which later
  objects go.

  Proved:
  - `get?_layAll`: the values under a key decide what stands there, in the order of the blocks.
  - `values_getLast?`: the last of these values is from a block after which none has one.
  - `foldl_laid_of_plain`: of values that are no objects the last one counts.
  - `foldl_laid_of_objects`: of objects that go into each other the last one that has a key counts.
  - `overlaid_get?`: what stands under a key once blocks were laid over a node.
-/

namespace Wireframe

def Value.isNull : Value → Bool
  | .null => true
  | _ => false

theorem Value.isNull_iff {v : Value} : v.isNull = true ↔ v = .null := by
  cases v <;> simp [Value.isNull]

namespace Object

/-! ## One key -/

/-- The values other than null that stand under a key. -/
def values (key : String) (o : Object) : List Value :=
  (o.filter fun m => m.1 == key && !m.2.isNull).map (·.2)

/-- What one more value makes of what is there. -/
def laid (below : Option Value) (v : Value) : Option Value :=
  match v, below with
  | .null, _ => below
  | .object upper, some (.object lower) => some (.object (cover lower upper))
  | v, _ => some v

theorem layMember_cases (o : Object) (k : String) (v : Value) :
    (v = .null ∧ layMember o k v = o) ∨
      ∃ w, laid (Keyed.get? o k) v = some w ∧ layMember o k v = Keyed.put o k w := by
  unfold layMember laid
  cases v with
  | null => exact .inl ⟨rfl, rfl⟩
  | object upper =>
    refine .inr ?_
    cases Keyed.get? o k with
    | none => exact ⟨_, rfl, rfl⟩
    | some w => cases w <;> exact ⟨_, rfl, rfl⟩
  | bool | number | text | list => exact .inr ⟨_, rfl, rfl⟩

/-- A member that is laid over an object decides under its own key and under no other. -/
theorem get?_layMember (o : Object) (k : String) (v : Value) (key : String) :
    Keyed.get? (layMember o k v) key =
      if k == key then laid (Keyed.get? o key) v else Keyed.get? o key := by
  rcases layMember_cases o k v with ⟨rfl, same⟩ | ⟨w, hw, put⟩
  · rw [same]
    exact (ite_self _).symm
  · rw [put, Keyed.get?_put]
    split
    · rename_i here
      rw [← eq_of_beq here, hw]
    · rfl

theorem get?_lay (o : Object) (block : Option Object) (key : String) :
    Keyed.get? (lay o block) key =
      (values key (block.getD [])).foldl laid (Keyed.get? o key) := by
  unfold lay
  generalize block.getD [] = upper
  induction upper generalizing o with
  | nil => rfl
  | cons m rest ih =>
    rw [List.foldl_cons, ih, get?_layMember, values, values, List.filter_cons]
    by_cases same : m.1 = key
    · cases null : m.2.isNull with
      | true => simp [same, Value.isNull_iff.mp null, laid, Value.isNull]
      | false => simp [same]
    · simp [same]

end Object

/-- The values other than null that blocks have under a key, in the order of the blocks. -/
def Blocks.values (key : String) (blocks : Blocks) : List Value :=
  blocks.flatMap fun b => Object.values key (b.2.getD [])

theorem Blocks.values_eq_nil {key : String} {blocks : Blocks}
    (other : ∀ b ∈ blocks, ∀ m ∈ b.2.getD [], m.1 ≠ key) : blocks.values key = [] := by
  refine List.flatMap_eq_nil_iff.mpr fun b hb => ?_
  rw [Object.values, List.map_eq_nil_iff, List.filter_eq_nil_iff]
  intro m hm
  simp [other b hb m hm]

theorem Blocks.ne_null_of_mem_values {key : String} {blocks : Blocks} {v : Value}
    (h : v ∈ blocks.values key) : v ≠ .null := by
  obtain ⟨b, -, hv⟩ := List.mem_flatMap.mp h
  obtain ⟨m, hm, rfl⟩ := List.mem_map.mp hv
  rintro null
  simp [null, Value.isNull] at hm

/-- The last value is from a block after which none has a value. -/
theorem Blocks.values_getLast? {key : String} {blocks : Blocks} {v : Value}
    (h : (blocks.values key).getLast? = some v) : ∃ before b after, blocks = before ++ b :: after ∧
      v ∈ Object.values key (b.2.getD []) ∧ ∀ a ∈ after, Object.values key (a.2.getD []) = [] := by
  induction blocks with
  | nil => cases h
  | cons b rest ih =>
    by_cases last : values key rest = []
    · rw [values, List.flatMap_cons, ← values, last, List.append_nil] at h
      exact ⟨[], b, rest, rfl, List.mem_of_getLast? h, List.flatMap_eq_nil_iff.mp last⟩
    · rw [values, List.flatMap_cons, ← values, List.getLast?_append_of_ne_nil _ last] at h
      obtain ⟨before, c, after, rfl, hv, none⟩ := ih h
      exact ⟨b :: before, c, after, rfl, hv, none⟩

namespace Object

theorem get?_layAll (o : Object) (blocks : Blocks) (key : String) :
    Keyed.get? (blocks.foldl (fun o b => lay o b.2) o) key =
      (blocks.values key).foldl laid (Keyed.get? o key) := by
  induction blocks generalizing o with
  | nil => rfl
  | cons b rest ih =>
    rw [List.foldl_cons, ih, get?_lay, Blocks.values, Blocks.values, List.flatMap_cons,
      List.foldl_append]

/-! ## Many values under one key -/

/-- Of values that are no objects the last one counts. -/
theorem foldl_laid_of_plain {vs : List Value} (plain : ∀ v ∈ vs, v ≠ .null ∧ ∀ o, v ≠ .object o)
    (below : Option Value) : vs.foldl laid below = vs.getLast?.or below := by
  induction vs generalizing below with
  | nil => rfl
  | cons v rest ih =>
    obtain ⟨notNull, notObject⟩ := plain v List.mem_cons_self
    have replaced : laid below v = some v := by
      cases v with
      | null => exact absurd rfl notNull
      | object o => exact absurd rfl (notObject o)
      | bool | number | text | list => rfl
    rw [List.foldl_cons, replaced, ih fun w hw => plain w (List.mem_cons_of_mem _ hw),
      List.getLast?_cons]
    cases rest.getLast? <;> rfl

theorem get?_cover (lower : Object) {upper : Object} (distinct : (upper.map (·.1)).Nodup)
    (key : String) : Keyed.get? (cover lower upper) key =
      (Keyed.get? upper key).or (Keyed.get? lower key) := by
  unfold cover
  induction upper generalizing lower with
  | nil => rfl
  | cons m rest ih =>
    obtain ⟨fresh, distinct⟩ := List.nodup_cons.mp distinct
    rw [List.foldl_cons, ih _ distinct, Keyed.get?_put, Keyed.get?]
    by_cases same : m.1 = key
    · subst same
      have none : Keyed.get? rest m.1 = none := Keyed.get?_eq_none fun e he here =>
        fresh (List.mem_map.mpr ⟨e, he, here⟩)
      simp [none]
    · simp [same]

/-- The last of some objects that has a key decides what it stands for. -/
def lastUnder (key : String) (vs : List Value) : Option Value :=
  (vs.filterMap fun v => Keyed.get? v.members key).getLast?

theorem lastUnder_cons (key : String) (v : Value) (rest : List Value) :
    lastUnder key (v :: rest) = (lastUnder key rest).or (Keyed.get? v.members key) := by
  unfold lastUnder
  rw [List.filterMap_cons]
  cases Keyed.get? v.members key with
  | none => rw [Option.or_none]
  | some w =>
    rw [List.getLast?_cons]
    cases (rest.filterMap fun v => Keyed.get? v.members key).getLast? <;> rfl

theorem lastUnder_eq_none {key : String} {vs : List Value}
    (none : ∀ v ∈ vs, Keyed.get? v.members key = none) : lastUnder key vs = .none := by
  rw [lastUnder, List.filterMap_eq_nil_iff.mpr none]
  rfl

/-- Objects that are laid over an object become one with it. -/
theorem foldl_laid_object {vs : List Value} (lower : Object)
    (objects : ∀ v ∈ vs, ∃ o, v = .object o ∧ (o.map (·.1)).Nodup) :
    ∃ merged, vs.foldl laid (some (.object lower)) = some (.object merged) ∧
      ∀ key, Keyed.get? merged key = (lastUnder key vs).or (Keyed.get? lower key) := by
  induction vs generalizing lower with
  | nil => exact ⟨lower, rfl, fun _ => rfl⟩
  | cons v rest ih =>
    obtain ⟨upper, rfl, distinct⟩ := objects v List.mem_cons_self
    obtain ⟨merged, folded, under⟩ := ih (cover lower upper)
      fun w hw => objects w (List.mem_cons_of_mem _ hw)
    refine ⟨merged, folded, fun key => ?_⟩
    rw [under, get?_cover lower distinct, lastUnder_cons, Option.or_assoc]
    rfl

/-- Objects that are laid over an object or over null become one object, unless there are none and
    there was null. -/
theorem foldl_laid_of_objects {vs : List Value} {own : Value}
    (objects : ∀ v ∈ vs, ∃ o, v = .object o ∧ (o.map (·.1)).Nodup)
    (below : (own = .null ∧ vs ≠ []) ∨ ∃ o, own = .object o) :
    ∃ merged, vs.foldl laid (some own) = some (.object merged) ∧
      ∀ key, Keyed.get? merged key = (lastUnder key vs).or (Keyed.get? own.members key) := by
  rcases below with ⟨rfl, some_value⟩ | ⟨lower, rfl⟩
  · cases vs with
    | nil => exact absurd rfl some_value
    | cons v rest =>
      obtain ⟨upper, rfl, -⟩ := objects v List.mem_cons_self
      obtain ⟨merged, folded, under⟩ := foldl_laid_object upper
        fun w hw => objects w (List.mem_cons_of_mem _ hw)
      refine ⟨merged, folded, fun key => ?_⟩
      rw [under, lastUnder_cons]
      exact Option.or_none.symm
  · exact foldl_laid_object lower objects

end Object

/-! ## Nodes -/

namespace Node

/-- What stands under a key when a node is written with all its fields. -/
def dumped (n : Node) (key : String) : Option Value := Keyed.get? (n.write .exact).members key

theorem overlaid_get? (n : Node) (applied : Blocks) {key : String} (other : key ≠ "at") :
    Keyed.get? (n.overlaid applied) key =
      (applied.values key).foldl Object.laid (n.dumped key) := by
  rw [overlaid, Keyed.get?_erase_of_ne _ other, Object.get?_layAll]
  rfl

end Node

end Wireframe
