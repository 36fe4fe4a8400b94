import Mathlib.Data.Option.Basic
import Wireframe.Proofs.Record.Reading

/-
  Wireframe.Proofs.Record.Spelling — readings of two objects that say the same.

  A reading looks at an object only through the values of its keys, and a fault names the spelling
  that it met. So two readings of two objects come to the same, up to the spelling of the keys in
  their faults, as soon as the values that decide come to the same key by key. The values themselves
  need not be equal: they may be read by shapes that see no difference between them.

  Proved:
  - `Shape.Alike`: for values without keys, nullable ones and lists.
  - `Reading.Alike`: for every way to make a reading from its fields.
-/

namespace Wireframe

variable {α β : Type}

/-! ## Values that may be missing -/

theorem rel_iff {R : α → β → Prop} {a : Option α} {b : Option β} : Option.Rel R a b ↔
    (a = none ∧ b = none) ∨ ∃ v w, a = some v ∧ b = some w ∧ R v w := by
  constructor
  · intro h
    cases h with
    | none => exact .inl ⟨rfl, rfl⟩
    | some h => exact .inr ⟨_, _, rfl, rfl, h⟩
  · rintro (⟨rfl, rfl⟩ | ⟨v, w, rfl, rfl, h⟩)
    · exact .none
    · exact .some h

theorem rel_self {R : α → α → Prop} (refl : ∀ v, R v v) (a : Option α) : Option.Rel R a a := by
  cases a with
  | none => exact .none
  | some v => exact .some (refl v)

/-- The value of a field, in whichever spelling it is used. -/
def Key.value? (key : Key) (o : Object) : Option Value := (key.find? o).map (·.2)

section

variable (spell : String → String)

/-! ## Outcomes -/

/-- The place with its key as `spell` writes it. -/
def Place.spelled : Place → Place
  | .key name => .key (spell name)
  | .item i => .item i

def Fault.spelled (f : Fault) : Fault := { f with location := f.location.map (Place.spelled spell) }

/-- What was read, or the faults with all keys as `spell` writes them. -/
def upTo (r : Except Faults α) : Except Faults α := r.mapError (List.map (Fault.spelled spell))

theorem upTo_map (f : α → β) (r : Except Faults α) : upTo spell (r.map f) = (upTo spell r).map f := by
  cases r <;> rfl

theorem upTo_underPlace (p : Place) (r : Except Faults α) :
    upTo spell (underPlace p r) = underPlace (p.spelled spell) (upTo spell r) := by
  cases r with
  | ok a => rfl
  | error faults =>
    show Except.error ((faults.map (Fault.under p)).map (Fault.spelled spell)) =
      Except.error ((faults.map (Fault.spelled spell)).map (Fault.under (p.spelled spell)))
    rw [List.map_map, List.map_map]
    rfl

theorem upTo_together (r : Except Faults α) (s : Except Faults β) :
    upTo spell (together r s) = together (upTo spell r) (upTo spell s) := by
  cases r with
  | ok a => cases s <;> rfl
  | error f =>
    cases s with
    | ok b => rfl
    | error g => exact congrArg Except.error List.map_append

/-! ## Shapes -/

/-- Two shapes come to the same for related values. -/
def Shape.Alike (R : Value → Value → Prop) (s s' : Shape α) : Prop :=
  ∀ v v', R v v' → upTo spell (s v) = upTo spell (s' v')

namespace Shape.Alike

variable {spell} {R : Value → Value → Prop} {s s' : Shape α}

theorem of_eq (equal : ∀ v v', R v v' → v = v') (s : Shape α) : Alike spell R s s := by
  intro v v' h
  rw [equal v v' h]

theorem imp {R' : Value → Value → Prop} (h : Alike spell R s s') (weaker : ∀ v v', R' v v' → R v v') :
    Alike spell R' s s' := fun v v' hr => h v v' (weaker v v' hr)

theorem nullable (h : Alike spell R s s') (nulls : ∀ v v', R v v' → (v = .null ↔ v' = .null)) :
    Alike spell R (Shape.nullable s) (Shape.nullable s') := by
  intro v v' hr
  by_cases none : v = .null
  · rw [none, (nulls v v' hr).mp none]
    rfl
  · have none' : v' ≠ .null := fun h => none ((nulls v v' hr).mpr h)
    have left : Shape.nullable s v = (s v).map some := by
      cases v with
      | null => exact absurd rfl none
      | bool | number | text | list | object => rfl
    have right : Shape.nullable s' v' = (s' v').map some := by
      cases v' with
      | null => exact absurd rfl none'
      | bool | number | text | list | object => rfl
    rw [left, right, upTo_map, upTo_map, h v v' hr]

theorem listFrom (h : Alike spell R s s') {vs vs' : List Value} (related : List.Forall₂ R vs vs')
    (i : Nat) : upTo spell (Shape.listFrom s i vs) = upTo spell (Shape.listFrom s' i vs') := by
  induction related generalizing i with
  | nil => rfl
  | cons hr _ ih =>
    rw [Shape.listFrom, Shape.listFrom, upTo_map, upTo_map, upTo_together, upTo_together,
      upTo_underPlace, upTo_underPlace, h _ _ hr, ih]

/-- Lists of related items are read alike. -/
theorem list (h : Alike spell R s s') {R' : Value → Value → Prop}
    (items : ∀ v v', R' v v' → v = v' ∧ (∀ vs, v ≠ .list vs) ∨
      ∃ vs vs', v = .list vs ∧ v' = .list vs' ∧ List.Forall₂ R vs vs') :
    Alike spell R' (Shape.list s) (Shape.list s') := by
  intro v v' hr
  rcases items v v' hr with ⟨rfl, other⟩ | ⟨vs, vs', rfl, rfl, related⟩
  · cases v with
    | list vs => exact absurd rfl (other vs)
    | null | bool | number | text | object => rfl
  · exact h.listFrom related 0

end Shape.Alike

/-! ## Readings -/

/-- Two objects have related values under each of some keys. -/
def Matches (keys : List Key) (R : Key → Value → Value → Prop) (o o' : Object) : Prop :=
  ∀ key ∈ keys, Option.Rel (R key) (key.value? o) (key.value? o')

/-- Two readings come to the same, keys that were written included, for objects with related
    values. -/
def Reading.Alike (keys : List Key) (R : Key → Value → Value → Prop) (r r' : Reading α) : Prop :=
  ∀ o o', Matches keys R o o' → upTo spell (r.run o) = upTo spell (r'.run o')

end

namespace Reading.Alike

variable {spell : String → String} {keys : List Key} {R : Key → Value → Value → Prop}

theorem map {r r' : Reading α} (h : Alike spell keys R r r') (f : α → β) :
    Alike spell keys R (f <$> r) (f <$> r') := by
  intro o o' related
  show upTo spell ((r.run o).map _) = upTo spell ((r'.run o').map _)
  rw [upTo_map, upTo_map, h o o' related]

theorem seq {f f' : Reading (α → β)} {r r' : Reading α} (hf : Alike spell keys R f f')
    (hr : Alike spell keys R r r') : Alike spell keys R (f <*> r) (f' <*> r') := by
  intro o o' related
  show upTo spell (((together (f.run o) (r.run o)).map _).map _) =
    upTo spell (((together (f'.run o') (r'.run o')).map _).map _)
  rw [upTo_map, upTo_map, upTo_map, upTo_map, upTo_together, upTo_together, hf o o' related,
    hr o o' related]

theorem noted {r r' : Reading (List String → α)} (h : Alike spell keys R r r') :
    Alike spell keys R (Reading.noted r) (Reading.noted r') := by
  intro o o' related
  show upTo spell ((r.run o).map _) = upTo spell ((r'.run o').map _)
  rw [upTo_map, upTo_map, h o o' related]

section

variable {key : Key} (hk : key ∈ keys) (same : spell key.snake = spell key.camel)
include hk same

omit hk in
theorem spell_used {o : Object} {used : String} {v : Value} (h : key.find? o = some (used, v)) :
    spell used = spell key.camel := by
  unfold Key.find? at h
  split at h
  · cases h
    rfl
  · obtain ⟨w, -, e⟩ := Option.map_eq_some_iff.mp h
    cases e
    exact same

/-- The two objects write the key with related values, or neither writes it. -/
theorem find?_cases {o o' : Object} (related : Matches keys R o o') :
    (key.find? o = none ∧ key.find? o' = none) ∨
      ∃ used used' v v', key.find? o = some (used, v) ∧ key.find? o' = some (used', v') ∧
        spell used = spell used' ∧ R key v v' := by
  rcases rel_iff.mp (related key hk) with ⟨left, right⟩ | ⟨v, v', left, right, hr⟩
  · exact .inl ⟨Option.map_eq_none_iff.mp left, Option.map_eq_none_iff.mp right⟩
  · obtain ⟨⟨used, w⟩, found, rfl⟩ := Option.map_eq_some_iff.mp left
    obtain ⟨⟨used', w'⟩, found', rfl⟩ := Option.map_eq_some_iff.mp right
    refine .inr ⟨used, used', w, w', found, found', ?_, hr⟩
    rw [spell_used same found, spell_used same found']

theorem optional {s s' : Shape α} (h : Shape.Alike spell (R key) s s') (default : α) :
    Alike spell keys R (Reading.optional key s default) (Reading.optional key s' default) := by
  intro o o' related
  rcases find?_cases hk same related with ⟨left, right⟩ | ⟨used, used', v, v', left, right, hu, hr⟩
  · simp only [Reading.optional, left, right]
  · simp only [Reading.optional, left, right, upTo_map, upTo_underPlace, Place.spelled, hu,
      h v v' hr]

theorem required {s s' : Shape α} (h : Shape.Alike spell (R key) s s') :
    Alike spell keys R (Reading.required key s) (Reading.required key s') := by
  intro o o' related
  rcases find?_cases hk same related with ⟨left, right⟩ | ⟨used, used', v, v', left, right, hu, hr⟩
  · simp only [Reading.required, left, right]
  · simp only [Reading.required, left, right, upTo_map, upTo_underPlace, Place.spelled, hu,
      h v v' hr]

theorem nullable {s s' : Shape α} (h : Shape.Alike spell (R key) s s')
    (nulls : ∀ v v', R key v v' → (v = .null ↔ v' = .null)) :
    Alike spell keys R (Reading.nullable key s) (Reading.nullable key s') :=
  optional hk same (h.nullable nulls) none

end

end Reading.Alike

end Wireframe
