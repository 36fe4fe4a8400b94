import Wireframe.Record.Reading
import Wireframe.Proofs.Result
import Wireframe.Proofs.Value.Objects

/-
  Wireframe.Proofs.Record.Reading — what was read, from what was written.

  A record that is read was read field by field: every field from the value of its key, or from its
  default. No two fields share a key, so what the fields hold together is no more than the object
  held.

  Proved:
  - `reads_seq` and the like: the steps of a reading that came to something.
  - `sum_cost_le`: the values of different keys hold no more objects than the object they are in.
-/

namespace Wireframe

open Value

variable {α β : Type}

/-! ## Shapes -/

theorem exists_of_forall₂ {R : α → β → Prop} {as : List α} {bs : List β}
    (h : List.Forall₂ R as bs) {b : β} (hb : b ∈ bs) : ∃ a ∈ as, R a b := by
  induction h with
  | nil => cases hb
  | cons hr _ ih =>
    rcases List.mem_cons.mp hb with rfl | hb
    · exact ⟨_, List.mem_cons_self, hr⟩
    · obtain ⟨a, ha, hr⟩ := ih hb
      exact ⟨a, List.mem_cons_of_mem _ ha, hr⟩

theorem getElem?_of_forall₂ {R : α → β → Prop} {as : List α} {bs : List β}
    (h : List.Forall₂ R as bs) {i : Nat} {b : β} (hi : bs[i]? = some b) :
    ∃ a, as[i]? = some a ∧ R a b := by
  obtain ⟨inside, rfl⟩ := List.getElem?_eq_some_iff.mp hi
  have inside' : i < as.length := h.length_eq ▸ inside
  exact ⟨as[i], List.getElem?_eq_getElem inside', h.get inside' inside⟩

namespace Shape

theorem underPlace_eq_ok {p : Place} {r : Except Faults α} {a : α} :
    underPlace p r = .ok a ↔ r = .ok a := by
  cases r with
  | ok a => rfl
  | error e => simp [underPlace]

theorem together_eq_ok {r : Except Faults α} {s : Except Faults β} {p : α × β} :
    together r s = .ok p ↔ r = .ok p.1 ∧ s = .ok p.2 := by
  obtain ⟨a, b⟩ := p
  cases r <;> cases s <;> simp [together]

theorem nullable_eq_ok {shape : Shape α} {v : Value} {r : Option α} (h : nullable shape v = .ok r) :
    r = none ∨ ∃ a, r = some a ∧ shape v = .ok a := by
  unfold nullable at h
  split at h
  · cases h; exact .inl rfl
  · obtain ⟨a, ha, rfl⟩ := Result.map_eq_ok.mp h
    exact .inr ⟨a, rfl, ha⟩

theorem listFrom_eq_ok {shape : Shape α} {items : List Value} {as : List α} {i : Nat}
    (h : listFrom shape i items = .ok as) : List.Forall₂ (fun v a => shape v = .ok a) items as := by
  induction items generalizing as i with
  | nil => cases h; exact .nil
  | cons v rest ih =>
    obtain ⟨⟨a, as⟩, both, rfl⟩ := Result.map_eq_ok.mp h
    obtain ⟨hv, hrest⟩ := together_eq_ok.mp both
    exact .cons (underPlace_eq_ok.mp hv) (ih hrest)

theorem list_eq_ok {shape : Shape α} {v : Value} {as : List α} (h : list shape v = .ok as) :
    ∃ items, v = .list items ∧ List.Forall₂ (fun v a => shape v = .ok a) items as := by
  unfold list at h
  split at h
  · exact ⟨_, rfl, listFrom_eq_ok h⟩
  · cases h

theorem dictionary_eq_ok {shape : Shape α} {v : Value} {entries : List (String × α)}
    (h : dictionary shape v = .ok entries) :
    ∃ members, v = .object members ∧
      List.Forall₂ (fun m e => m.1 = e.1 ∧ shape m.2 = .ok e.2) members entries := by
  unfold dictionary at h
  split at h
  · rename_i members
    refine ⟨members, rfl, ?_⟩
    induction members generalizing entries with
    | nil => cases h; exact .nil
    | cons m rest ih =>
      obtain ⟨⟨a, as⟩, both, rfl⟩ := Result.map_eq_ok.mp h
      obtain ⟨hm, hrest⟩ := together_eq_ok.mp both
      exact .cons ⟨rfl, underPlace_eq_ok.mp hm⟩ (ih hrest)
  · cases h

end Shape

/-! ## Readings -/

namespace Reading

/-- The reading comes to this at an object, whichever fields are noted. -/
def Reads (r : Reading α) (o : Object) (a : α) : Prop := ∃ given, r.run o = .ok (a, given)

theorem reads_map {f : α → β} {r : Reading α} {o : Object} {b : β} :
    (f <$> r).Reads o b ↔ ∃ a, r.Reads o a ∧ b = f a := by
  show (∃ given, (r.run o).map _ = .ok (b, given)) ↔ _
  constructor
  · rintro ⟨given, h⟩
    obtain ⟨⟨a, g⟩, ha, e⟩ := Result.map_eq_ok.mp h
    cases e
    exact ⟨a, ⟨given, ha⟩, rfl⟩
  · rintro ⟨a, ⟨given, ha⟩, rfl⟩
    exact ⟨given, Result.map_eq_ok.mpr ⟨_, ha, rfl⟩⟩

theorem reads_seq {f : Reading (α → β)} {r : Reading α} {o : Object} {b : β} :
    (f <*> r).Reads o b ↔ ∃ g a, f.Reads o g ∧ r.Reads o a ∧ b = g a := by
  show (∃ given, ((together (f.run o) (r.run o)).map _).map _ = .ok (b, given)) ↔ _
  constructor
  · rintro ⟨given, h⟩
    obtain ⟨⟨⟨g, a⟩, _⟩, hboth, e⟩ := Result.map_eq_ok.mp h
    obtain ⟨⟨⟨g', gs⟩, ⟨a', as⟩⟩, both, e'⟩ := Result.map_eq_ok.mp hboth
    obtain ⟨hf, hr⟩ := Shape.together_eq_ok.mp both
    cases e'
    cases e
    exact ⟨g, a, ⟨gs, hf⟩, ⟨as, hr⟩, rfl⟩
  · rintro ⟨g, a, ⟨gs, hf⟩, ⟨as, hr⟩, rfl⟩
    exact ⟨gs ++ as, by simp only [hf, hr, together, Except.map]⟩

theorem reads_noted {r : Reading (List String → α)} {o : Object} {a : α} (h : (noted r).Reads o a) :
    ∃ f given, r.Reads o f ∧ a = f given := by
  obtain ⟨given, h⟩ := h
  obtain ⟨⟨f, g⟩, hf, e⟩ := Result.map_eq_ok.mp h
  cases e
  exact ⟨f, given, ⟨given, hf⟩, rfl⟩

theorem reads_optional {key : Key} {shape : Shape α} {default a : α} {o : Object}
    (h : (optional key shape default).Reads o a) :
    (key.find? o = none ∧ a = default) ∨ ∃ used v, key.find? o = some (used, v) ∧ shape v = .ok a := by
  obtain ⟨given, h⟩ := h
  simp only [optional] at h
  split at h
  · rename_i used v found
    obtain ⟨_, hv, e⟩ := Result.map_eq_ok.mp h
    cases e
    exact .inr ⟨used, v, found, Shape.underPlace_eq_ok.mp hv⟩
  · rename_i absent
    cases h
    exact .inl ⟨absent, rfl⟩

/-- A field is as its default is and as all are that can be read. -/
theorem Reads.of_optional {key : Key} {shape : Shape α} {default a : α} {o : Object} {P : α → Prop}
    (h : (optional key shape default).Reads o a) (own : P default)
    (read : ∀ v, shape v = .ok a → P a) : P a := by
  rcases reads_optional h with ⟨-, rfl⟩ | ⟨_, v, -, hv⟩
  · exact own
  · exact read v hv

theorem reads_nullable {key : Key} {shape : Shape α} {r : Option α} {o : Object}
    (h : (nullable key shape).Reads o r) :
    r = none ∨ ∃ used v a, r = some a ∧ key.find? o = some (used, v) ∧ shape v = .ok a := by
  rcases reads_optional h with ⟨-, rfl⟩ | ⟨used, v, found, hv⟩
  · exact .inl rfl
  · rcases Shape.nullable_eq_ok hv with rfl | ⟨a, rfl, ha⟩
    · exact .inl rfl
    · exact .inr ⟨used, v, a, rfl, found, ha⟩

theorem record_eq_ok {name : String} {r : Reading α} {v : Value} {a : α}
    (h : Shape.record name r v = .ok a) : ∃ o, v = .object o ∧ r.Reads o a := by
  unfold Shape.record at h
  split at h
  · obtain ⟨⟨_, given⟩, hr, rfl⟩ := Result.map_eq_ok.mp h
    exact ⟨_, rfl, given, hr⟩
  · cases h

end Reading

/-! ## What the fields cost -/

/-- The objects of the values of different keys are among those of the object. -/
theorem Keyed.sum_get?_le {names : List String} (h : names.Nodup) (o : Object) :
    (names.map fun k => (get? o k).elim 0 objects).sum ≤ objectsMembers o := by
  induction names generalizing o with
  | nil => exact Nat.zero_le _
  | cons k ks ih =>
    obtain ⟨hk, hks⟩ := List.nodup_cons.mp h
    have rest := ih hks (erase o k)
    have first := objectsMembers_erase o k
    have same : ks.map (fun k' => (get? (erase o k) k').elim 0 objects) =
        ks.map fun k' => (get? o k').elim 0 objects := by
      refine List.map_congr_left fun k' hk' => ?_
      have : k' ≠ k := fun e => hk (e ▸ hk')
      rw [get?_erase_of_ne o this]
    rw [same] at rest
    rw [List.map_cons, List.sum_cons]
    omega

namespace Key

/-- The spellings of a key. -/
def names (key : Key) : List String :=
  if key.camel = key.snake then [key.camel] else [key.camel, key.snake]

/-- How many objects the value of a field holds, none when there is no value. -/
def cost (key : Key) (o : Object) : Nat := (key.find? o).elim 0 (·.2.objects)

theorem cost_of_find? {key : Key} {o : Object} {used : String} {v : Value}
    (h : key.find? o = some (used, v)) : key.cost o = v.objects := by
  rw [cost, h]; rfl

/-- The value of a field stands under one of the spellings of its key. -/
theorem find?_eq_some {key : Key} {o : Object} {used : String} {v : Value}
    (h : key.find? o = some (used, v)) : used ∈ key.names ∧ Keyed.get? o used = some v := by
  have both : key.camel ∈ key.names ∧ key.snake ∈ key.names := by
    unfold names
    split <;> simp_all
  unfold find? at h
  split at h
  · rename_i camel
    cases h
    exact ⟨both.1, camel⟩
  · obtain ⟨_, snake, e⟩ := Option.map_eq_some_iff.mp h
    cases e
    exact ⟨both.2, snake⟩

theorem cost_le_names (key : Key) (o : Object) :
    key.cost o ≤ (key.names.map fun k => (Keyed.get? o k).elim 0 objects).sum := by
  cases found : key.find? o with
  | none => rw [cost, found]; exact Nat.zero_le _
  | some m =>
    obtain ⟨hmem, hget⟩ := find?_eq_some found
    rw [cost_of_find? found]
    refine List.le_sum_of_mem (List.mem_map.mpr ⟨m.1, hmem, ?_⟩)
    rw [hget, Option.elim_some]

/-- The values of different keys hold no more objects than the object they are in. -/
theorem sum_cost_le {keys : List Key} (h : (keys.flatMap names).Nodup) (o : Object) :
    (keys.map (cost · o)).sum ≤ objectsMembers o := by
  refine Nat.le_trans ?_ (Keyed.sum_get?_le h o)
  clear h
  induction keys with
  | nil => exact Nat.le_refl _
  | cons key rest ih =>
    have := cost_le_names key o
    simp only [List.map_cons, List.sum_cons, List.flatMap_cons, List.map_append, List.sum_append]
    omega

end Key

end Wireframe
