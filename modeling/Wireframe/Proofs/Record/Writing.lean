import Mathlib.Data.List.Nodup
import Wireframe.Proofs.Record.Reading

/-
  Wireframe.Proofs.Record.Writing — fields that were written are read again.

  A record keeps the keys of the fields that were written for it. Written with nothing but these it
  is read with the same keys and the same values: a field that is not written had its default.
  Written with every field, it is read with the same values and with all keys.

  Proved:
  - `nullable_orNull`, `list_map`, `dictionary_map`: shapes of what they read.
  - `Notes.map` and the like: the keys that a reading notes.
  - `Rewritten.optional`, `Rewritten.required`: a field of a record that is written again.
  - `Rewritten.noted`: the keys that are noted of what is written.
-/

namespace Wireframe

variable {α β : Type}

/-! ## Values -/

namespace Value

theorem depth_le_items {items : List Value} {v : Value} (h : v ∈ items) :
    v.depth ≤ depthItems items := by
  induction items with
  | nil => cases h
  | cons first rest ih =>
    rw [depthItems]
    rcases List.mem_cons.mp h with rfl | h
    · exact Nat.le_max_left _ _
    · exact Nat.le_trans (ih h) (Nat.le_max_right _ _)

theorem depth_le_members {o : Object} {k : String} {v : Value} (h : Keyed.get? o k = some v) :
    v.depth ≤ depthMembers o := by
  induction o with
  | nil => cases h
  | cons m rest ih =>
    obtain ⟨k', first⟩ := m
    rw [depthMembers]
    unfold Keyed.get? at h
    split at h
    · cases h
      exact Nat.le_max_left _ _
    · exact Nat.le_trans (ih h) (Nat.le_max_right _ _)

end Value

/-! ## Shapes of what they read -/

namespace Shape

variable {shape : Shape α} {f : α → Value} {keep : α → α}

theorem nullable_of_ok {v : Value} {a : α} (refuses : ∀ b, shape .null ≠ .ok b)
    (h : shape v = .ok a) : nullable shape v = .ok (some a) := by
  cases v with
  | null => exact absurd h (refuses a)
  | bool b | number b | text b | list b | object b =>
    show (shape _).map some = _
    rw [h]
    rfl

theorem record_refuses_null (name : String) (r : Reading α) :
    ∀ b, record name r .null ≠ .ok b := nofun

theorem nullable_orNull {r : Option α} (refuses : ∀ b, shape .null ≠ .ok b)
    (again : ∀ a ∈ r, shape (f a) = .ok (keep a)) :
    nullable shape (.orNull f r) = .ok (r.map keep) := by
  cases r with
  | none => rfl
  | some a => exact nullable_of_ok refuses (again a rfl)

/-- The same for values that are read again as they were. -/
theorem nullable_again {r : Option α} (refuses : ∀ b, shape .null ≠ .ok b)
    (again : ∀ a ∈ r, shape (f a) = .ok a) : nullable shape (.orNull f r) = .ok r := by
  have same : nullable shape (.orNull f r) = .ok (r.map id) := nullable_orNull refuses again
  rwa [Option.map_id_fun, id_eq] at same

theorem list_map {as : List α} (again : ∀ a ∈ as, shape (f a) = .ok (keep a)) :
    list shape (.list (as.map f)) = .ok (as.map keep) := by
  suffices ∀ i, listFrom shape i (as.map f) = .ok (as.map keep) from this 0
  induction as with
  | nil => intro i; rfl
  | cons a rest ih =>
    intro i
    have rest := ih (fun b hb => again b (List.mem_cons_of_mem a hb)) (i + 1)
    rw [List.map_cons, listFrom, again a List.mem_cons_self, rest]
    rfl

theorem list_texts (ss : List String) : list text (.texts ss) = .ok ss := by
  have again : list text (.list (ss.map .text)) = .ok (ss.map id) := list_map fun _ _ => rfl
  rwa [List.map_id] at again

theorem dictionary_map {entries : List (String × α)}
    (again : ∀ e ∈ entries, shape (f e.2) = .ok (keep e.2)) :
    dictionary shape (.object (entries.map fun e => (e.1, f e.2))) =
      .ok (entries.map fun e => (e.1, keep e.2)) := by
  show membersOf shape (entries.map fun e => (e.1, f e.2)) = _
  induction entries with
  | nil => rfl
  | cons e rest ih =>
    have rest := ih fun b hb => again b (List.mem_cons_of_mem e hb)
    rw [List.map_cons, membersOf, again e List.mem_cons_self, rest]
    rfl

/-- Any object is read as it is where its members are untyped. -/
theorem dictionary_object (o : Object) : dictionary untyped (.object o) = .ok o := by
  have again : dictionary untyped (.object (o.map fun e => (e.1, id e.2))) =
      .ok (o.map fun e => (e.1, id e.2)) := dictionary_map fun _ _ => rfl
  simpa using again

end Shape

/-! ## Noted keys -/

/-- The keys in camel case of the fields that stand in an object. -/
def Key.noted (keys : List Key) (o : Object) : List String :=
  (keys.filter fun key => (key.find? o).isSome).map (·.camel)

theorem Key.mem_noted {keys : List Key} {key : Key} {o : Object}
    (distinct : (keys.map (·.camel)).Nodup) (hk : key ∈ keys) :
    key.camel ∈ noted keys o ↔ (key.find? o).isSome := by
  rw [noted, List.mem_map]
  constructor
  · rintro ⟨k, hmem, same⟩
    obtain ⟨hmem, stands⟩ := List.mem_filter.mp hmem
    rwa [← List.inj_on_of_nodup_map distinct hmem hk same]
  · intro stands
    exact ⟨key, List.mem_filter.mpr ⟨hk, stands⟩, rfl⟩

namespace Reading

/-- A reading that comes to something notes which of these fields stand in the object. -/
def Notes (r : Reading α) (keys : List Key) : Prop :=
  ∀ o a given, r.run o = .ok (a, given) → given = Key.noted keys o

theorem Notes.map {f : α → β} {r : Reading α} {keys : List Key} (h : r.Notes keys) :
    (f <$> r).Notes keys := by
  intro o b given hr
  obtain ⟨⟨a, given'⟩, ha, e⟩ := Result.map_eq_ok.mp hr
  cases e
  exact h o a given ha

theorem Notes.seq {f : Reading (α → β)} {r : Reading α} {ks ks' : List Key} (hf : f.Notes ks)
    (hr : r.Notes ks') : (f <*> r).Notes (ks ++ ks') := by
  intro o b given h
  obtain ⟨⟨_, noted⟩, hboth, e⟩ := Result.map_eq_ok.mp h
  cases e
  obtain ⟨⟨⟨g, gs⟩, ⟨a, as⟩⟩, both, e⟩ := Result.map_eq_ok.mp hboth
  cases e
  obtain ⟨hg, ha⟩ := Shape.together_eq_ok.mp both
  rw [Key.noted, List.filter_append, List.map_append, hf o g gs hg, hr o a as ha]
  rfl

theorem Notes.noted {r : Reading (List String → α)} {keys : List Key} (h : r.Notes keys) :
    (noted r).Notes keys := by
  intro o a given hr
  obtain ⟨⟨f, g⟩, hf, e⟩ := Result.map_eq_ok.mp hr
  cases e
  exact h o f given hf

theorem Notes.optional {key : Key} {shape : Shape α} {default : α} :
    (optional key shape default).Notes [key] := by
  intro o a given h
  simp only [Reading.optional] at h
  split at h
  · rename_i used v found
    obtain ⟨_, -, e⟩ := Result.map_eq_ok.mp h
    cases e
    simp [Key.noted, found]
  · rename_i absent
    cases h
    simp [Key.noted, absent]

theorem Notes.nullable {key : Key} {shape : Shape α} : (nullable key shape).Notes [key] :=
  Notes.optional

theorem Notes.required {key : Key} {shape : Shape α} : (required key shape).Notes [key] := by
  intro o a given h
  simp only [Reading.required] at h
  split at h
  · rename_i used v found
    obtain ⟨_, -, e⟩ := Result.map_eq_ok.mp h
    cases e
    simp [Key.noted, found]
  · cases h

/-! ## Steps of a reading -/

variable {o : Object}

theorem Reads.map {f : α → β} {r : Reading α} {a : α} (h : r.Reads o a) : (f <$> r).Reads o (f a) :=
  reads_map.mpr ⟨a, h, rfl⟩

theorem Reads.seq {f : Reading (α → β)} {r : Reading α} {g : α → β} {a : α} (hf : f.Reads o g)
    (hr : r.Reads o a) : (f <*> r).Reads o (g a) :=
  reads_seq.mpr ⟨g, a, hf, hr, rfl⟩

/-- A record is handed the keys that stand in the object. -/
theorem reads_noted_iff {r : Reading (List String → α)} {keys : List Key}
    (notes : (noted r).Notes keys) {a : α} :
    (noted r).Reads o a ↔ ∃ f, r.Reads o f ∧ a = f (Key.noted keys o) := by
  constructor
  · rintro ⟨given, h⟩
    have same := notes o a given h
    obtain ⟨⟨f, g⟩, hf, e⟩ := Result.map_eq_ok.mp h
    cases e
    exact ⟨f, ⟨given, hf⟩, by rw [same]⟩
  · rintro ⟨f, ⟨given, hf⟩, rfl⟩
    have run : (noted r).run o = .ok (f given, given) := Result.map_eq_ok.mpr ⟨_, hf, rfl⟩
    rw [← notes o _ given run]
    exact ⟨given, run⟩

theorem Reads.record {r : Reading α} {a : α} (name : String) (h : r.Reads o a) :
    Shape.record name r (.object o) = .ok a := by
  obtain ⟨given, h⟩ := h
  exact Result.map_eq_ok.mpr ⟨_, h, rfl⟩

theorem reads_required {key : Key} {shape : Shape α} {a : α} :
    (required key shape).Reads o a ↔ ∃ used v, key.find? o = some (used, v) ∧ shape v = .ok a := by
  constructor
  · rintro ⟨given, h⟩
    simp only [required] at h
    split at h
    · rename_i used v found
      obtain ⟨_, hv, e⟩ := Result.map_eq_ok.mp h
      cases e
      exact ⟨used, v, found, Shape.underPlace_eq_ok.mp hv⟩
    · cases h
  · rintro ⟨used, v, found, hv⟩
    refine ⟨[key.camel], ?_⟩
    simp only [required, found, Shape.underPlace_eq_ok.mpr hv, Except.map]

/-- What is not null was read from a value. -/
theorem Reads.exists_value {key : Key} {shape : Shape α} {r : Option α}
    (h : (nullable key shape).Reads o r) : ∀ a ∈ r, ∃ v, shape v = .ok a := by
  rintro a rfl
  rcases reads_nullable h with none | ⟨_, v, _, some, -, hv⟩
  · cases none
  · cases some
    exact ⟨v, hv⟩

theorem reads_optional_of_find? {key : Key} {shape : Shape α} {default a : α} {used : String}
    {v : Value} (found : key.find? o = some (used, v)) (hv : shape v = .ok a) :
    (optional key shape default).Reads o a := by
  refine ⟨[key.camel], ?_⟩
  simp only [optional, found, Shape.underPlace_eq_ok.mpr hv, Except.map]

theorem reads_optional_of_none {key : Key} {shape : Shape α} {default : α}
    (absent : key.find? o = none) : (optional key shape default).Reads o default := by
  refine ⟨[], ?_⟩
  simp only [optional, absent]

end Reading

/-! ## Records that are written -/

/-- What becomes of the keys that a record keeps, of all the names of its fields. -/
abbrev Noting := List String → List String → List String

/-- The keys that are kept of a record that is written and read. -/
def Writing.noting (w : Writing) : Noting := fun names given =>
  match w with
  | .given => given
  | _ => names

theorem Keyed.get?_filter (p : String → Bool) (o : Object) (k : String) :
    get? (o.filter fun m => p m.1) k = if p k then get? o k else none := by
  induction o with
  | nil => simp [get?]
  | cons m rest ih =>
    obtain ⟨k', v⟩ := m
    rw [List.filter_cons]
    by_cases same : k' = k
    · subst same
      cases hp : p k' <;> simp [get?, ih, hp]
    · cases hp : p k' <;> simp [get?, ih, same]

/-- All fields of a record as they are written: each under its first spelling alone. -/
structure Rewritten (keys : List Key) (all : Object) : Prop where
  distinct : (keys.map (·.camel)).Nodup
  stand : (keys.all fun key => (Keyed.get? all key.camel).isSome &&
    (key.snake == key.camel || (Keyed.get? all key.snake).isNone)) = true

namespace Rewritten

variable {keys : List Key} {all o : Object} {key : Key} {v : Value} {w : Writing}

/-- A field that is not written is one that did not stand in the object. -/
theorem find?_fields (h : Rewritten keys all) (hk : key ∈ keys)
    (value : Keyed.get? all key.camel = some v) (o : Object) (w : Writing) :
    key.find? (w.fields (Key.noted keys o) all) =
      if w = .given ∧ key.find? o = none then none else some (key.camel, v) := by
  have stand := List.all_eq_true.mp h.stand key hk
  simp only [Bool.and_eq_true, Bool.or_eq_true, beq_iff_eq, Option.isNone_iff_eq_none] at stand
  have mem := Key.mem_noted (o := o) h.distinct hk
  by_cases given : w = .given
  · subst given
    have get : ∀ k, Keyed.get? (Writing.given.fields (Key.noted keys o) all) k =
        if (Key.noted keys o).contains k then Keyed.get? all k else none :=
      fun k => Keyed.get?_filter (Key.noted keys o).contains all k
    cases found : key.find? o with
    | some m =>
      have noted : (Key.noted keys o).contains key.camel = true :=
        List.contains_iff_mem.mpr (mem.mpr (by rw [found]; rfl))
      rw [Key.find?, get, noted, if_pos rfl, value]
      simp
    | none =>
      have camel : (Key.noted keys o).contains key.camel = false := by
        rw [Bool.eq_false_iff, ne_eq, List.contains_iff_mem, mem, found]
        exact Bool.false_ne_true
      have snake : Keyed.get? (Writing.given.fields (Key.noted keys o) all) key.snake = none := by
        rcases stand.2 with same | alone
        · rw [get, same, camel, if_neg Bool.false_ne_true]
        · rw [get, alone, ite_self]
      rw [Key.find?, snake, get, camel, if_neg Bool.false_ne_true]
      simp
  · have every : w.fields (Key.noted keys o) all = all := by cases w <;> first | rfl | contradiction
    rw [every, Key.find?, value, if_neg (fun both => given both.1)]

theorem exists_get? (h : Rewritten keys all) (hk : key ∈ keys) :
    ∃ v, Keyed.get? all key.camel = some v := by
  have stand := List.all_eq_true.mp h.stand key hk
  rw [Bool.and_eq_true] at stand
  exact Option.isSome_iff_exists.mp stand.1

/-- What is noted of some fields once the record is written. -/
theorem noted (h : Rewritten keys all) {names : List Key} (within : names ⊆ keys) (o : Object)
    (w : Writing) : Key.noted names (w.fields (Key.noted keys o) all) =
      w.noting (names.map (·.camel)) (Key.noted names o) := by
  have stands : ∀ key ∈ names, (key.find? (w.fields (Key.noted keys o) all)).isSome =
      if w = .given then (key.find? o).isSome else true := by
    intro key hk
    obtain ⟨v, value⟩ := h.exists_get? (within hk)
    rw [h.find?_fields (within hk) value]
    by_cases given : w = .given
    · cases key.find? o <;> simp [given]
    · simp [given]
  cases w with
  | given => rw [Key.noted, List.filter_congr stands]; rfl
  | exact | full =>
    show _ = names.map (·.camel)
    rw [Key.noted, List.filter_congr stands]
    simp

/-- A field that may be left out is read again. When it is not written it has its default, and has
    to become this. -/
theorem optional (h : Rewritten keys all) (hk : key ∈ keys) {shape shape' : Shape α}
    {default a a' : α} (reads : (Reading.optional key shape default).Reads o a)
    (value : Keyed.get? all key.camel = some v) (own : w = .given → a = default → a' = default)
    (again : Keyed.get? (w.fields (Key.noted keys o) all) key.camel = some v → shape' v = .ok a') :
    (Reading.optional key shape' default).Reads (w.fields (Key.noted keys o) all) a' := by
  have found := h.find?_fields hk value o w
  by_cases left : w = .given ∧ key.find? o = none
  · rw [if_pos left] at found
    have same : a = default := by
      rcases Reading.reads_optional reads with ⟨-, same⟩ | ⟨used, u, stood, -⟩
      · exact same
      · rw [left.2] at stood
        cases stood
    rw [own left.1 same]
    exact Reading.reads_optional_of_none found
  · rw [if_neg left] at found
    exact Reading.reads_optional_of_find? found (again (Key.find?_eq_some found).2)

/-- A field that has to be there is read again. -/
theorem required (h : Rewritten keys all) (hk : key ∈ keys) {shape : Shape α} {a a' : α}
    (reads : (Reading.required key shape).Reads o a) (value : Keyed.get? all key.camel = some v)
    (again : shape v = .ok a') :
    (Reading.required key shape).Reads (w.fields (Key.noted keys o) all) a' := by
  obtain ⟨used, u, stood, -⟩ := Reading.reads_required.mp reads
  have found := h.find?_fields hk value o w
  rw [if_neg (by rw [stood]; rintro ⟨-, none⟩; cases none)] at found
  exact Reading.reads_required.mpr ⟨_, v, found, again⟩

/-- The same for a field that keeps its value. -/
theorem same (h : Rewritten keys all) (hk : key ∈ keys) {shape : Shape α} {default a : α}
    (reads : (Reading.optional key shape default).Reads o a)
    (value : Keyed.get? all key.camel = some v) (again : shape v = .ok a) :
    (Reading.optional key shape default).Reads (w.fields (Key.noted keys o) all) a :=
  h.optional hk reads value (fun _ same => same) fun _ => again

/-- The same for a field that may be null. -/
theorem nullable (h : Rewritten keys all) (hk : key ∈ keys) {shape : Shape α} {r : Option α}
    {f : α → Value} (reads : (Reading.nullable key shape).Reads o r)
    (value : Keyed.get? all key.camel = some (.orNull f r))
    (refuses : ∀ b, shape .null ≠ .ok b) (again : ∀ a ∈ r, shape (f a) = .ok a) :
    (Reading.nullable key shape).Reads (w.fields (Key.noted keys o) all) r :=
  h.same hk reads value (Shape.nullable_again refuses again)

/-- The same for a field that may be null and holds a record. -/
theorem nullable_record (h : Rewritten keys all) (hk : key ∈ keys) {name : String} {s : Reading α}
    {r : Option α} {f : α → Value} (reads : (Reading.nullable key (.record name s)).Reads o r)
    (value : Keyed.get? all key.camel = some (.orNull f r)) (keep : α → α)
    (again : ∀ v a, Shape.record name s v = .ok a → Shape.record name s (f a) = .ok (keep a)) :
    (Reading.nullable key (.record name s)).Reads (w.fields (Key.noted keys o) all) (r.map keep) := by
  refine h.optional hk reads value (fun _ none => by rw [none]; rfl) fun _ => ?_
  refine Shape.nullable_orNull (Shape.record_refuses_null name s) fun a ha => ?_
  obtain ⟨v, hv⟩ := reads.exists_value a ha
  exact again v a hv

end Rewritten

end Wireframe
