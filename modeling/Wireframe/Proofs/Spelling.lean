import Mathlib.Logic.Relation
import Wireframe.Proofs.Keyed
import Wireframe.Proofs.Record.Spelling
import Wireframe.Proofs.Scaffold

/-
  Wireframe.Proofs.Spelling — documents that differ only in how the keys of their fields are spelled.

  Every record of a document has fields, and of each field it reads one member: the one under its
  camel-case key, or under its snake-case key when there is no other. So a member may be respelled;
  a member under a key of no field may be added, and so may one in snake case beside the camel-case
  one; anywhere in the records of a document, but not in what is untyped.

  Proved:
  - `Edit.values`: an edit leaves the values of all fields of a record, or edits that of one.
  - `bounds_alike`, …, `header_alike`, `content_alike`: the records of a node are read alike.
  - `readWithin_alike`: nodes are, by induction on their depth; `scaffold_alike`: and scaffolds.
  - `reading_ignores_spelling`: a document is read alike after any number of edits.
-/

namespace Wireframe

open Value

/-! ## Records and their fields -/

/-- The records of a document. -/
inductive RecordType where
  | bounds
  | disclosure
  | guidedFlow
  | behaviors
  | narrowing
  | node
  | touchTarget
  | settings
  | screen
  | scaffold

/-- What the value of a field is read as. -/
inductive FieldType where
  /-- Something without fields of its own, or untyped. -/
  | plain
  | record (r : RecordType)
  | nodes

/-- The kind that the object of a node tells. -/
def Kind.of? (o : Object) : Option Kind :=
  match Keyed.get? o "type" with
  | some (.text name) => (Kind.words.find? (·.1 == name)).map (·.2)
  | _ => none

namespace RecordType

/-- The keys of the fields that a record has. A node that does not tell its kind has no other field
    than this. -/
def keys (r : RecordType) (o : Object) : List Key :=
  match r with
  | bounds => Bounds.keys
  | disclosure => Disclosure.keys
  | guidedFlow => GuidedFlow.keys
  | behaviors => Behaviors.keys
  | narrowing => Narrowing.keys
  | node => ((Kind.of? o).map Kind.written).getD [Keys.type]
  | touchTarget => TouchTarget.keys
  | settings => Settings.keys
  | screen => Screen.keys
  | scaffold => Scaffold.keys

/-- What the value of a field is read as. -/
def field : RecordType → Key → FieldType
  | node, key =>
    if key = Keys.minSize ∨ key = Keys.maxSize then .record bounds
    else if key = Keys.behaviors then .record behaviors
    else if key = Keys.responsive then .record narrowing
    else if key = Keys.child then .record node
    else if key = Keys.children ∨ key = Keys.fields ∨ key = Keys.actions then .nodes
    else .plain
  | behaviors, key => if key = Keys.disclosure then .record disclosure else .record guidedFlow
  | settings, key =>
    if key = ⟨"minTouchTarget", "min_touch_target"⟩ then .record touchTarget else .plain
  | screen, key => if key = .plain "root" then .record node else .plain
  | scaffold, key =>
    if key = .plain "screen" then .record screen
    else if key = .plain "settings" then .record settings
    else .plain
  | _, _ => .plain

end RecordType

/-- One change to the keys of a document that should make no difference to its reader. -/
inductive Edit : FieldType → Value → Value → Prop
  /-- A camel-case key becomes the snake-case key of its field. -/
  | respell {r : RecordType} {before after : Object} {key : Key} {v : Value} :
      key ∈ r.keys (before ++ (key.camel, v) :: after) →
      (∀ m ∈ before ++ after, m.1 ≠ key.camel ∧ m.1 ≠ key.snake) →
      Edit (.record r) (.object (before ++ (key.camel, v) :: after))
        (.object (before ++ (key.snake, v) :: after))
  /-- A member is added whose key is that of no field. -/
  | add {r : RecordType} {before after : Object} {name : String} {v : Value} :
      (∀ key ∈ r.keys (before ++ after), name ≠ key.camel ∧ name ≠ key.snake) →
      Edit (.record r) (.object (before ++ after)) (.object (before ++ (name, v) :: after))
  /-- A member is added under the snake-case key of a field that has one in camel case. -/
  | shadow {r : RecordType} {before after : Object} {key : Key} {v : Value} :
      key ∈ r.keys (before ++ after) → key.snake ≠ key.camel →
      (∃ m ∈ before ++ after, m.1 = key.camel) →
      Edit (.record r) (.object (before ++ after)) (.object (before ++ (key.snake, v) :: after))
  /-- The value of a field is edited. -/
  | inside {r : RecordType} {before after : Object} {key : Key} {name : String} {v v' : Value} :
      key ∈ r.keys (before ++ (name, v) :: after) → name = key.camel ∨ name = key.snake →
      Edit (r.field key) v v' →
      Edit (.record r) (.object (before ++ (name, v) :: after))
        (.object (before ++ (name, v') :: after))
  /-- A node in a list is edited. -/
  | item {before after : List Value} {v v' : Value} : Edit (.record .node) v v' →
      Edit .nodes (.list (before ++ v :: after)) (.list (before ++ v' :: after))

/-- The same value, or an edited one. -/
def Related (t : FieldType) (v v' : Value) : Prop := v = v' ∨ Edit t v v'

/-! ## Spellings -/

namespace Keys

/-- The keys of all fields. -/
def all : List Key :=
  (Kind.words.map (·.2)).flatMap Kind.written ++ Bounds.keys ++ Disclosure.keys ++ GuidedFlow.keys ++
    Behaviors.keys ++ Narrowing.keys ++ Settings.keys ++ Screen.keys ++ Scaffold.keys

/-- The key that a name is a spelling of. -/
def named? (name : String) : Option Key := all.find? fun key => name == key.camel || name == key.snake

/-- A name in camel case, when it is that of a field. -/
def spelling (name : String) : String := ((named? name).map (·.camel)).getD name

theorem named : ∀ key ∈ all, named? key.camel = some key ∧ named? key.snake = some key := by
  decide +kernel

end Keys

theorem Keys.tables_subset : ∀ table ∈ [[Keys.type], Bounds.keys, Disclosure.keys, GuidedFlow.keys,
    Behaviors.keys, Narrowing.keys, TouchTarget.keys, Settings.keys, Screen.keys, Scaffold.keys] ++
      (Kind.words.map (·.2)).map Kind.written, ∀ key ∈ table, key ∈ Keys.all := by
  decide +kernel

theorem RecordType.keys_known (r : RecordType) (o : Object) : ∀ key ∈ r.keys o, key ∈ Keys.all := by
  refine Keys.tables_subset _ ?_
  cases r with
  | node =>
    unfold keys
    cases Kind.of? o with
    | none => simp
    | some k => cases k <;> simp [Kind.words]
  | bounds | disclosure | guidedFlow | behaviors | narrowing | touchTarget | settings | screen
    | scaffold => simp [keys]

/-- The two spellings of a field are told in camel case. -/
theorem Keys.spelling_snake {key : Key} (h : key ∈ all) : spelling key.snake = spelling key.camel := by
  rw [spelling, spelling, (named key h).1, (named key h).2]
  rfl

/-- A spelling of one field is none of another. -/
theorem Keys.not_spelled {key other : Key} (h : key ∈ all) (ho : other ∈ all) (apart : key ≠ other)
    {name : String} (spelled : name = other.camel ∨ name = other.snake) :
    name ≠ key.camel ∧ name ≠ key.snake := by
  have own : ∀ k ∈ all, name = k.camel ∨ name = k.snake → named? name = some k := by
    rintro k hk (rfl | rfl)
    · exact (named k hk).1
    · exact (named k hk).2
  have never : ¬(name = key.camel ∨ name = key.snake) := by
    intro both
    exact apart (Option.some.inj ((own key h both).symm.trans (own other ho spelled)))
  exact not_or.mp never

/-! ## What an edit leaves -/

section

variable {before after : Object} {key : Key} {name : String} {v : Value}

theorem Key.value?_eq (key : Key) (o : Object) :
    key.value? o = (Keyed.get? o key.camel).or (Keyed.get? o key.snake) := by
  unfold value? find?
  cases Keyed.get? o key.camel with
  | some v => rfl
  | none => cases Keyed.get? o key.snake <;> rfl

theorem get?_insert_of_ne {other : String} (h : name ≠ other) :
    Keyed.get? (before ++ (name, v) :: after) other = Keyed.get? (before ++ after) other := by
  rw [Keyed.get?_append, Keyed.get?_append, Keyed.get?, if_neg (by simpa using h)]

/-- A member under another key does not change the value of a field. -/
theorem Key.value?_insert (h : name ≠ key.camel ∧ name ≠ key.snake) :
    key.value? (before ++ (name, v) :: after) = key.value? (before ++ after) := by
  rw [value?_eq, value?_eq, get?_insert_of_ne h.1, get?_insert_of_ne h.2]

/-- The one member that spells a field has its value. -/
theorem Key.value?_own (own : name = key.camel ∨ name = key.snake)
    (fresh : ∀ m ∈ before ++ after, m.1 ≠ key.camel ∧ m.1 ≠ key.snake) :
    key.value? (before ++ (name, v) :: after) = some v := by
  have here : Keyed.get? (before ++ (name, v) :: after) name = some v := by
    rw [Keyed.get?_append, Keyed.get?_eq_none, Option.none_or, Keyed.get?, if_pos BEq.rfl]
    intro m hm
    rcases own with rfl | rfl
    · exact (fresh m (List.mem_append_left _ hm)).1
    · exact (fresh m (List.mem_append_left _ hm)).2
  rw [value?_eq]
  rcases own with rfl | rfl
  · rw [here, Option.some_or]
  · by_cases plain : key.snake = key.camel
    · rw [← plain, here, Option.some_or]
    · rw [get?_insert_of_ne plain, Keyed.get?_eq_none fun m hm => (fresh m hm).1, Option.none_or, here]

/-- Beside a member in camel case one in snake case does not count. -/
theorem Key.value?_shadowed (two : key.snake ≠ key.camel)
    (there : ∃ m ∈ before ++ after, m.1 = key.camel) :
    key.value? (before ++ (key.snake, v) :: after) = key.value? (before ++ after) := by
  have found : ∃ w, Keyed.get? (before ++ after) key.camel = some w := by
    obtain ⟨m, hm, same⟩ := there
    exact same ▸ Keyed.exists_get?_of_mem hm
  obtain ⟨w, hw⟩ := found
  rw [value?_eq, value?_eq, get?_insert_of_ne two, hw, Option.some_or, Option.some_or]

/-- With another value of a member, a field has the same value as before, or these two. -/
theorem Key.value?_inside {v' : Value} {R : Value → Value → Prop} (refl : ∀ w, R w w) (h : R v v') :
    Option.Rel R (key.value? (before ++ (name, v) :: after))
      (key.value? (before ++ (name, v') :: after)) := by
  have lookup : ∀ other, (Keyed.get? (before ++ (name, v) :: after) other =
      Keyed.get? (before ++ (name, v') :: after) other) ∨
        (Keyed.get? (before ++ (name, v) :: after) other = some v ∧
          Keyed.get? (before ++ (name, v') :: after) other = some v') := by
    intro other
    by_cases here : name = other
    · subst here
      rw [Keyed.get?_append, Keyed.get?_append, Keyed.get?, Keyed.get?, if_pos BEq.rfl, if_pos BEq.rfl]
      cases Keyed.get? before name with
      | none => exact .inr ⟨rfl, rfl⟩
      | some w => exact .inl rfl
    · rw [get?_insert_of_ne here, get?_insert_of_ne here]
      exact .inl rfl
  rw [value?_eq, value?_eq]
  rcases lookup key.camel with camel | ⟨camel, camel'⟩
  · rw [camel]
    cases Keyed.get? (before ++ (name, v') :: after) key.camel with
    | some w => exact rel_self refl _
    | none =>
      rw [Option.none_or, Option.none_or]
      rcases lookup key.snake with snake | ⟨snake, snake'⟩
      · rw [snake]
        exact rel_self refl _
      · rw [snake, snake']
        exact .some h
  · rw [camel, camel']
    exact .some h

end

namespace Edit

theorem not_plain {v v' : Value} : ¬Edit .plain v v' := by
  intro h
  cases h

theorem not_null {t : FieldType} {v v' : Value} (h : Edit t v v') : v ≠ .null ∧ v' ≠ .null := by
  cases h <;> simp

/-- An edit of a record edits the value of one field, or leaves the values of all. -/
theorem values {r : RecordType} {o o' : Object} (h : Edit (.record r) (.object o) (.object o')) :
    Matches (r.keys o) (fun key => Related (r.field key)) o o' := by
  have same : ∀ (key : Key) (a b : Option Value), a = b → Option.Rel (Related (r.field key)) a b := by
    rintro key a _ rfl
    exact rel_self (fun v => .inl rfl) a
  intro key hk
  have known := r.keys_known o
  cases h with
  | @respell _ before after changed v hc fresh =>
    refine same key _ _ ?_
    by_cases this : key = changed
    · subst this
      rw [Key.value?_own (.inl rfl) fresh, Key.value?_own (.inr rfl) fresh]
    · have other : ∀ name, name = changed.camel ∨ name = changed.snake →
          name ≠ key.camel ∧ name ≠ key.snake :=
        fun _ => Keys.not_spelled (known key hk) (known changed hc) this
      rw [Key.value?_insert (other _ (.inl rfl)), Key.value?_insert (other _ (.inr rfl))]
  | add fresh => exact same key _ _ (Key.value?_insert (fresh key hk)).symm
  | @shadow _ before after changed v hc two there =>
    refine same key _ _ ?_
    by_cases this : key = changed
    · subst this
      exact (Key.value?_shadowed two there).symm
    · have other := Keys.not_spelled (known key hk) (known changed hc) this (.inr rfl)
      exact (Key.value?_insert other).symm
  | @inside _ before after changed name v v' hc spelled h =>
    by_cases this : key = changed
    · subst this
      exact Key.value?_inside (fun w => .inl rfl) (.inr h)
    · have other := Keys.not_spelled (known key hk) (known changed hc) this spelled
      refine same key _ _ ?_
      rw [Key.value?_insert other, Key.value?_insert other]

end Edit

namespace Related

theorem of_plain {v v' : Value} (h : Related .plain v v') : v = v' := h.resolve_right Edit.not_plain

theorem null_iff {t : FieldType} {v v' : Value} (h : Related t v v') : v = .null ↔ v' = .null := by
  rcases h with rfl | h
  · rfl
  · exact iff_of_false h.not_null.1 h.not_null.2

theorem matches_self (r : RecordType) (keys : List Key) (o : Object) :
    Matches keys (fun key => Related (r.field key)) o o := by
  intro key _
  exact rel_self (fun v => .inl rfl) _

/-- Related records are objects with related fields, or the same and no objects. -/
theorem record_cases {r : RecordType} {v v' : Value} (h : Related (.record r) v v') :
    (v = v' ∧ ∀ o, v ≠ .object o) ∨ ∃ o o', v = .object o ∧ v' = .object o' ∧
      Matches (r.keys o) (fun key => Related (r.field key)) o o' := by
  rcases h with rfl | h
  · cases v with
    | object o => exact .inr ⟨o, o, rfl, rfl, matches_self r _ o⟩
    | null | bool | number | text | list => exact .inl ⟨rfl, nofun⟩
  · have values := @Edit.values r
    cases h with
    | respell hk fresh => exact .inr ⟨_, _, rfl, rfl, values (.respell hk fresh)⟩
    | add fresh => exact .inr ⟨_, _, rfl, rfl, values (.add fresh)⟩
    | shadow hk two there => exact .inr ⟨_, _, rfl, rfl, values (.shadow hk two there)⟩
    | inside hk spelled h => exact .inr ⟨_, _, rfl, rfl, values (.inside hk spelled h)⟩

/-- Related lists of nodes have related items, or are the same and no lists. -/
theorem nodes_cases {v v' : Value} (h : Related .nodes v v') :
    (v = v' ∧ ∀ vs, v ≠ .list vs) ∨ ∃ vs vs', v = .list vs ∧ v' = .list vs' ∧
      List.Forall₂ (Related (.record .node)) vs vs' := by
  have same : ∀ vs : List Value, List.Forall₂ (Related (.record .node)) vs vs :=
    fun vs => List.forall₂_same.mpr fun v _ => .inl rfl
  rcases h with rfl | h
  · cases v with
    | list vs => exact .inr ⟨vs, vs, rfl, rfl, same vs⟩
    | null | bool | number | text | object => exact .inl ⟨rfl, nofun⟩
  · cases h with
    | @item before after v v' h =>
      exact .inr ⟨_, _, rfl, rfl, List.rel_append (same before) (.cons (.inr h) (same after))⟩

end Related

/-! ## Records are read alike -/

/-- A relation between the values of some fields of a record: they are related, if not more. -/
structure FieldsRelated (r : RecordType) (keys : List Key) (R : Key → Value → Value → Prop) : Prop where
  known : ∀ key ∈ keys, key ∈ Keys.all
  related : ∀ key v v', R key v v' → Related (r.field key) v v'

namespace FieldsRelated

variable {α : Type} {r : RecordType} {keys : List Key} {R : Key → Value → Value → Prop}
  (fields : FieldsRelated r keys R) {key : Key}
include fields

theorem nulls (v v' : Value) (h : R key v v') : v = .null ↔ v' = .null :=
  (fields.related key v v' h).null_iff

/-- What is read alike from any two related values, is from those of the field. -/
theorem own {t : FieldType} {shape : Shape α} (h : shape.Alike Keys.spelling (Related t) shape)
    (is : r.field key = t) : shape.Alike Keys.spelling (R key) shape :=
  h.imp fun v v' hr => is ▸ fields.related key v v' hr

variable (hk : key ∈ keys)
include hk

section

variable {t : FieldType} {shape : Shape α} (h : shape.Alike Keys.spelling (Related t) shape)
  (is : r.field key = t)
include h is

theorem optional_of (default : α) : (Reading.optional key shape default).Alike
    Keys.spelling keys R (.optional key shape default) :=
  .optional hk (Keys.spelling_snake (fields.known key hk)) (fields.own h is) default

theorem required_of : (Reading.required key shape).Alike Keys.spelling keys R (.required key shape) :=
  .required hk (Keys.spelling_snake (fields.known key hk)) (fields.own h is)

theorem nullable_of : (Reading.nullable key shape).Alike Keys.spelling keys R (.nullable key shape) :=
  .nullable hk (Keys.spelling_snake (fields.known key hk)) (fields.own h is) fields.nulls

end

/-! A field without keys of its own is read alike, whatever it is read as. -/

variable (plain : r.field key = .plain) (shape : Shape α)
include plain

theorem optional (default : α) : (Reading.optional key shape default).Alike
    Keys.spelling keys R (.optional key shape default) :=
  fields.optional_of hk (.of_eq (fun _ _ h => h.of_plain) shape) plain default

theorem required : (Reading.required key shape).Alike Keys.spelling keys R (.required key shape) :=
  fields.required_of hk (.of_eq (fun _ _ h => h.of_plain) shape) plain

theorem nullable : (Reading.nullable key shape).Alike Keys.spelling keys R (.nullable key shape) :=
  fields.nullable_of hk (.of_eq (fun _ _ h => h.of_plain) shape) plain

end FieldsRelated

/-- The fields of a record whose keys are a table. -/
theorem FieldsRelated.of_keys {r : RecordType} {keys : List Key} (own : ∀ o, r.keys o = keys) :
    FieldsRelated r keys fun key => Related (r.field key) :=
  ⟨own [] ▸ r.keys_known [], fun _ _ _ h => h⟩

theorem record_alike {α : Type} {r : RecordType} {keys : List Key} (own : ∀ o, r.keys o = keys)
    {rd : Reading α} (h : rd.Alike Keys.spelling keys (fun key => Related (r.field key)) rd)
    (name : String) :
    (Shape.record name rd).Alike Keys.spelling (Related (.record r)) (Shape.record name rd) := by
  intro v v' related
  rcases related.record_cases with ⟨rfl, -⟩ | ⟨o, o', rfl, rfl, values⟩
  · rfl
  · rw [own o] at values
    show upTo _ ((rd.run o).map _) = upTo _ ((rd.run o').map _)
    rw [upTo_map, upTo_map, h o o' values]

section

variable (name : String)

theorem bounds_alike : (Shape.record name Reading.bounds).Alike Keys.spelling
    (Related (.record .bounds)) (.record name .bounds) := by
  have own : ∀ o, RecordType.bounds.keys o = Bounds.keys := fun _ => rfl
  have fields := FieldsRelated.of_keys own
  exact record_alike own (((fields.nullable (by decide) rfl _).map _).seq
    (fields.nullable (by decide) rfl _)).noted name

theorem disclosure_alike : (Shape.record name Reading.disclosure).Alike Keys.spelling
    (Related (.record .disclosure)) (.record name .disclosure) := by
  have own : ∀ o, RecordType.disclosure.keys o = Disclosure.keys := fun _ => rfl
  have fields := FieldsRelated.of_keys own
  exact record_alike own (((((fields.optional (by decide) rfl _ _).map _).seq
    (fields.nullable (by decide) rfl _)).seq (fields.nullable (by decide) rfl _)).seq
    (fields.nullable (by decide) rfl _)).noted name

theorem guidedFlow_alike : (Shape.record name Reading.guidedFlow).Alike Keys.spelling
    (Related (.record .guidedFlow)) (.record name .guidedFlow) := by
  have own : ∀ o, RecordType.guidedFlow.keys o = GuidedFlow.keys := fun _ => rfl
  have fields := FieldsRelated.of_keys own
  exact record_alike own ((((((((fields.required (by decide) rfl _).map _).seq
    (fields.nullable (by decide) rfl _)).seq (fields.nullable (by decide) rfl _)).seq
    (fields.nullable (by decide) rfl _)).seq (fields.nullable (by decide) rfl _)).seq
    (fields.nullable (by decide) rfl _)).seq (fields.nullable (by decide) rfl _)).noted name

theorem behaviors_alike : (Shape.record name Reading.behaviors).Alike Keys.spelling
    (Related (.record .behaviors)) (.record name .behaviors) := by
  have own : ∀ o, RecordType.behaviors.keys o = Behaviors.keys := fun _ => rfl
  have fields := FieldsRelated.of_keys own
  exact record_alike own (((fields.nullable_of (by decide) (disclosure_alike _) rfl).map _).seq
    (fields.nullable_of (by decide) (guidedFlow_alike _) rfl)).noted name

theorem narrowing_alike : (Shape.record name Reading.narrowing).Alike Keys.spelling
    (Related (.record .narrowing)) (.record name .narrowing) := by
  have own : ∀ o, RecordType.narrowing.keys o = Narrowing.keys := fun _ => rfl
  have fields := FieldsRelated.of_keys own
  exact record_alike own (((fields.nullable (by decide) rfl _).map _).seq
    (fields.nullable (by decide) rfl _)).noted name

end

/-! ## Nodes are read alike -/

section

variable {keys : List Key} {R : Key → Value → Value → Prop} (fields : FieldsRelated .node keys R)
include fields

theorem header_alike (own : Header.keys ⊆ keys) :
    Reading.header.Alike Keys.spelling keys R Reading.header := by
  refine (((((((((((((fields.required (own ?_) rfl _).map _).seq
    (fields.optional (own ?_) rfl _ _)).seq (fields.optional (own ?_) rfl _ _)).seq
    (fields.optional (own ?_) rfl _ _)).seq (fields.nullable_of (own ?_) (bounds_alike _) rfl)).seq
    (fields.nullable_of (own ?_) (bounds_alike _) rfl)).seq (fields.nullable (own ?_) rfl _)).seq
    (fields.nullable (own ?_) rfl _)).seq (fields.nullable_of (own ?_) (behaviors_alike _) rfl)).seq
    (fields.nullable (own ?_) rfl _)).seq (fields.nullable (own ?_) rfl _)).seq
    (fields.nullable (own ?_) rfl _)).noted <;> decide

/-- A list of nodes is read alike when the nodes in it are. -/
theorem children_alike {key : Key} (hk : key ∈ keys)
    {child child' : Shape Node} (h : (Shape.list child).Alike Keys.spelling (R key) (.list child')) :
    (Reading.optional key (Shape.list child) []).Alike Keys.spelling keys R
      (.optional key (.list child') []) :=
  .optional hk (Keys.spelling_snake (fields.known key hk)) h []

theorem content_alike {child child' : Shape Node} {k : Kind} (own : k.contentKeys ⊆ keys)
    (one : child.Alike Keys.spelling (R Keys.child) child')
    (many : ∀ key, RecordType.node.field key = .nodes →
      (Shape.list child).Alike Keys.spelling (R key) (.list child')) :
    (Reading.content child k).Alike Keys.spelling keys R (Reading.content child' k) := by
  cases k with
  | stack =>
    refine (((((((fields.optional (own ?_) rfl _ _).map _).seq (fields.nullable (own ?_) rfl _)).seq
      (fields.nullable (own ?_) rfl _)).seq (fields.optional (own ?_) rfl _ _)).seq
      (fields.optional (own ?_) rfl _ _)).map _).seq
        (children_alike fields (own ?_) (many _ rfl)) <;> decide
  | grid =>
    refine (((((fields.optional (own ?_) rfl _ _).map _).seq (fields.nullable (own ?_) rfl _)).seq
      (fields.nullable (own ?_) rfl _)).map _).seq
        (children_alike fields (own ?_) (many _ rfl)) <;> decide
  | box =>
    have inset : Keys.padding ∈ keys := own (by decide)
    have slot : Keys.child ∈ keys := own (by decide)
    exact ((fields.nullable inset rfl _).map _).seq
      (.nullable slot (Keys.spelling_snake (fields.known _ slot)) one fields.nulls)
  | text =>
    refine ((((((fields.optional (own ?_) rfl _ _).map _).seq (fields.nullable (own ?_) rfl _)).seq
      (fields.nullable (own ?_) rfl _)).seq (fields.nullable (own ?_) rfl _)).map _) <;> decide
  | button =>
    refine ((((fields.optional (own ?_) rfl _ _).map _).seq
      (fields.nullable (own ?_) rfl _)).map _) <;> decide
  | field =>
    refine (((((((fields.optional (own ?_) rfl _ _).map _).seq (fields.nullable (own ?_) rfl _)).seq
      (fields.nullable (own ?_) rfl _)).seq (fields.nullable (own ?_) rfl _)).seq
      (fields.nullable (own ?_) rfl _)).map _) <;> decide
  | form =>
    refine ((((fields.nullable (own ?_) rfl _).map _).seq
      (children_alike fields (own ?_) (many _ rfl))).seq
      (children_alike fields (own ?_) (many _ rfl))).seq (fields.nullable (own ?_) rfl _) <;> decide
  | table =>
    refine (((((((fields.nullable (own ?_) rfl _).map _).seq (fields.optional (own ?_) rfl _ _)).seq
      (fields.nullable (own ?_) rfl _)).seq
      (fields.nullable_of (own ?_) (narrowing_alike _) rfl)).seq
      (fields.nullable (own ?_) rfl _)).map _) <;> decide

end

theorem Key.depth_value?_le {key : Key} {o : Object} {v : Value}
    (h : key.value? o = some v) : v.depth ≤ depthMembers o := by
  rw [Key.value?_eq] at h
  rcases Option.or_eq_some_iff.mp h with h | ⟨-, h⟩ <;> exact depth_le_members h

/-- Related values that nest no deeper than so. -/
structure RelatedWithin (d d' : Nat) (t : FieldType) (v v' : Value) : Prop where
  related : Related t v v'
  room : v.depth ≤ d
  room' : v'.depth ≤ d'

namespace RelatedWithin

variable {d d' : Nat}

theorem items {vs vs' : List Value} (h : List.Forall₂ (Related (.record .node)) vs vs')
    (room : depthItems vs ≤ d) (room' : depthItems vs' ≤ d') :
    List.Forall₂ (RelatedWithin d d' (.record .node)) vs vs' := by
  induction h with
  | nil => exact .nil
  | cons related _ ih =>
    rw [depthItems] at room room'
    exact .cons ⟨related, by omega, by omega⟩ (ih (by omega) (by omega))

theorem nodes_cases {v v' : Value} (h : RelatedWithin d d' .nodes v v') :
    (v = v' ∧ ∀ vs, v ≠ .list vs) ∨ ∃ vs vs', v = .list vs ∧ v' = .list vs' ∧
      List.Forall₂ (RelatedWithin d d' (.record .node)) vs vs' := by
  rcases h.related.nodes_cases with same | ⟨vs, vs', rfl, rfl, related⟩
  · exact .inl same
  · exact .inr ⟨vs, vs', rfl, rfl, items related h.room h.room'⟩

/-- The values of fields nest less deep than the object. -/
theorem fields {r : RecordType} {keys : List Key} {o o' : Object}
    (h : Matches keys (fun key => Related (r.field key)) o o') (room : depthMembers o ≤ d)
    (room' : depthMembers o' ≤ d') :
    Matches keys (fun key => RelatedWithin d d' (r.field key)) o o' := by
  intro key hk
  rcases rel_iff.mp (h key hk) with ⟨left, right⟩ | ⟨v, v', left, right, related⟩
  · rw [left, right]
    exact .none
  · rw [left, right]
    exact .some ⟨related, Nat.le_trans (Key.depth_value?_le left) room,
      Nat.le_trans (Key.depth_value?_le right) room'⟩

end RelatedWithin

/-- The kind of a node is told by the same name. -/
theorem same_type {o o' : Object}
    (values : Matches (RecordType.node.keys o) (fun key => Related (RecordType.node.field key)) o o') :
    Keyed.get? o "type" = Keyed.get? o' "type" := by
  have own : ∀ o : Object, Keys.type.value? o = Keyed.get? o "type" := by
    intro o
    rw [Key.value?_eq]
    exact Option.or_self
  have listed : Keys.type ∈ RecordType.node.keys o := by
    unfold RecordType.keys
    cases Kind.of? o with
    | none => exact List.mem_singleton_self _
    | some k => exact List.mem_cons_self
  rw [← own o, ← own o']
  rcases rel_iff.mp (values _ listed) with ⟨left, right⟩ | ⟨v, v', left, right, related⟩
  · rw [left, right]
  · rw [left, right, related.of_plain]

/-- A node of a kind is read alike when its children are. -/
theorem node_alike {d d' : Nat} (k : Kind) (o : Object)
    (own : RecordType.node.keys o = k.written)
    (ih : Shape.Alike Keys.spelling (RelatedWithin d d' (.record .node)) (Node.readWithin d)
      (Node.readWithin d')) :
    (Reading.node (Node.readWithin d) k).Alike Keys.spelling k.written
      (fun key => RelatedWithin d d' (RecordType.node.field key))
      (Reading.node (Node.readWithin d') k) := by
  have fields : FieldsRelated .node k.written
      fun key => RelatedWithin d d' (RecordType.node.field key) :=
    ⟨own ▸ RecordType.node.keys_known o, fun _ _ _ h => h.related⟩
  have ofHeader : Header.keys ⊆ k.written := fun key hk => List.mem_cons_of_mem _ (List.mem_append_left _ hk)
  have ofContent : k.contentKeys ⊆ k.written :=
    fun key hk => List.mem_cons_of_mem _ (List.mem_append_right _ hk)
  refine (((header_alike fields ofHeader).map _).seq (content_alike fields ofContent ih ?_)).noted
  intro key isNodes
  rw [isNodes]
  exact ih.list fun v v' h => h.nodes_cases

/-- Nodes are read alike from related objects, however deep these nest. The induction is on how
    deep the first one may be. -/
theorem readWithin_alike (d d' : Nat) : Shape.Alike Keys.spelling
    (RelatedWithin d d' (.record .node)) (Node.readWithin d) (Node.readWithin d') := by
  induction d generalizing d' with
  | zero =>
    rintro v v' ⟨related, room, room'⟩
    rcases related.record_cases with ⟨rfl, other⟩ | ⟨o, o', rfl, rfl, -⟩
    · cases v with
      | object o => exact absurd rfl (other o)
      | null | bool | number | text | list => cases d' <;> rfl
    · cases room
  | succ d ih =>
    rintro v v' ⟨related, room, room'⟩
    rcases related.record_cases with ⟨rfl, other⟩ | ⟨o, o', rfl, rfl, values⟩
    · cases v with
      | object o => exact absurd rfl (other o)
      | null | bool | number | text | list => cases d' <;> rfl
    · cases d' with
      | zero => cases room'
      | succ d' =>
        have tag := same_type values
        have within := RelatedWithin.fields values (Nat.le_of_succ_le_succ room)
          (Nat.le_of_succ_le_succ room')
        simp only [Node.readWithin, ← tag]
        cases told : Keyed.get? o "type" with
        | none => rfl
        | some v =>
          cases v with
          | text name =>
            cases found : Kind.words.find? (·.1 == name) with
            | none => simp only [found]
            | some w =>
              have own : RecordType.node.keys o = w.2.written := by
                simp only [RecordType.keys, Kind.of?, told, found, Option.map_some, Option.getD_some]
              rw [own] at within
              simp only [found, upTo_underPlace, upTo_map, node_alike w.2 o own (ih d') o o' within]
          | null | bool | number | list | object => rfl

theorem read_alike : Node.read.Alike Keys.spelling (Related (.record .node)) Node.read :=
  fun v v' h => readWithin_alike v.depth v'.depth v v' ⟨h, Nat.le_refl _, Nat.le_refl _⟩

/-! ## Scaffolds are read alike -/

section

variable (name : String)

theorem touchTarget_alike : (Shape.record name Reading.touchTarget).Alike Keys.spelling
    (Related (.record .touchTarget)) (.record name .touchTarget) := by
  have own : ∀ o, RecordType.touchTarget.keys o = TouchTarget.keys := fun _ => rfl
  have fields := FieldsRelated.of_keys own
  exact record_alike own (((fields.optional (by decide) rfl _ _).map _).seq
    (fields.optional (by decide) rfl _ _)).noted name

theorem settings_alike : (Shape.record name Reading.settings).Alike Keys.spelling
    (Related (.record .settings)) (.record name .settings) := by
  have own : ∀ o, RecordType.settings.keys o = Settings.keys := fun _ => rfl
  have fields := FieldsRelated.of_keys own
  exact record_alike own ((((fields.optional (by decide) rfl _ _).map _).seq
    (fields.optional_of (by decide) (touchTarget_alike _) rfl _)).seq
    (fields.optional (by decide) rfl _ _)).noted name

theorem screen_alike : (Shape.record name Reading.screen).Alike Keys.spelling
    (Related (.record .screen)) (.record name .screen) := by
  have own : ∀ o, RecordType.screen.keys o = Screen.keys := fun _ => rfl
  have fields := FieldsRelated.of_keys own
  exact record_alike own ((((fields.required (by decide) rfl _).map _).seq
    (fields.nullable (by decide) rfl _)).seq
    (fields.required_of (by decide) read_alike rfl)).noted name

end

theorem scaffold_alike :
    Scaffold.read.Alike Keys.spelling (Related (.record .scaffold)) Scaffold.read := by
  have own : ∀ o, RecordType.scaffold.keys o = Scaffold.keys := fun _ => rfl
  have fields := FieldsRelated.of_keys own
  exact record_alike own ((((fields.optional (by decide) rfl _ _).map _).seq
    (fields.required_of (by decide) (screen_alike _) rfl)).seq
    (fields.optional_of (by decide) (settings_alike _) rfl _)).noted _

/-! ## Documents with any number of edits -/

/-- What sees no difference after one edit, sees none after many. -/
theorem Shape.Alike.edits {α : Type} {t : FieldType} {shape : Shape α}
    (h : shape.Alike Keys.spelling (Related t) shape) {v v' : Value}
    (edits : Relation.ReflTransGen (Edit t) v v') :
    upTo Keys.spelling (shape v) = upTo Keys.spelling (shape v') := by
  induction edits with
  | refl => rfl
  | tail _ edit ih => exact ih.trans (h _ _ (.inr edit))

/-- A document is read the same whichever way the keys of its fields are spelled, whatever other keys
    it has, and whatever stands in snake case beside a field in camel case: as the same node or
    scaffold, the fields that were written included, or with the same faults at the same places. -/
theorem reading_ignores_spelling :
    (∀ v v', Relation.ReflTransGen (Edit (.record .node)) v v' →
      upTo Keys.spelling (Node.read v) = upTo Keys.spelling (Node.read v')) ∧
    ∀ v v', Relation.ReflTransGen (Edit (.record .scaffold)) v v' →
      upTo Keys.spelling (Scaffold.read v) = upTo Keys.spelling (Scaffold.read v') :=
  ⟨fun _ _ => read_alike.edits, fun _ _ => scaffold_alike.edits⟩

/-- A field whose help is written under some key, with more members after it. -/
def deskField (help : String) (more : Object) : Value :=
  .object ([("type", .text "Field"), ("id", .text "name")] ++ (help, .text "?") :: more)

/-- A stack of one field, with more members after those it needs. -/
def deskStack (field : Value) (more : Object) : Value :=
  .object ([("type", .text "Stack"), ("widthPolicy", .text "fill"), ("id", .text "desk")] ++
    ("children", .list ([] ++ field :: [])) :: more)

/-- The help of the field is respelled, the field gets a member of no meaning, and the stack a wrong
    width policy in snake case. -/
theorem deskStack_edits : Relation.ReflTransGen (Edit (.record .node))
    (deskStack (deskField "helpText" []) [])
    (deskStack (deskField "help_text" [("note", .null)]) [("width_policy", .bool true)]) := by
  have slot : ∀ field more, Keys.children ∈ RecordType.node.keys
      ([("type", .text "Stack"), ("widthPolicy", .text "fill"), ("id", .text "desk")] ++
        ("children", .list ([] ++ field :: [])) :: more) := by
    intro field more
    exact (by decide : Keys.children ∈ Kind.stack.written)
  have respelled : Edit (.record .node) (deskField "helpText" []) (deskField "help_text" []) :=
    @Edit.respell .node _ _ Keys.helpText _ (by decide +kernel) (by decide)
  have added : Edit (.record .node) (deskField "help_text" [])
      (deskField "help_text" [("note", .null)]) :=
    @Edit.add .node [("type", .text "Field"), ("id", .text "name"), ("help_text", .text "?")] [] _ _
      (by decide +kernel)
  have shadowed : Edit (.record .node) (deskStack (deskField "help_text" [("note", .null)]) [])
      (deskStack (deskField "help_text" [("note", .null)]) [("width_policy", .bool true)]) :=
    @Edit.shadow .node ([("type", .text "Stack"), ("widthPolicy", .text "fill"), ("id", .text "desk"),
      ("children", .list [deskField "help_text" [("note", .null)]])]) [] Keys.widthPolicy _
      (by decide +kernel) (by decide) (by decide)
  exact ((Relation.ReflTransGen.single (.inside (slot _ _) (.inl rfl) (.item respelled))).tail
    (.inside (slot _ _) (.inl rfl) (.item added))).tail shadowed

/-- A document whose screen is a node. -/
def deskDocument (root : Value) : Value :=
  .object ([] ++ ("screen", .object ([("id", .text "screen")] ++ ("root", root) :: [])) :: [])

theorem deskDocument_edit {v v' : Value} (h : Edit (.record .node) v v') :
    Edit (.record .scaffold) (deskDocument v) (deskDocument v') := by
  have inScreen : Key.plain "root" ∈ Screen.keys := by decide
  have inScaffold : Key.plain "screen" ∈ Scaffold.keys := by decide
  have root : Edit (.record .screen) (.object ([("id", .text "screen")] ++ ("root", v) :: []))
      (.object ([("id", .text "screen")] ++ ("root", v') :: [])) :=
    @Edit.inside .screen _ _ (.plain "root") _ _ _ inScreen (.inl rfl) h
  exact @Edit.inside .scaffold _ _ (.plain "screen") _ _ _ inScaffold (.inl rfl) root

/-- The two desks are read, and as the same node; so are the documents that show them. -/
theorem desks_read_alike :
    (upTo Keys.spelling (Node.read (deskStack (deskField "helpText" []) [])) =
      upTo Keys.spelling (Node.read
        (deskStack (deskField "help_text" [("note", .null)]) [("width_policy", .bool true)]))) ∧
    (∃ n, Node.read (deskStack (deskField "helpText" []) []) = .ok n) ∧
    (upTo Keys.spelling (Scaffold.read (deskDocument (deskStack (deskField "helpText" []) []))) =
      upTo Keys.spelling (Scaffold.read (deskDocument
        (deskStack (deskField "help_text" [("note", .null)]) [("width_policy", .bool true)])))) ∧
    ∃ s, Scaffold.read (deskDocument (deskStack (deskField "helpText" []) [])) = .ok s :=
  ⟨reading_ignores_spelling.1 _ _ deskStack_edits, ⟨_, rfl⟩,
    reading_ignores_spelling.2 _ _ (deskStack_edits.lift deskDocument fun _ _ => deskDocument_edit),
    _, rfl⟩

end Wireframe
