import Wireframe.Proofs.Cascade.Overlay
import Wireframe.Proofs.Node.Document
import Wireframe.Proofs.Spelling

/-
  Wireframe.Proofs.Node.Fields — a node field by field.

  A node that was read has in each of its fields what the value of this field was read as, or the
  default when there was none. No field looks at the value of another one. So to know a field of
  what will be read it is enough to know what stands under its key, whatever else is in the object.

  The children are read to the depth that the whole object has. How deep they may be makes no
  difference as long as they are not deeper, so they are what each of them is read as on its own.

  Proved:
  - `read_fields`: every member of a node that was read, from the value of its field alone.
  - `bounds_parts`, `behaviors_parts`, `narrowing_parts`: the same for the records in its fields.
  - `dumped_again`: what a field of a node is written as is read as the same.
-/

namespace Wireframe

open Reading

/-! ## Fields -/

/-- A field of a record: what is written of it once a value was read, and what is written of it when
    there was none. A field without default has to be there. -/
structure Field where
  key : Key
  parse : Shape Value
  default : Option Value

namespace Field

variable {α : Type}

def optional (key : Key) (shape : Shape α) (default : α) (write : α → Value) : Field :=
  ⟨key, fun v => (shape v).map write, some (write default)⟩

def nullable (key : Key) (shape : Shape α) (write : α → Value) : Field :=
  optional key shape.nullable none (.orNull write)

def required (key : Key) (shape : Shape α) (write : α → Value) : Field :=
  ⟨key, fun v => (shape v).map write, none⟩

def choice [BEq α] (key : Key) (words : List (String × α)) (default : α) : Field :=
  optional key (Shape.choice words) default fun a => .text (wordOf words a)

def nodes (key : Key) : Field :=
  optional key (Shape.list Node.read) [] fun ns => .list (Node.writeAll .exact ns)

/-- The field has this value in a record that was read from an object. -/
def Holds (f : Field) (o : Object) (v : Value) : Prop :=
  match f.key.find? o with
  | some (_, u) => f.parse u = .ok v
  | none => f.default = some v

/-- A member of a record as it is written: the field of a record that was read from an object. -/
def Stands (o : Object) (f : Field) (m : String × Value) : Prop := m.1 = f.key.camel ∧ f.Holds o m.2

end Field

/-! ## The fields of every record -/

def Bounds.schema : List Field :=
  [.nullable Keys.width Shape.real .real, .nullable Keys.height Shape.real .real]

def Behaviors.schema : List Field :=
  [.nullable Keys.disclosure (.record "DisclosureBehavior" Reading.disclosure) (Node.disclosureValue .exact),
    .nullable Keys.guidedFlow (.record "GuidedFlowBehavior" Reading.guidedFlow) (Node.guidedFlowValue .exact)]

def Narrowing.schema : List Field :=
  [.nullable Keys.strategy Shape.text .text, .nullable Keys.minColumnWidth Shape.real .real]

namespace Field

def size (key : Key) : Field := nullable key (.record "Size" bounds) (Node.boundsValue .exact)

def behaviors : Field :=
  nullable Keys.behaviors (.record "Behaviors" Reading.behaviors) (Node.behaviorsValue .exact)

def responsive : Field :=
  nullable Keys.responsive (.record "TableResponsive" narrowing) (Node.narrowingValue .exact)

end Field

def Header.schema : List Field :=
  [.required Keys.id Shape.text .text, .optional Keys.visible Shape.boolean true .bool,
    .choice Keys.widthPolicy SizePolicy.words .hug, .choice Keys.heightPolicy SizePolicy.words .hug,
    .size Keys.minSize, .size Keys.maxSize,
    .nullable Keys.overrides (Shape.dictionary (Shape.nullable block)) (Node.overridesValue .exact),
    .nullable Keys.pattern Shape.text .text, .behaviors,
    .nullable Keys.affordances (Shape.list Shape.text) .texts,
    .nullable Keys.focusable Shape.boolean .bool, .nullable Keys.tabIndex Shape.integer .int]

def Kind.contentSchema : Kind → List Field
  | .stack => [.choice Keys.direction Direction.words .vertical,
      .nullable Keys.gap Spacing.read (Spacing.write .exact),
      .nullable Keys.padding Spacing.read (Spacing.write .exact),
      .choice Keys.align Align.words .start, .optional Keys.wrap Shape.boolean false .bool,
      .nodes Keys.children]
  | .grid => [.optional Keys.columns (Shape.integerFrom 1) 1 .int,
      .nullable Keys.gap Spacing.read (Spacing.write .exact),
      .nullable Keys.minColWidth Shape.real .real, .nodes Keys.children]
  | .box => [.nullable Keys.padding Spacing.read (Spacing.write .exact),
      .nullable Keys.child Node.read (Node.write .exact)]
  | .text => [.optional Keys.text Shape.text "" .text, .nullable Keys.fontSize Shape.real .real,
      .nullable Keys.maxLines Shape.integer .int,
      .nullable Keys.intrinsicTextWidth Shape.real .real]
  | .button => [.optional Keys.text Shape.text "" .text,
      .nullable Keys.roleHint (Shape.choice Emphasis.words)
        fun e => .text (wordOf Emphasis.words e)]
  | .field => [.optional Keys.label Shape.text "" .text, .nullable Keys.inputType Shape.text .text,
      .nullable Keys.required Shape.boolean .bool, .nullable Keys.helpText Shape.text .text,
      .nullable Keys.errorText Shape.text .text]
  | .form => [.nullable Keys.title Shape.text .text, .nodes Keys.fields, .nodes Keys.actions,
      .nullable Keys.states (Shape.list Shape.text) .texts]
  | .table => [.nullable Keys.title Shape.text .text,
      .optional Keys.columns (Shape.list Shape.text) [] .texts,
      .nullable Keys.rows Shape.integer .int, .responsive,
      .nullable Keys.states (Shape.list Shape.text) .texts]

/-- The fields of a kind of node besides its `type`. -/
def Kind.schema (k : Kind) : List Field := Header.schema ++ k.contentSchema

theorem Kind.schema_keys (k : Kind) : k.schema.map (·.key) = k.keys := by cases k <;> rfl

/-! ## Shapes that agree -/

namespace Shape

variable {α : Type} {shape shape' : Shape α} {v : Value}

theorem list_of_forall₂ {items : List Value} {as : List α}
    (each : List.Forall₂ (fun v a => shape v = .ok a) items as) :
    list shape (.list items) = .ok as := by
  suffices ∀ i, listFrom shape i items = .ok as from this 0
  induction each with
  | nil => exact fun _ => rfl
  | cons first _ ih =>
    intro i
    rw [listFrom, first, ih (i + 1)]
    rfl

theorem list_of {as : List α} (h : list shape v = .ok as)
    (agree : ∀ u a, u.depth ≤ v.depth → shape u = .ok a → shape' u = .ok a) :
    list shape' v = .ok as := by
  obtain ⟨items, rfl, each⟩ := list_eq_ok h
  have inside : ∀ u ∈ items, u.depth ≤ (Value.list items).depth := fun u hu =>
    Value.depth_le_items hu
  exact list_of_forall₂ (((List.forall₂_and_left _ _).mpr ⟨inside, each⟩).imp fun u a both =>
    agree u a both.1 both.2)

theorem nullable_of {r : Option α} (h : nullable shape v = .ok r)
    (agree : ∀ a, shape v = .ok a → shape' v = .ok a) : nullable shape' v = .ok r := by
  cases v with
  | null => exact h
  | bool | number | text | list | object =>
    obtain ⟨a, ha, rfl⟩ := Result.map_eq_ok.mp h
    exact Result.map_eq_ok.mpr ⟨a, agree a ha, rfl⟩

end Shape

/-! ## Fields that were read -/

namespace Field

variable {α : Type} {key : Key} {shape : Shape α} {o : Object} {a : α}

theorem holds_optional {default : α} (reads : (Reading.optional key shape default).Reads o a)
    (write : α → Value) : (optional key shape default write).Holds o (write a) := by
  unfold Holds
  rcases reads_optional reads with ⟨absent, rfl⟩ | ⟨used, v, found, hv⟩
  · simp only [optional, absent]
  · simp only [optional, found, hv, Except.map]

theorem holds_nullable {r : Option α} (reads : (Reading.nullable key shape).Reads o r)
    (write : α → Value) : (nullable key shape write).Holds o (.orNull write r) :=
  holds_optional reads _

theorem holds_required (reads : (Reading.required key shape).Reads o a) (write : α → Value) :
    (required key shape write).Holds o (write a) := by
  obtain ⟨used, v, found, hv⟩ := reads_required.mp reads
  simp only [Holds, required, found, hv, Except.map]

/-- What stands under the key in camel case is what the field is read from. -/
theorem Holds.parse {f : Field} {v u : Value} (h : f.Holds o v)
    (stands : Keyed.get? o f.key.camel = some u) : f.parse u = .ok v := by
  simpa only [Holds, Key.find?, stands] using h

theorem Holds.default {f : Field} {v : Value} (h : f.Holds o v) (absent : f.key.find? o = none) :
    f.default = some v := by
  simpa only [Holds, absent] using h

/-- Fields that were read stand each under its key. -/
theorem Stands.get? {fields : List Field} {members : Object}
    (stand : List.Forall₂ (Stands o) fields members)
    (distinct : (fields.map fun f => f.key.camel).Nodup) {f : Field} (hf : f ∈ fields) :
    ∃ v, Keyed.get? members f.key.camel = some v ∧ f.Holds o v := by
  induction stand with
  | nil => cases hf
  | @cons g m fields members own _ ih =>
    obtain ⟨fresh, distinct⟩ := List.nodup_cons.mp distinct
    rw [Keyed.get?, own.1]
    rcases List.mem_cons.mp hf with rfl | hf
    · exact ⟨m.2, if_pos BEq.rfl, own.2⟩
    · have other : g.key.camel ≠ f.key.camel := fun same =>
        fresh (List.mem_map.mpr ⟨f, hf, same.symm⟩)
      rw [if_neg (by simpa using other)]
      exact ih distinct hf

end Field

namespace Reading

variable {o : Object}

/-- The two fields of a record of two. -/
theorem pair_parts {α β γ : Type} {k₁ k₂ : Key} {s₁ : Shape α} {s₂ : Shape β}
    {make : Option α → Option β → List String → γ} {f : α → Value} {g : β → Value}
    (write : γ → Object) (written : ∀ a b given,
      write (make a b given) = [(k₁.camel, .orNull f a), (k₂.camel, .orNull g b)]) {c : γ}
    (reads : (noted (make <$> nullable k₁ s₁ <*> nullable k₂ s₂)).Reads o c) :
    List.Forall₂ (Field.Stands o) [.nullable k₁ s₁ f, .nullable k₂ s₂ g] (write c) := by
  obtain ⟨f₀, given, h₀, rfl⟩ := reads_noted reads
  obtain ⟨f₁, second, h₁, hsecond, rfl⟩ := reads_seq.mp h₀
  obtain ⟨first, hfirst, rfl⟩ := reads_map.mp h₁
  rw [written]
  exact .cons ⟨rfl, Field.holds_nullable hfirst f⟩ (.cons ⟨rfl, Field.holds_nullable hsecond g⟩ .nil)

theorem bounds_parts {b : Bounds} (reads : bounds.Reads o b) :
    List.Forall₂ (Field.Stands o) Bounds.schema (Node.boundsValue .exact b).members :=
  pair_parts (fun b => (Node.boundsValue .exact b).members) (fun _ _ _ => rfl) reads

theorem behaviors_parts {b : Behaviors} (reads : behaviors.Reads o b) :
    List.Forall₂ (Field.Stands o) Behaviors.schema (Node.behaviorsValue .exact b).members :=
  pair_parts (fun b => (Node.behaviorsValue .exact b).members) (fun _ _ _ => rfl) reads

theorem narrowing_parts {n : Narrowing} (reads : narrowing.Reads o n) :
    List.Forall₂ (Field.Stands o) Narrowing.schema (Node.narrowingValue .exact n).members :=
  pair_parts (fun n => (Node.narrowingValue .exact n).members) (fun _ _ _ => rfl) reads

/-- What a record in a field is written as: null, or an object with every part of it. -/
def Field.HoldsRecord (parts : List Field) (v u : Value) : Prop :=
  (v = .null ∧ u = .null) ∨ ∃ o members, v = .object o ∧ u = .object members ∧
    List.Forall₂ (Field.Stands o) parts members

/-- What a field was read as that holds a record or null. -/
theorem parse_record {α : Type} {key : Key} {name : String} {r : Reading α} {write : α → Value}
    {parts : List Field} (object : ∀ a, write a = .object (write a).members)
    (made : ∀ o a, r.Reads o a → List.Forall₂ (Field.Stands o) parts (write a).members) {v u : Value}
    (h : (Field.nullable key (.record name r) write).parse v = .ok u) :
    Field.HoldsRecord parts v u := by
  obtain ⟨r?, hr, rfl⟩ := Result.map_eq_ok.mp h
  cases v with
  | null => cases hr; exact .inl ⟨rfl, rfl⟩
  | object o =>
    obtain ⟨a, ha, rfl⟩ := Result.map_eq_ok.mp hr
    obtain ⟨_, same, reads⟩ := record_eq_ok ha
    cases same
    exact .inr ⟨o, _, rfl, object a, made o a reads⟩
  | bool | number | text | list => cases hr

theorem header_fields {h : Header} (f : HeaderFields o h) :
    List.Forall₂ (Field.Stands o) Header.schema (Node.headerFields .exact h) :=
  .cons ⟨rfl, Field.holds_required f.id _⟩ <|
  .cons ⟨rfl, Field.holds_optional f.visible _⟩ <|
  .cons ⟨rfl, Field.holds_optional f.widthPolicy _⟩ <|
  .cons ⟨rfl, Field.holds_optional f.heightPolicy _⟩ <|
  .cons ⟨rfl, Field.holds_nullable f.minSize _⟩ <|
  .cons ⟨rfl, Field.holds_nullable f.maxSize _⟩ <|
  .cons ⟨rfl, Field.holds_nullable f.overrides _⟩ <|
  .cons ⟨rfl, Field.holds_nullable f.pattern _⟩ <|
  .cons ⟨rfl, Field.holds_nullable f.behaviors _⟩ <|
  .cons ⟨rfl, Field.holds_nullable f.affordances _⟩ <|
  .cons ⟨rfl, Field.holds_nullable f.focusable _⟩ <|
  .cons ⟨rfl, Field.holds_nullable f.tabIndex _⟩ .nil

/-- The fields of a kind, each as it was read. -/
theorem content_fields {k : Kind} {c : Header → Node} (reads : (content Node.read k).Reads o c)
    (h : Header) : List.Forall₂ (Field.Stands o) k.contentSchema ((c h).contentFields .exact) := by
  cases k with
  | stack =>
    obtain ⟨f₁, cs, h₁, hcs, rfl⟩ := reads_seq.mp reads
    obtain ⟨s, hs, rfl⟩ := reads_map.mp h₁
    obtain ⟨f₂, wrap, h₂, hwrap, rfl⟩ := reads_seq.mp hs
    obtain ⟨f₃, align, h₃, halign, rfl⟩ := reads_seq.mp h₂
    obtain ⟨f₄, padding, h₄, hpadding, rfl⟩ := reads_seq.mp h₃
    obtain ⟨f₅, gap, h₅, hgap, rfl⟩ := reads_seq.mp h₄
    obtain ⟨direction, hdirection, rfl⟩ := reads_map.mp h₅
    exact .cons ⟨rfl, Field.holds_optional hdirection _⟩ <|
      .cons ⟨rfl, Field.holds_nullable hgap _⟩ <|
      .cons ⟨rfl, Field.holds_nullable hpadding _⟩ <|
      .cons ⟨rfl, Field.holds_optional halign _⟩ <|
      .cons ⟨rfl, Field.holds_optional hwrap _⟩ <| .cons ⟨rfl, Field.holds_optional hcs _⟩ .nil
  | grid =>
    obtain ⟨f₁, cs, h₁, hcs, rfl⟩ := reads_seq.mp reads
    obtain ⟨g, hg, rfl⟩ := reads_map.mp h₁
    obtain ⟨f₂, width, h₂, hwidth, rfl⟩ := reads_seq.mp hg
    obtain ⟨f₃, gap, h₃, hgap, rfl⟩ := reads_seq.mp h₂
    obtain ⟨columns, hcolumns, rfl⟩ := reads_map.mp h₃
    exact .cons ⟨rfl, Field.holds_optional hcolumns _⟩ <|
      .cons ⟨rfl, Field.holds_nullable hgap _⟩ <|
      .cons ⟨rfl, Field.holds_nullable hwidth _⟩ <| .cons ⟨rfl, Field.holds_optional hcs _⟩ .nil
  | box =>
    obtain ⟨f₁, inner, h₁, hinner, rfl⟩ := reads_seq.mp reads
    obtain ⟨padding, hpadding, rfl⟩ := reads_map.mp h₁
    exact .cons ⟨rfl, Field.holds_nullable hpadding _⟩ <|
      .cons ⟨rfl, Field.holds_nullable hinner _⟩ .nil
  | text =>
    obtain ⟨t, ht, rfl⟩ := reads_map.mp reads
    obtain ⟨f₁, width, h₁, hwidth, rfl⟩ := reads_seq.mp ht
    obtain ⟨f₂, lines, h₂, hlines, rfl⟩ := reads_seq.mp h₁
    obtain ⟨f₃, size, h₃, hsize, rfl⟩ := reads_seq.mp h₂
    obtain ⟨text, htext, rfl⟩ := reads_map.mp h₃
    exact .cons ⟨rfl, Field.holds_optional htext _⟩ <|
      .cons ⟨rfl, Field.holds_nullable hsize _⟩ <|
      .cons ⟨rfl, Field.holds_nullable hlines _⟩ <|
      .cons ⟨rfl, Field.holds_nullable hwidth _⟩ .nil
  | button =>
    obtain ⟨b, hb, rfl⟩ := reads_map.mp reads
    obtain ⟨f₁, role, h₁, hrole, rfl⟩ := reads_seq.mp hb
    obtain ⟨text, htext, rfl⟩ := reads_map.mp h₁
    exact .cons ⟨rfl, Field.holds_optional htext _⟩ <|
      .cons ⟨rfl, Field.holds_nullable hrole _⟩ .nil
  | field =>
    obtain ⟨b, hb, rfl⟩ := reads_map.mp reads
    obtain ⟨f₁, error, h₁, herror, rfl⟩ := reads_seq.mp hb
    obtain ⟨f₂, help, h₂, hhelp, rfl⟩ := reads_seq.mp h₁
    obtain ⟨f₃, required, h₃, hrequired, rfl⟩ := reads_seq.mp h₂
    obtain ⟨f₄, inputType, h₄, hinputType, rfl⟩ := reads_seq.mp h₃
    obtain ⟨label, hlabel, rfl⟩ := reads_map.mp h₄
    exact .cons ⟨rfl, Field.holds_optional hlabel _⟩ <|
      .cons ⟨rfl, Field.holds_nullable hinputType _⟩ <|
      .cons ⟨rfl, Field.holds_nullable hrequired _⟩ <|
      .cons ⟨rfl, Field.holds_nullable hhelp _⟩ <| .cons ⟨rfl, Field.holds_nullable herror _⟩ .nil
  | form =>
    obtain ⟨f₁, states, h₁, hstates, rfl⟩ := reads_seq.mp reads
    obtain ⟨f₂, actions, h₂, hactions, rfl⟩ := reads_seq.mp h₁
    obtain ⟨f₃, fields, h₃, hfields, rfl⟩ := reads_seq.mp h₂
    obtain ⟨title, htitle, rfl⟩ := reads_map.mp h₃
    exact .cons ⟨rfl, Field.holds_nullable htitle _⟩ <|
      .cons ⟨rfl, Field.holds_optional hfields _⟩ <|
      .cons ⟨rfl, Field.holds_optional hactions _⟩ <|
      .cons ⟨rfl, Field.holds_nullable hstates _⟩ .nil
  | table =>
    obtain ⟨t, ht, rfl⟩ := reads_map.mp reads
    obtain ⟨f₁, states, h₁, hstates, rfl⟩ := reads_seq.mp ht
    obtain ⟨f₂, responsive, h₂, hresponsive, rfl⟩ := reads_seq.mp h₁
    obtain ⟨f₃, rows, h₃, hrows, rfl⟩ := reads_seq.mp h₂
    obtain ⟨f₄, columns, h₄, hcolumns, rfl⟩ := reads_seq.mp h₃
    obtain ⟨title, htitle, rfl⟩ := reads_map.mp h₄
    exact .cons ⟨rfl, Field.holds_nullable htitle _⟩ <|
      .cons ⟨rfl, Field.holds_optional hcolumns _⟩ <|
      .cons ⟨rfl, Field.holds_nullable hrows _⟩ <|
      .cons ⟨rfl, Field.holds_nullable hresponsive _⟩ <|
      .cons ⟨rfl, Field.holds_nullable hstates _⟩ .nil

/-! ## Children on their own -/

/-- A shape that agrees on the value of its key reads a field the same. -/
theorem Reads.optional_of {α : Type} {key : Key} {shape shape' : Shape α} {default a : α}
    (reads : (optional key shape default).Reads o a)
    (agree : ∀ used v, key.find? o = some (used, v) → shape v = .ok a → shape' v = .ok a) :
    (optional key shape' default).Reads o a := by
  rcases reads_optional reads with ⟨absent, rfl⟩ | ⟨used, v, found, hv⟩
  · exact reads_optional_of_none absent
  · exact reads_optional_of_find? found (agree used v found hv)

/-- The children of a node may be read by any shape that agrees on what stands in the object. -/
theorem content_of {child child' : Shape Node} {k : Kind} {c : Header → Node}
    (reads : (content child k).Reads o c)
    (agree : ∀ v n, v.depth ≤ Value.depthMembers o → child v = .ok n → child' v = .ok n) :
    (content child' k).Reads o c := by
  have room : ∀ {key : Key} {used : String} {v : Value}, key.find? o = some (used, v) →
      v.depth ≤ Value.depthMembers o := fun found =>
    Value.depth_le_members (Key.find?_eq_some found).2
  have nodes : ∀ {key : Key} {cs : List Node}, (optional key (Shape.list child) []).Reads o cs →
      (optional key (Shape.list child') []).Reads o cs := fun reads =>
    reads.optional_of fun used v found hv =>
      Shape.list_of hv fun u n deep => agree u n (Nat.le_trans deep (room found))
  cases k with
  | stack | grid =>
    obtain ⟨f₁, cs, h₁, hcs, rfl⟩ := reads_seq.mp reads
    exact h₁.seq (nodes hcs)
  | box =>
    obtain ⟨f₁, inner, h₁, hinner, rfl⟩ := reads_seq.mp reads
    exact h₁.seq (hinner.optional_of fun used v found hv =>
      Shape.nullable_of hv fun n => agree v n (room found))
  | form =>
    obtain ⟨f₁, states, h₁, hstates, rfl⟩ := reads_seq.mp reads
    obtain ⟨f₂, actions, h₂, hactions, rfl⟩ := reads_seq.mp h₁
    obtain ⟨f₃, fields, h₃, hfields, rfl⟩ := reads_seq.mp h₂
    exact ((h₃.seq (nodes hfields)).seq (nodes hactions)).seq hstates
  | text | button | field | table => exact reads

end Reading

/-! ## Records in fields -/

/-- A field that holds a record, with the fields of this: each of them is read on its own too. -/
structure RecordField where
  field : Field
  parts : List Field
  distinct : (parts.map fun p => p.key.camel).Nodup
  parse : ∀ {v u : Value}, field.parse v = .ok u → Field.HoldsRecord parts v u

namespace RecordField

def size (key : Key) : RecordField :=
  ⟨.size key, Bounds.schema, by decide, parse_record (fun _ => rfl) fun _ _ => bounds_parts⟩

def behaviors : RecordField :=
  ⟨.behaviors, Behaviors.schema, by decide, parse_record (fun _ => rfl) fun _ _ => behaviors_parts⟩

def responsive : RecordField :=
  ⟨.responsive, Narrowing.schema, by decide, parse_record (fun _ => rfl) fun _ _ => narrowing_parts⟩

end RecordField

def Kind.contentRecords : Kind → List RecordField
  | .table => [.responsive]
  | _ => []

/-- The fields of a kind of node that hold records. -/
def Kind.records (k : Kind) : List RecordField :=
  [.size Keys.minSize, .size Keys.maxSize, .behaviors] ++ k.contentRecords

theorem Kind.records_subset (k : Kind) : k.records.map (·.field) ⊆ k.schema := by
  rw [records, List.map_append]
  refine List.append_subset.mpr ⟨?_, ?_⟩
  · exact List.subset_append_of_subset_left _ (by simp [Header.schema, RecordField.size,
      RecordField.behaviors])
  · refine List.subset_append_of_subset_right _ ?_
    cases k <;> simp [contentRecords, contentSchema, RecordField.responsive]

/-! ## Nodes -/

namespace Node

/-- How deep a document may be for its reader makes no difference as long as it is not deeper. -/
theorem readWithin_iff {d : Nat} {v : Value} {n : Node} (room : v.depth ≤ d) :
    readWithin d v = .ok n ↔ read v = .ok n := by
  have alike := readWithin_alike d v.depth v v ⟨.inl rfl, room, Nat.le_refl _⟩
  have ok : ∀ e, upTo Keys.spelling (readWithin e v) = .ok n ↔ readWithin e v = .ok n :=
    fun e => Result.mapError_eq_ok
  rw [← ok, alike]
  exact ok _

theorem dumped_eq {n : Node} {key : String} (other : key ≠ "type") :
    n.dumped key = Keyed.get? (headerFields .exact n.header ++ n.contentFields .exact) key := by
  have differ : ¬("type" == key) = true := by simpa using other.symm
  rw [dumped, write_eq]
  show Keyed.get? (n.allFields .exact) key = _
  rw [allFields, Keyed.get?_append, Keyed.get?_append, Keyed.get?, if_neg differ]

theorem dumped_type (n : Node) : n.dumped "type" = some (.text n.kind.name) := by
  rw [dumped, write_eq]
  cases n <;> rfl

variable {o : Object} {n : Node}

/-- A node says its kind in the object that it is read from. -/
theorem read_type (h : read (.object o) = .ok n) :
    Keyed.get? o "type" = some (.text n.kind.name) := by
  obtain ⟨_, _, k, -, same, tag, reads⟩ := readWithin_eq_ok h
  cases same
  obtain ⟨hd, c, -, hc, rfl⟩ := node_reads reads
  rw [tag, (content_made hc _).1]

/-- Every field of a node that was read is what its value was read as, or its default. -/
theorem read_fields (h : read (.object o) = .ok n) :
    List.Forall₂ (Field.Stands o) n.kind.schema
      (headerFields .exact n.header ++ n.contentFields .exact) := by
  obtain ⟨d, _, k, deep, same, -, reads⟩ := readWithin_eq_ok h
  cases same
  obtain rfl : d = Value.depthMembers o := (Nat.succ.inj deep).symm
  obtain ⟨hd, c, fields, hc, rfl⟩ := node_reads reads
  obtain ⟨kind, header, -⟩ := content_made hc { hd with given := Key.noted k.keys o }
  have content := content_fields (content_of hc fun v n room => (readWithin_iff room).mp)
    { hd with given := Key.noted k.keys o }
  rw [kind, header]
  exact List.rel_append (header_fields fields) content

/-- The fields of a kind have different keys, none of them `type`. -/
theorem schema_distinct (k : Kind) : ("type" :: k.schema.map fun f => f.key.camel).Nodup := by
  have distinct := k.written_distinct
  rw [Kind.written, ← Kind.schema_keys, List.map_cons, List.map_map] at distinct
  exact distinct

theorem key_ne_type {k : Kind} {f : Field} (hf : f ∈ k.schema) : f.key.camel ≠ "type" := by
  intro same
  refine (List.nodup_cons.mp (schema_distinct k)).1 ?_
  rw [← same]
  exact List.mem_map_of_mem (f := fun f => f.key.camel) hf

/-- The same by the key of the field. -/
theorem read_dumped (h : read (.object o) = .ok n) {f : Field} (hf : f ∈ n.kind.schema) :
    ∃ v, n.dumped f.key.camel = some v ∧ f.Holds o v := by
  rw [dumped_eq (key_ne_type hf)]
  exact Field.Stands.get? (read_fields h) (List.nodup_cons.mp (schema_distinct _)).2 hf

/-! ## Fields that were written -/

theorem headerFields_noting (f : Noting) (names : List String) (h : Header) :
    headerFields .exact (h.noting f names) = headerFields .exact h := by
  have bounds : ∀ r : Option Bounds, Value.orNull (boundsValue .exact) (r.map (·.noting f)) =
      .orNull (boundsValue .exact) r := fun r => by cases r <;> rfl
  have behaviors : ∀ r : Option Behaviors,
      Value.orNull (behaviorsValue .exact) (r.map (·.noting f)) =
        .orNull (behaviorsValue .exact) r := by
    rintro (_ | ⟨_ | d, _ | g, given⟩) <;> rfl
  simp only [headerFields, Header.noting, Header.inside, bounds, behaviors]

/-- A node is written with all its fields whichever keys it keeps. -/
theorem write_noting (f : Noting) (n : Node) : (n.noting f).write .exact = n.write .exact := by
  induction n using byChildren with
  | step n ih =>
    have each : ∀ ns : List Node, (∀ m ∈ ns, m ∈ n.children) →
        writeAll .exact (notingAll f ns) = writeAll .exact ns := by
      intro ns within
      rw [notingAll_eq_map, writeAll_eq_map, writeAll_eq_map, List.map_map]
      exact List.map_congr_left fun m hm => ih m (within m hm)
    have own : ∀ (h : Header) (names : List String) (k : Kind) (rest : Object),
        assemble .exact (h.noting f names) k rest = assemble .exact h k rest := by
      intro h names k rest
      simp only [assemble, Writing.fields, headerFields_noting]
    cases n with
    | stack h s cs => simp only [noting, write, own, each cs fun _ hm => hm]
    | grid h g cs => simp only [noting, write, own, each cs fun _ hm => hm]
    | box h p c =>
      cases c with
      | none => simp only [noting, notingChild, write, own]
      | some c =>
        simp only [noting, notingChild, write, own, ih c (List.mem_singleton.mpr rfl)]
    | form h c fs as =>
      simp only [noting, write, own, each fs fun _ hm => List.mem_append_left _ hm,
        each as fun _ hm => List.mem_append_right _ hm]
    | table h t =>
      have narrowing : tableFields .exact { t with responsive := t.responsive.map (·.noting f) } =
          tableFields .exact t := by
        obtain ⟨title, columns, rows, _ | r, states⟩ := t <;> rfl
      simp only [noting, write, own, narrowing]
    | text | button | field => simp only [noting, write, own]

theorem kind_noting (f : Noting) (n : Node) : (n.noting f).kind = n.kind := by cases n <;> rfl

/-- A node that was read is one that is read from what it is written as, but for the keys it keeps. -/
theorem read_again {v : Value} (h : read v = .ok n) :
    ∃ m, read (.object (n.write .exact).members) = .ok m ∧ m.kind = n.kind ∧
      m.write .exact = n.write .exact := by
  have again := readWithin_again .exact h (fun m _ => m.kept_exact) (Nat.le_refl _)
  have object : n.write .exact = .object (n.write .exact).members := by rw [write_eq]; rfl
  exact ⟨_, object ▸ again, kind_noting _ n, write_noting _ n⟩

/-- What a field of a node is written as is read as the same. -/
theorem dumped_again {v : Value} (h : read v = .ok n) {f : Field} (hf : f ∈ n.kind.schema) :
    ∃ u, n.dumped f.key.camel = some u ∧ f.parse u = .ok u := by
  obtain ⟨m, hm, kind, same⟩ := read_again h
  obtain ⟨u, stands, holds⟩ := read_dumped hm (kind ▸ hf)
  rw [dumped, same] at stands
  exact ⟨u, stands, holds.parse stands⟩

end Node

end Wireframe
