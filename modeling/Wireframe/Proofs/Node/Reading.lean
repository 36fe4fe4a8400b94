import Wireframe.Cascade.Resolve
import Wireframe.Proofs.Record.Reading
import Wireframe.Proofs.Node.Writing

/-
  Wireframe.Proofs.Node.Reading — a node holds no more objects than the document it was read from.

  What is written of a node comes, field by field, from a value of the document. Most fields hold no
  objects; those that do hold no more than their values did, and fields of different keys have
  different values.

  Proved:
  - `Node.read_bounded`: the weight of a node that is read is at most the objects of its document.
  - `Node.read_blocks`: a node that is read from an object without `at` has no blocks.
-/

namespace Wireframe

open Value Reading

/-! ## Bounded shapes -/

/-- What the shape reads is no larger than the value was. -/
def Shape.Bounded {α : Type} (shape : Shape α) (size : α → Nat) : Prop :=
  ∀ v a, shape v = .ok a → size a ≤ v.objects

namespace Shape

variable {α : Type} {shape : Shape α} {size : α → Nat}

theorem Bounded.nullable (h : shape.Bounded size) : (nullable shape).Bounded (·.elim 0 size) := by
  intro v r hr
  rcases nullable_eq_ok hr with rfl | ⟨a, rfl, ha⟩
  · exact Nat.zero_le _
  · exact h v a ha

theorem Bounded.list (h : shape.Bounded size) : (list shape).Bounded fun as => (as.map size).sum := by
  intro v as has
  obtain ⟨items, rfl, each⟩ := list_eq_ok has
  show (as.map size).sum ≤ objectsItems items
  clear has
  induction each with
  | nil => exact Nat.le_refl _
  | cons hv _ ih =>
    have := h _ _ hv
    simp only [List.map_cons, List.sum_cons, objectsItems]
    omega

theorem Bounded.dictionary (h : shape.Bounded size) :
    (dictionary shape).Bounded fun es => (es.map (size ·.2)).sum + 1 := by
  intro v es hes
  obtain ⟨members, rfl, each⟩ := dictionary_eq_ok hes
  show (es.map (size ·.2)).sum + 1 ≤ objectsMembers members + 1
  clear hes
  induction each with
  | nil => exact Nat.le_refl _
  | cons hm _ ih =>
    have := h _ _ hm.2
    simp only [List.map_cons, List.sum_cons, objectsMembers]
    omega

theorem bounded_record {name : String} {r : Reading α}
    (h : ∀ o a, r.Reads o a → size a ≤ objectsMembers o + 1) : (record name r).Bounded size := by
  intro v a ha
  obtain ⟨o, rfl, hr⟩ := record_eq_ok ha
  exact h o a hr

/-- Whatever a record is read from is an object. -/
theorem record_is_object {name : String} {r : Reading α} : (record name r).Bounded fun _ => 1 :=
  bounded_record fun _ _ _ => Nat.le_add_left ..

/-- An untyped object is read as it is. -/
theorem dictionary_untyped {v : Value} {o : Object} (h : dictionary untyped v = .ok o) :
    v = .object o := by
  obtain ⟨members, rfl, each⟩ := dictionary_eq_ok h
  have same : members = o := by
    clear h
    induction each with
    | nil => rfl
    | cons hm _ ih => rw [ih, Prod.ext hm.1 (Except.ok.inj hm.2)]
  rw [same]

end Shape

namespace Reading

variable {α : Type} {shape : Shape α} {size : α → Nat} {key : Key} {o : Object}

theorem nullable_cost (h : shape.Bounded size) {r : Option α} (hr : (nullable key shape).Reads o r) :
    r.elim 0 size ≤ key.cost o := by
  rcases reads_nullable hr with rfl | ⟨used, v, a, rfl, found, ha⟩
  · exact Nat.zero_le _
  · rw [Key.cost_of_find? found]
    exact h v a ha

theorem optional_cost (h : shape.Bounded size) {default a : α} (empty : size default = 0)
    (ha : (optional key shape default).Reads o a) : size a ≤ key.cost o := by
  rcases reads_optional ha with ⟨-, rfl⟩ | ⟨used, v, found, hv⟩
  · omega
  · rw [Key.cost_of_find? found]
    exact h v a hv

end Reading

/-! ## The objects of what is written -/

namespace Value

@[simp] theorem objects_null : objects .null = 0 := rfl
@[simp] theorem objects_bool (b : Bool) : objects (.bool b) = 0 := rfl
@[simp] theorem objects_number (n : Number) : objects (.number n) = 0 := rfl
@[simp] theorem objects_int (n : Int) : (int n).objects = 0 := rfl
@[simp] theorem objects_real (x : Float) : (real x).objects = 0 := rfl
@[simp] theorem objects_text (s : String) : objects (.text s) = 0 := rfl
@[simp] theorem objects_object (o : Object) : objects (.object o) = objectsMembers o + 1 := rfl

@[simp] theorem objects_texts (ss : List String) : (texts ss).objects = 0 := by
  show objectsItems (ss.map .text) = 0
  rw [objectsItems_eq_sum, List.map_map]
  exact List.sum_eq_zero (by simp)

@[simp] theorem objects_orNull {α : Type} (f : α → Value) (r : Option α) :
    (orNull f r).objects = r.elim 0 fun a => (f a).objects := by cases r <;> rfl

end Value

@[simp] theorem objects_spacing (s : Spacing Float) : (s.write .exact).objects = 0 := by
  cases s <;> rfl

namespace Node

@[simp] theorem elim_zero {α : Type} (r : Option α) : r.elim 0 (fun _ => 0) = 0 := by cases r <;> rfl

@[simp] theorem objects_boundsValue (b : Bounds) : (boundsValue .exact b).objects = 1 := by
  simp [boundsValue, Writing.fields, objectsMembers]

@[simp] theorem objects_disclosureValue (d : Disclosure) : (disclosureValue .exact d).objects = 1 := by
  simp [disclosureValue, Writing.fields, objectsMembers]

@[simp] theorem objects_guidedFlowValue (g : GuidedFlow) : (guidedFlowValue .exact g).objects = 1 := by
  simp [guidedFlowValue, Writing.fields, objectsMembers]

@[simp] theorem objects_narrowingValue (n : Narrowing) : (narrowingValue .exact n).objects = 1 := by
  simp [narrowingValue, Writing.fields, objectsMembers]

@[simp] theorem objects_behaviorsValue (b : Behaviors) : (behaviorsValue .exact b).objects =
    b.disclosure.elim 0 (fun _ => 1) + b.guidedFlow.elim 0 (fun _ => 1) + 1 := by
  simp [behaviorsValue, Writing.fields, objectsMembers]

theorem objects_overridesValue (blocks : Blocks) : (overridesValue .exact blocks).objects =
    (blocks.map fun b => b.2.elim 0 fun o => objectsMembers o + 1).sum + 1 := by
  have plain : ∀ o : Object, o.map (fun m => (m.1, Writing.exact.untyped m.2)) = o := fun o => by
    simp [Writing.untyped]
  simp only [overridesValue, Writing.keyed, Writing.dictionary, bne_self_eq_false, Bool.false_and,
    Bool.false_eq_true, if_false, objects_object, objectsMembers_eq_sum, List.map_map,
    Function.comp_def, objects_orNull, plain]

/-- The objects in the header of a node that is written. -/
theorem objects_headerFields (h : Header) : objectsMembers (headerFields .exact h) =
    h.minSize.elim 0 (fun _ => 1) + h.maxSize.elim 0 (fun _ => 1) +
      h.overrides.elim 0 (fun b => (overridesValue .exact b).objects) +
      h.behaviors.elim 0 fun b => (behaviorsValue .exact b).objects := by
  simp only [headerFields, objectsMembers, objects_text, objects_bool, objects_orNull,
    objects_boundsValue, objects_texts, objects_int, elim_zero]
  omega

theorem weight_assemble (h : Header) (k : Kind) (rest : Object) :
    (assemble .exact h k rest).objects =
      objectsMembers (headerFields .exact h) + objectsMembers rest + 1 := by
  simp only [assemble, Writing.fields, objects_object, objectsMembers_append, objectsMembers,
    objects_text]
  omega

theorem objects_writeAll (ns : List Node) :
    objects (.list (writeAll .exact ns)) = (ns.map weight).sum := by
  show objectsItems (writeAll .exact ns) = _
  rw [objectsItems_eq_sum, writeAll_eq_map, List.map_map]
  rfl

/-- The objects of a node besides its own and those in its header. -/
def contentWeight : Node → Nat
  | stack _ _ cs | grid _ _ cs => (cs.map weight).sum
  | box _ _ c => c.elim 0 weight
  | form _ _ fs as => (fs.map weight).sum + (as.map weight).sum
  | table _ t => t.responsive.elim 0 fun _ => 1
  | text .. | button .. | field .. => 0

theorem weight_eq (n : Node) :
    n.weight = objectsMembers (headerFields .exact n.header) + n.contentWeight + 1 := by
  cases n with
  | stack h s cs =>
    rw [weight, write, weight_assemble]
    simp [objectsMembers, stackFields, objects_writeAll, contentWeight, header]
  | grid h g cs =>
    rw [weight, write, weight_assemble]
    simp [objectsMembers, gridFields, objects_writeAll, contentWeight, header]
  | box h p c =>
    cases c with
    | none =>
      rw [weight, write, weight_assemble]
      simp [objectsMembers, contentWeight, header]
    | some c =>
      rw [weight, write, weight_assemble]
      simp [objectsMembers, contentWeight, header, weight]
  | text h t =>
    rw [weight, write, weight_assemble]
    simp [objectsMembers, textFields, contentWeight, header]
  | button h b =>
    rw [weight, write, weight_assemble]
    simp [objectsMembers, buttonFields, contentWeight, header]
  | field h f =>
    rw [weight, write, weight_assemble]
    simp [objectsMembers, fieldFields, contentWeight, header]
  | form h f fs as =>
    rw [weight, write, weight_assemble]
    simp [objectsMembers, objects_writeAll, contentWeight, header]
  | table h t =>
    rw [weight, write, weight_assemble]
    simp [objectsMembers, tableFields, contentWeight, header]

/-- A child weighs less than its parent. -/
theorem weight_child_lt {n c : Node} (h : c ∈ n.children) : c.weight < n.weight := by
  have among : ∀ ns : List Node, c ∈ ns → c.weight ≤ (ns.map weight).sum := fun ns hc =>
    List.le_sum_of_mem (List.mem_map_of_mem hc)
  rw [n.weight_eq]
  cases n with
  | stack hd s cs => have := among cs h; simp only [contentWeight]; omega
  | grid hd g cs => have := among cs h; simp only [contentWeight]; omega
  | box hd p child =>
    cases Option.mem_toList.mp h
    simp only [contentWeight, Option.elim_some]; omega
  | form hd f fs as =>
    simp only [contentWeight]
    rcases List.mem_append.mp h with hf | ha
    · have := among fs hf; omega
    · have := among as ha; omega
  | text | button | field | table => cases h

end Node

/-! ## The fields of a header -/

namespace Reading

theorem block_bounded : block.Bounded fun o => objectsMembers o + 1 := by
  intro v o h
  rw [Shape.dictionary_untyped h]
  exact Nat.le_refl _

theorem overrides_bounded :
    (Shape.dictionary (Shape.nullable block)).Bounded fun b => (Node.overridesValue .exact b).objects := by
  intro v b h
  show (Node.overridesValue .exact b).objects ≤ v.objects
  rw [Node.objects_overridesValue]
  exact block_bounded.nullable.dictionary v b h

theorem behaviors_bounded :
    (Shape.record "Behaviors" behaviors).Bounded fun b => (Node.behaviorsValue .exact b).objects := by
  refine Shape.bounded_record fun o b h => ?_
  obtain ⟨f₀, given, h₀, rfl⟩ := reads_noted h
  obtain ⟨f₁, flow, h₁, hflow, rfl⟩ := reads_seq.mp h₀
  obtain ⟨disclosure, hdisclosure, rfl⟩ := reads_map.mp h₁
  have hd := nullable_cost Shape.record_is_object hdisclosure
  have hg := nullable_cost Shape.record_is_object hflow
  have keys := @Key.sum_cost_le [Keys.disclosure, Keys.guidedFlow] (by decide) o
  simp only [List.map_cons, List.map_nil, List.sum_cons, List.sum_nil] at keys
  rw [Node.objects_behaviorsValue]
  dsimp only
  omega

/-- The fields of a header, as they stand in an object. -/
structure HeaderFields (o : Object) (h : Header) : Prop where
  id : (required Keys.id Shape.text).Reads o h.id
  visible : (optional Keys.visible Shape.boolean true).Reads o h.visible
  widthPolicy : (optional Keys.widthPolicy (Shape.choice SizePolicy.words) .hug).Reads o h.widthPolicy
  heightPolicy :
    (optional Keys.heightPolicy (Shape.choice SizePolicy.words) .hug).Reads o h.heightPolicy
  minSize : (nullable Keys.minSize (Shape.record "Size" bounds)).Reads o h.minSize
  maxSize : (nullable Keys.maxSize (Shape.record "Size" bounds)).Reads o h.maxSize
  overrides :
    (nullable Keys.overrides (Shape.dictionary (Shape.nullable block))).Reads o h.overrides
  pattern : (nullable Keys.pattern Shape.text).Reads o h.pattern
  behaviors : (nullable Keys.behaviors (Shape.record "Behaviors" behaviors)).Reads o h.behaviors
  affordances : (nullable Keys.affordances (Shape.list Shape.text)).Reads o h.affordances
  focusable : (nullable Keys.focusable Shape.boolean).Reads o h.focusable
  tabIndex : (nullable Keys.tabIndex Shape.integer).Reads o h.tabIndex

theorem header_reads {o : Object} {h : Header} (reads : header.Reads o h) : HeaderFields o h := by
  -- The fields come off from the last one to the first.
  obtain ⟨f₀, given, h₀, rfl⟩ := reads_noted reads
  obtain ⟨f₁, tabIndex, h₁, htabIndex, rfl⟩ := reads_seq.mp h₀
  obtain ⟨f₂, focusable, h₂, hfocusable, rfl⟩ := reads_seq.mp h₁
  obtain ⟨f₃, affordances, h₃, haffordances, rfl⟩ := reads_seq.mp h₂
  obtain ⟨f₄, behaviors, h₄, hbehaviors, rfl⟩ := reads_seq.mp h₃
  obtain ⟨f₅, pattern, h₅, hpattern, rfl⟩ := reads_seq.mp h₄
  obtain ⟨f₆, overrides, h₆, hoverrides, rfl⟩ := reads_seq.mp h₅
  obtain ⟨f₇, maxSize, h₇, hmaxSize, rfl⟩ := reads_seq.mp h₆
  obtain ⟨f₈, minSize, h₈, hminSize, rfl⟩ := reads_seq.mp h₇
  obtain ⟨f₉, height, h₉, hheight, rfl⟩ := reads_seq.mp h₈
  obtain ⟨f₁₀, width, h₁₀, hwidth, rfl⟩ := reads_seq.mp h₉
  obtain ⟨f₁₁, visible, h₁₁, hvisible, rfl⟩ := reads_seq.mp h₁₀
  obtain ⟨id, hid, rfl⟩ := reads_map.mp h₁₁
  exact ⟨hid, hvisible, hwidth, hheight, hminSize, hmaxSize, hoverrides, hpattern, hbehaviors,
    haffordances, hfocusable, htabIndex⟩

def headerKeys : List Key := [Keys.minSize, Keys.maxSize, Keys.overrides, Keys.behaviors]

theorem header_cost {o : Object} {h : Header} (hr : header.Reads o h) :
    objectsMembers (Node.headerFields .exact h) ≤ (headerKeys.map (·.cost o)).sum := by
  have fields := header_reads hr
  have := nullable_cost Shape.record_is_object fields.minSize
  have := nullable_cost Shape.record_is_object fields.maxSize
  have := nullable_cost overrides_bounded fields.overrides
  have := nullable_cost behaviors_bounded fields.behaviors
  rw [Node.objects_headerFields]
  simp only [headerKeys, List.map_cons, List.map_nil, List.sum_cons, List.sum_nil]
  omega

/-! ## The fields of a kind -/

/-- The keys of the fields of a kind that hold objects. -/
def contentKeys : Kind → List Key
  | .stack | .grid => [Keys.children]
  | .box => [Keys.child]
  | .form => [Keys.fields, Keys.actions]
  | .table => [Keys.responsive]
  | .text | .button | .field => []

/-- What a kind adds to a header holds no more objects than its values. -/
theorem content_cost {child : Shape Node} (hchild : child.Bounded Node.weight) {k : Kind} {o : Object}
    {f : Header → Node} (hf : (content child k).Reads o f) (h : Header) :
    (f h).header = h ∧ (f h).contentWeight ≤ ((contentKeys k).map (·.cost o)).sum := by
  cases k with
  | stack =>
    obtain ⟨f₁, cs, h₁, hcs, rfl⟩ := reads_seq.mp hf
    obtain ⟨s, -, rfl⟩ := reads_map.mp h₁
    exact ⟨rfl, optional_cost hchild.list rfl hcs⟩
  | grid =>
    obtain ⟨f₁, cs, h₁, hcs, rfl⟩ := reads_seq.mp hf
    obtain ⟨g, -, rfl⟩ := reads_map.mp h₁
    exact ⟨rfl, optional_cost hchild.list rfl hcs⟩
  | box =>
    obtain ⟨f₁, c, h₁, hc, rfl⟩ := reads_seq.mp hf
    obtain ⟨p, -, rfl⟩ := reads_map.mp h₁
    exact ⟨rfl, nullable_cost hchild hc⟩
  | text => obtain ⟨t, -, rfl⟩ := reads_map.mp hf; exact ⟨rfl, Nat.zero_le _⟩
  | button => obtain ⟨b, -, rfl⟩ := reads_map.mp hf; exact ⟨rfl, Nat.zero_le _⟩
  | field => obtain ⟨f, -, rfl⟩ := reads_map.mp hf; exact ⟨rfl, Nat.zero_le _⟩
  | form =>
    obtain ⟨f₁, states, h₁, -, rfl⟩ := reads_seq.mp hf
    obtain ⟨f₂, actions, h₂, hactions, rfl⟩ := reads_seq.mp h₁
    obtain ⟨f₃, fields, h₃, hfields, rfl⟩ := reads_seq.mp h₂
    obtain ⟨title, -, rfl⟩ := reads_map.mp h₃
    exact ⟨rfl, Nat.add_le_add (optional_cost hchild.list rfl hfields)
      (optional_cost hchild.list rfl hactions)⟩
  | table =>
    obtain ⟨t, ht, rfl⟩ := reads_map.mp hf
    obtain ⟨f₁, states, h₁, -, rfl⟩ := reads_seq.mp ht
    obtain ⟨f₂, responsive, h₂, hresponsive, rfl⟩ := reads_seq.mp h₁
    obtain ⟨f₃, rows, h₃, -, rfl⟩ := reads_seq.mp h₂
    obtain ⟨f₄, columns, h₄, -, rfl⟩ := reads_seq.mp h₃
    obtain ⟨title, -, rfl⟩ := reads_map.mp h₄
    exact ⟨rfl, nullable_cost Shape.record_is_object hresponsive⟩

/-- A node holds no more objects than the object it was read from. -/
theorem node_cost {child : Shape Node} (hchild : child.Bounded Node.weight) {k : Kind} {o : Object}
    {n : Node} (hn : (node child k).Reads o n) :
    n.weight ≤ objectsMembers o + 1 ∧ (nullable Keys.overrides
      (Shape.dictionary (Shape.nullable block))).Reads o n.header.overrides := by
  obtain ⟨f₀, given, h₀, rfl⟩ := reads_noted hn
  obtain ⟨f₁, f, h₁, hf, rfl⟩ := reads_seq.mp h₀
  obtain ⟨h, hh, rfl⟩ := reads_map.mp h₁
  obtain ⟨own, content⟩ := content_cost hchild hf { h with given := given }
  have inHeader := header_cost hh
  have distinct : ((headerKeys ++ contentKeys k).flatMap Key.names).Nodup := by cases k <;> decide
  have all := Key.sum_cost_le distinct o
  rw [List.map_append, List.sum_append] at all
  constructor
  · have same : objectsMembers (Node.headerFields .exact { h with given := given }) =
        objectsMembers (Node.headerFields .exact h) := rfl
    show (f { h with given := given }).weight ≤ objectsMembers o + 1
    rw [Node.weight_eq, own, same]
    omega
  · show Reads _ o (f { h with given := given }).header.overrides
    rw [own]
    exact (header_reads hh).overrides

end Reading

/-! ## Nodes -/

namespace Node

theorem find?_name (k : Kind) : Kind.words.find? (·.1 == k.name) = some (k.name, k) := by
  cases k <;> decide

theorem name_of_found {name : String} {w : String × Kind}
    (found : Kind.words.find? (·.1 == name) = some w) : w.2.name = name := by
  have named : ∀ w ∈ Kind.words, w.2.name = w.1 := by decide
  rw [named w (List.mem_of_find?_eq_some found)]
  exact eq_of_beq (List.find?_some found :)

/-- What is read as a node is an object of one of the kinds, and says which. -/
theorem readWithin_eq_ok {d : Nat} {v : Value} {n : Node} (h : readWithin d v = .ok n) :
    ∃ d' o k, d = d' + 1 ∧ v = .object o ∧ Keyed.get? o "type" = some (.text k.name) ∧
      (node (readWithin d') k).Reads o n := by
  cases d with
  | zero => cases h
  | succ d =>
    cases v with
    | object o =>
      unfold readWithin at h
      split at h
      · cases h
      rename_i tag stands
      split at h
      · split at h
        · rename_i k found
          obtain ⟨⟨_, given⟩, hn, rfl⟩ := Result.map_eq_ok.mp (Shape.underPlace_eq_ok.mp h)
          exact ⟨d, o, k, rfl, rfl, by rw [stands, name_of_found found], given, hn⟩
        · cases h
      · cases h
    | null | bool | number | text | list => cases h

theorem readWithin_bounded (d : Nat) : Shape.Bounded (readWithin d) weight := by
  induction d with
  | zero =>
    intro v n h
    obtain ⟨_, _, _, e, -⟩ := readWithin_eq_ok h
    cases e
  | succ d ih =>
    intro v n h
    obtain ⟨_, o, k, e, rfl, -, hn⟩ := readWithin_eq_ok h
    cases e
    exact (node_cost ih hn).1

/-- A node holds no more objects than the document it was read from. -/
theorem read_bounded : Shape.Bounded read weight := fun v n h => readWithin_bounded v.depth v n h

/-- Without `at` in its document a node has no blocks. -/
theorem read_blocks {o : Object} {n : Node} (h : read (.object o) = .ok n)
    (absent : Keyed.get? o "at" = none) : n.blocks = [] := by
  obtain ⟨d, _, k, -, e, -, hn⟩ := readWithin_eq_ok h
  cases e
  rcases reads_nullable (node_cost (readWithin_bounded d) hn).2 with none_read | ⟨_, _, _, -, found, -⟩
  · rw [blocks, none_read]; rfl
  · have : Keys.overrides.find? o = none := by
      simp only [Key.find?, Keys.overrides, Key.plain, absent, Option.map_none]
    rw [this] at found
    cases found

end Node

end Wireframe
