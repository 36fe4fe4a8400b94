import Wireframe.Proofs.Cascade.Resolve
import Wireframe.Proofs.Node.RoundTrip

/-
  Wireframe.Proofs.Cascade.Mentioned — the conditions that a tree mentions.

  Blocks stand in maps, and every map stands under `at`: in a node, or in the document of a node
  that a block brings in, itself with blocks, to any depth. Resolving a node lays blocks over its
  document and reads the outcome. Neither step makes a map of its own: a map that comes out was in
  the node or in one of its blocks.

  Proved:
  - `conditionKeys_overlaid`: a document with blocks laid over it mentions what the node mentioned.
  - `read_mentions`: a node that is read mentions no more than its document.
  - `Called.conditionKeys_subset`: so what resolving a node comes to mentions no more than the node.
-/

namespace Wireframe

open Reading

namespace Value

mutual

/-- The keys of every map under `at`, at any depth. -/
def conditionKeys : Value → List String
  | .list items => conditionKeysItems items
  | .object members => conditionKeysMembers members
  | _ => []

def conditionKeysItems : List Value → List String
  | [] => []
  | v :: rest => v.conditionKeys ++ conditionKeysItems rest

def conditionKeysMembers : List (String × Value) → List String
  | [] => []
  | (k, v) :: rest =>
    (if k = "at" then v.members.map (·.1) else []) ++ v.conditionKeys ++ conditionKeysMembers rest

end

/-- The keys that one member of an object mentions. -/
def conditionKeysMember (m : String × Value) : List String :=
  (if m.1 = "at" then m.2.members.map (·.1) else []) ++ m.2.conditionKeys

theorem mem_conditionKeysItems {items : List Value} {key : String} :
    key ∈ conditionKeysItems items ↔ ∃ v ∈ items, key ∈ v.conditionKeys := by
  induction items with
  | nil => simp [conditionKeysItems]
  | cons v rest ih =>
    simp only [conditionKeysItems, List.mem_append, ih, List.mem_cons, exists_eq_or_imp]

theorem mem_conditionKeysMembers {members : Object} {key : String} :
    key ∈ conditionKeysMembers members ↔ ∃ m ∈ members, key ∈ conditionKeysMember m := by
  induction members with
  | nil => simp [conditionKeysMembers]
  | cons m rest ih =>
    simp only [conditionKeysMembers, List.mem_append, ih, List.mem_cons, exists_eq_or_imp,
      conditionKeysMember]

theorem mem_conditionKeysMember {m : String × Value} {key : String} :
    key ∈ conditionKeysMember m ↔
      (m.1 = "at" ∧ key ∈ m.2.members.map (·.1)) ∨ key ∈ m.2.conditionKeys := by
  unfold conditionKeysMember
  split
  · rename_i h; simp [h]
  · rename_i h; simp [h]

theorem conditionKeysMembers_append (a b : Object) :
    conditionKeysMembers (a ++ b) = conditionKeysMembers a ++ conditionKeysMembers b := by
  induction a with
  | nil => rfl
  | cons m rest ih => simp only [List.cons_append, conditionKeysMembers, ih, List.append_assoc]

/-- Objects with more members mention more. -/
theorem conditionKeysMembers_mono {a b : Object} (h : a ⊆ b) :
    conditionKeysMembers a ⊆ conditionKeysMembers b := by
  intro key hkey
  obtain ⟨m, hm, hkey⟩ := mem_conditionKeysMembers.mp hkey
  exact mem_conditionKeysMembers.mpr ⟨m, h hm, hkey⟩

/-! ## Values without maps -/

@[simp] theorem conditionKeys_null : conditionKeys .null = [] := rfl
@[simp] theorem conditionKeys_bool (b : Bool) : conditionKeys (.bool b) = [] := rfl
@[simp] theorem conditionKeys_int (n : Int) : (int n).conditionKeys = [] := rfl
@[simp] theorem conditionKeys_real (x : Float) : (real x).conditionKeys = [] := rfl
@[simp] theorem conditionKeys_text (s : String) : conditionKeys (.text s) = [] := rfl
@[simp] theorem conditionKeys_object (o : Object) :
    conditionKeys (.object o) = conditionKeysMembers o := rfl

@[simp] theorem conditionKeys_texts (ss : List String) : (texts ss).conditionKeys = [] := by
  rw [List.eq_nil_iff_forall_not_mem]
  intro key hkey
  obtain ⟨v, hv, hkey⟩ := mem_conditionKeysItems.mp (show key ∈ conditionKeysItems (ss.map .text) from hkey)
  obtain ⟨s, -, rfl⟩ := List.mem_map.mp hv
  cases hkey

@[simp] theorem conditionKeys_orNull {α : Type} (f : α → Value) (r : Option α) :
    (orNull f r).conditionKeys = r.elim [] fun a => (f a).conditionKeys := by cases r <;> rfl

end Value

open Value

@[simp] theorem conditionKeys_spacing (s : Spacing Float) : (s.write .exact).conditionKeys = [] := by
  cases s <;> rfl

@[simp] theorem elim_nil {α β : Type} (r : Option α) : r.elim ([] : List β) (fun _ => []) = [] := by
  cases r <;> rfl

/-! ## One object over another -/

namespace Object

/-- The members of an object that covers another come from the two. -/
theorem mem_cover {lower upper : Object} {m : String × Value} (h : m ∈ cover lower upper) :
    m ∈ lower ∨ m ∈ upper := by
  unfold cover at h
  induction upper generalizing lower with
  | nil => exact .inl h
  | cons u rest ih =>
    rcases ih h with h | h
    · rcases Keyed.mem_put h with h | rfl
      · exact .inl h
      · exact .inr List.mem_cons_self
    · exact .inr (List.mem_cons_of_mem _ h)

theorem conditionKeys_cover (k : String) (lower upper : Object) {key : String}
    (h : key ∈ conditionKeysMember (k, .object (cover lower upper))) :
    key ∈ conditionKeysMember (k, .object lower) ∨ key ∈ conditionKeysMember (k, .object upper) := by
  simp only [mem_conditionKeysMember, conditionKeys_object, members] at h ⊢
  rcases h with ⟨hk, h⟩ | h
  · obtain ⟨m, hm, rfl⟩ := List.mem_map.mp h
    rcases mem_cover hm with hm | hm
    · exact .inl (.inl ⟨hk, List.mem_map_of_mem hm⟩)
    · exact .inr (.inl ⟨hk, List.mem_map_of_mem hm⟩)
  · obtain ⟨m, hm, h⟩ := mem_conditionKeysMembers.mp h
    rcases mem_cover hm with hm | hm
    · exact .inl (.inr (mem_conditionKeysMembers.mpr ⟨m, hm, h⟩))
    · exact .inr (.inr (mem_conditionKeysMembers.mpr ⟨m, hm, h⟩))

theorem conditionKeys_put {o : Object} {k key : String} {v : Value}
    (h : key ∈ conditionKeysMembers (Keyed.put o k v)) :
    key ∈ conditionKeysMembers o ∨ key ∈ conditionKeysMember (k, v) := by
  obtain ⟨m, hm, h⟩ := mem_conditionKeysMembers.mp h
  rcases Keyed.mem_put hm with hm | rfl
  · exact .inl (mem_conditionKeysMembers.mpr ⟨m, hm, h⟩)
  · exact .inr h

theorem conditionKeys_layMember {o : Object} {k key : String} {v : Value}
    (h : key ∈ conditionKeysMembers (layMember o k v)) :
    key ∈ conditionKeysMembers o ∨ key ∈ conditionKeysMember (k, v) := by
  unfold layMember at h
  split at h
  · exact .inl h
  · rename_i upper lower found
    rcases conditionKeys_put h with h | h
    · exact .inl h
    · rcases conditionKeys_cover k lower upper h with h | h
      · exact .inl (mem_conditionKeysMembers.mpr ⟨_, Keyed.mem_of_get? found, h⟩)
      · exact .inr h
  · exact conditionKeys_put h

theorem conditionKeys_lay {o : Object} {block : Option Object} {key : String}
    (h : key ∈ conditionKeysMembers (lay o block)) :
    key ∈ conditionKeysMembers o ∨ key ∈ conditionKeysMembers (block.getD []) := by
  unfold lay at h
  generalize block.getD [] = upper at h ⊢
  induction upper generalizing o with
  | nil => exact .inl h
  | cons m rest ih =>
    rcases ih h with h | h
    · rcases conditionKeys_layMember h with h | h
      · exact .inl h
      · exact .inr (mem_conditionKeysMembers.mpr ⟨m, List.mem_cons_self, h⟩)
    · exact .inr (conditionKeysMembers_mono (List.subset_cons_self m rest) h)

/-- An object with blocks laid over it mentions what it did before, and what the blocks do. -/
theorem conditionKeys_layAll {o : Object} {blocks : Blocks} {key : String}
    (h : key ∈ conditionKeysMembers (blocks.foldl (fun o b => lay o b.2) o)) :
    key ∈ conditionKeysMembers o ∨ ∃ b ∈ blocks, key ∈ conditionKeysMembers (b.2.getD []) := by
  induction blocks generalizing o with
  | nil => exact .inl h
  | cons b rest ih =>
    rcases ih h with h | ⟨c, hc, h⟩
    · rcases conditionKeys_lay h with h | h
      · exact .inl h
      · exact .inr ⟨b, List.mem_cons_self, h⟩
    · exact .inr ⟨c, List.mem_cons_of_mem _ hc, h⟩

end Object

/-! ## Nodes -/

namespace Node

/-- The keys of all maps of blocks in the document of a tree, at its nodes and inside of blocks. -/
def conditionKeys (n : Node) : List String := (n.write .exact).conditionKeys

theorem exact_dictionary (o : Object) : Writing.exact.dictionary o = .object o := by
  simp [Writing.dictionary, Writing.keyed, Writing.untyped]

theorem exact_overridesValue (blocks : Blocks) : overridesValue .exact blocks =
    .object (blocks.map fun b => (b.1, .orNull .object b.2)) := by
  have same : Writing.exact.dictionary = .object := funext exact_dictionary
  simp only [overridesValue, Writing.keyed, same, bne_self_eq_false, Bool.false_and,
    Bool.false_eq_true, if_false]

/-- The keys of the blocks of a node are among those it mentions. -/
theorem key_mem_conditionKeys {n : Node} {b : String × Option Object} (h : b ∈ n.blocks) :
    b.1 ∈ n.conditionKeys ∧ conditionKeysMembers (b.2.getD []) ⊆ n.conditionKeys := by
  obtain ⟨members, written, hat⟩ := n.write_at
  obtain ⟨all, hall, hb⟩ : ∃ all, n.header.overrides = some all ∧ b ∈ all := by
    unfold blocks at h
    cases ho : n.header.overrides with
    | none => rw [ho] at h; cases h
    | some all => rw [ho] at h; exact ⟨all, rfl, h⟩
  rw [hall, orNull, exact_overridesValue] at hat
  have stands := Keyed.mem_of_get? hat
  have listed : (b.1, orNull Value.object b.2) ∈ all.map fun b => (b.1, orNull Value.object b.2) :=
    List.mem_map_of_mem hb
  unfold conditionKeys
  rw [written]
  constructor
  · exact mem_conditionKeysMembers.mpr ⟨_, stands, mem_conditionKeysMember.mpr
      (.inl ⟨rfl, List.mem_map_of_mem (f := (·.1)) listed⟩)⟩
  · intro key hkey
    refine mem_conditionKeysMembers.mpr ⟨_, stands, mem_conditionKeysMember.mpr (.inr ?_)⟩
    refine mem_conditionKeysMembers.mpr ⟨_, listed, mem_conditionKeysMember.mpr (.inr ?_)⟩
    cases ho : b.2 with
    | none => rw [ho] at hkey; cases hkey
    | some o => rw [ho] at hkey; exact hkey

/-- Blocks of a node that are laid over its document bring in no other keys. -/
theorem conditionKeys_overlaid {n : Node} {applied : Blocks} (h : applied ⊆ n.blocks) :
    conditionKeysMembers (n.overlaid applied) ⊆ n.conditionKeys := by
  intro key hkey
  obtain ⟨members, written, -⟩ := n.write_at
  have hkey := conditionKeysMembers_mono (List.filter_subset_self _) hkey
  rcases Object.conditionKeys_layAll hkey with hkey | ⟨b, hb, hkey⟩
  · unfold conditionKeys
    rw [written] at hkey ⊢
    exact hkey
  · exact (key_mem_conditionKeys (h hb)).2 hkey

/-! ## What is written -/

@[simp] theorem conditionKeys_boundsValue (b : Bounds) :
    (boundsValue .exact b).conditionKeys = [] := by
  simp [boundsValue, Writing.fields, conditionKeysMembers]

@[simp] theorem conditionKeys_behaviorsValue (b : Behaviors) :
    (behaviorsValue .exact b).conditionKeys = [] := by
  simp [behaviorsValue, disclosureValue, guidedFlowValue, Writing.fields, conditionKeysMembers]

@[simp] theorem conditionKeys_narrowingValue (n : Narrowing) :
    (narrowingValue .exact n).conditionKeys = [] := by
  simp [narrowingValue, Writing.fields, conditionKeysMembers]

/-- The keys that the blocks of a header mention. -/
def ownConditionKeys (h : Header) : List String :=
  conditionKeysMember ("at", .orNull (overridesValue .exact) h.overrides)

theorem conditionKeys_headerFields (h : Header) :
    conditionKeysMembers (headerFields .exact h) = ownConditionKeys h := by
  simp [headerFields, conditionKeysMembers, ownConditionKeys, conditionKeysMember]

theorem mem_conditionKeys_list {ns : List Node} {key : String} :
    key ∈ Value.conditionKeys (.list (writeAll .exact ns)) ↔ ∃ n ∈ ns, key ∈ n.conditionKeys := by
  rw [writeAll_eq_map]
  show key ∈ conditionKeysItems _ ↔ _
  rw [mem_conditionKeysItems]
  simp only [List.mem_map, exists_exists_and_eq_and]
  rfl

theorem mem_conditionKeys_contentFields {n : Node} {key : String} :
    key ∈ conditionKeysMembers (n.contentFields .exact) ↔
      ∃ c ∈ n.children, key ∈ c.conditionKeys := by
  cases n with
  | stack h s cs =>
    simp [contentFields, stackFields, conditionKeysMembers, mem_conditionKeys_list, children]
  | grid h g cs =>
    simp [contentFields, gridFields, conditionKeysMembers, mem_conditionKeys_list, children]
  | box h p c =>
    cases c with
    | none => simp [contentFields, conditionKeysMembers, children]
    | some c => simp [contentFields, conditionKeysMembers, children, conditionKeys]
  | form h f fs as =>
    simp [contentFields, conditionKeysMembers, mem_conditionKeys_list, children, or_and_right,
      exists_or]
  | text h t => simp [contentFields, textFields, conditionKeysMembers, children]
  | button h b => simp [contentFields, buttonFields, conditionKeysMembers, children]
  | field h f => simp [contentFields, fieldFields, conditionKeysMembers, children]
  | table h t => simp [contentFields, tableFields, conditionKeysMembers, children]

/-- A tree mentions what the blocks of its root do and what its children do. -/
theorem mem_conditionKeys {n : Node} {key : String} : key ∈ n.conditionKeys ↔
    key ∈ ownConditionKeys n.header ∨ ∃ c ∈ n.children, key ∈ c.conditionKeys := by
  have fields : n.conditionKeys = conditionKeysMembers (headerFields .exact n.header) ++
      conditionKeysMembers (n.contentFields .exact) := by
    unfold conditionKeys
    rw [write_eq]
    show conditionKeysMembers (n.allFields .exact) = _
    rw [allFields, conditionKeysMembers_append]
    rfl
  rw [fields, List.mem_append, conditionKeys_headerFields, mem_conditionKeys_contentFields]

theorem conditionKeys_child {n c : Node} (h : c ∈ n.children) : c.conditionKeys ⊆ n.conditionKeys :=
  fun _ hkey => mem_conditionKeys.mpr (.inr ⟨c, h, hkey⟩)

end Node

/-! ## What is read -/

/-- A node that the shape reads mentions no more than the value did. -/
def Shape.Mentions (shape : Shape Node) : Prop :=
  ∀ v n, shape v = .ok n → n.conditionKeys ⊆ v.conditionKeys

namespace Reading

theorem nullable_block {v : Value} {r : Option Object} (h : Shape.nullable block v = .ok r) :
    v = .orNull .object r := by
  unfold Shape.nullable at h
  split at h
  · cases h; rfl
  · obtain ⟨o, ho, rfl⟩ := Result.map_eq_ok.mp h
    exact Shape.dictionary_untyped ho

/-- Blocks are kept as they were written. -/
theorem overrides_kept {v : Value} {blocks : Blocks}
    (h : Shape.dictionary (Shape.nullable block) v = .ok blocks) :
    Node.overridesValue .exact blocks = v := by
  obtain ⟨members, rfl, each⟩ := Shape.dictionary_eq_ok h
  rw [Node.exact_overridesValue]
  refine congrArg Value.object ?_
  clear h
  induction each with
  | nil => rfl
  | cons hm _ ih => rw [List.map_cons, ih, ← nullable_block hm.2, ← hm.1]

theorem header_mentions {o : Object} {h : Header} (f : HeaderFields o h) :
    Node.ownConditionKeys h ⊆ conditionKeysMembers o := by
  rcases reads_nullable f.overrides with absent | ⟨used, v, blocks, present, found, hv⟩
  · simp [Node.ownConditionKeys, conditionKeysMember, absent, Value.orNull, Value.members]
  · obtain ⟨hused, stands⟩ := Key.find?_eq_some found
    obtain rfl : used = "at" := List.mem_singleton.mp hused
    intro key hkey
    rw [Node.ownConditionKeys, present, Value.orNull, overrides_kept hv] at hkey
    exact mem_conditionKeysMembers.mpr ⟨_, Keyed.mem_of_get? stands, hkey⟩

/-- What fills a slot from an object mentions no more than the object. -/
theorem Filled.mentions {child : Shape Node} (hchild : child.Mentions) {o : Object}
    {t : Slot} (h : Filled child o t) : t.node.conditionKeys ⊆ conditionKeysMembers o := by
  intro key hkey
  cases h with
  | @listed name items i v n _ stands hi read =>
    have inList : key ∈ conditionKeys (.list items) :=
      mem_conditionKeysItems.mpr ⟨v, List.mem_of_getElem? hi, hchild v n read hkey⟩
    exact mem_conditionKeysMembers.mpr ⟨_, Keyed.mem_of_get? stands,
      mem_conditionKeysMember.mpr (.inr inList)⟩
  | @alone v n stands read =>
    exact mem_conditionKeysMembers.mpr ⟨_, Keyed.mem_of_get? stands,
      mem_conditionKeysMember.mpr (.inr (hchild v n read hkey))⟩

end Reading

namespace Node

theorem readWithin_mentions (d : Nat) : Shape.Mentions (readWithin d) := by
  induction d with
  | zero =>
    intro v n h
    obtain ⟨_, _, _, e, -⟩ := readWithin_eq_ok h
    cases e
  | succ d ih =>
    intro v n h key hkey
    obtain ⟨_, o, k, e, rfl, -, hn⟩ := readWithin_eq_ok h
    cases e
    obtain ⟨hd, c, hhd, hc, rfl⟩ := node_reads hn
    obtain ⟨-, header, filled⟩ := content_filled hc { hd with given := Key.noted k.keys o }
    rcases mem_conditionKeys.mp hkey with hkey | ⟨m, hm, hkey⟩
    · rw [header] at hkey
      exact header_mentions hhd hkey
    · rw [← slots_nodes] at hm
      obtain ⟨t, ht, rfl⟩ := List.mem_map.mp hm
      exact (filled t ht).mentions ih hkey

/-- A node that is read mentions no more than its document. -/
theorem read_mentions : Shape.Mentions read := fun v n h =>
  readWithin_mentions v.depth v n h

/-! ## What is resolved -/

theorem conditionKeys_resolveOwn {width : Number} {n m : Node}
    (h : (n.resolveOwn width).result = .ok m) : m.conditionKeys ⊆ n.conditionKeys := by
  rcases resolveOwn_cases h with ⟨-, rfl⟩ | ⟨applied, -, ordered, hread⟩
  · exact List.Subset.refl _
  · exact List.Subset.trans (read_mentions _ m hread)
      (conditionKeys_overlaid (Blocks.ordered_subset ordered))

/-- What resolving a node comes to mentions no more than the node. -/
theorem Called.conditionKeys_subset {width : Number} {c n : Node} (h : Called width c n) :
    c.conditionKeys ⊆ n.conditionKeys := by
  obtain ⟨m, hm, hc⟩ := h
  exact List.Subset.trans (conditionKeys_child hc) (conditionKeys_resolveOwn hm)

end Node

end Wireframe
