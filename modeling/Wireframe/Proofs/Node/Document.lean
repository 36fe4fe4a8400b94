import Wireframe.Document
import Wireframe.Proofs.Node.RoundTrip

/-
  Wireframe.Proofs.Node.Document — which nodes are handed out as they are.

  A document that is handed out has no infinities and no not-a-number, and no halves of surrogate
  pairs in the keys of objects. Only override blocks and spacings can hold such things. A node where
  they do not is handed out, and what is handed out reads back as the node.

  Proved:
  - `Node.kept_of`: as it is, everything that nodes have themselves reads back, and so it does in
    documents where nothing has to be changed.
  - `Node.Unchanged.document`: such a node is handed out.
-/

namespace Wireframe

/-! ## Values -/

namespace Value

theorem membersHaveHalfKey_eq_any (o : Object) :
    membersHaveHalfKey o = o.any fun m => Text.hasHalf m.1 || m.2.hasHalfKey := by
  induction o with
  | nil => rfl
  | cons m rest ih => rw [membersHaveHalfKey, ih, List.any_cons]

theorem anyHalfKey_eq_any (items : List Value) : anyHalfKey items = items.any hasHalfKey := by
  induction items with
  | nil => rfl
  | cons v rest ih => rw [anyHalfKey, ih, List.any_cons]

theorem finiteMembers_eq_map (o : Object) : finiteMembers o = o.map fun m => (m.1, m.2.finite) := by
  induction o with
  | nil => rfl
  | cons m rest ih => rw [finiteMembers, ih, List.map_cons]

/-- Nothing of the value has to be changed in a document. -/
structure Unchanged (v : Value) : Prop where
  keys : v.hasHalfKey = false
  finite : v.finite = v

theorem Unchanged.finite_members {o : Object} (h : (object o).Unchanged) :
    (o.map fun m => (m.1, m.2.finite)) = o := by
  rw [← finiteMembers_eq_map]
  exact object.inj h.finite

theorem Unchanged.plain_keys {o : Object} (h : (object o).Unchanged) :
    (o.any fun m => Text.hasHalf m.1) = false := by
  have keys : membersHaveHalfKey o = false := h.keys
  rw [membersHaveHalfKey_eq_any, List.any_eq_false] at keys
  refine List.any_eq_false.mpr fun m hm half => keys m hm ?_
  rw [half, Bool.true_or]

/-! ### Values without halves in keys -/

theorem object_noHalf {o : Object} (names : List String) (same : o.map (·.1) = names)
    (plain : ∀ s ∈ names, Text.hasHalf s = false) (values : ∀ m ∈ o, m.2.hasHalfKey = false) :
    (object o).hasHalfKey = false := by
  show membersHaveHalfKey o = false
  rw [membersHaveHalfKey_eq_any, List.any_eq_false]
  intro m hm
  rw [plain m.1 (same ▸ List.mem_map_of_mem hm), values m hm]
  exact Bool.false_ne_true

theorem fields_noHalf (w : Writing) (given : List String) {all : Object}
    (h : (object all).hasHalfKey = false) : (object (w.fields given all)).hasHalfKey = false := by
  cases w with
  | exact | full => exact h
  | given =>
    show membersHaveHalfKey (all.filter _) = false
    rw [membersHaveHalfKey_eq_any, List.any_eq_false]
    have h : membersHaveHalfKey all = false := h
    rw [membersHaveHalfKey_eq_any, List.any_eq_false] at h
    exact fun m hm => h m (List.mem_of_mem_filter hm)

theorem list_noHalf {items : List Value} (h : ∀ v ∈ items, v.hasHalfKey = false) :
    (list items).hasHalfKey = false := by
  show anyHalfKey items = false
  rw [anyHalfKey_eq_any, List.any_eq_false]
  exact fun v hv => by rw [h v hv]; exact Bool.false_ne_true

theorem texts_noHalf (ss : List String) : (texts ss).hasHalfKey = false := by
  refine list_noHalf fun v hv => ?_
  obtain ⟨s, -, rfl⟩ := List.mem_map.mp hv
  rfl

theorem orNull_noHalf {α : Type} {f : α → Value} {r : Option α}
    (h : ∀ a ∈ r, (f a).hasHalfKey = false) : (orNull f r).hasHalfKey = false := by
  cases r with
  | none => rfl
  | some a => exact h a rfl

theorem spacing_noHalf (w : Writing) (s : Spacing Float) : (s.write w).hasHalfKey = false := by
  cases s with
  | length x => rfl
  | unlike => cases w <;> rfl

end Value

/-! ## Records -/

/-- A record of plain fields has no half of a surrogate pair in a key when no value has. -/
theorem Writing.record_noHalf (w : Writing) (given : List String) {all : Object} (keys : List Key)
    (same : all.map (·.1) = keys.map (·.camel)) (plain : ∀ k ∈ keys, Text.hasHalf k.camel = false)
    (values : ∀ m ∈ all, m.2.hasHalfKey = false) :
    (Value.object (w.fields given all)).hasHalfKey = false := by
  refine Value.fields_noHalf w given (Value.object_noHalf _ same (fun s hs => ?_) values)
  obtain ⟨k, hk, rfl⟩ := List.mem_map.mp hs
  exact plain k hk

/-! ## Override blocks -/

/-- An object of which nothing has to be changed is written as it is. -/
theorem Writing.dictionary_eq (w : Writing) {o : Object} (h : (Value.object o).Unchanged) :
    w.dictionary o = .object o := by
  have members : (o.map fun m => (m.1, w.untyped m.2)) = o := by
    cases w with
    | exact => exact List.map_id' o
    | full | given => exact h.finite_members
  rw [dictionary, members, keyed, h.plain_keys, Bool.and_false, if_neg Bool.false_ne_true]

/-- Nothing of override blocks has to be changed in a document. -/
def BlocksUnchanged (blocks : List (String × Option Object)) : Prop :=
  ∀ b ∈ blocks, Text.hasHalf b.1 = false ∧ ∀ o ∈ b.2, (Value.object o).Unchanged

namespace Node

variable {w : Writing}

theorem overridesValue_eq {blocks : List (String × Option Object)} (h : BlocksUnchanged blocks)
    (w : Writing) :
    overridesValue w blocks = .object (blocks.map fun b => (b.1, .orNull .object b.2)) := by
  have members : (blocks.map fun b => (b.1, Value.orNull w.dictionary b.2)) =
      blocks.map fun b => (b.1, Value.orNull .object b.2) := by
    refine List.map_congr_left fun b hb => ?_
    have own := (h b hb).2
    cases hb : b.2 with
    | none => rfl
    | some o => exact congrArg (Prod.mk b.1) (w.dictionary_eq (own o hb))
  have keys : ((blocks.map fun b => (b.1, Value.orNull .object b.2)).any fun m =>
      Text.hasHalf m.1) = false := by
    rw [List.any_map, List.any_eq_false]
    exact fun b hb => by rw [Function.comp_apply, (h b hb).1]; exact Bool.false_ne_true
  show Value.object (w.keyed (blocks.map fun b => (b.1, Value.orNull w.dictionary b.2))) = _
  rw [members, Writing.keyed, keys, Bool.and_false, if_neg Bool.false_ne_true]

theorem overridesValue_noHalf {blocks : List (String × Option Object)} (h : BlocksUnchanged blocks)
    (w : Writing) : (overridesValue w blocks).hasHalfKey = false := by
  rw [overridesValue_eq h]
  refine Value.object_noHalf _ rfl ?_ ?_
  · rw [List.map_map]
    intro s hs
    obtain ⟨b, hb, rfl⟩ := List.mem_map.mp hs
    exact (h b hb).1
  · intro m hm
    obtain ⟨b, hb, rfl⟩ := List.mem_map.mp hm
    exact Value.orNull_noHalf fun o ho => ((h b hb).2 o ho).keys

/-! ## Nodes -/

/-- Nothing of what a node has itself has to be changed in a document. -/
structure OwnUnchanged (n : Node) : Prop where
  spacings : Spacing.unlike ∉ n.spacings
  overrides : ∀ blocks ∈ n.header.overrides, BlocksUnchanged blocks

/-- Nothing of the tree has to be changed in a document. -/
def Unchanged (n : Node) : Prop := ∀ m ∈ n.allNodes, m.OwnUnchanged

theorem spacing_again {s : Spacing Float} (h : s = .unlike → w = .exact) :
    Spacing.read (s.write w) = .ok s := by
  cases s with
  | length x => rfl
  | unlike =>
    rw [h rfl]
    rfl

theorem kept_exact (n : Node) : n.Kept .exact :=
  ⟨fun _ _ => spacing_again fun _ => rfl, fun _ _ => rfl⟩

theorem OwnUnchanged.kept {n : Node} (h : n.OwnUnchanged) (w : Writing) : n.Kept w where
  spacings s hs := spacing_again fun same => absurd (same ▸ hs) h.spacings
  overrides b hb := by
    rw [overridesValue_eq (h.overrides b hb), overridesValue_eq (h.overrides b hb)]

/-- What a node has itself reads back as it is written, and so it does in documents where nothing
    has to be changed. -/
theorem kept_of {n : Node} (h : w = .exact ∨ n.Unchanged) : ∀ m ∈ n.allNodes, m.Kept w := by
  rcases h with rfl | h
  · exact fun m _ => m.kept_exact
  · exact fun m hm => (h m hm).kept w

/-! ## Documents -/

theorem boundsValue_noHalf (w : Writing) (b : Bounds) : (boundsValue w b).hasHalfKey = false := by
  refine w.record_noHalf _ Bounds.keys rfl (by decide +kernel) ?_
  simp only [List.forall_mem_cons]
  exact ⟨Value.orNull_noHalf fun _ _ => rfl, Value.orNull_noHalf fun _ _ => rfl,
    List.forall_mem_nil _⟩

theorem disclosureValue_noHalf (w : Writing) (d : Disclosure) :
    (disclosureValue w d).hasHalfKey = false := by
  refine w.record_noHalf _ Disclosure.keys rfl (by decide +kernel) ?_
  simp only [List.forall_mem_cons]
  exact ⟨rfl, Value.orNull_noHalf fun _ _ => rfl, Value.orNull_noHalf fun _ _ => rfl,
    Value.orNull_noHalf fun _ _ => rfl, List.forall_mem_nil _⟩

theorem guidedFlowValue_noHalf (w : Writing) (g : GuidedFlow) :
    (guidedFlowValue w g).hasHalfKey = false := by
  refine w.record_noHalf _ GuidedFlow.keys rfl (by decide +kernel) ?_
  simp only [List.forall_mem_cons]
  exact ⟨rfl, Value.orNull_noHalf fun _ _ => rfl, Value.orNull_noHalf fun _ _ => rfl,
    Value.orNull_noHalf fun _ _ => rfl, Value.orNull_noHalf fun _ _ => rfl,
    Value.orNull_noHalf fun _ _ => rfl, Value.orNull_noHalf fun _ _ => rfl, List.forall_mem_nil _⟩

theorem behaviorsValue_noHalf (w : Writing) (b : Behaviors) :
    (behaviorsValue w b).hasHalfKey = false := by
  refine w.record_noHalf _ Behaviors.keys rfl (by decide +kernel) ?_
  simp only [List.forall_mem_cons]
  exact ⟨Value.orNull_noHalf fun d _ => disclosureValue_noHalf w d,
    Value.orNull_noHalf fun g _ => guidedFlowValue_noHalf w g, List.forall_mem_nil _⟩

theorem narrowingValue_noHalf (w : Writing) (n : Narrowing) :
    (narrowingValue w n).hasHalfKey = false := by
  refine w.record_noHalf _ Narrowing.keys rfl (by decide +kernel) ?_
  simp only [List.forall_mem_cons]
  exact ⟨Value.orNull_noHalf fun _ _ => rfl, Value.orNull_noHalf fun _ _ => rfl,
    List.forall_mem_nil _⟩

theorem headerFields_noHalf {h : Header} (kept : ∀ blocks ∈ h.overrides, BlocksUnchanged blocks)
    (w : Writing) : ∀ m ∈ headerFields w h, m.2.hasHalfKey = false := by
  simp only [headerFields, List.forall_mem_cons]
  exact ⟨rfl, rfl, rfl, rfl, Value.orNull_noHalf fun b _ => boundsValue_noHalf w b,
    Value.orNull_noHalf fun b _ => boundsValue_noHalf w b,
    Value.orNull_noHalf fun b hb => overridesValue_noHalf (kept b hb) w,
    Value.orNull_noHalf fun _ _ => rfl, Value.orNull_noHalf fun b _ => behaviorsValue_noHalf w b,
    Value.orNull_noHalf fun ss _ => Value.texts_noHalf ss, Value.orNull_noHalf fun _ _ => rfl,
    Value.orNull_noHalf fun _ _ => rfl, List.forall_mem_nil _⟩

/-- The fields of a node's kind have none when its children have none. -/
theorem contentFields_noHalf (w : Writing) {n : Node}
    (children : ∀ m ∈ n.children, (m.write w).hasHalfKey = false) :
    ∀ m ∈ n.contentFields w, m.2.hasHalfKey = false := by
  have spacing : ∀ r : Option (Spacing Float), (Value.orNull (Spacing.write w) r).hasHalfKey = false :=
    fun r => Value.orNull_noHalf fun s _ => Value.spacing_noHalf w s
  have all : ∀ ns : List Node, (∀ m ∈ ns, m ∈ n.children) →
      (Value.list (writeAll w ns)).hasHalfKey = false := by
    intro ns within
    rw [writeAll_eq_map]
    refine Value.list_noHalf fun v hv => ?_
    obtain ⟨m, hm, rfl⟩ := List.mem_map.mp hv
    exact children m (within m hm)
  cases n with
  | stack h s cs =>
    simp only [contentFields, stackFields, List.cons_append, List.nil_append, List.forall_mem_cons]
    exact ⟨rfl, spacing _, spacing _, rfl, rfl, all cs fun _ hm => hm, List.forall_mem_nil _⟩
  | grid h g cs =>
    simp only [contentFields, gridFields, List.cons_append, List.nil_append, List.forall_mem_cons]
    exact ⟨rfl, spacing _, Value.orNull_noHalf fun _ _ => rfl, all cs fun _ hm => hm,
      List.forall_mem_nil _⟩
  | box h p c =>
    simp only [contentFields, List.forall_mem_cons]
    exact ⟨spacing _, Value.orNull_noHalf fun m hm => children m (Option.mem_toList.mpr hm),
      List.forall_mem_nil _⟩
  | text h t =>
    simp only [contentFields, textFields, List.forall_mem_cons]
    exact ⟨rfl, Value.orNull_noHalf fun _ _ => rfl, Value.orNull_noHalf fun _ _ => rfl,
      Value.orNull_noHalf fun _ _ => rfl, List.forall_mem_nil _⟩
  | button h b =>
    simp only [contentFields, buttonFields, List.forall_mem_cons]
    exact ⟨rfl, Value.orNull_noHalf fun _ _ => rfl, List.forall_mem_nil _⟩
  | field h f =>
    simp only [contentFields, fieldFields, List.forall_mem_cons]
    exact ⟨rfl, Value.orNull_noHalf fun _ _ => rfl, Value.orNull_noHalf fun _ _ => rfl,
      Value.orNull_noHalf fun _ _ => rfl, Value.orNull_noHalf fun _ _ => rfl,
      List.forall_mem_nil _⟩
  | form h f fs as =>
    simp only [contentFields, List.forall_mem_cons]
    exact ⟨Value.orNull_noHalf fun _ _ => rfl, all fs fun _ hm => List.mem_append_left _ hm,
      all as fun _ hm => List.mem_append_right _ hm,
      Value.orNull_noHalf fun ss _ => Value.texts_noHalf ss, List.forall_mem_nil _⟩
  | table h t =>
    simp only [contentFields, tableFields, List.forall_mem_cons]
    exact ⟨Value.orNull_noHalf fun _ _ => rfl, Value.texts_noHalf t.columns,
      Value.orNull_noHalf fun _ _ => rfl,
      Value.orNull_noHalf fun r _ => narrowingValue_noHalf w r,
      Value.orNull_noHalf fun ss _ => Value.texts_noHalf ss, List.forall_mem_nil _⟩

theorem allFields_names (w : Writing) (n : Node) :
    (n.allFields w).map (·.1) = (Header.keys ++ Keys.type :: n.kind.contentKeys).map (·.camel) := by
  cases n <;> rfl

theorem names_plain (k : Kind) :
    ∀ key ∈ Header.keys ++ Keys.type :: k.contentKeys, Text.hasHalf key.camel = false := by
  cases k <;> decide +kernel

theorem Unchanged.child {n m : Node} (h : n.Unchanged) (hm : m ∈ n.children) : m.Unchanged :=
  fun l hl => h l (mem_allNodes_trans (mem_allNodes_child hm) hl)

theorem write_noHalf (w : Writing) {n : Node} (h : n.Unchanged) :
    (n.write w).hasHalfKey = false := by
  induction n using byChildren with
  | step n ih =>
    rw [write_eq]
    refine w.record_noHalf _ _ (allFields_names w n) (names_plain n.kind) ?_
    have header := headerFields_noHalf (h n n.mem_allNodes_self).overrides w
    have content := contentFields_noHalf w fun m hm => ih m hm (h.child hm)
    simp only [allFields, List.forall_mem_append, List.forall_mem_cons]
    exact ⟨header, rfl, content⟩

/-- A node of which nothing has to be changed is handed out. -/
theorem Unchanged.document {n : Node} (h : n.Unchanged) (w : Writing) :
    n.document w = .ok (n.write w) := by
  rw [Node.document, Value.handedOut, write_noHalf w h, if_neg Bool.false_ne_true]

end Node

end Wireframe
