import Wireframe.Proofs.Cascade.Overlay
import Wireframe.Proofs.Cascade.Resolve
import Wireframe.Proofs.Node.RoundTrip

/-
  Wireframe.Proofs.Cascade.Places — which places of a tree are left when it is resolved.

  A pointer into a resolved tree is a pointer into the tree as it is written only if resolving it
  leaves the nodes where they are. Blocks move nodes by five members: the one that names a node, and
  the four that hold children. Without these a node may still lose its children, when a block gives
  it another type, but what it keeps stands where it stood.

  A node with blocks is written and read again, and so are all the nodes below it, for which these
  are other nodes than before, though with the same ids and blocks and at the same places.

  Proved:
  - `readWithin_slots`: what is read from a document that holds the same children as a node has
    them in the slots of this node.
  - `readWithin_sameHeads`: a node that is read from what another is written as has the same ids and
    blocks at the same places.
  - `resolve_standsIn`: a tree whose blocks move no node is resolved to one that stands in it.
-/

namespace Wireframe

open Reading

namespace Node

/-! ## The same ways in two trees -/

variable {R : Node → Node → Prop} {m n k : Node}

/-- Where a way leads to a node in the first tree, it leads to a related one in the second. -/
def Follows (R : Node → Node → Prop) (m n : Node) : Prop :=
  ∀ tokens k, m.Reaches tokens k → ∃ k', n.Reaches tokens k' ∧ R k k'

theorem Follows.refl (same : ∀ k, R k k) (n : Node) : n.Follows R n :=
  fun _ k way => ⟨k, way, same k⟩

theorem Follows.of_slots (own : R m n) (below : ∀ t ∈ m.slots, ∃ s ∈ n.slots,
    s.tokens = t.tokens ∧ t.node.Follows R s.node) : m.Follows R n := by
  intro tokens k way
  cases way with
  | here => exact ⟨n, .here n, own⟩
  | into ht way =>
    obtain ⟨s, hs, same, follows⟩ := below _ ht
    obtain ⟨k', way', r⟩ := follows _ _ way
    exact ⟨k', same ▸ .into hs way', r⟩

theorem Follows.trans {S T : Node → Node → Prop} (h : k.Follows R m) (g : m.Follows S n)
    (both : ∀ a b c, R a b → S b c → T a c) : k.Follows T n := by
  intro tokens a way
  obtain ⟨b, way, r⟩ := h tokens a way
  obtain ⟨c, way, s⟩ := g tokens b way
  exact ⟨c, way, both a b c r s⟩

/-- Every node of the first tree has its place in the second one, where a node with its id is. -/
def StandsIn (m n : Node) : Prop := m.Follows (fun k k' => k.id = k'.id) n

/-- The nodes have one id and the same blocks. -/
def SameHead (m n : Node) : Prop := m.id = n.id ∧ m.blocks = n.blocks

/-! ## Slots that are read -/

/-- The members of a node's document that hold its id and its children. -/
def placeKeys : List String := ["id", "children", "child", "fields", "actions"]

/-- An object with the id and the children of a node. -/
def SamePlaces (o : Object) (n : Node) : Prop :=
  ∀ key ∈ placeKeys, Keyed.get? o key = Keyed.get? (n.write .exact).members key

/-- The lists in the document of a node hold what is in its slots. -/
theorem written_list {name : String} (lists : name ∈ childLists) {v : Value}
    (h : Keyed.get? (n.write .exact).members name = some v) :
    ∃ ns, v = .list (writeAll .exact ns) ∧ listSlots name ns ⊆ n.slots := by
  simp only [childLists, List.mem_cons, List.not_mem_nil, or_false] at lists
  cases n with
  | stack hd s cs =>
    rcases lists with rfl | rfl | rfl
    · cases h; exact ⟨cs, rfl, List.Subset.refl _⟩
    · cases h
    · cases h
  | grid hd g cs =>
    rcases lists with rfl | rfl | rfl
    · cases h; exact ⟨cs, rfl, List.Subset.refl _⟩
    · cases h
    · cases h
  | form hd f fs as =>
    rcases lists with rfl | rfl | rfl
    · cases h
    · cases h; exact ⟨fs, rfl, List.subset_append_left _ _⟩
    · cases h; exact ⟨as, rfl, List.subset_append_right _ _⟩
  | box hd p c => cases c <;> rcases lists with rfl | rfl | rfl <;> cases h
  | text | button | field | table => rcases lists with rfl | rfl | rfl <;> cases h

/-- A child in the document of a node is in a slot of it. -/
theorem written_child {v : Value} (h : Keyed.get? (n.write .exact).members "child" = some v) :
    v = .null ∨ ∃ c, v = c.write .exact ∧ ⟨"child", none, c⟩ ∈ n.slots := by
  cases n with
  | box hd p c =>
    cases c with
    | none => cases h; exact .inl rfl
    | some c => cases h; exact .inr ⟨c, rfl, List.mem_singleton_self _⟩
  | stack | grid | text | button | field | form | table => cases h

variable {o : Object}

/-- What fills a slot from an object with the children of a node is read from what the node has in
    this slot. -/
theorem SamePlaces.filled (same : SamePlaces o n) {child : Shape Node}
    (refuses : ∀ b, child .null ≠ .ok b) {t : Slot} (h : Filled child o t) :
    ∃ s ∈ n.slots, s.tokens = t.tokens ∧ child (s.node.write .exact) = .ok t.node := by
  cases h with
  | @listed name items i v m lists stands hi read =>
    have kept : childLists ⊆ placeKeys := by decide
    rw [same name (kept lists)] at stands
    obtain ⟨ns, e, within⟩ := written_list lists stands
    rw [writeAll_eq_map] at e
    cases e
    rw [List.getElem?_map] at hi
    obtain ⟨k, hk, rfl⟩ := Option.map_eq_some_iff.mp hi
    exact ⟨⟨name, some i, k⟩, within (mem_listSlots.mpr ⟨i, k, hk, rfl⟩), rfl, read⟩
  | @alone v m stands read =>
    rw [same "child" (by decide)] at stands
    rcases written_child stands with rfl | ⟨k, rfl, hk⟩
    · exact absurd read (refuses m)
    · exact ⟨_, hk, rfl, read⟩

/-- What is read from a document with the id and the children of a node has its id, and its children
    in the slots of the node, each read from what the one there is written as. -/
theorem readWithin_slots (same : SamePlaces o n) {d : Nat} (h : readWithin (d + 1) (.object o) = .ok m) :
    m.id = n.id ∧ ∀ t ∈ m.slots, ∃ s ∈ n.slots, s.tokens = t.tokens ∧
      readWithin d (s.node.write .exact) = .ok t.node := by
  obtain ⟨_, _, k, e, e', -, reads⟩ := readWithin_eq_ok h
  cases e
  cases e'
  obtain ⟨hd, c, fields, hc, rfl⟩ := node_reads reads
  obtain ⟨-, header, filled⟩ := content_filled hc { hd with given := Key.noted k.keys o }
  refine ⟨?_, fun t ht => same.filled (readWithin_refuses_null d) (filled t ht)⟩
  obtain ⟨members, written, id⟩ := n.write_id_whole (w := .exact) (by decide)
  have stands : Keyed.get? o "id" = some (.text n.id) := by
    rw [same "id" (by decide), written]
    exact id
  obtain ⟨used, v, found, hv⟩ := reads_required.mp fields.id
  obtain ⟨hused, found⟩ := Key.find?_eq_some found
  obtain rfl : used = "id" := List.mem_singleton.mp hused
  rw [stands] at found
  cases found
  rw [Node.id, header]
  exact (Except.ok.inj hv).symm

/-! ## Nodes that are read back -/

theorem write_samePlaces {members : Object} (written : n.write .exact = .object members) :
    SamePlaces members n := by
  intro key _
  rw [written]
  rfl

/-- A node that is read from what another is written as has the blocks of this one. -/
theorem readWithin_sameBlocks {d : Nat} (h : readWithin d (n.write .exact) = .ok m) :
    m.blocks = n.blocks := by
  obtain ⟨_, o, k, -, written, -, reads⟩ := readWithin_eq_ok h
  obtain ⟨hd, c, fields, hc, rfl⟩ := node_reads reads
  obtain ⟨members, written', stands⟩ := n.write_at
  obtain rfl : o = members := Value.object.inj (written.symm.trans written')
  have again : Shape.nullable (Shape.dictionary (Shape.nullable block))
      (.orNull (overridesValue .exact) n.header.overrides) = .ok n.header.overrides := by
    cases n.header.overrides with
    | none => rfl
    | some blocks => exact Shape.nullable_of_ok (fun _ h => nomatch h) (overrides_again blocks)
  have found : Keys.overrides.find? o = some ("at", .orNull (overridesValue .exact) n.header.overrides) := by
    simp only [Key.find?, Keys.overrides, Key.plain, stands]
  rcases reads_optional fields.overrides with ⟨absent, -⟩ | ⟨used, v, there, hv⟩
  · rw [found] at absent
    cases absent
  · rw [found] at there
    cases there
    rw [blocks, blocks, (content_made hc _).2.1]
    exact congrArg (·.getD []) (Except.ok.inj (hv.symm.trans again))

/-- What is read from the document of a node has the same ids and blocks at the same places. -/
theorem readWithin_sameHeads {d : Nat} (h : readWithin d (n.write .exact) = .ok m) :
    m.Follows SameHead n := by
  induction n using byChildren generalizing d m with
  | step n ih =>
    obtain ⟨members, written, -⟩ := n.write_id_whole (w := .exact) (by decide)
    cases d with
    | zero =>
      obtain ⟨_, _, _, e, -⟩ := readWithin_eq_ok h
      cases e
    | succ d =>
      have sameBlocks := readWithin_sameBlocks h
      rw [written] at h
      obtain ⟨sameId, slots⟩ := readWithin_slots (write_samePlaces written) h
      refine .of_slots ⟨sameId, sameBlocks⟩ fun t ht => ?_
      obtain ⟨s, hs, tokens, read⟩ := slots t ht
      exact ⟨s, hs, tokens, ih s.node (slot_mem_children hs) read⟩

/-! ## Trees -/

/-- No block that applies at a width touches the id or the children of its node. -/
def KeepsPlaces (width : Number) (n : Node) : Prop :=
  ∀ m ∈ n.allNodes, ∀ b ∈ m.blocks, ∀ c, Condition.parse b.1 = .ok (some c) → c.holds width = true →
    ∀ e ∈ b.2.getD [], e.1 ∉ placeKeys

variable {width : Number}

theorem KeepsPlaces.child {c : Node} (h : n.KeepsPlaces width) (hc : c ∈ n.children) :
    c.KeepsPlaces width :=
  fun m hm => h m (mem_allNodes.mpr (.inr ⟨c, hc, hm⟩))

theorem KeepsPlaces.of_sameHeads (h : n.KeepsPlaces width) (same : m.Follows SameHead n) :
    m.KeepsPlaces width := by
  intro k hk
  obtain ⟨tokens, way⟩ := reaches_of_mem_allNodes hk
  obtain ⟨k', way, -, sameBlocks⟩ := same tokens k way
  rw [sameBlocks]
  exact h k' way.mem_allNodes

/-- One node at a width has its id and the children of before, those that it keeps, in the slots
    where they stood. -/
theorem resolveOwn_slots (keeps : n.KeepsPlaces width) (h : (n.resolveOwn width).result = .ok m) :
    m.id = n.id ∧ ∀ t ∈ m.slots, ∃ s ∈ n.slots, s.tokens = t.tokens ∧ t.node.Follows SameHead s.node := by
  rcases resolveOwn_cases h with ⟨-, rfl⟩ | ⟨applied, -, ordered, read⟩
  · exact ⟨rfl, fun t ht => ⟨t, ht, rfl, .refl (fun _ => ⟨rfl, rfl⟩) t.node⟩⟩
  · have same : SamePlaces (n.overlaid applied) n := by
      intro key hkey
      have other : key ≠ "at" := by rintro rfl; exact absurd hkey (by decide)
      have unset : applied.values key = [] := Blocks.values_eq_nil fun b hb e he => by
        obtain ⟨mem, c, parsed, holds⟩ := Blocks.mem_ordered ordered hb
        rintro rfl
        exact keeps n n.mem_allNodes_self b mem c parsed holds e he hkey
      rw [overlaid_get? n applied other, unset]
      rfl
    obtain ⟨sameId, slots⟩ := readWithin_slots same read
    refine ⟨sameId, fun t ht => ?_⟩
    obtain ⟨s, hs, tokens, read⟩ := slots t ht
    exact ⟨s, hs, tokens, readWithin_sameHeads read⟩

/-- Lists that are related item by item have related nodes in their slots. -/
theorem listSlots_forall₂ {ns ms : List Node} (h : List.Forall₂ R ns ms) {name : String} {t : Slot}
    (ht : t ∈ listSlots name ms) :
    ∃ s ∈ listSlots name ns, s.tokens = t.tokens ∧ R s.node t.node := by
  obtain ⟨i, m, hi, rfl⟩ := mem_listSlots.mp ht
  obtain ⟨k, hk, r⟩ := getElem?_of_forall₂ h hi
  exact ⟨⟨name, some i, k⟩, mem_listSlots.mpr ⟨i, k, hk, rfl⟩, rfl, r⟩

theorem eachChild_slots {f : Node → Trail Entry Failure Node} (h : (n.eachChild f).result = .ok m) :
    ∀ t ∈ m.slots, ∃ s ∈ n.slots, s.tokens = t.tokens ∧ (f s.node).result = .ok t.node := by
  cases n with
  | stack hd c cs =>
    simp only [eachChild, Trail.result_bind_eq_ok, Trail.result_pure] at h
    obtain ⟨ds, hds, e⟩ := h
    cases e
    exact fun t ht => listSlots_forall₂ (Trail.each_eq_ok hds) ht
  | grid hd c cs =>
    simp only [eachChild, Trail.result_bind_eq_ok, Trail.result_pure] at h
    obtain ⟨ds, hds, e⟩ := h
    cases e
    exact fun t ht => listSlots_forall₂ (Trail.each_eq_ok hds) ht
  | box hd p c =>
    cases c with
    | none => cases h; exact fun t ht => absurd ht List.not_mem_nil
    | some c =>
      simp only [eachChild, Trail.result_bind_eq_ok, Trail.result_pure] at h
      obtain ⟨d, hd, e⟩ := h
      cases e
      intro t ht
      obtain rfl := List.mem_singleton.mp ht
      exact ⟨_, List.mem_singleton_self _, rfl, hd⟩
  | form hd f fs as =>
    simp only [eachChild, Trail.result_bind_eq_ok, Trail.result_pure] at h
    obtain ⟨gs, hgs, bs, hbs, e⟩ := h
    cases e
    intro t ht
    rcases List.mem_append.mp ht with ht | ht
    · obtain ⟨s, hs, both⟩ := listSlots_forall₂ (Trail.each_eq_ok hgs) ht
      exact ⟨s, List.mem_append_left _ hs, both⟩
    · obtain ⟨s, hs, both⟩ := listSlots_forall₂ (Trail.each_eq_ok hbs) ht
      exact ⟨s, List.mem_append_right _ hs, both⟩
  | text | button | field | table => cases h; exact fun t ht => absurd ht List.not_mem_nil

/-- A tree whose blocks leave the id and the children of their nodes alone is resolved to one in
    which every node stands where the node with its id stands in the tree. The induction is on what
    resolving the tree calls for. -/
theorem resolve_standsIn (keeps : n.KeepsPlaces width) (h : (n.resolve width).result = .ok m) :
    m.StandsIn n := by
  induction n using (called_wellFounded width).induction generalizing m with
  | _ n ih =>
    rw [resolve_eq, Trail.result_bind_eq_ok] at h
    obtain ⟨k, hk, hm⟩ := h
    obtain ⟨sameId, slots⟩ := resolveOwn_slots keeps hk
    refine .of_slots ?_ fun t ht => ?_
    · exact (congrArg Header.id (eachChild_eq_ok hm).1).trans sameId
    · obtain ⟨u, hu, tokens, resolved⟩ := eachChild_slots hm t ht
      obtain ⟨s, hs, tokens', heads⟩ := slots u hu
      have below := (keeps.child (slot_mem_children hs)).of_sameHeads heads
      have stands := ih u.node ⟨k, hk, slot_mem_children hu⟩ below resolved
      exact ⟨s, hs, tokens'.trans tokens, stands.trans heads fun _ _ _ same head => same.trans head.1⟩

end Node

end Wireframe
