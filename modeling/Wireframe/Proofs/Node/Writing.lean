import Wireframe.Scaffold
import Wireframe.Room
import Wireframe.Proofs.Address
import Wireframe.Proofs.Result
import Wireframe.Proofs.Text.Numeral

/-
  Wireframe.Proofs.Node.Writing — pointers address the nodes of a document.

  A node is written as an object whose members hold what is in its slots: one member a list of the
  children, or the child itself. So the tokens of a slot lead from a node to what the slot holds,
  and the pointers of a walk to the nodes that it lists.

  Lengths are 64-bit words, and of the positions of longer lists some could not be read.

  Proved:
  - `follow_slot`: the tokens of a slot lead to the node in it.
  - `resolve_walk`: in the document of a scaffold every pointer of a walk addresses its node.
  - `write_id`: a node is written as an object whose member `id` is its id.
-/

namespace Wireframe

/-! ## Tokens -/

namespace Pointer

theorem position?_decimal {length i : Nat} (h : i < length) (small : i < 10 ^ Text.digitLimit) :
    position? length (toString i) = some i := by
  have bounds : (0 : Int) ≤ i ∧ (i : Int) < length := ⟨Int.natCast_nonneg i, Int.ofNat_lt.mpr h⟩
  simp only [position?, Text.integer?_decimal small, Option.bind_eq_bind, Option.bind_some,
    if_neg (Int.not_lt.mpr bounds.1), if_pos bounds, Int.toNat_natCast]

/-- The digits of a length are few enough to be read. -/
theorem length_small {n : Nat} (h : (n : Int) < lengthBound) : n < 10 ^ Text.digitLimit := by
  have bound : lengthBound ≤ 10 ^ 19 := by decide
  have more : (10 : Nat) ^ 19 ≤ 10 ^ Text.digitLimit := Nat.pow_le_pow_right (by decide) (by decide)
  omega

/-- The position of an item leads to it. -/
theorem step?_item {items : List Value} {i : Nat} {v : Value} (h : items[i]? = some v)
    (small : i < 10 ^ Text.digitLimit) : step? (.list items) (toString i) = some v := by
  have hi : i < items.length := (List.getElem?_eq_some_iff.mp h).1
  rw [step?, position?_decimal hi small]
  exact h

end Pointer

namespace Node

/-! ## Nodes -/

theorem writeAll_eq_map (w : Writing) (ns : List Node) : writeAll w ns = ns.map (write w) := by
  induction ns with
  | nil => rfl
  | cons n rest ih => rw [writeAll, ih, List.map_cons]

/-- The lists of children are no longer than lists can be. -/
def Fits (n : Node) : Prop := ∀ m ∈ n.allNodes, (m.children.length : Int) < lengthBound

theorem Fits.child {n c : Node} (h : n.Fits) (hc : c ∈ n.children) : c.Fits := fun m hm =>
  h m (mem_allNodes.mpr (.inr ⟨c, hc, hm⟩))

theorem Fits.position_small {n : Node} (h : n.Fits) {i : Nat} (hi : i < n.children.length) :
    i < 10 ^ Text.digitLimit := by
  have := h n (mem_allNodes.mpr (.inl rfl))
  exact Pointer.length_small (by omega)

theorem mem_listSlots {name : String} {nodes : List Node} {s : Slot} :
    s ∈ listSlots name nodes ↔ ∃ i n, nodes[i]? = some n ∧ s = ⟨name, some i, n⟩ := by
  simp only [listSlots, List.mem_map, Prod.exists, List.mk_mem_zipIdx_iff_getElem?]
  constructor
  · rintro ⟨n, i, h, rfl⟩; exact ⟨i, n, h, rfl⟩
  · rintro ⟨i, n, h, rfl⟩; exact ⟨n, i, h, rfl⟩

/-- The tokens of a slot in a list lead through the member of the list. -/
theorem follow_listSlot {w : Writing} {members : Object} {name : String} {nodes : List Node} {s : Slot}
    (listed : Keyed.get? members name = some (.list (writeAll w nodes)))
    (hs : s ∈ listSlots name nodes) (small : ∀ i < nodes.length, i < 10 ^ Text.digitLimit) :
    Pointer.follow (.object members) s.tokens = .ok (s.node.write w) := by
  obtain ⟨i, n, hi, rfl⟩ := mem_listSlots.mp hs
  have item : (writeAll w nodes)[i]? = some (n.write w) := by
    rw [writeAll_eq_map, List.getElem?_map, hi]; rfl
  have inside := small i (List.getElem?_eq_some_iff.mp hi).1
  have member : Pointer.step? (.object members) name = some (.list (writeAll w nodes)) := listed
  calc Pointer.follow (.object members) [name, toString i]
      = Pointer.follow (.list (writeAll w nodes)) [toString i] := Pointer.follow_cons member _
    _ = .ok (n.write w) := Pointer.follow_cons (Pointer.step?_item item inside) _

/-- Written with every field, a node is an object of all its members. -/
theorem write_whole {w : Writing} (whole : w ≠ .given) (h : Header) (k : Kind) (rest : Object) :
    assemble w h k rest = .object (headerFields w h ++ ("type", .text k.name) :: rest) := by
  cases w with
  | exact => rfl
  | full => rfl
  | given => exact absurd rfl whole

theorem follow_slot {w : Writing} (whole : w ≠ .given) {n : Node} (h : n.Fits) {s : Slot}
    (hs : s ∈ n.slots) : Pointer.follow (n.write w) s.tokens = .ok (s.node.write w) := by
  cases n with
  | stack hd c cs =>
    rw [write, write_whole whole]
    exact follow_listSlot rfl hs fun i hi => h.position_small hi
  | grid hd c cs =>
    rw [write, write_whole whole]
    exact follow_listSlot rfl hs fun i hi => h.position_small hi
  | box hd p c =>
    cases c with
    | none => cases hs
    | some c =>
      obtain rfl := List.mem_singleton.mp hs
      rw [write, write_whole whole]
      rfl
  | form hd f fs as =>
    rw [write, write_whole whole]
    rcases List.mem_append.mp hs with hs | hs
    · exact follow_listSlot rfl hs fun i hi => h.position_small (by simp [children]; omega)
    · exact follow_listSlot rfl hs fun i hi => h.position_small (by simp [children]; omega)
  | text | button | field | table => cases hs

theorem follow_reaches {w : Writing} (whole : w ≠ .given) {n m : Node} {tokens : List String}
    (way : n.Reaches tokens m) (h : n.Fits) :
    Pointer.follow (n.write w) tokens = .ok (m.write w) := by
  induction way with
  | here n => rfl
  | into hs _ ih =>
    rw [Pointer.follow_append, follow_slot whole h hs]
    exact ih (h.child (slot_mem_children hs))

/-- A node is written as an object with its id in it. -/
theorem write_id_whole {w : Writing} (whole : w ≠ .given) (n : Node) :
    ∃ members, n.write w = .object members ∧ Keyed.get? members "id" = some (.text n.id) := by
  cases n with
  | box hd p c => cases c <;> exact ⟨_, write_whole whole .., rfl⟩
  | stack | grid | text | button | field | form | table => exact ⟨_, write_whole whole .., rfl⟩

theorem write_id (n : Node) :
    ∃ members, n.write .full = .object members ∧ Keyed.get? members "id" = some (.text n.id) :=
  n.write_id_whole (by decide)

end Node

/-! ## Scaffolds -/

/-- In the document of a scaffold every pointer of a walk addresses the node it stands with. -/
theorem Scaffold.resolve_walk_whole {w : Writing} (whole : w ≠ .given) {s : Scaffold}
    (h : s.screen.root.Fits) {b : Bool} {l : Located}
    (hl : l ∈ s.screen.root.walkFrom b rootPointer) :
    Pointer.resolve (s.write w) l.pointer = .ok (l.node.write w) := by
  obtain ⟨tokens, way, hp⟩ := Node.reaches_of_mem_walk hl
  have from_top : l.pointer = Pointer.build (["screen", "root"] ++ tokens) := by
    rw [hp, Pointer.build_append]
    rfl
  have root : Pointer.follow (s.write w) ["screen", "root"] = .ok (s.screen.root.write w) := by
    cases w with
    | exact => rfl
    | full => rfl
    | given => exact absurd rfl whole
  rw [from_top]
  refine Pointer.resolve_build ?_
  rw [Pointer.follow_append, root]
  exact Node.follow_reaches whole way h

theorem Scaffold.resolve_walk {s : Scaffold} (h : s.screen.root.Fits) {b : Bool} {l : Located}
    (hl : l ∈ s.screen.root.walkFrom b rootPointer) :
    Pointer.resolve (s.write .full) l.pointer = .ok (l.node.write .full) :=
  resolve_walk_whole (by decide) h hl

end Wireframe
