import Wireframe.Proofs.Node.Writing
import Wireframe.Proofs.Plain

/-
  Wireframe.Proofs.Inside — which nodes stand inside another one, told by their pointers.

  A node stands inside another one when it is in a slot of it, or inside of what is. The pointer of
  such a node goes on from that of the other. The converse needs the whole tree: a pointer that goes
  on so leads through the slots of the other node, because no two slots of a node begin a way alike.
  A slash has to follow, or the second child would be taken for something inside of the first of
  more than ten.

  Proved:
  - `inside_iff_startsWith`: a node of a walk stands inside another exactly when its pointer starts
    with that of the other and a slash.
  - `pointers_address_nodes`: in the documents of a scaffold every pointer addresses its node, no
    two positions share one, and pointers tell what stands inside of what.
-/

namespace Wireframe

namespace Located

/-- The first node stands in a slot of the second, or inside of a node in such a slot. -/
inductive Inside : Located → Located → Prop
  | slot {l : Located} {s : Slot} : s ∈ l.node.slots → Inside (l.under s) l
  | deeper {l m : Located} {s : Slot} : s ∈ l.node.slots → Inside m (l.under s) → Inside m l

theorem Inside.pointer {l m : Located} (h : m.Inside l) :
    ∃ tokens, tokens ≠ [] ∧ m.pointer = l.pointer ++ Pointer.build tokens := by
  induction h with
  | @slot l s _ =>
    refine ⟨s.tokens ++ [], by simp [Slot.tokens, Pointer.childTokens], ?_⟩
    rw [← under_pointer]
    exact String.append_empty.symm
  | @deeper l m s _ _ ih =>
    obtain ⟨tokens, -, hp⟩ := ih
    refine ⟨s.tokens ++ tokens, by simp [Slot.tokens, Pointer.childTokens], ?_⟩
    rw [hp, under_pointer]

/-- What a way of some tokens leads to from a node stands inside it. -/
theorem inside_of_reaches {n k : Node} {tokens : List String} (way : n.Reaches tokens k)
    (onward : tokens ≠ []) (p : String) :
    (⟨k, p ++ Pointer.build tokens⟩ : Located).Inside ⟨n, p⟩ := by
  induction way generalizing p with
  | here => exact absurd rfl onward
  | @into n k s tokens hs way ih =>
    rw [← under_pointer ⟨n, p⟩]
    by_cases last : tokens = []
    · subst last
      cases way
      have same : ((⟨n, p⟩ : Located).under s).pointer ++ Pointer.build [] =
          ((⟨n, p⟩ : Located).under s).pointer := String.append_empty
      rw [same]
      exact .slot hs
    · exact .deeper hs (ih last _)

theorem inside_iff_startsWith {b : Bool} {p : String} {n : Node} {l m : Located}
    (hl : l ∈ n.walkFrom b p) (hm : m ∈ n.walkFrom b p) :
    m.Inside l ↔ m.pointer.startsWith (l.pointer ++ "/") = true := by
  obtain ⟨ts, way, hp⟩ := Node.reaches_of_mem_walk hl
  obtain ⟨us, whole, hq⟩ := Node.reaches_of_mem_walk hm
  rw [hp, hq, Pointer.startsWith_build_iff]
  constructor
  · intro inside
    obtain ⟨more, onward, hmore⟩ := inside.pointer
    rw [hp, hq, String.append_assoc, ← Pointer.build_append] at hmore
    exact ⟨more, onward, Pointer.append_build_injective hmore⟩
  · rintro ⟨more, onward, rfl⟩
    have inside := inside_of_reaches (way.rest whole) onward l.pointer
    rwa [hp, String.append_assoc, ← Pointer.build_append, ← hq, ← hp] at inside

end Located

/-- Whichever way a scaffold is written with all its fields, every pointer of a walk over all nodes
    addresses there what its node is written as. No two positions have the same pointer, also when
    nodes share an id. And of any two nodes one stands inside the other exactly when its pointer
    starts with that of the other and a slash. -/
theorem pointers_address_nodes (s : Scaffold) (fits : s.screen.root.Fits) :
    (∀ w : Writing, w ≠ .given → ∀ l ∈ s.screen.root.walkFrom false rootPointer,
      Pointer.resolve (s.write w) l.pointer = .ok (l.node.write w)) ∧
    ((s.screen.root.walkFrom false rootPointer).map (·.pointer)).Nodup ∧
    ∀ l ∈ s.screen.root.walkFrom false rootPointer, ∀ m ∈ s.screen.root.walkFrom false rootPointer,
      (m.Inside l ↔ m.pointer.startsWith (l.pointer ++ "/") = true) := by
  refine ⟨fun w whole l hl => ?_, ?_, fun l hl m hm => ?_⟩
  · exact Scaffold.resolve_walk_whole whole fits hl
  · exact Node.pointers_nodup false rootPointer s.screen.root
  · exact Located.inside_iff_startsWith hl hm

/-- Eleven stacks with a button in each, all of one id. -/
def crowdedRoot : Node :=
  .plainStack "page" .vertical
    (List.replicate 11 (.plainStack "twin" .horizontal [.plainButton "twin" "Go"]))

theorem crowdedRoot_addressed : crowdedRoot.Fits ∧
    (∀ w : Writing, w ≠ .given → ∀ l ∈ crowdedRoot.walkFrom false rootPointer,
      Pointer.resolve ((Scaffold.around crowdedRoot).write w) l.pointer = .ok (l.node.write w)) ∧
    ((crowdedRoot.walkFrom false rootPointer).map (·.pointer)).Nodup ∧
    ∀ l ∈ crowdedRoot.walkFrom false rootPointer, ∀ m ∈ crowdedRoot.walkFrom false rootPointer,
      (m.Inside l ↔ m.pointer.startsWith (l.pointer ++ "/") = true) := by
  have fits : crowdedRoot.Fits := by unfold Node.Fits; decide +kernel
  exact ⟨fits, pointers_address_nodes (.around crowdedRoot) fits⟩

/-- The button in the last stack does not stand inside of the second one. -/
example : "/screen/root/children/10/children/0".startsWith ("/screen/root/children/1" ++ "/") =
    false := by decide +kernel

end Wireframe
