import Wireframe.Proofs.Pointer
import Wireframe.Proofs.Walk
import Mathlib.Data.List.Nodup
import Mathlib.Data.List.Pairwise

/-
  Wireframe.Proofs.Address — where the nodes of a walk stand.

  A node below another is reached through a slot of every node between them, and its pointer has
  the tokens of these slots after the pointer that the walk started at.

  Proved:
  - `reaches_of_mem_walk`: every pointer of a walk tells the way to its node.
  - `Reaches.mem_walkFrom`: and where there is a way, the walk over all nodes has its pointer.
  - `Reaches.rest`: a way that begins like the way to a node leads through that node.
  - `pointers_nodup`: no two positions of a walk have the same pointer.
-/

namespace Wireframe

/-! ## The way to a node -/

/-- The tokens from a node to what is in one of its slots. -/
def Slot.tokens (s : Slot) : List String := Pointer.childTokens s.name s.index

/-- More tokens after what is in a slot are the tokens of the slot and these after the node. -/
theorem Located.under_pointer (l : Located) (s : Slot) (tokens : List String) :
    (l.under s).pointer ++ Pointer.build tokens = l.pointer ++ Pointer.build (s.tokens ++ tokens) := by
  rw [Pointer.build_append, ← String.append_assoc]
  exact congrArg (· ++ _) (Pointer.child_eq_build l.pointer s.name s.index)

namespace Node

/-- The tokens of the slots from a node down to another. -/
inductive Reaches : Node → List String → Node → Prop
  | here (n : Node) : Reaches n [] n
  | into {n m : Node} {s : Slot} {tokens : List String} :
      s ∈ n.slots → Reaches s.node tokens m → Reaches n (s.tokens ++ tokens) m

theorem reaches_of_mem_walk {b : Bool} {p : String} {n : Node} {l : Located}
    (h : l ∈ n.walkFrom b p) :
    ∃ tokens, n.Reaches tokens l.node ∧ l.pointer = p ++ Pointer.build tokens := by
  induction n using byChildren generalizing p with
  | step n ih =>
    obtain ⟨-, rfl | ⟨s, hs, hl⟩⟩ := mem_walkFrom.mp h
    · exact ⟨[], .here n, String.append_empty.symm⟩
    · obtain ⟨tokens, way, hp⟩ := ih _ (slot_mem_children hs) hl
      exact ⟨s.tokens ++ tokens, .into hs way, hp.trans (Located.under_pointer ⟨n, p⟩ s tokens)⟩

/-- Whatever a way leads to is in the walk over all nodes. -/
theorem Reaches.mem_walkFrom {n m : Node} {tokens : List String} (way : n.Reaches tokens m)
    (p : String) : ⟨m, p ++ Pointer.build tokens⟩ ∈ n.walkFrom false p := by
  induction way generalizing p with
  | here n =>
    have here : p ++ Pointer.build [] = p := String.append_empty
    rw [here]
    exact mem_walkFrom_self nofun
  | @into n m s tokens hs _ ih =>
    rw [← Located.under_pointer ⟨n, p⟩]
    exact Node.mem_walkFrom.mpr ⟨nofun, .inr ⟨s, hs, ih _⟩⟩

theorem Reaches.mem_allNodes {n m : Node} {tokens : List String} (way : n.Reaches tokens m) :
    m ∈ n.allNodes :=
  List.mem_map_of_mem (f := (·.node)) (way.mem_walkFrom rootPointer)

theorem reaches_of_mem_allNodes {n m : Node} (h : m ∈ n.allNodes) : ∃ tokens, n.Reaches tokens m := by
  obtain ⟨l, hl, rfl⟩ := List.mem_map.mp h
  obtain ⟨tokens, way, -⟩ := reaches_of_mem_walk hl
  exact ⟨tokens, way⟩

/-! ## Pointers differ -/

/-- From different slots of a node no two ways are the same. -/
def Slot.Apart (s t : Slot) : Prop := ∀ us vs, s.tokens ++ us ≠ t.tokens ++ vs

instance : Std.Symm Slot.Apart := ⟨fun _ _ apart us vs same => apart vs us same.symm⟩

theorem listSlots_apart (name : String) (nodes : List Node) :
    (listSlots name nodes).Pairwise Slot.Apart := by
  refine List.pairwise_map.mpr ((List.pairwise_iff_getElem.mpr ?_))
  intro i j hi hj hlt us vs same
  simp only [List.getElem_zipIdx, Slot.tokens, Pointer.childTokens, Option.map_some,
    Option.toList_some, List.cons_append, List.cons.injEq, Nat.zero_add] at same
  have : i = j := Pointer.toString_injective same.2.1
  omega

theorem slots_apart (n : Node) : n.slots.Pairwise Slot.Apart := by
  cases n with
  | stack hd s cs => exact listSlots_apart _ cs
  | grid hd g cs => exact listSlots_apart _ cs
  | box hd p c =>
    cases c with
    | none => exact .nil
    | some c => exact List.pairwise_singleton _ _
  | form hd f fs as =>
    refine List.pairwise_append.mpr ⟨listSlots_apart _ fs, listSlots_apart _ as, ?_⟩
    intro s hs t ht us vs same
    obtain ⟨_, -, rfl⟩ := List.mem_map.mp hs
    obtain ⟨_, -, rfl⟩ := List.mem_map.mp ht
    simp [Slot.tokens, Pointer.childTokens] at same
  | text | button | field | table => exact .nil

/-- What leads on from a slot tells the slot. -/
theorem slot_unique {n : Node} {s t : Slot} {us vs : List String} (hs : s ∈ n.slots)
    (ht : t ∈ n.slots) (same : s.tokens ++ us = t.tokens ++ vs) : s = t := by
  by_contra other
  exact n.slots_apart.forall hs ht other us vs same

/-- The way to a node beyond another one leads through that one, if it begins like the way there. -/
theorem Reaches.rest {n l m : Node} {ts us : List String} (way : n.Reaches ts l)
    (whole : n.Reaches (ts ++ us) m) : l.Reaches us m := by
  induction way with
  | here n => exact whole
  | @into n l s ts hs _ ih =>
    generalize same : s.tokens ++ ts ++ us = all at whole
    cases whole with
    | here => simp [Slot.tokens, Pointer.childTokens] at same
    | @into _ _ t more ht beyond =>
      rw [List.append_assoc] at same
      obtain rfl := slot_unique hs ht same
      rw [← List.append_cancel_left same] at beyond
      exact ih beyond

theorem pointers_nodup (b : Bool) (p : String) (n : Node) :
    ((n.walkFrom b p).map (·.pointer)).Nodup := by
  induction n using byChildren generalizing p with
  | step n ih =>
    -- The pointer of what is walked from a slot, by the tokens of the slot.
    have through : ∀ s ∈ n.slots, ∀ l ∈ s.node.walkFrom b ((⟨n, p⟩ : Located).under s).pointer,
        ∃ us, l.pointer = p ++ Pointer.build (s.tokens ++ us) := by
      intro s hs l hl
      obtain ⟨us, -, hp⟩ := reaches_of_mem_walk hl
      exact ⟨us, hp.trans (Located.under_pointer ⟨n, p⟩ s us)⟩
    rw [walkFrom_eq]
    split
    · exact .nil
    simp only [List.map_cons, List.map_flatMap, List.nodup_cons, List.mem_flatMap, List.mem_map]
    constructor
    · rintro ⟨s, hs, l, hl, same⟩
      obtain ⟨us, hp⟩ := through s hs l hl
      have : p ++ Pointer.build (s.tokens ++ us) = p ++ Pointer.build [] := by
        rw [← hp, same]; exact String.append_empty.symm
      exact absurd (Pointer.append_build_injective this) (by simp [Slot.tokens, Pointer.childTokens])
    · refine List.nodup_flatMap.mpr ⟨fun s hs => ih _ (slot_mem_children hs) _, ?_⟩
      refine (slots_apart n).imp_of_mem fun {s t} hs ht apart => ?_
      rintro q hq hr
      obtain ⟨l, hl, rfl⟩ := List.mem_map.mp hq
      obtain ⟨m, hm, same⟩ := List.mem_map.mp hr
      obtain ⟨us, hp⟩ := through s hs l hl
      obtain ⟨vs, hp'⟩ := through t ht m hm
      exact apart us vs (Pointer.append_build_injective (hp.symm.trans (same.symm.trans hp')))

end Node

end Wireframe
