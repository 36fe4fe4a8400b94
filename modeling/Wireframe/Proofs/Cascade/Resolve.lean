import Wireframe.Proofs.Cascade.Condition
import Wireframe.Proofs.Node.Reading
import Wireframe.Proofs.Plain
import Wireframe.Proofs.Trail

/-
  Wireframe.Proofs.Cascade.Resolve — resolving a tree comes to an end, and to a tree that stays.

  A node that is read after blocks were laid over it is not a part of the node before: a block may
  bring in children, with blocks of their own inside. But the object that holds all blocks is gone,
  and a block adds no more objects than it had. So what is read weighs less than the node did, and
  its children less again.

  Proved:
  - `resolveOwn_cases`: what one node at a width is.
  - `resolveOwn_eq_ok`: it weighs no more than before, and has no blocks.
  - `resolve_eq`: a tree is resolved node by node, each before its children, to any depth.
  - `settled_of_resolve` / `resolve_settled`: nothing that was resolved has blocks, and what has no
    blocks is resolved to itself at every width.
  - `resolve_eq_error`: a tree fails as the first node does that fails.
  - `resolve_settles`: all of this together, with the one way to fail that is not a document's fault.
-/

namespace Wireframe

open Value

namespace Node

variable {width : Number}

/-! ## One node -/

/-- A node is written as an object with its blocks in it. -/
theorem write_at (n : Node) : ∃ members, n.write .exact = .object members ∧
    Keyed.get? members "at" = some (.orNull (overridesValue .exact) n.header.overrides) := by
  cases n with
  | box hd p c => cases c <;> exact ⟨_, rfl, rfl⟩
  | stack | grid | text | button | field | form | table => exact ⟨_, rfl, rfl⟩

/-- The blocks that a node has make room for those that are laid over it, and for one object more. -/
theorem objects_overlaid {n : Node} {applied : Blocks} (h : n.blocks.ordered width = .ok applied)
    (some_block : n.blocks ≠ []) : objectsMembers (n.overlaid applied) + 1 < n.weight := by
  obtain ⟨members, written, hat⟩ := n.write_at
  have laid := Object.objectsMembers_erase_layAll members applied "at"
  have erased := Keyed.objectsMembers_erase members "at"
  have kept := Blocks.ordered_sum_le h fun b => objectsMembers (b.2.getD [])
  obtain ⟨all, hall⟩ : ∃ all, n.header.overrides = some all := by
    cases ho : n.header.overrides with
    | none => exact absurd (by rw [blocks, ho]; rfl) some_block
    | some all => exact ⟨all, rfl⟩
  have own : n.blocks = all := by rw [blocks, hall]; rfl
  -- Every block counts with the object that it is, and all together with the object they are in.
  have more : (all.map fun b => objectsMembers (b.2.getD [])).sum ≤
      (all.map fun b => b.2.elim 0 fun o => objectsMembers o + 1).sum := by
    refine List.sum_le_sum fun b _ => ?_
    cases b.2 with
    | none => exact Nat.le_refl _
    | some o => exact Nat.le_succ _
  rw [hat, hall, Option.elim_some, orNull, objects_overridesValue] at erased
  rw [own] at kept
  rw [overlaid, weight, written]
  show objectsMembers (Keyed.erase (applied.foldl (fun o b => Object.lay o b.2) members) "at") + 1 <
    objectsMembers members + 1
  omega

theorem resolveOwn_of_settled {n : Node} (h : n.blocks = []) : n.resolveOwn width = Trail.done n := by
  rw [resolveOwn, h]
  rfl

/-- One node at a width is the node itself, when it has no blocks, or what is read after the blocks
    that apply were laid over it. -/
theorem resolveOwn_cases {n m : Node} (h : (n.resolveOwn width).result = .ok m) :
    (n.blocks = [] ∧ m = n) ∨ ∃ applied, n.blocks ≠ [] ∧ n.blocks.ordered width = .ok applied ∧
      read (.object (n.overlaid applied)) = .ok m := by
  unfold resolveOwn at h
  split at h
  · rename_i settled
    cases h
    exact .inl ⟨List.isEmpty_iff.mp settled, rfl⟩
  · rename_i some_block
    simp only [Trail.result_bind_eq_ok, Trail.result_ofExcept, Result.mapError_eq_ok] at h
    obtain ⟨applied, ordered, -, -, hread⟩ := h
    exact .inr ⟨applied, fun e => some_block (by rw [e]; rfl), ordered, hread⟩

theorem resolveOwn_of_read {n m : Node} {applied : Blocks} (some_block : n.blocks ≠ [])
    (ordered : n.blocks.ordered width = .ok applied)
    (h : read (.object (n.overlaid applied)) = .ok m) : (n.resolveOwn width).result = .ok m := by
  rw [resolveOwn, if_neg (by simpa using some_block)]
  simp only [Trail.result_bind_eq_ok, Trail.result_ofExcept, Result.mapError_eq_ok]
  exact ⟨applied, ordered, (), rfl, h⟩

/-- One node at a width has no blocks any more; it weighs less than before, or is as it was. -/
theorem resolveOwn_eq_ok {n m : Node} (h : (n.resolveOwn width).result = .ok m) :
    m.blocks = [] ∧ m.weight ≤ n.weight := by
  rcases resolveOwn_cases h with ⟨settled, rfl⟩ | ⟨applied, some_block, ordered, hread⟩
  · exact ⟨settled, Nat.le_refl _⟩
  · have lighter := objects_overlaid ordered some_block
    have bounded : m.weight ≤ objectsMembers (n.overlaid applied) + 1 := read_bounded _ m hread
    exact ⟨read_blocks hread (Keyed.get?_erase_self _ _), by omega⟩

/-- A node fails by its digits exactly when the key of one of its blocks cannot be read, and else
    only because it does not read as a node. -/
theorem resolveOwn_eq_error {n : Node} {e : Failure} (h : (n.resolveOwn width).result = .error e) :
    (∃ f, e = .digits f ∧ ∃ b ∈ n.blocks, Condition.Overlong b.1) ∨
      (∃ faults, e = .overlay faults ∧ ¬∃ b ∈ n.blocks, Condition.Overlong b.1) := by
  unfold resolveOwn at h
  split at h
  · cases h
  · rw [← @Blocks.ordered_fails_iff _ width]
    simp only [Trail.result_bind_eq_error, Trail.result_ofExcept, Result.mapError_eq_ok,
      Result.mapError_eq_error] at h
    rcases h with ⟨f, failed, rfl⟩ | ⟨applied, ordered, h⟩
    · exact .inl ⟨f, rfl, f, failed⟩
    · rcases h with h | ⟨_, -, faults, -, rfl⟩
      · cases h
      · exact .inr ⟨faults, rfl, fun ⟨f, failed⟩ => by rw [ordered] at failed; cases failed⟩

theorem resolveOwn_of_overlong (width : Number) {n : Node} (h : ∃ b ∈ n.blocks, Condition.Overlong b.1) :
    ∃ f, (n.resolveOwn width).result = .error (.digits f) := by
  obtain ⟨f, failed⟩ : ∃ f, n.blocks.ordered width = .error f := Blocks.ordered_fails_iff.mpr h
  obtain ⟨b, hb, -⟩ := h
  have some_block : n.blocks.isEmpty = false := by
    rw [List.isEmpty_eq_false_iff]; exact List.ne_nil_of_mem hb
  refine ⟨f, ?_⟩
  rw [resolveOwn, some_block, failed]
  rfl

/-! ## Children -/

/-- A node with every child exchanged for what comes of it, one after the other. -/
def eachChild (f : Node → Trail Entry Failure Node) : Node → Trail Entry Failure Node
  | stack h s cs => do return stack h s (← Trail.each f cs)
  | grid h g cs => do return grid h g (← Trail.each f cs)
  | box h p (some c) => do return box h p (some (← f c))
  | form h fc fs as => do
    let fs ← Trail.each f fs
    let as ← Trail.each f as
    return form h fc fs as
  | leaf => return leaf

theorem resolveWithin_succ (width : Number) (depth : Nat) (n : Node) :
    n.resolveWithin width (depth + 1) = n.resolveOwn width >>= eachChild (resolveWithin width depth) := by
  rw [resolveWithin]
  refine congrArg (Trail.bind _) (funext fun m => ?_)
  cases m with
  | box hd p c => cases c <;> rfl
  | stack | grid | text | button | field | form | table => rfl

theorem eachChild_congr {f g : Node → Trail Entry Failure Node} {n : Node}
    (h : ∀ c ∈ n.children, f c = g c) : n.eachChild f = n.eachChild g := by
  cases n with
  | stack hd s cs => simp only [eachChild, Trail.each_congr (show ∀ c ∈ cs, f c = g c from h)]
  | grid hd g' cs => simp only [eachChild, Trail.each_congr (show ∀ c ∈ cs, f c = g c from h)]
  | box hd p c =>
    cases c with
    | none => rfl
    | some c => simp only [eachChild, h c (List.mem_singleton_self c)]
  | form hd fc fs as =>
    simp only [eachChild, Trail.each_congr fun c hc => h c (List.mem_append_left as hc),
      Trail.each_congr fun c hc => h c (List.mem_append_right fs hc)]
  | text | button | field | table => rfl

theorem eachChild_done {f : Node → Trail Entry Failure Node} {n : Node}
    (h : ∀ c ∈ n.children, f c = Trail.done c) : n.eachChild f = Trail.done n := by
  rw [eachChild_congr h]
  have all : ∀ ns : List Node, Trail.each (Trail.done (ω := Entry) (ε := Failure)) ns = Trail.done ns :=
    fun ns => Trail.each_done fun _ _ => rfl
  cases n with
  | box hd p c => cases c <;> rfl
  | stack | grid | form => simp only [eachChild, all, Trail.done_bind]; rfl
  | text | button | field | table => rfl

/-- What comes of a node has the same header, and for every child what comes of it. -/
theorem eachChild_eq_ok {f : Node → Trail Entry Failure Node} {n m : Node}
    (h : (n.eachChild f).result = .ok m) : m.header = n.header ∧
      List.Forall₂ (fun c d => (f c).result = .ok d) n.children m.children := by
  cases n with
  | stack hd s cs =>
    simp only [eachChild, Trail.result_bind_eq_ok, Trail.result_pure] at h
    obtain ⟨ds, hds, e⟩ := h
    cases e
    exact ⟨rfl, Trail.each_eq_ok hds⟩
  | grid hd g cs =>
    simp only [eachChild, Trail.result_bind_eq_ok, Trail.result_pure] at h
    obtain ⟨ds, hds, e⟩ := h
    cases e
    exact ⟨rfl, Trail.each_eq_ok hds⟩
  | box hd p c =>
    cases c with
    | none => cases h; exact ⟨rfl, .nil⟩
    | some c =>
      simp only [eachChild, Trail.result_bind_eq_ok, Trail.result_pure] at h
      obtain ⟨d, hd, e⟩ := h
      cases e
      exact ⟨rfl, .cons hd .nil⟩
  | form hd fc fs as =>
    simp only [eachChild, Trail.result_bind_eq_ok, Trail.result_pure] at h
    obtain ⟨gs, hgs, bs, hbs, e⟩ := h
    cases e
    exact ⟨rfl, List.rel_append (Trail.each_eq_ok hgs) (Trail.each_eq_ok hbs)⟩
  | text | button | field | table => cases h; exact ⟨rfl, .nil⟩

/-- A node fails as the first child does that fails. -/
theorem eachChild_eq_error {f : Node → Trail Entry Failure Node} {n : Node} {e : Failure} :
    (n.eachChild f).result = .error e ↔ ∃ before c after, n.children = before ++ c :: after ∧
      (∀ b ∈ before, ∃ d, (f b).result = .ok d) ∧ (f c).result = .error e := by
  rw [← Trail.each_eq_error]
  cases n with
  | stack | grid =>
    simp only [eachChild, children, Trail.result_bind_eq_error, Trail.result_pure, reduceCtorEq,
      and_false, exists_false, or_false]
  | box hd p c =>
    cases c with
    | none => simp [eachChild, children, Trail.each, Trail.done]
    | some c => simp [eachChild, children, Trail.each, Trail.result_bind_eq_error]
  | form hd fc fs as =>
    simp only [eachChild, children, Trail.each_append_eq_error, Trail.result_bind_eq_error,
      Trail.result_pure, reduceCtorEq, and_false, exists_false, or_false]
  | text | button | field | table => simp [eachChild, children, Trail.each, Trail.done]

/-! ## Trees -/

/-- A child of what a node is at a width: resolving the node comes to it. -/
def Called (width : Number) (c n : Node) : Prop :=
  ∃ m, (n.resolveOwn width).result = .ok m ∧ c ∈ m.children

theorem Called.weight_lt {c n : Node} (h : Called width c n) : c.weight < n.weight := by
  obtain ⟨m, hm, hc⟩ := h
  exact Nat.lt_of_lt_of_le (weight_child_lt hc) (resolveOwn_eq_ok hm).2

theorem called_wellFounded (width : Number) : WellFounded (Called width) :=
  Subrelation.wf Called.weight_lt (measure weight).wf

theorem weight_pos (n : Node) : 0 < n.weight := by rw [n.weight_eq]; omega

/-- As deep as a node weighs is deep enough. -/
theorem resolveWithin_eq_resolve {n : Node} {depth : Nat} (h : n.weight ≤ depth) :
    n.resolveWithin width depth = n.resolve width := by
  induction n using (called_wellFounded width).induction generalizing depth with
  | _ n ih =>
    obtain ⟨d, rfl⟩ : ∃ d, depth = d + 1 := ⟨depth - 1, by have := n.weight_pos; omega⟩
    obtain ⟨w, hw⟩ : ∃ w, n.weight = w + 1 := ⟨n.weight - 1, by have := n.weight_pos; omega⟩
    rw [resolve, hw, resolveWithin_succ, resolveWithin_succ]
    refine Trail.bind_congr_ok fun m hm => eachChild_congr fun c hc => ?_
    have called : Called width c n := ⟨m, hm, hc⟩
    have lighter := called.weight_lt
    rw [ih c called (by omega), ih c called (by omega)]

/-- A tree is resolved node by node, every node before its children. -/
theorem resolve_eq (width : Number) (n : Node) :
    n.resolve width = n.resolveOwn width >>= eachChild (resolve width) := by
  rw [← resolveWithin_eq_resolve (Nat.le_succ n.weight), resolveWithin_succ]
  refine Trail.bind_congr_ok fun m hm => eachChild_congr fun c hc => resolveWithin_eq_resolve ?_
  exact Nat.le_of_lt (Called.weight_lt ⟨m, hm, hc⟩)

/-! ## Trees without blocks -/

/-- No node of the tree has blocks. -/
def Settled (n : Node) : Prop := ∀ m ∈ n.allNodes, m.blocks = []

theorem settled_iff {n : Node} : n.Settled ↔ n.blocks = [] ∧ ∀ c ∈ n.children, c.Settled := by
  constructor
  · intro h
    exact ⟨h n (mem_allNodes.mpr (.inl rfl)),
      fun c hc m hm => h m (mem_allNodes.mpr (.inr ⟨c, hc, hm⟩))⟩
  · rintro ⟨own, below⟩ m hm
    rcases mem_allNodes.mp hm with rfl | ⟨c, hc, hm⟩
    · exact own
    · exact below c hc m hm

theorem settled_of_resolve {n m : Node} (h : (n.resolve width).result = .ok m) : m.Settled := by
  induction n using (called_wellFounded width).induction generalizing m with
  | _ n ih =>
    rw [resolve_eq, Trail.result_bind_eq_ok] at h
    obtain ⟨k, hk, hm⟩ := h
    obtain ⟨same, children⟩ := eachChild_eq_ok hm
    refine settled_iff.mpr ⟨?_, fun d hd => ?_⟩
    · rw [blocks, same]
      exact (resolveOwn_eq_ok hk).1
    · obtain ⟨c, hc, hcd⟩ := exists_of_forall₂ children hd
      exact ih c ⟨k, hk, hc⟩ hcd

/-- A tree without blocks is resolved to itself, at every width and without a note. -/
theorem resolve_settled {n : Node} (h : n.Settled) : n.resolve width = Trail.done n := by
  induction n using byChildren with
  | step n ih =>
    obtain ⟨own, below⟩ := settled_iff.mp h
    rw [resolve_eq, resolveOwn_of_settled own, Trail.done_bind]
    exact eachChild_done fun c hc => ih c hc (below c hc)

/-! ## Failures -/

/-- Where resolving a tree fails first: at the node itself, or in a child after those before it
    came to something. -/
inductive FailsAt (width : Number) : Node → Node → Prop
  | here {n : Node} {e : Failure} : (n.resolveOwn width).result = .error e → FailsAt width n n
  | child {n m c k : Node} {before after : List Node} : (n.resolveOwn width).result = .ok m →
      m.children = before ++ c :: after → (∀ b ∈ before, ∃ d, (b.resolve width).result = .ok d) →
      FailsAt width c k → FailsAt width n k

theorem resolve_eq_error {n : Node} {e : Failure} : (n.resolve width).result = .error e ↔
    ∃ k, FailsAt width n k ∧ (k.resolveOwn width).result = .error e := by
  constructor
  · intro h
    induction n using (called_wellFounded width).induction with
    | _ n ih =>
      rw [resolve_eq, Trail.result_bind_eq_error] at h
      rcases h with h | ⟨m, hm, h⟩
      · exact ⟨n, .here h, h⟩
      · obtain ⟨before, c, after, halves, ok, h⟩ := eachChild_eq_error.mp h
        have hc : c ∈ m.children := halves ▸ List.mem_append_right _ List.mem_cons_self
        obtain ⟨k, fails, hk⟩ := ih c ⟨m, hm, hc⟩ h
        exact ⟨k, .child hm halves ok fails, hk⟩
  · rintro ⟨k, fails, hk⟩
    induction fails with
    | here _ => rw [resolve_eq, Trail.result_bind_eq_error]; exact .inl hk
    | child hm halves ok _ ih =>
      rw [resolve_eq, Trail.result_bind_eq_error]
      exact .inr ⟨_, hm, eachChild_eq_error.mpr ⟨_, _, _, halves, ok, ih hk⟩⟩

/-- Resolving a tree at a width comes to an end, as every call is for a node that weighs less. When
    it comes to a tree, no node of it has blocks, hidden or not, and to resolve it again at any
    width changes nothing. When it fails, a node does not read after blocks were laid over it; but
    for one case, in which the first node to fail has a condition of more digits than can be read. -/
theorem resolve_settles (width : Number) (n : Node) :
    WellFounded (Called width) ∧
    n.resolve width = n.resolveOwn width >>= eachChild (resolve width) ∧
    (∀ m, (n.resolve width).result = .ok m →
      (∀ k ∈ m.allNodes, k.blocks = []) ∧ ∀ w, m.resolve w = Trail.done m) ∧
    (∀ e, (n.resolve width).result = .error e →
      (∃ faults, e = .overlay faults) ∨ ∃ f, e = .digits f) ∧
    ((∃ f, (n.resolve width).result = .error (.digits f)) ↔
      ∃ k, FailsAt width n k ∧ ∃ b ∈ k.blocks, Condition.Overlong b.1) := by
  refine ⟨called_wellFounded width, resolve_eq width n, fun m hm => ?_, fun e he => ?_, ?_, ?_⟩
  · have settled := settled_of_resolve hm
    exact ⟨settled, fun w => resolve_settled settled⟩
  · obtain ⟨k, -, hk⟩ := resolve_eq_error.mp he
    rcases resolveOwn_eq_error hk with ⟨f, rfl, -⟩ | ⟨faults, rfl, -⟩
    · exact .inr ⟨f, rfl⟩
    · exact .inl ⟨faults, rfl⟩
  · rintro ⟨f, he⟩
    obtain ⟨k, fails, hk⟩ := resolve_eq_error.mp he
    rcases resolveOwn_eq_error hk with ⟨_, -, overlong⟩ | ⟨_, e, -⟩
    · exact ⟨k, fails, overlong⟩
    · cases e
  · rintro ⟨k, fails, overlong⟩
    obtain ⟨f, hk⟩ := resolveOwn_of_overlong width overlong
    exact ⟨f, resolve_eq_error.mpr ⟨k, fails, hk⟩⟩

/-- `>=` and so many ones. -/
def onesKey (digits : Nat) : String := String.ofList (['>', '='] ++ List.replicate digits '1')

theorem overlong_onesKey {digits : Nat} (h : Text.digitLimit < digits) :
    Condition.Overlong (onesKey digits) := by
  refine ⟨['>', '='], List.replicate digits '1', [], ?_, .inl rfl, fun c hc => ?_, ?_, .inl rfl⟩
  · rw [onesKey, String.toList_ofList, List.append_nil]
  · rw [List.eq_of_mem_replicate hc]; rfl
  · rwa [List.length_replicate]

/-- A text with a block under a condition of one digit more than can be read. -/
def overlongText : Node :=
  .text (.cascading "t" [(onesKey 4301, some [("text", .text "x")])]) ⟨"", none, none, none⟩

theorem overlongText_neither_resolves_nor_misreads :
    ¬((∃ m, (overlongText.resolve (.int 320)).result = .ok m) ∨
      ∃ faults, (overlongText.resolve (.int 320)).result = .error (.overlay faults)) := by
  have overlong : ∃ b ∈ overlongText.blocks, Condition.Overlong b.1 :=
    ⟨_, List.mem_singleton_self _, overlong_onesKey (by decide)⟩
  obtain ⟨f, own⟩ := resolveOwn_of_overlong (.int 320) overlong
  have failed := resolve_eq_error.mpr ⟨overlongText, .here own, own⟩
  rw [failed]
  rintro (⟨_, h⟩ | ⟨_, h⟩)
  · cases h
  · cases h

end Node

end Wireframe
