import Wireframe.Proofs.Order
import Wireframe.Proofs.Pattern.HiddenSteps

/-
  Wireframe.Proofs.Pattern.Scopes — which scope a step belongs to, and where in it.

  The owner of a step is looked for by id, among the wizards in document order. Where ids tell the
  visible nodes apart the search by id is the question whether the step stands inside of the wizard;
  and a wizard that stands inside of another one is listed after it, so what is found first is the
  outermost wizard around the step. A step that stands inside of another step belongs to the same
  wizard, and counts by itself.

  A step with an index below one is passed over, and still it takes up a position: the steps after
  it that name no index count it.

  Proved:
  - `owner_iff`: the search finds the outermost wizard that a step stands in, if there is one.
  - `scopes_eq_map`: the scopes are those of the owners, each with the steps that belong to it.
  - `Scope.of_indicesAt`: a scope has a step of its once at most, at the index of its position.
  - `scopes_partitioned`: all visible steps with an index from one on are in one scope once.
-/

namespace Wireframe.Wizards

open Located

variable {root : Node} {l w : Located}

/-! ## Whom a step belongs to -/

/-- The visible steps of a tree, in document order. -/
def shownSteps (root : Node) : List Located := root.walk.filter (plays .step)

/-- A step belongs to the outermost of the visible wizards that it stands in, and to the screen when
    it stands in none. -/
def Owner (root : Node) (l : Located) : Option Located → Prop
  | some w =>
    w ∈ wizardsOf root ∧ l.Inside w ∧ ∀ v ∈ wizardsOf root, l.Inside v → v = w ∨ v.Inside w
  | none => ∀ w ∈ wizardsOf root, ¬l.Inside w

/-- Is the node of a place among those that a wizard is the root of? -/
def stands (l w : Located) : Bool := w.subtree.any (·.node.id == l.node.id)

theorem plays_once (hw : plays .wizard l = true) (hs : plays .step l = true) : False := by
  unfold plays at hw hs
  cases h : l.node.guidedFlow? with
  | none => simp [h] at hw
  | some g =>
    simp only [h, Option.any_some, beq_iff_eq] at hw hs
    exact nomatch hw.symm.trans hs

theorem stands_iff (unique : root.UniqueShown) (hw : w ∈ wizardsOf root)
    (hl : l ∈ shownSteps root) : stands l w = true ↔ l.Inside w := by
  obtain ⟨hw, wizard⟩ := List.mem_filter.mp hw
  obtain ⟨hl, step⟩ := List.mem_filter.mp hl
  have found : stands l w = true ↔ l ∈ w.subtree := by
    simp only [stands, List.any_eq_true, beq_iff_eq]
    constructor
    · rintro ⟨m, hm, same⟩
      exact unique.located_eq (subtree_subset hw hm) hl same ▸ hm
    · exact fun hm => ⟨l, hm, rfl⟩
  rw [found, mem_subtree hw hl]
  refine ⟨fun place => place.resolve_left ?_, .inr⟩
  rintro rfl
  exact plays_once wizard step

theorem wizardsOf_nodup (root : Node) : (wizardsOf root).Nodup :=
  (List.Nodup.of_map _ (Node.pointers_nodup true rootPointer root)).filter _

/-- No wizard stands inside of one that is listed later. -/
theorem wizardsOf_pairwise (root : Node) : (wizardsOf root).Pairwise fun v w => ¬v.Inside w :=
  (Node.walkFrom_pairwise true rootPointer root).filter _

/-- The first wizard that a step stands in is the outermost one. -/
theorem owner_iff (unique : root.UniqueShown) (hl : l ∈ shownSteps root)
    {owner : Option Located} :
    Owner root l owner ↔ (wizardsOf root).find? (stands l) = owner := by
  have test : ∀ w ∈ wizardsOf root, (stands l w = true ↔ l.Inside w) := fun w hw =>
    stands_iff unique hw hl
  cases owner with
  | none =>
    rw [List.find?_eq_none]
    exact forall₂_congr fun w hw => (not_congr (test w hw)).symm
  | some w =>
    rw [List.find?_eq_some_iff_append]
    constructor
    · rintro ⟨hw, inside, outermost⟩
      obtain ⟨before, after, split⟩ := List.append_of_mem hw
      refine ⟨(test w hw).mpr inside, before, after, split, fun v hv => ?_⟩
      rw [Bool.not_eq_true', ← Bool.not_eq_true]
      have order := split ▸ wizardsOf_pairwise root
      have nodup := split ▸ wizardsOf_nodup root
      have earlier : ¬v.Inside w :=
        (List.pairwise_append.mp order).2.2 v hv w List.mem_cons_self
      have other : v ≠ w := (List.nodup_append.mp nodup).2.2 v hv w List.mem_cons_self
      have hv : v ∈ wizardsOf root := split ▸ List.mem_append_left _ hv
      intro around
      exact (outermost v hv ((test v hv).mp around)).elim other earlier
    · rintro ⟨around, before, after, split, none_before⟩
      have hw : w ∈ wizardsOf root := by simp [split]
      have inside := (test w hw).mp around
      refine ⟨hw, inside, fun v hv inv => ?_⟩
      have order := split ▸ wizardsOf_pairwise root
      rcases List.mem_append.mp (split ▸ hv) with early | late
      · have := none_before v early
        rw [(test v hv).mpr inv] at this
        cases this
      rcases List.mem_cons.mp late with rfl | late
      · exact .inl rfl
      · have later : ¬w.Inside v :=
          (List.pairwise_cons.mp (List.pairwise_append.mp order).2.1).1 v late
        rcases inv.comparable (wizardsOf_subset root hv) (wizardsOf_subset root hw) inside with
          same | deeper | outer
        · exact .inl same
        · exact .inr deeper
        · exact absurd outer later

/-! ## The scopes of the owners -/

open scoped Classical in
/-- The visible steps that belong to an owner, in document order. -/
noncomputable def members (root : Node) (owner : Option Located) : List Located :=
  (shownSteps root).filter (Owner root · owner)

open scoped Classical in
/-- All visible wizards in document order, and then the screen, when there is no wizard or a step
    that stands in none. -/
noncomputable def owners (root : Node) : List (Option Located) :=
  (wizardsOf root).map some ++
    if wizardsOf root = [] ∨ ∃ l ∈ shownSteps root, ∀ w ∈ wizardsOf root, ¬l.Inside w then [none]
    else []

theorem mem_members {owner : Option Located} :
    l ∈ members root owner ↔ l ∈ shownSteps root ∧ Owner root l owner := by
  classical
  rw [members, List.mem_filter, decide_eq_true_iff]

theorem stepsOf_eq_members {owner : Option Located} {place : Option Nat}
    (same : ∀ l ∈ shownSteps root,
      owner? (wizardsOf root) l = place ↔ Owner root l owner) :
    stepsOf root place = members root owner := by
  classical
  have filtered : stepsOf root place =
      (shownSteps root).filter fun l => owner? (wizardsOf root) l == place := by
    rw [stepsOf, List.filter_map, List.map_map]
    exact List.map_id' _
  rw [filtered, members]
  refine List.filter_congr fun l hl => ?_
  rw [Bool.eq_iff_iff, beq_iff_eq, decide_eq_true_iff]
  exact same l hl

theorem stepsOf_none (unique : root.UniqueShown) : stepsOf root none = members root none := by
  refine stepsOf_eq_members fun l hl => ?_
  rw [owner_iff unique hl, owner?, List.findIdx?_eq_none_iff, List.find?_eq_none]
  exact forall₂_congr fun w _ => Bool.not_eq_true _ ▸ Iff.rfl

theorem stepsOf_some (unique : root.UniqueShown) {i : Nat} (hw : (w, i) ∈ (wizardsOf root).zipIdx) :
    stepsOf root (some i) = members root (some w) := by
  have at_i : (wizardsOf root)[i]? = some w := List.mem_zipIdx_iff_getElem?.mp hw
  refine stepsOf_eq_members fun l hl => ?_
  rw [owner_iff unique hl, List.find?_eq_bind_findIdx?_getElem?]
  constructor
  · intro found
    show (owner? (wizardsOf root) l).bind _ = _
    rw [found, Option.bind_some, at_i]
  · intro found
    obtain ⟨j, hj, at_j⟩ := Option.bind_eq_some_iff.mp found
    have inside : j < (wizardsOf root).length := (List.getElem?_eq_some_iff.mp at_j).1
    have same : j = i :=
      (List.getElem?_inj inside (wizardsOf_nodup root)).mp (at_j.trans at_i.symm)
    exact same ▸ hj

/-- There is one scope for every owner, with the steps that belong to it. -/
theorem scopes_eq_map (unique : root.UniqueShown) :
    scopes root = (owners root).map fun owner => Scope.of owner (members root owner) := by
  have free : ((wizardsOf root).isEmpty || !(members root none).isEmpty) = true ↔
      wizardsOf root = [] ∨ ∃ l ∈ shownSteps root, ∀ w ∈ wizardsOf root, ¬l.Inside w := by
    rw [Bool.or_eq_true, List.isEmpty_iff, Bool.not_eq_true', ← Bool.not_eq_true, List.isEmpty_iff]
    refine or_congr_right ?_
    rw [List.eq_nil_iff_forall_not_mem, not_forall]
    exact exists_congr fun l => not_not.trans mem_members
  rw [scopes_eq, owners, List.map_append, stepsOf_none unique]
  congr 1
  · have placed : (wizardsOf root).map some = (wizardsOf root).zipIdx.map fun p => some p.1 := by
      conv_lhs => rw [← List.zipIdx_map_fst 0 (wizardsOf root), List.map_map]
      rfl
    rw [placed, List.map_map]
    exact List.map_congr_left fun ⟨w, i⟩ hw => congrArg (Scope.of _) (stepsOf_some unique hw)
  · split
    · rw [if_pos (free.mp ‹_›)]
      rfl
    · rw [if_neg (mt free.mpr ‹_›)]
      rfl

/-! ## The steps of a scope -/

/-- The step at a place and a position, unless its index is below one. -/
def kept? : Located × Nat → Option Step
  | (l, position) =>
    if indexOr position l < 1 then none
    else some ⟨l, indexOr position l, (statedTotal l).getD 0, actionsOf l⟩

theorem keptSteps_eq (places : List Located) :
    keptSteps places = (places.zipIdx 1).filterMap kept? := rfl

theorem kept?_eq_some {position : Nat} {s : Step} (h : kept? (l, position) = some s) :
    s.place = l ∧ s.index = indexOr position l ∧ 1 ≤ s.index := by
  simp only [kept?, Option.ite_none_left_eq_some, Option.some.injEq] at h
  obtain ⟨positive, rfl⟩ := h
  exact ⟨rfl, rfl, Int.not_lt.mp positive⟩

@[simp] theorem Step.within_place (n : Int) (s : Step) : (s.within n).place = s.place := by
  unfold within
  split <;> rfl

@[simp] theorem Step.within_index (n : Int) (s : Step) : (s.within n).index = s.index := by
  unfold within
  split <;> rfl

theorem keptSteps_pairwise {places : List Located} {R : Located → Located → Prop}
    (h : places.Pairwise R) : (keptSteps places).Pairwise fun s t => R s.place t.place := by
  have numbered : (places.zipIdx 1).Pairwise fun p q => R p.1 q.1 := by
    rwa [← List.pairwise_map (R := R), List.zipIdx_map_fst]
  refine numbered.filterMap kept? fun p q before s hs t ht => ?_
  rwa [(kept?_eq_some hs).1, (kept?_eq_some ht).1]

/-- The steps of a scope are in the order of their indices, and where these are the same in the
    order of their places. -/
theorem Scope.of_ordered (owner : Option Located) {places : List Located}
    {R : Located → Located → Prop} (h : places.Pairwise R) :
    (Scope.of owner places).steps.Pairwise fun s t =>
      s.index < t.index ∨ s.index = t.index ∧ R s.place t.place := by
  refine pairwise_mergeSort (R := fun s t : Step => R s.place t.place) (List.pairwise_map.mpr ?_)
  simpa only [Step.within_place] using keptSteps_pairwise h

/-- The indices that a scope has for a place. -/
def Scope.indicesAt (scope : Scope) (l : Located) : List Int :=
  (scope.steps.filter (·.place.isAt l)).map (·.index)

theorem isAt_iff {m : Located} : m.isAt l = true ↔ m.pointer = l.pointer := beq_iff_eq

/-- The indices at a place are those of the places with its pointer, by their positions. -/
theorem Scope.of_indicesAt_perm (owner : Option Located) (places : List Located) (l : Located) :
    ((Scope.of owner places).indicesAt l).Perm
      (((places.zipIdx 1).filter (·.1.isAt l)).filterMap fun p => (kept? p).map (·.index)) := by
  have sorted := ((List.mergeSort_perm ((keptSteps places).map
    (·.within (totalOf owner (keptSteps places)))) fun a b => decide (a.index ≤ b.index)).filter
      (·.place.isAt l)).map (·.index)
  refine sorted.trans (.of_eq ?_)
  rw [List.filter_map, List.map_map, keptSteps_eq, List.filter_filterMap, List.map_filterMap,
    List.filterMap_filter]
  refine List.filterMap_congr fun p _ => ?_
  cases h : kept? p with
  | none => simp
  | some s => simp [(kept?_eq_some h).1, Option.filter]

theorem zipIdx_not_at {places : List Located} (other : ∀ m ∈ places, m.pointer ≠ l.pointer)
    (k : Nat) : (places.zipIdx k).filter (·.1.isAt l) = [] := by
  refine List.filter_eq_nil_iff.mpr fun p hp => ?_
  rw [isAt_iff]
  exact other p.1 (List.fst_mem_of_mem_zipIdx hp)

theorem Scope.of_indicesAt_none (owner : Option Located) {places : List Located}
    (other : ∀ m ∈ places, m.pointer ≠ l.pointer) : (Scope.of owner places).indicesAt l = [] := by
  refine List.perm_nil.mp ((Scope.of_indicesAt_perm owner places l).trans (.of_eq ?_))
  rw [zipIdx_not_at other, List.filterMap_nil]

/-- A scope has a step of its once, at the index that the step has at its position, if that is not
    below one. -/
theorem Scope.of_indicesAt (owner : Option Located) {before after : List Located}
    (nodup : ((before ++ l :: after).map (·.pointer)).Nodup) :
    (Scope.of owner (before ++ l :: after)).indicesAt l =
      if 1 ≤ indexOr (before.length + 1) l then [indexOr (before.length + 1) l] else [] := by
  obtain ⟨earlier, later⟩ : (∀ m ∈ before, m.pointer ≠ l.pointer) ∧
      ∀ m ∈ after, m.pointer ≠ l.pointer := by
    rw [List.map_append, List.map_cons, List.nodup_append, List.nodup_cons] at nodup
    obtain ⟨-, ⟨later, -⟩, earlier⟩ := nodup
    exact ⟨fun m hm => earlier _ (List.mem_map_of_mem hm) _ List.mem_cons_self,
      fun m hm same => later (same ▸ List.mem_map_of_mem hm)⟩
  have found : ((before ++ l :: after).zipIdx 1).filter (·.1.isAt l) = [(l, before.length + 1)] := by
    have here : l.isAt l = true := isAt_iff.mpr rfl
    rw [List.zipIdx_append, List.zipIdx_cons, List.filter_append, zipIdx_not_at earlier,
      List.filter_cons, if_pos here, zipIdx_not_at later, Nat.add_comm 1]
    rfl
  have perm := Scope.of_indicesAt_perm owner (before ++ l :: after) l
  rw [found] at perm
  by_cases low : indexOr (before.length + 1) l < 1
  · rw [if_neg (by omega)]
    simpa [kept?, low] using perm
  · rw [if_pos (by omega)]
    simpa [kept?, low] using perm

/-! ## All scopes -/

theorem members_sublist (root : Node) (owner : Option Located) :
    (members root owner).Sublist root.walk := by
  classical exact List.filter_sublist.trans List.filter_sublist

theorem owners_nodup (root : Node) : (owners root).Nodup := by
  refine List.nodup_append.mpr ⟨(wizardsOf_nodup root).map (Option.some_injective _), ?_, ?_⟩
  · split
    · exact List.nodup_singleton none
    · exact .nil
  · intro owner hw other hn
    obtain ⟨w, -, rfl⟩ := List.mem_map.mp hw
    split at hn
    · rw [List.mem_singleton.mp hn]
      exact Option.some_ne_none w
    · cases hn

/-- Whoever has a step has a scope. -/
theorem mem_owners {owner : Option Located} (hl : l ∈ shownSteps root) (own : Owner root l owner) :
    owner ∈ owners root := by
  cases owner with
  | some w => exact List.mem_append_left _ (List.mem_map_of_mem own.1)
  | none =>
    refine List.mem_append_right _ ?_
    rw [if_pos (.inr ⟨l, hl, own⟩)]
    exact List.mem_singleton_self none

/-- Where a place is in the scopes: whose scope it is, and the index there. -/
def appearances (root : Node) (l : Located) : List (Option Located × Int) :=
  (scopes root).flatMap fun scope => (scope.indicesAt l).map (scope.wizard, ·)

theorem appearances_eq (unique : root.UniqueShown) {owner : Option Located}
    {before after : List Located} (own : ∀ other, Owner root l other ↔ other = owner)
    (split : members root owner = before ++ l :: after) :
    appearances root l = if 1 ≤ indexOr (before.length + 1) l then
      [(owner, indexOr (before.length + 1) l)] else [] := by
  have pointers : ∀ places : List Located, places.Sublist root.walk →
      (places.map (·.pointer)).Nodup := fun _ within =>
    (Node.pointers_nodup true rootPointer root).sublist (within.map _)
  have inside : l ∈ members root owner := split ▸ List.mem_append_right _ List.mem_cons_self
  have hl := (mem_members.mp inside).1
  -- No other owner has a step with this pointer.
  have elsewhere : ∀ other ≠ owner, (Scope.of other (members root other)).indicesAt l = [] := by
    refine fun other ne => Scope.of_indicesAt_none other fun m hm same => ne ((own other).mp ?_)
    have hm' := (members_sublist root other).subset hm
    have : m = l := List.inj_on_of_nodup_map (Node.pointers_nodup true rootPointer root) hm'
      (List.mem_of_mem_filter hl) same
    exact this ▸ (mem_members.mp hm).2
  obtain ⟨as, bs, owners_split⟩ :=
    List.append_of_mem (mem_owners hl ((own owner).mpr rfl))
  have nodup := owners_split ▸ owners_nodup root
  have none_before : ∀ other ∈ as, other ≠ owner := fun other h =>
    (List.nodup_append.mp nodup).2.2 other h owner List.mem_cons_self
  have none_after : ∀ other ∈ bs, other ≠ owner := by
    rintro other h rfl
    exact (List.nodup_cons.mp (List.nodup_append.mp nodup).2.1).1 h
  have only : appearances root l =
      ((Scope.of owner (members root owner)).indicesAt l).map (owner, ·) := by
    rw [appearances, scopes_eq_map unique, List.flatMap_map, owners_split, List.flatMap_append,
      List.flatMap_cons, List.flatMap_eq_nil_iff.mpr fun o h => ?_,
      List.flatMap_eq_nil_iff.mpr fun o h => ?_, List.append_nil, List.nil_append]
    · rfl
    · rw [elsewhere o (none_after o h), List.map_nil]
    · rw [elsewhere o (none_before o h), List.map_nil]
  have here := Scope.of_indicesAt owner (split ▸ pointers _ (members_sublist root owner))
  rw [only, split, here]
  split
  · rfl
  · rfl

/-- The scopes of a tree share its visible steps out. -/
structure Partitioned (root : Node) : Prop where
  /-- Every visible wizard has a scope, in document order; the screen has the last one, if there is
      no wizard or some step stands in none. -/
  owners : (scopes root).map (·.wizard) = owners root
  /-- Nothing is in a scope but visible steps. -/
  steps : ∀ scope ∈ scopes root, ∀ s ∈ scope.steps, s.place ∈ shownSteps root
  /-- Every visible step has one owner. It is in no scope but this one's, and there once: at the
      index it names, or at its position among all visible steps of the owner. When this is below
      one, it is in no scope. -/
  placed : ∀ l ∈ shownSteps root, ∃ owner before after,
    (∀ other, Owner root l other ↔ other = owner) ∧
    members root owner = before ++ l :: after ∧
    appearances root l = if 1 ≤ indexOr (before.length + 1) l then
      [(owner, indexOr (before.length + 1) l)] else []
  /-- The steps of a scope are in the order of their indices, and in document order where these are
      the same. -/
  ordered : ∀ scope ∈ scopes root, scope.steps.Pairwise fun s t =>
    s.index < t.index ∨ s.index = t.index ∧ s.place.Before root t.place

theorem walk_before (root : Node) : root.walk.Pairwise (Before root) :=
  List.pairwise_iff_forall_sublist.mpr fun before => before

/-- Where ids tell the visible nodes of a tree apart, its scopes share the visible steps out. -/
theorem scopes_partitioned (unique : root.UniqueShown) : Partitioned root where
  owners := by
    rw [scopes_eq_map unique, List.map_map]
    exact List.map_id' _
  steps := by
    rw [scopes_eq_map unique, List.forall_mem_map]
    intro owner _ s hs
    exact (mem_members.mp (Scope.of_steps hs).1).1
  placed := by
    intro l hl
    have own : ∀ other, Owner root l other ↔ other = (wizardsOf root).find? (stands l) := fun _ =>
      (owner_iff unique hl).trans eq_comm
    obtain ⟨before, after, split⟩ :=
      List.append_of_mem (mem_members.mpr ⟨hl, (own _).mpr rfl⟩)
    exact ⟨_, before, after, own, split, appearances_eq unique own split⟩
  ordered := by
    rw [scopes_eq_map unique, List.forall_mem_map]
    exact fun owner _ => Scope.of_ordered owner ((walk_before root).sublist (members_sublist root owner))

/-- A wizard in another one, a step in a step, a step with an index that is passed over, a step in a
    hidden stack, and a step outside of both wizards. -/
def tourRoot : Node :=
  .plainStack "page" .vertical
    [.inFlow "outer" .wizard none none
        [.inFlow "late" .step (some 2) none [.inFlow "within" .step none none []],
          .inFlow "zeroth" .step (some 0) none [],
          .inFlow "inner" .wizard none none [.inFlow "deep" .step none none []],
          .stack (.hidden "off") ⟨.vertical, none, none, .start, false⟩
            [.inFlow "dark" .step none none []]],
      .inFlow "alone" .step none none []]

theorem tourRoot_partitioned : tourRoot.UniqueIds ∧ Partitioned tourRoot := by
  have unique : tourRoot.UniqueIds := by decide +kernel
  exact ⟨unique, scopes_partitioned unique.shown⟩

/-- The inner wizard has no step, as the step in it belongs to the outer one, where it is the
    fourth. -/
example : ((scopes tourRoot).map fun scope => (scope.wizard.map (·.node.id),
    scope.steps.map fun s => (s.place.node.id, s.index))) =
    [(some "outer", [("late", 2), ("within", 2), ("deep", 4)]), (some "inner", []),
      (none, [("alone", 1)])] := by cbv

end Wireframe.Wizards
