import Mathlib.Data.List.Nodup
import Mathlib.Data.List.Pairwise
import Wireframe.Proofs.Ancestors

/-
  Wireframe.Proofs.Order — document order, and sorting that keeps it.

  A walk lists a node before what stands inside of it. So among the places that a node stands in,
  which all stand inside of each other, the one listed first is the outermost. To look for the first
  place that has a node below it finds the outermost only because of both: a walk that listed nodes
  after their children would find the innermost.

  Proved:
  - `walkFrom_pairwise`: nothing that is listed earlier stands inside of something listed later.
  - `mem_subtree`: the subtree of a visible place lists the place and what stands inside of it.
  - `Inside.comparable`: of two places that a third one stands in, one stands inside of the other.
  - `filter_mergeSort_of_level`: sorting keeps the order of what may come in any order.
  - `pairwise_mergeSort`: sorting by a number keeps the order of what has the same number.
  - `filter_eq_of_sublist`: what is picked from a list is told by what it picks.
  - `find?_iff_firstWith`, `getLast?_filter_iff`: what is found first, and what is last among those
    that pass.
-/

namespace Wireframe

/-! ## Sorting -/

section

variable {α : Type} {key : α → Int} {l : List α}

theorem mergeSort_trans (key : α → Int) (a b c : α) (hab : decide (key a ≤ key b) = true)
    (hbc : decide (key b ≤ key c) = true) : decide (key a ≤ key c) = true := by
  simp only [decide_eq_true_eq] at *
  omega

theorem mergeSort_total (key : α → Int) (a b : α) :
    (decide (key a ≤ key b) || decide (key b ≤ key a)) = true := by
  simp only [Bool.or_eq_true, decide_eq_true_eq]
  omega

/-- What comes with each other in any order is in the same order after sorting. -/
theorem filter_mergeSort_of_level {le : α → α → Bool}
    (trans : ∀ a b c, le a b = true → le b c = true → le a c = true)
    (total : ∀ a b, (le a b || le b a) = true) {p : α → Bool}
    (level : ∀ a b, p a = true → p b = true → le a b = true) (l : List α) :
    (l.mergeSort le).filter p = l.filter p := by
  -- Items that pass are in order already, so they are still in this order after sorting.
  have ordered : (l.filter p).Pairwise fun a b => le a b = true :=
    List.pairwise_of_forall_mem_list fun a ha b hb =>
      level a b (List.mem_filter.mp ha).2 (List.mem_filter.mp hb).2
  have kept := (List.sublist_mergeSort trans total ordered List.filter_sublist).filter p
  rw [List.filter_filter] at kept
  simp only [Bool.and_self] at kept
  refine (kept.eq_of_length ?_).symm
  exact (((List.mergeSort_perm l le).filter _).length_eq).symm

/-- What has the same number is in the same order after sorting. -/
theorem filter_mergeSort (key : α → Int) (l : List α) (k : Int) :
    ((l.mergeSort fun a b => key a ≤ key b).filter fun a => key a = k) =
      l.filter fun a => key a = k := by
  refine filter_mergeSort_of_level (mergeSort_trans key) (mergeSort_total key) (fun a b ha hb => ?_) l
  simp only [decide_eq_true_eq] at *
  omega

/-- A list sorted by a number is in the order of the numbers, and where they are the same in the
    order that it had. -/
theorem pairwise_mergeSort {R : α → α → Prop} (h : l.Pairwise R) :
    (l.mergeSort fun a b => key a ≤ key b).Pairwise fun a b =>
      key a < key b ∨ key a = key b ∧ R a b := by
  refine List.pairwise_iff_forall_sublist.mpr fun {a b} pair => ?_
  have sorted := List.pairwise_mergeSort (mergeSort_trans key) (mergeSort_total key) l
  have le : key a ≤ key b :=
    of_decide_eq_true (List.pairwise_iff_forall_sublist.mp sorted pair)
  rcases Int.lt_or_eq_of_le le with lt | eq
  · exact .inl lt
  · have both := pair.filter fun c => key c = key b
    rw [filter_mergeSort] at both
    have kept : [a, b].filter (fun c => key c = key b) = [a, b] := by simp [eq]
    rw [kept] at both
    exact .inr ⟨eq, List.pairwise_iff_forall_sublist.mp h (both.trans List.filter_sublist)⟩

end

/-! ## What is picked from a list -/

/-- Whatever is picked from a list without repetitions is in it in the order of the list. -/
theorem filter_eq_of_sublist {α : Type} {l m : List α} {p : α → Bool} (sub : l.Sublist m)
    (nodup : m.Nodup) (test : ∀ a ∈ m, p a = true ↔ a ∈ l) : m.filter p = l := by
  have own : l.filter p = l := List.filter_eq_self.mpr fun a ha => (test a (sub.subset ha)).mpr ha
  have perm : (m.filter p).Perm l := by
    refine (List.perm_ext_iff_of_nodup (nodup.filter p) (nodup.sublist sub)).mpr fun a => ?_
    rw [List.mem_filter]
    exact ⟨fun h => (test a h.1).mp h.2, fun h => ⟨sub.subset h, (test a (sub.subset h)).mpr h⟩⟩
  have within := sub.filter p
  rw [own] at within
  exact (within.eq_of_length perm.length_eq.symm).symm

/-- What picks from a list and tells of it tells of the picked items, one by one. -/
theorem forall₂_filterMap {α β : Type} {f : α → Option β} {picked : α → Bool} {R : α → β → Prop}
    {items : List α} (none_iff : ∀ a ∈ items, f a = none ↔ picked a = false)
    (told : ∀ a ∈ items, ∀ b, f a = some b → R a b) :
    List.Forall₂ R (items.filter picked) (items.filterMap f) := by
  induction items with
  | nil => exact .nil
  | cons a rest ih =>
    have rest_told := ih (fun b hb => none_iff b (List.mem_cons_of_mem a hb))
      fun b hb => told b (List.mem_cons_of_mem a hb)
    have own := none_iff a List.mem_cons_self
    cases h : f a with
    | none =>
      rw [List.filterMap_cons_none h, List.filter_cons_of_neg (by simp [own.mp h])]
      exact rest_told
    | some b =>
      have : picked a = true := by
        rw [← Bool.not_eq_false, ← own, h]
        simp
      rw [List.filterMap_cons_some h, List.filter_cons_of_pos this]
      exact .cons (told a List.mem_cons_self b h) rest_told

/-! ## The first one that passes, and the last one -/

/-- The item has a property, and none that is listed before it has. -/
def FirstWith {α : Type} (P : α → Prop) (l : List α) (a : α) : Prop :=
  ∃ before after, l = before ++ a :: after ∧ P a ∧ ∀ b ∈ before, ¬P b

theorem find?_iff_firstWith {α : Type} {P : α → Prop} {test : α → Bool} {l : List α} {a : α}
    (passes : ∀ b ∈ l, test b = true ↔ P b) : l.find? test = some a ↔ FirstWith P l a := by
  rw [List.find?_eq_some_iff_append]
  constructor
  · rintro ⟨pass, before, after, rfl, others⟩
    refine ⟨before, after, rfl, (passes a (by simp)).mp pass, fun b hb yes => ?_⟩
    have no := others b hb
    rw [(passes b (List.mem_append_left _ hb)).mpr yes] at no
    cases no
  · rintro ⟨before, after, rfl, has, others⟩
    refine ⟨(passes a (by simp)).mpr has, before, after, rfl, fun b hb => ?_⟩
    rw [Bool.not_eq_true', ← Bool.not_eq_true]
    exact fun yes => others b hb ((passes b (List.mem_append_left _ hb)).mp yes)

theorem find?_eq_none_iff {α : Type} {P : α → Prop} {test : α → Bool} {l : List α}
    (passes : ∀ b ∈ l, test b = true ↔ P b) : l.find? test = none ↔ ∀ b ∈ l, ¬P b := by
  rw [List.find?_eq_none]
  exact forall₂_congr fun b hb => not_congr (passes b hb)

/-- The item has a property, and none that is listed after it has. -/
def LastWith {α : Type} (P : α → Prop) (l : List α) (a : α) : Prop :=
  ∃ before after, l = before ++ a :: after ∧ P a ∧ ∀ b ∈ after, ¬P b

theorem firstWith_reverse {α : Type} {P : α → Prop} {l : List α} {a : α} :
    FirstWith P l.reverse a ↔ LastWith P l a := by
  constructor
  · rintro ⟨after, before, whole, has, others⟩
    refine ⟨before.reverse, after.reverse, ?_, has, fun b hb => others b (List.mem_reverse.mp hb)⟩
    rw [← List.reverse_reverse l, whole]
    simp
  · rintro ⟨before, after, rfl, has, others⟩
    exact ⟨after.reverse, before.reverse, by simp, has, fun b hb => others b (List.mem_reverse.mp hb)⟩

theorem find?_reverse_iff {α : Type} {P : α → Prop} {test : α → Bool} {l : List α} {a : α}
    (passes : ∀ b ∈ l, test b = true ↔ P b) : l.reverse.find? test = some a ↔ LastWith P l a := by
  rw [find?_iff_firstWith fun b hb => passes b (List.mem_reverse.mp hb), firstWith_reverse]

theorem getLast?_filter_iff {α : Type} {P : α → Prop} {test : α → Bool} {l : List α} {a : α}
    (passes : ∀ b ∈ l, test b = true ↔ P b) : (l.filter test).getLast? = some a ↔ LastWith P l a := by
  rw [List.getLast?_filter, find?_reverse_iff passes]

theorem getLast?_filter_eq_none {α : Type} {P : α → Prop} {test : α → Bool} {l : List α}
    (passes : ∀ b ∈ l, test b = true ↔ P b) : (l.filter test).getLast? = none ↔ ∀ b ∈ l, ¬P b := by
  rw [List.getLast?_eq_none_iff, List.filter_eq_nil_iff]
  exact forall₂_congr fun b hb => not_congr (passes b hb)

/-- Some item has a property exactly when there is a last one that has it. -/
theorem exists_lastWith {α : Type} {P : α → Prop} {l : List α} :
    (∃ a, LastWith P l a) ↔ ∃ a ∈ l, P a := by
  constructor
  · rintro ⟨a, before, after, rfl, has, -⟩
    exact ⟨a, by simp, has⟩
  · rintro ⟨a, ha, has⟩
    induction l generalizing a with
    | nil => cases ha
    | cons b l ih =>
      by_cases later : ∃ c ∈ l, P c
      · obtain ⟨c, hc, has⟩ := later
        obtain ⟨d, before, after, rfl, last⟩ := ih c hc has
        exact ⟨d, b :: before, after, rfl, last⟩
      · rcases List.mem_cons.mp ha with rfl | ha
        · exact ⟨a, [], l, rfl, has, fun c hc yes => later ⟨c, hc, yes⟩⟩
        · exact absurd ⟨a, ha, has⟩ later

/-! ## Document order -/

/-- The first place comes before the second in a walk over the visible nodes. -/
def Located.Before (root : Node) (l m : Located) : Prop := [l, m].Sublist root.walk

namespace Node

theorem inside_of_mem_walkFrom {b : Bool} {p : String} {n : Node} {l : Located}
    (h : l ∈ n.walkFrom b p) : l = ⟨n, p⟩ ∨ l.Inside ⟨n, p⟩ := by
  induction n using byChildren generalizing p with
  | step n ih =>
    obtain ⟨-, rfl | ⟨s, hs, hl⟩⟩ := mem_walkFrom.mp h
    · exact .inl rfl
    · exact .inr (Located.inside_iff.mpr ⟨s, hs, ih _ (slot_mem_children hs) hl⟩)

theorem mem_walkFrom_shown {p : String} {n : Node} {l : Located} : l ∈ n.walkFrom true p ↔
    (l = ⟨n, p⟩ ∨ l.Inside ⟨n, p⟩) ∧ Located.Shown ⟨n, p⟩ l := by
  classical
  rw [walkFrom_shown, List.mem_filter, decide_eq_true_iff, mem_walkFrom_all]

/-- Nothing that a walk lists stands inside of something that it lists later. -/
theorem walkFrom_pairwise (b : Bool) (p : String) (n : Node) :
    (n.walkFrom b p).Pairwise fun l m => ¬l.Inside m := by
  induction n using byChildren generalizing p with
  | step n ih =>
    rw [walkFrom_eq]
    split
    · exact .nil
    refine List.pairwise_cons.mpr ⟨fun m hm up => ?_, List.pairwise_flatMap.mpr ⟨?_, ?_⟩⟩
    · obtain ⟨s, hs, hm⟩ := List.mem_flatMap.mp hm
      have down : m.Inside ⟨n, p⟩ := Located.inside_iff.mpr ⟨s, hs, inside_of_mem_walkFrom hm⟩
      exact (up.trans down).ne rfl
    · exact fun s hs => ih _ (slot_mem_children hs) _
    · refine (slots_apart n).imp_of_mem fun {s t} hs ht apart l hl m hm inside => ?_
      have first := inside_of_mem_walkFrom hl
      have second : l = (⟨n, p⟩ : Located).under t ∨ l.Inside ((⟨n, p⟩ : Located).under t) := by
        rcases inside_of_mem_walkFrom hm with rfl | deeper
        · exact .inr inside
        · exact .inr (inside.trans deeper)
      obtain rfl := Located.slot_of_place hs ht first second
      exact apart [] [] rfl

end Node

namespace Located

variable {root : Node} {l m v w : Located}

/-- The subtree of a visible place is the place and whatever visible one stands inside of it. -/
theorem mem_subtree (hw : w ∈ root.walk) (hl : l ∈ root.walk) :
    l ∈ w.subtree ↔ l = w ∨ l.Inside w := by
  refine ⟨Node.inside_of_mem_walkFrom, fun place => ?_⟩
  rcases place with rfl | inside
  · exact Node.mem_walkFrom_self fun _ => Node.visible_of_mem hl
  obtain ⟨-, own, above⟩ := Node.mem_walkFrom_shown.mp hl
  have top := Node.inside_of_mem_walkFrom hw
  refine Node.mem_walkFrom_shown.mpr ⟨.inr inside, own, ?_⟩
  rintro m hm (rfl | deeper)
  · exact above _ hm top
  · refine above m hm (.inr ?_)
    rcases top with rfl | up
    · exact deeper
    · exact deeper.trans up

/-- Of two ways to a node from the root one begins like the other. -/
theorem Inside.comparable (hv : v ∈ root.walk) (hw : w ∈ root.walk) (inv : l.Inside v)
    (inw : l.Inside w) : v = w ∨ v.Inside w ∨ w.Inside v := by
  obtain ⟨ts, wayv, hpv⟩ := Node.reaches_of_mem_walk hv
  obtain ⟨us, wayw, hpw⟩ := Node.reaches_of_mem_walk hw
  obtain ⟨xs, -, hxs⟩ := inv.pointer
  obtain ⟨ys, -, hys⟩ := inw.pointer
  have same : ts ++ xs = us ++ ys := by
    rw [hxs, hpv, hpw, String.append_assoc, String.append_assoc, ← Pointer.build_append,
      ← Pointer.build_append] at hys
    exact Pointer.append_build_injective hys
  -- What the longer of the two ways goes on with leads from one node to the other.
  have onward : ∀ {ts more : List String} {v w : Located}, root.Reaches ts v.node →
      root.Reaches (ts ++ more) w.node → v.pointer = rootPointer ++ Pointer.build ts →
      w.pointer = rootPointer ++ Pointer.build (ts ++ more) → v = w ∨ w.Inside v := by
    intro ts more v w wayv wayw hpv hpw
    have way := wayv.rest wayw
    have hp : w.pointer = v.pointer ++ Pointer.build more := by
      rw [hpw, hpv, Pointer.build_append, String.append_assoc]
    by_cases last : more = []
    · subst last
      have hp : w.pointer = v.pointer := hp.trans String.append_empty
      generalize hk : w.node = k at way
      cases way
      exact .inl (by cases v; cases w; cases hk; cases hp; rfl)
    · have inside := inside_of_reaches way last v.pointer
      rw [← hp] at inside
      exact .inr inside
  rcases List.append_eq_append_iff.mp same with ⟨more, rfl, -⟩ | ⟨more, rfl, -⟩
  · rcases onward wayv wayw hpv hpw with rfl | inside
    · exact .inl rfl
    · exact .inr (.inr inside)
  · rcases onward wayw wayv hpw hpv with rfl | inside
    · exact .inl rfl
    · exact .inr (.inl inside)

end Located

end Wireframe
