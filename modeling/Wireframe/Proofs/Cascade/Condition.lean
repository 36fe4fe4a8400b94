import Wireframe.Cascade.Condition
import Wireframe.Proofs.Result
import Mathlib.Algebra.Order.BigOperators.Group.List
import Mathlib.Algebra.Order.Ring.Nat

/-
  Wireframe.Proofs.Cascade.Condition — which blocks apply, and when that cannot be told.

  Proved:
  - `parse_fails_iff`: a key cannot be read exactly when it is a condition with a threshold of too
    many digits.
  - `ordered_fails_iff`: the blocks of a node are ordered unless one of their keys cannot be read.
  - `mem_ordered`: a block that applies is under a condition that holds.
  - `ordered_sum_le`: the blocks that apply are some of the blocks, each at most once.
  - `ordered_perm`: they are those whose conditions hold.
  - `ordered_pairwise`: each of them applies before those that its condition precedes.
-/

namespace Wireframe

namespace Condition

/-- A condition by its form, with more digits than a number is read from. -/
def Overlong (key : String) : Prop :=
  ∃ operator digits tail : List Char, key.toList = operator ++ digits ++ tail ∧
    (operator = ['>', '='] ∨ operator = ['<', '=']) ∧ (∀ c ∈ digits, Text.isDigit c = true) ∧
    Text.digitLimit < digits.length ∧ (tail = [] ∨ tail = ['\n'])

theorem thresholdDigits?_eq_some {cs digits : List Char} :
    thresholdDigits? cs = some digits ↔
      digits ≠ [] ∧ (∀ c ∈ digits, Text.isDigit c = true) ∧ ∃ tail, cs = digits ++ tail ∧
        (tail = [] ∨ tail = ['\n']) := by
  unfold thresholdDigits?
  simp only [Option.ite_none_right_eq_some, Option.some.injEq, Bool.and_eq_true, Bool.not_eq_true',
    List.isEmpty_eq_false_iff, Bool.or_eq_true, beq_iff_eq]
  constructor
  · rintro ⟨⟨some_digit, rest⟩, rfl⟩
    exact ⟨some_digit, fun c hc => List.all_eq_true.mp List.all_takeWhile c hc, _,
      List.takeWhile_append_dropWhile.symm, rest⟩
  · rintro ⟨some_digit, digit, tail, rfl, hrest⟩
    have stop : tail.takeWhile Text.isDigit = [] ∧ tail.dropWhile Text.isDigit = tail := by
      rcases hrest with rfl | rfl
      · exact ⟨rfl, rfl⟩
      · exact ⟨by decide, by decide⟩
    rw [List.takeWhile_append_of_pos digit, List.dropWhile_append_of_pos digit, stop.1, stop.2,
      List.append_nil]
    exact ⟨⟨some_digit, hrest⟩, rfl⟩

theorem ofDigits_fails_iff {make : Nat → Condition} {cs : List Char} :
    (∃ e, ofDigits make cs = .error e) ↔
      ∃ digits, thresholdDigits? cs = some digits ∧ Text.digitLimit < digits.length := by
  unfold ofDigits
  cases thresholdDigits? cs with
  | none => simp
  | some digits =>
    by_cases long : Text.digitLimit < digits.length
    · simp [Text.readDigits, Except.map, long]
    · simp [Text.readDigits, Except.map, long]

/-- Of a key that begins as a condition the rest tells whether it is too long. -/
theorem overlong_iff {key : String} {operator cs : List Char} (form : key.toList = operator ++ cs)
    (known : operator = ['>', '='] ∨ operator = ['<', '=']) :
    Overlong key ↔ ∃ digits, thresholdDigits? cs = some digits ∧ Text.digitLimit < digits.length := by
  have two : ∀ o : List Char, o = ['>', '='] ∨ o = ['<', '='] → o.length = 2 := by
    rintro _ (rfl | rfl) <;> rfl
  constructor
  · rintro ⟨operator', digits, tail, form', known', digit, long, hrest⟩
    rw [form', List.append_assoc] at form
    obtain ⟨-, rfl⟩ := List.append_inj form ((two _ known').trans (two _ known).symm)
    have : digits ≠ [] := fun e => by simp [e] at long
    exact ⟨digits, thresholdDigits?_eq_some.mpr ⟨this, digit, tail, rfl, hrest⟩, long⟩
  · rintro ⟨digits, found, long⟩
    obtain ⟨-, digit, tail, rfl, hrest⟩ := thresholdDigits?_eq_some.mp found
    exact ⟨operator, digits, tail, form.trans (List.append_assoc ..).symm, known, digit, long, hrest⟩

theorem parse_fails_iff {key : String} : (∃ e, parse key = .error e) ↔ Overlong key := by
  unfold parse
  split
  · rename_i rest form
    exact ofDigits_fails_iff.trans (overlong_iff (show _ = ['>', '='] ++ rest from form) (.inl rfl)).symm
  · rename_i rest form
    exact ofDigits_fails_iff.trans (overlong_iff (show _ = ['<', '='] ++ rest from form) (.inr rfl)).symm
  · rename_i noLower noUpper
    refine ⟨fun ⟨_, h⟩ => (nomatch h), ?_⟩
    rintro ⟨operator, digits, tail, form, rfl | rfl, -⟩
    · exact absurd form (noLower (digits ++ tail))
    · exact absurd form (noUpper (digits ++ tail))

theorem precedes_trans {a b c : Condition} (hab : a.precedes b = true) (hbc : b.precedes c = true) :
    a.precedes c = true := by
  cases a <;> cases b <;> cases c <;> simp [precedes] at * <;> omega

theorem precedes_total (a b : Condition) : (a.precedes b || b.precedes a) = true := by
  cases a <;> cases b <;> simp [precedes] <;> omega

end Condition

namespace Blocks

/-- A block with its condition, when its key writes one. -/
def parsed (b : String × Option Object) :
    Except Text.TooManyDigits (Option (Condition × String × Option Object)) :=
  (Condition.parse b.1).map fun c? => c?.map fun c => (c, b)

theorem conditional_eq (blocks : Blocks) :
    blocks.conditional = (blocks.mapM parsed).map fun found => found.filterMap id := by
  have same : ∀ b : String × Option Object,
      (do return (← Condition.parse b.1).map fun c => (c, b)) = parsed b := fun b => by
    unfold parsed
    cases Condition.parse b.1 <;> rfl
  simp only [conditional, same]
  cases blocks.mapM parsed <;> rfl

theorem ordered_eq (blocks : Blocks) (width : Number) :
    blocks.ordered width = blocks.conditional.map fun found =>
      ((found.filter fun b => b.1.holds width).mergeSort fun a b => a.1.precedes b.1).map (·.2) := by
  unfold ordered
  cases blocks.conditional <;> rfl

/-- Blocks are ordered unless the key of one of them cannot be read. -/
theorem ordered_fails_iff {blocks : Blocks} {width : Number} :
    (∃ e, blocks.ordered width = .error e) ↔ ∃ b ∈ blocks, Condition.Overlong b.1 := by
  simp only [ordered_eq, conditional_eq, Result.map_fails_iff, Result.mapM_fails_iff, parsed,
    Condition.parse_fails_iff]

/-- The blocks under conditions are some of the blocks, in their order. -/
theorem conditional_sublist {blocks : Blocks} {found : List (Condition × String × Option Object)}
    (h : blocks.conditional = .ok found) : (found.map (·.2)).Sublist blocks := by
  rw [conditional_eq] at h
  obtain ⟨found, hfound, rfl⟩ := Result.map_eq_ok.mp h
  clear h
  induction blocks generalizing found with
  | nil => cases hfound; exact .slnil
  | cons b rest ih =>
    rw [List.mapM_cons] at hfound
    obtain ⟨first, hfirst, hrest⟩ := Result.bind_eq_ok.mp hfound
    obtain ⟨more, hmore, e⟩ := Result.bind_eq_ok.mp hrest
    cases e
    obtain ⟨c?, -, rfl⟩ := Result.map_eq_ok.mp hfirst
    cases c? with
    | none => exact .cons b (ih more hmore)
    | some c => exact .cons_cons b (ih more hmore)

/-- A block is found under the condition that its key writes. -/
theorem mem_conditional {blocks : Blocks} {found : List (Condition × String × Option Object)}
    (h : blocks.conditional = .ok found) {c : Condition} {b : String × Option Object}
    (hb : (c, b) ∈ found) : b ∈ blocks ∧ Condition.parse b.1 = .ok (some c) := by
  rw [conditional_eq] at h
  obtain ⟨parsed?, hparsed, rfl⟩ := Result.map_eq_ok.mp h
  clear h
  induction blocks generalizing parsed? with
  | nil => cases hparsed; cases hb
  | cons first rest ih =>
    rw [List.mapM_cons] at hparsed
    obtain ⟨one, hone, hparsed⟩ := Result.bind_eq_ok.mp hparsed
    obtain ⟨more, hmore, e⟩ := Result.bind_eq_ok.mp hparsed
    cases e
    obtain ⟨c?, hc?, rfl⟩ := Result.map_eq_ok.mp hone
    rcases List.mem_filterMap.mp hb with ⟨e, he, rfl⟩
    rcases List.mem_cons.mp he with same | he
    · obtain ⟨_, rfl, pair⟩ := Option.map_eq_some_iff.mp same.symm
      cases pair
      exact ⟨List.mem_cons_self, hc?⟩
    · obtain ⟨hrest, key⟩ := ih more hmore (List.mem_filterMap.mpr ⟨_, he, rfl⟩)
      exact ⟨List.mem_cons_of_mem _ hrest, key⟩

/-- A block that applies is one of the blocks, and its key writes a condition that holds. -/
theorem mem_ordered {blocks applied : Blocks} {width : Number}
    (h : blocks.ordered width = .ok applied) {b : String × Option Object} (hb : b ∈ applied) :
    b ∈ blocks ∧ ∃ c, Condition.parse b.1 = .ok (some c) ∧ c.holds width = true := by
  rw [ordered_eq] at h
  obtain ⟨found, hfound, rfl⟩ := Result.map_eq_ok.mp h
  obtain ⟨e, he, rfl⟩ := List.mem_map.mp hb
  obtain ⟨he, holds⟩ := List.mem_filter.mp (List.mem_mergeSort.mp he)
  obtain ⟨mem, key⟩ := mem_conditional hfound he
  exact ⟨mem, e.1, key, holds⟩

theorem ordered_subset {blocks applied : Blocks} {width : Number}
    (h : blocks.ordered width = .ok applied) : applied ⊆ blocks := fun _ hb => (mem_ordered h hb).1

/-- The blocks that apply are some of the blocks, each at most once. -/
theorem ordered_sum_le {blocks applied : Blocks} {width : Number}
    (h : blocks.ordered width = .ok applied) (f : String × Option Object → Nat) :
    (applied.map f).sum ≤ (blocks.map f).sum := by
  rw [ordered_eq] at h
  obtain ⟨found, hfound, rfl⟩ := Result.map_eq_ok.mp h
  have kept : ((found.filter fun b => b.1.holds width).map (·.2)).Sublist blocks :=
    (List.filter_sublist.map _).trans (conditional_sublist hfound)
  have order := ((List.mergeSort_perm (found.filter fun b => b.1.holds width)
    fun a b => a.1.precedes b.1).map (·.2)).map f
  calc _ = (((found.filter fun b => b.1.holds width).map (·.2)).map f).sum := order.sum_eq
    _ ≤ (blocks.map f).sum := (kept.map f).sum_le_sum fun _ _ => Nat.zero_le _

/-! ## The order in which they apply -/

/-- Does the key of a block write a condition that passes a test? -/
def meets (test : Condition → Bool) (b : String × Option Object) : Bool :=
  match Condition.parse b.1 with
  | .ok (some c) => test c
  | _ => false

theorem meets_eq_true {test : Condition → Bool} {b : String × Option Object} :
    meets test b = true ↔ ∃ c, Condition.parse b.1 = .ok (some c) ∧ test c = true := by
  unfold meets
  split
  · rename_i c parsed
    rw [parsed]
    exact ⟨fun h => ⟨c, rfl, h⟩, fun ⟨_, same, h⟩ => by cases same; exact h⟩
  · rename_i none
    exact ⟨nofun, fun ⟨c, parsed, _⟩ => absurd parsed (none c)⟩

/-- Does the key of a block write a condition that holds at a width? -/
def applies (width : Number) (b : String × Option Object) : Bool :=
  match Condition.parse b.1 with
  | .ok (some c) => c.holds width
  | _ => false

theorem applies_eq_meets (width : Number) : applies width = meets (·.holds width) := rfl

/-- The blocks whose conditions pass a test, in the order of the blocks. -/
theorem conditional_filter {blocks : Blocks} {found : List (Condition × String × Option Object)}
    (h : blocks.conditional = .ok found) (test : Condition → Bool) :
    (found.filter fun b => test b.1).map (·.2) = blocks.filter (meets test) := by
  rw [conditional_eq] at h
  obtain ⟨parsed?, hparsed, rfl⟩ := Result.map_eq_ok.mp h
  clear h
  induction blocks generalizing parsed? with
  | nil => cases hparsed; rfl
  | cons b rest ih =>
    rw [List.mapM_cons] at hparsed
    obtain ⟨one, hone, hparsed⟩ := Result.bind_eq_ok.mp hparsed
    obtain ⟨more, hmore, e⟩ := Result.bind_eq_ok.mp hparsed
    cases e
    obtain ⟨c?, hc?, rfl⟩ := Result.map_eq_ok.mp hone
    rw [List.filter_cons, ← ih more hmore, meets, hc?]
    cases c? with
    | none => rfl
    | some c =>
      show List.map _ (List.filter _ ((c, b) :: _)) = _
      rw [List.filter_cons]
      dsimp only
      split <;> rfl

/-- The blocks that apply are those whose conditions hold, each as often as it stands there. -/
theorem ordered_perm {blocks applied : Blocks} {width : Number}
    (h : blocks.ordered width = .ok applied) : applied.Perm (blocks.filter (applies width)) := by
  rw [ordered_eq] at h
  obtain ⟨found, hfound, rfl⟩ := Result.map_eq_ok.mp h
  rw [applies_eq_meets, ← conditional_filter hfound]
  exact (List.mergeSort_perm _ _).map _

/-- One block applies before the other by its condition, or with it. -/
def Precedes (a b : String × Option Object) : Prop :=
  ∃ c d, Condition.parse a.1 = .ok (some c) ∧ Condition.parse b.1 = .ok (some d) ∧
    c.precedes d = true

theorem ordered_pairwise {blocks applied : Blocks} {width : Number}
    (h : blocks.ordered width = .ok applied) : applied.Pairwise Precedes := by
  rw [ordered_eq] at h
  obtain ⟨found, hfound, rfl⟩ := Result.map_eq_ok.mp h
  have sorted : ((found.filter fun b => b.1.holds width).mergeSort fun a b =>
      a.1.precedes b.1).Pairwise fun a b => a.1.precedes b.1 = true := by
    refine List.pairwise_mergeSort ?_ ?_ _
    · exact fun _ _ _ => Condition.precedes_trans
    · exact fun _ _ => Condition.precedes_total _ _
  refine List.pairwise_map.mpr (sorted.imp_of_mem fun {a b} ha hb before => ?_)
  have key : ∀ e ∈ (found.filter fun b => b.1.holds width).mergeSort fun a b =>
      a.1.precedes b.1, Condition.parse e.2.1 = .ok (some e.1) := fun e he =>
    (mem_conditional hfound (List.mem_filter.mp (List.mem_mergeSort.mp he)).1).2
  exact ⟨a.1, b.1, key a ha, key b hb, before⟩

end Blocks

end Wireframe
