import Wireframe.Proofs.Cascade.Condition
import Wireframe.Proofs.Order
import Wireframe.Proofs.Text.Numeral

/-
  Wireframe.Proofs.Cascade.Order — the order in which blocks apply.

  The blocks that apply at a width are sorted by their conditions alone. Keys may be spelled
  differently and write the same condition, as `>=8` and `>=08` do; then nothing but their places
  among the blocks tells which of them comes first, so the sort has to be stable.

  A condition is written as its operator with the digits of its threshold after it, and this is read
  back. The exception are thresholds of more digits than can be read: such a key is not passed over
  as other words are, but leaves all the blocks beside it without an order.

  Proved:
  - `parse_key` / `parse_key_fails`: a condition that is written is read back, or has too many digits.
  - `precedes_split`: conditions in order are ascending lower ones and then descending upper ones.
  - `ordered_stable`: the blocks under one condition that holds keep their order.
  - `ordered_cascade`: all of this together, for any blocks and width.
  - `longBlock_unordered`: one digit too many.
-/

namespace Wireframe

namespace Condition

/-! ## Conditions as they are written -/

/-- The key that writes a condition. -/
def key (c : Condition) : String := c.operator ++ toString c.threshold

theorem toList_key (c : Condition) : c.key.toList =
    (match c with | atLeast _ => ['>', '='] | atMost _ => ['<', '=']) ++ Nat.toDigits 10 c.threshold := by
  have digits : (toString c.threshold).toList = Nat.toDigits 10 c.threshold := Nat.toList_repr
  rw [key, String.toList_append, digits]
  cases c with
  | atLeast t => simp [operator]
  | atMost t => simp [operator]

theorem isDigit_of_mem_toDigits {n : Nat} : ∀ c ∈ Nat.toDigits 10 n, Text.isDigit c = true :=
  fun _ h => Text.isDigit_of_isDigit (Nat.isDigit_of_mem_toDigits (by decide) (by decide) h)

theorem ofDigits_toDigits {make : Nat → Condition} {n : Nat} (h : n < 10 ^ Text.digitLimit) :
    ofDigits make (Nat.toDigits 10 n) = .ok (some (make n)) := by
  have found : thresholdDigits? (Nat.toDigits 10 n) = some (Nat.toDigits 10 n) :=
    thresholdDigits?_eq_some.mpr
      ⟨Nat.toDigits_ne_nil, isDigit_of_mem_toDigits, [], (List.append_nil _).symm, .inl rfl⟩
  rw [ofDigits, found]
  dsimp only
  rw [Text.readDigits_toDigits h]
  rfl

/-- A condition is read back from the key that writes it. -/
theorem parse_key {c : Condition} (h : c.threshold < 10 ^ Text.digitLimit) :
    parse c.key = .ok (some c) := by
  rw [parse, toList_key]
  cases c with
  | atLeast t => exact ofDigits_toDigits h
  | atMost t => exact ofDigits_toDigits h

theorem overlong_key {c : Condition} (h : 10 ^ Text.digitLimit ≤ c.threshold) : Overlong c.key := by
  have digit := @isDigit_of_mem_toDigits c.threshold
  have long := Text.digitLimit_lt_length_iff.mpr h
  have written := c.toList_key
  rw [← List.append_nil (_ ++ _)] at written
  cases c with
  | atLeast t => exact ⟨_, _, [], written, .inl rfl, digit, long, .inl rfl⟩
  | atMost t => exact ⟨_, _, [], written, .inr rfl, digit, long, .inl rfl⟩

theorem parse_key_fails {c : Condition} (h : 10 ^ Text.digitLimit ≤ c.threshold) :
    ∃ e, parse c.key = .error e :=
  parse_fails_iff.mpr (overlong_key h)

/-! ## Conditions in order -/

/-- Conditions in order are ascending lower ones, and then descending upper ones. -/
theorem precedes_split {cs : List Condition} (h : cs.Pairwise fun c d => c.precedes d = true) :
    ∃ lower upper : List Nat, cs = lower.map atLeast ++ upper.map atMost ∧
      lower.Pairwise (· ≤ ·) ∧ upper.Pairwise (· ≥ ·) := by
  induction h with
  | nil => exact ⟨[], [], rfl, .nil, .nil⟩
  | @cons c cs before _ ih =>
    obtain ⟨lower, upper, rfl, ascending, descending⟩ := ih
    obtain ⟨first, second⟩ := List.forall_mem_append.mp before
    cases c with
    | atLeast t =>
      refine ⟨t :: lower, upper, rfl, List.pairwise_cons.mpr ⟨fun u hu => ?_, ascending⟩, descending⟩
      exact of_decide_eq_true (first _ (List.mem_map_of_mem hu))
    | atMost t =>
      -- After an upper condition there is no lower one any more.
      obtain rfl : lower = [] := List.eq_nil_iff_forall_not_mem.mpr fun u hu =>
        Bool.false_ne_true (first _ (List.mem_map_of_mem hu))
      refine ⟨[], t :: upper, rfl, .nil, List.pairwise_cons.mpr ⟨fun u hu => ?_, descending⟩⟩
      exact of_decide_eq_true (second _ (List.mem_map_of_mem hu))

end Condition

namespace Blocks

/-! ## Blocks in order -/

/-- Does the key of a block write this condition? -/
def under (c : Condition) : String × Option Object → Bool := meets (· = c)

/-- The blocks that apply stand side by side with their conditions, which are in order. -/
theorem ordered_conditions {blocks applied : Blocks} {width : Number}
    (h : blocks.ordered width = .ok applied) :
    ∃ cs : List Condition, List.Forall₂ (fun b c => Condition.parse b.1 = .ok (some c)) applied cs ∧
      cs.Pairwise fun c d => c.precedes d = true := by
  rw [ordered_eq] at h
  obtain ⟨found, hfound, rfl⟩ := Result.map_eq_ok.mp h
  refine ⟨_, List.forall₂_map_left_iff.mpr (List.forall₂_map_right_iff.mpr
    (List.forall₂_same.mpr fun e he => ?_)), List.pairwise_map.mpr
      (List.pairwise_mergeSort ?_ ?_ _)⟩
  · exact (mem_conditional hfound (List.mem_filter.mp (List.mem_mergeSort.mp he)).1).2
  · exact fun _ _ _ => Condition.precedes_trans
  · exact fun _ _ => Condition.precedes_total _ _

/-- The blocks under a condition that holds apply in the order that they have. -/
theorem ordered_stable {blocks applied : Blocks} {width : Number}
    (h : blocks.ordered width = .ok applied) {c : Condition} (holds : c.holds width = true) :
    applied.filter (under c) = blocks.filter (under c) := by
  rw [ordered_eq] at h
  obtain ⟨found, hfound, rfl⟩ := Result.map_eq_ok.mp h
  have sorted : ∀ e ∈ (found.filter fun b => b.1.holds width).mergeSort fun a b =>
      a.1.precedes b.1, under c e.2 = decide (e.1 = c) := fun e he => by
    have parsed := (mem_conditional hfound (List.mem_filter.mp (List.mem_mergeSort.mp he)).1).2
    rw [under, meets, parsed]
  rw [under, ← conditional_filter hfound, List.filter_map]
  refine congrArg (List.map _) ?_
  calc _ = ((found.filter fun b => b.1.holds width).mergeSort fun a b => a.1.precedes b.1).filter
        fun e => decide (e.1 = c) := List.filter_congr sorted
    _ = (found.filter fun b => b.1.holds width).filter fun e => decide (e.1 = c) := by
      refine filter_mergeSort_of_level ?_ ?_ ?_ _
      · exact fun _ _ _ => Condition.precedes_trans
      · exact fun _ _ => Condition.precedes_total _ _
      · intro a b ha hb
        rw [of_decide_eq_true ha, of_decide_eq_true hb]
        simpa using c.precedes_total c
    _ = found.filter fun e => decide (e.1 = c) := by
      rw [List.filter_filter]
      refine List.filter_congr fun e _ => ?_
      by_cases same : e.1 = c
      · simp [same, holds]
      · simp [same]

/-- What applies of some blocks at a width, and in which order. -/
structure Cascade (blocks : Blocks) (width : Number) (applied : Blocks) : Prop where
  /-- Lower conditions come first, in ascending order, and then upper ones in descending order. -/
  ordered : ∃ lower upper : List Nat,
    List.Forall₂ (fun b c => Condition.parse b.1 = .ok (some c)) applied
      (lower.map .atLeast ++ upper.map .atMost) ∧
    lower.Pairwise (· ≤ ·) ∧ upper.Pairwise (· ≥ ·)
  /-- They are the blocks with a lower condition up to the width, or an upper one from it on. -/
  applicable : ∀ b, b ∈ applied ↔ b ∈ blocks ∧
    ((∃ t, Condition.parse b.1 = .ok (some (.atLeast t)) ∧ Number.le (.int t) width = true) ∨
      ∃ t, Condition.parse b.1 = .ok (some (.atMost t)) ∧ Number.le width (.int t) = true)
  /-- No key comes twice that does not stand there twice. -/
  once : (blocks.map (·.1)).Nodup → (applied.map (·.1)).Nodup
  /-- Keys of the same condition come in the order of the blocks. -/
  stable : ∀ c : Condition, c.holds width = true →
    applied.filter (under c) = blocks.filter (under c)

/-- A condition that holds is a lower one up to the width, or an upper one from it on. -/
theorem applies_iff {width : Number} {b : String × Option Object} : applies width b = true ↔
    (∃ t, Condition.parse b.1 = .ok (some (.atLeast t)) ∧ Number.le (.int t) width = true) ∨
      ∃ t, Condition.parse b.1 = .ok (some (.atMost t)) ∧ Number.le width (.int t) = true := by
  rw [applies_eq_meets, meets_eq_true]
  constructor
  · rintro ⟨c, parsed, holds⟩
    cases c with
    | atLeast t => exact .inl ⟨t, parsed, holds⟩
    | atMost t => exact .inr ⟨t, parsed, holds⟩
  · rintro (⟨t, parsed, holds⟩ | ⟨t, parsed, holds⟩)
    · exact ⟨_, parsed, holds⟩
    · exact ⟨_, parsed, holds⟩

/-- Blocks have no order exactly when one of their keys is a condition of too many digits. Else those
that apply come in the order of their conditions, and under the same condition in their own. A
condition that is written is read back, unless it has too many digits itself. -/
theorem ordered_cascade (blocks : Blocks) (width : Number) :
    ((∃ e, blocks.ordered width = .error e) ↔ ∃ b ∈ blocks, Condition.Overlong b.1) ∧
    (∀ applied, blocks.ordered width = .ok applied → blocks.Cascade width applied) ∧
    ∀ c : Condition,
      (c.threshold < 10 ^ Text.digitLimit → Condition.parse c.key = .ok (some c)) ∧
      (10 ^ Text.digitLimit ≤ c.threshold → ∃ e, Condition.parse c.key = .error e) := by
  refine ⟨ordered_fails_iff, fun applied h => ?_,
    fun c => ⟨Condition.parse_key, Condition.parse_key_fails⟩⟩
  have kept := ordered_perm h
  refine ⟨?_, fun b => ?_, fun distinct => ?_, fun c => ordered_stable h⟩
  · obtain ⟨cs, beside, sorted⟩ := ordered_conditions h
    obtain ⟨lower, upper, rfl, ascending, descending⟩ := Condition.precedes_split sorted
    exact ⟨lower, upper, beside, ascending, descending⟩
  · rw [kept.mem_iff, List.mem_filter, applies_iff]
  · have keys := kept.map (·.1)
    exact keys.nodup_iff.mpr ((List.filter_sublist.map _).nodup distinct)

/-- Blocks of which two are under one condition that is spelled differently, one is under none, and one
does not apply at a width of 320. -/
def spelledTwice : Blocks :=
  [("<=320", none), (">=08", none), ("wide", none), (">=600", none), (">=8", none)]

theorem spelledTwice_ordered :
    spelledTwice.ordered (.int 320) = .ok [(">=08", none), (">=8", none), ("<=320", none)] := by
  have found : spelledTwice.conditional = .ok [(.atMost 320, ("<=320", none)),
      (.atLeast 8, (">=08", none)), (.atLeast 600, (">=600", none)), (.atLeast 8, (">=8", none))] := rfl
  have sorted : [(Condition.atMost 320, ("<=320", (none : Option Object))),
      (.atLeast 8, (">=08", none)), (.atLeast 8, (">=8", none))].mergeSort
        (fun a b => a.1.precedes b.1) =
      [(.atLeast 8, (">=08", none)), (.atLeast 8, (">=8", none)), (.atMost 320, ("<=320", none))] := by
    simp [List.mergeSort, List.MergeSort.Internal.splitInTwo, Condition.precedes]
  rw [ordered_eq, found]
  exact congrArg (fun l => Except.ok (l.map (·.2))) sorted

/-- The two spellings keep their order, and the upper condition, which stands first, comes last. -/
theorem spelledTwice_cascade :
    spelledTwice.Cascade (.int 320) [(">=08", none), (">=8", none), ("<=320", none)] :=
  (ordered_cascade spelledTwice (.int 320)).2.1 _ spelledTwice_ordered

/-- A block under a condition of too many digits is not among those that apply, though the condition
may hold: there is no order at all. -/
theorem unordered_of_long {t : Nat} (long : 10 ^ Text.digitLimit ≤ t) (block : Option Object)
    (width : Number) :
    (¬∃ d, Condition.parse (Condition.atMost t).key = .ok d) ∧
      ¬∃ applied, ordered [((Condition.atMost t).key, block)] width = .ok applied := by
  have long : 10 ^ Text.digitLimit ≤ (Condition.atMost t).threshold := long
  obtain ⟨e, unread⟩ := Condition.parse_key_fails long
  obtain ⟨f, unordered⟩ : ∃ f, ordered [((Condition.atMost t).key, block)] width = .error f :=
    ordered_fails_iff.mpr ⟨_, List.mem_singleton_self _, Condition.overlong_key long⟩
  rw [unread, unordered]
  exact ⟨nofun, nofun⟩

/-- One digit more than can be read: a one and then as many zeros as the limit allows digits. -/
theorem longBlock_unordered :
    (¬∃ d, Condition.parse (Condition.atMost (10 ^ Text.digitLimit)).key = .ok d) ∧
      ¬∃ applied, ordered [((Condition.atMost (10 ^ Text.digitLimit)).key, some [("text", .text "x")])]
        (.int 320) = .ok applied :=
  unordered_of_long (Nat.le_refl _) _ _

end Blocks

end Wireframe
