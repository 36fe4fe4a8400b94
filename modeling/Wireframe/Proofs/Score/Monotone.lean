import Wireframe.Proofs.Score.Gate
import Wireframe.Proofs.Score.Overall
import Wireframe.Proofs.Value.Infinite

/-
  Wireframe.Proofs.Score.Monotone — more defects never make a score better.

  Findings get worse one defect at a time: a rule that fails, a node that is not reached, an issue
  of the keyboard or of one layout. What a score depends on are a few numbers, and no defect makes
  any of them less. The points of a category fall as these numbers rise, rounding to doubles keeps
  the order, and so do the weighted sum and the gates.

  The mean over the viewports is calculated in doubles. Penalties or viewports beyond their range
  become infinities, and the points are then none or all of the hundred; so the points are an exact
  number whatever was found, and the order is kept there as well.

  Proved:
  - `Worse.noMore`, `noMore_of_worse`: one defect, and a run of defects, makes no number less.
  - `standsFor_points`: the points of every category, as exact numbers.
  - `NoMore.points`: they fall as the numbers rise.
  - `worse_scores_no_better`: so no category, no overall score and no gate gets better.
-/

namespace Wireframe

open Double

/-- What a score is computed from. -/
structure Findings where
  verdicts : List Verdict
  focus : Focus
  layouts : List Layout

namespace Findings

/-- No rule failed less than never. -/
def Counted (a : Findings) : Prop := ∀ v ∈ a.verdicts, 0 ≤ v.mustFailed ∧ 0 ≤ v.shouldFailed

def scores (a : Findings) : Categories Float := .scores a.verdicts a.focus a.layouts

/-- What every viewport loses. -/
def penalties (a : Findings) : List Int := a.layouts.map fun l => Categories.viewportPenalty l.issues

def violations (a : Findings) (criteria : Criteria) (overall : Int) : List FailReason :=
  criteria.violations (.int overall) a.verdicts (.int a.focus.unreachable.length)

def judge (a : Findings) (weights : Categories Float) (criteria : Criteria) :
    Except Failure Score :=
  (Score.compute weights criteria a.verdicts a.focus a.layouts).result

/-- One more defect. What no score depends on may change along with it. -/
inductive Worse : Findings → Findings → Prop
  | must {v w : Verdict} (before after : List Verdict) (f : Focus) (ls : List Layout)
      (one : w.mustFailed = v.mustFailed + 1) (same : w.shouldFailed = v.shouldFailed) :
      Worse ⟨before ++ v :: after, f, ls⟩ ⟨before ++ w :: after, f, ls⟩
  | should {v w : Verdict} (before after : List Verdict) (f : Focus) (ls : List Layout)
      (one : w.shouldFailed = v.shouldFailed + 1) (same : w.mustFailed = v.mustFailed) :
      Worse ⟨before ++ v :: after, f, ls⟩ ⟨before ++ w :: after, f, ls⟩
  | unreached {f g : Focus} (vs : List Verdict) (ls : List Layout) (before after : List String)
      (id : String) (had : f.unreachable = before ++ after) (has : g.unreachable = before ++ id :: after)
      (same : g.issues = f.issues) : Worse ⟨vs, f, ls⟩ ⟨vs, g, ls⟩
  | keyboard {f g : Focus} (vs : List Verdict) (ls : List Layout) (before after : List Issue)
      (i : Issue) (had : f.issues = before ++ after) (has : g.issues = before ++ i :: after)
      (same : g.unreachable = f.unreachable) : Worse ⟨vs, f, ls⟩ ⟨vs, g, ls⟩
  | layout {l m : Layout} (vs : List Verdict) (f : Focus) (before after : List Layout)
      (first rest : List Issue) (i : Issue) (had : l.issues = first ++ rest)
      (has : m.issues = first ++ i :: rest) :
      Worse ⟨vs, f, before ++ l :: after⟩ ⟨vs, f, before ++ m :: after⟩

/-! ## The numbers that scores depend on -/

/-- Nothing that counts towards a score is more in the first findings. -/
structure NoMore (a b : Findings) : Prop where
  musts : sumOf (·.mustFailed) a.verdicts ≤ sumOf (·.mustFailed) b.verdicts
  shoulds : sumOf (·.shouldFailed) a.verdicts ≤ sumOf (·.shouldFailed) b.verdicts
  unreached : a.focus.unreachable.length ≤ b.focus.unreachable.length
  keyboard : ∀ id severity, Issue.count a.focus.issues id severity ≤ Issue.count b.focus.issues id severity
  layouts : ∀ id severity, Issue.count (a.layouts.flatMap (·.issues)) id severity ≤
    Issue.count (b.layouts.flatMap (·.issues)) id severity
  viewports : a.layouts.length = b.layouts.length
  penalty : sumOf id a.penalties ≤ sumOf id b.penalties

theorem NoMore.refl (a : Findings) : a.NoMore a :=
  ⟨le_rfl, le_rfl, le_rfl, fun _ _ => le_rfl, fun _ _ => le_rfl, rfl, le_rfl⟩

theorem NoMore.trans {a b c : Findings} (h : a.NoMore b) (k : b.NoMore c) : a.NoMore c :=
  ⟨h.musts.trans k.musts, h.shoulds.trans k.shoulds, h.unreached.trans k.unreached,
    fun id severity => (h.keyboard id severity).trans (k.keyboard id severity),
    fun id severity => (h.layouts id severity).trans (k.layouts id severity),
    h.viewports.trans k.viewports, h.penalty.trans k.penalty⟩

theorem sumOf_append {α : Type} (count : α → Int) (as bs : List α) :
    sumOf count (as ++ bs) = sumOf count as + sumOf count bs := by
  induction as with
  | nil => exact (Int.zero_add _).symm
  | cons a rest ih => simp only [List.cons_append, sumOf, ih, Int.add_assoc]

/-- A sum in which one item changed. -/
theorem sumOf_replaced_le {α : Type} {count : α → Int} {a b : α} (h : count a ≤ count b)
    (before after : List α) : sumOf count (before ++ a :: after) ≤ sumOf count (before ++ b :: after) := by
  simp only [sumOf_append, sumOf]
  omega

theorem count_le_of_sublist {is js : List Issue} (h : is.Sublist js) (id severity : Option String) :
    Issue.count is id severity ≤ Issue.count js id severity :=
  h.countP_le

theorem viewportPenalty_le_of_sublist {is js : List Issue} (h : is.Sublist js) :
    Categories.viewportPenalty is ≤ Categories.viewportPenalty js := by
  have overflow := count_le_of_sublist h (some "overflow-x") none
  have fold := count_le_of_sublist h (some "primary-below-fold") none
  simp only [Categories.viewportPenalty]
  omega

theorem inserted_sublist {α : Type} (before after : List α) (a : α) :
    (before ++ after).Sublist (before ++ a :: after) :=
  (List.sublist_cons_self a after).append_left before

/-- One defect makes no number less. -/
theorem Worse.noMore {a b : Findings} (h : a.Worse b) : a.NoMore b := by
  cases h with
  | must before after f ls one same =>
    exact { NoMore.refl ⟨_, f, ls⟩ with
      musts := sumOf_replaced_le (by omega) before after
      shoulds := sumOf_replaced_le same.ge before after }
  | should before after f ls one same =>
    exact { NoMore.refl ⟨_, f, ls⟩ with
      musts := sumOf_replaced_le same.ge before after
      shoulds := sumOf_replaced_le (by omega) before after }
  | @unreached f g vs ls before after id had has same =>
    refine { NoMore.refl ⟨vs, g, ls⟩ with unreached := ?_, keyboard := ?_ }
    · show f.unreachable.length ≤ g.unreachable.length
      rw [had, has]
      exact (inserted_sublist before after id).length_le
    · intro _ _
      exact (congrArg (Issue.count · _ _) same).ge
  | @keyboard f g vs ls before after i had has same =>
    refine { NoMore.refl ⟨vs, g, ls⟩ with unreached := ?_, keyboard := fun id severity => ?_ }
    · exact (congrArg List.length same).ge
    · show Issue.count f.issues id severity ≤ Issue.count g.issues id severity
      rw [had, has]
      exact count_le_of_sublist (inserted_sublist before after i) id severity
  | @layout l m vs f before after first rest i had has =>
    have inserted : l.issues.Sublist m.issues := had ▸ has ▸ inserted_sublist first rest i
    refine { NoMore.refl ⟨vs, f, _⟩ with layouts := fun id severity => ?_, viewports := ?_, penalty := ?_ }
    · refine count_le_of_sublist ?_ id severity
      simp only [List.flatMap_append, List.flatMap_cons]
      exact (inserted.append_right _).append_left _
    · simp
    · simp only [penalties, List.map_append, List.map_cons]
      refine sumOf_replaced_le ?_ _ _
      exact viewportPenalty_le_of_sublist inserted

/-- A run of defects makes no number less. -/
theorem noMore_of_worse {a b : Findings} (h : Relation.ReflTransGen Worse a b) : a.NoMore b := by
  induction h with
  | refl => exact .refl a
  | tail _ step ih => exact ih.trans step.noMore

theorem Worse.counted {a b : Findings} (h : a.Worse b) (counted : a.Counted) : b.Counted := by
  have replaced : ∀ {v w : Verdict} {before after : List Verdict}, v.mustFailed ≤ w.mustFailed →
      v.shouldFailed ≤ w.shouldFailed →
      (∀ u ∈ before ++ v :: after, 0 ≤ u.mustFailed ∧ 0 ≤ u.shouldFailed) →
      ∀ u ∈ before ++ w :: after, 0 ≤ u.mustFailed ∧ 0 ≤ u.shouldFailed := by
    intro v w before after musts shoulds all u hu
    simp only [List.mem_append, List.mem_cons] at hu all
    rcases hu with hu | rfl | hu
    · exact all u (.inl hu)
    · have := all v (.inr (.inl rfl))
      omega
    · exact all u (.inr (.inr hu))
  cases h with
  | must before after f ls one same => exact replaced (by omega) same.ge counted
  | should before after f ls one same => exact replaced same.ge (by omega) counted
  | unreached => exact counted
  | keyboard => exact counted
  | layout => exact counted

theorem counted_of_worse {a b : Findings} (h : Relation.ReflTransGen Worse a b) (counted : a.Counted) :
    b.Counted := by
  induction h with
  | refl => exact counted
  | tail _ step ih => exact step.counted ih

end Findings

/-! ## The points of a category -/

namespace Categories

theorem pointsLeft_between {lost : ℤ} (h : 0 ≤ lost) : 0 ≤ pointsLeft lost ∧ pointsLeft lost ≤ 100 := by
  unfold pointsLeft
  omega

theorem pointsLeft_antitone : Antitone pointsLeft := by
  intro lost more h
  unfold pointsLeft
  omega

theorem standsFor_pointsLeft {lost : ℤ} (h : 0 ≤ lost) :
    StandsFor (Scalar.ofInt (pointsLeft lost) : Float) (pointsLeft lost) := by
  have := pointsLeft_between h
  exact standsFor_intCast (by rw [abs_of_nonneg this.1]; omega)

theorem standsFor_larger {x y : Float} {p q : ℚ} (hx : StandsFor x p) (hy : StandsFor y q) :
    StandsFor (Scalar.larger x y) (max p q) := by
  have compared : Scalar.lt x y = decide (x < y) := rfl
  unfold Scalar.larger
  rw [compared]
  by_cases h : x < y
  · rw [if_pos (decide_eq_true h), max_eq_right ((hx.lt_iff hy).mp h).le]
    exact hy
  · rw [if_neg (by simpa using h), max_eq_left (not_lt.mp ((hx.lt_iff hy).not.mp h))]
    exact hx

instance (q : ℚ) : Decidable (InRange q) := inferInstanceAs (Decidable (_ < _))

/-- What is left of a hundred points less a mean, as it comes out in doubles. -/
def meanPoints (lost viewports : ℕ) : ℚ :=
  if InRange lost then
    if InRange viewports then max 0 (nearest (100 - nearest (nearest lost / nearest viewports))) else 100
  else 0

theorem standsFor_meanPoints {lost viewports : ℕ} (some : 0 < viewports) :
    StandsFor (Scalar.larger Scalar.zero (Scalar.ofInt 100 - Scalar.ofInt lost / Scalar.ofInt viewports) : Float)
      (meanPoints lost viewports) := by
  have zero : StandsFor (Scalar.zero : Float) 0 := standsFor_zero
  have hundred : StandsFor (Scalar.ofInt 100 : Float) 100 := standsFor_intCast (n := 100) (by decide)
  have least := one_le_nearest some
  have above : 0 ≤ nearest lost := nearest_nonneg (Nat.cast_nonneg lost)
  unfold meanPoints
  by_cases lostIn : InRange lost
  · have total : StandsFor (Scalar.ofInt lost : Float) (nearest lost) := standsFor_ofNat lostIn
    rw [if_pos lostIn]
    by_cases viewportsIn : InRange viewports
    · have count : StandsFor (Scalar.ofInt viewports : Float) (nearest viewports) := standsFor_ofNat viewportsIn
      have nonneg : 0 ≤ nearest lost / nearest viewports := div_nonneg above (by linarith)
      have mean := total.div count (by linarith) (total.inRange.of_abs_le (by
        rw [abs_of_nonneg above, abs_of_nonneg nonneg]
        exact div_le_self above least))
      have left := hundred.sub mean (by
        have nonneg := nearest_nonneg nonneg
        rcases le_total (nearest (nearest lost / nearest viewports)) 100 with few | many
        · refine hundred.inRange.of_abs_le ?_
          rw [abs_of_nonneg (by linarith), abs_of_nonneg (by norm_num)]
          linarith
        · refine mean.inRange.of_abs_le ?_
          rw [abs_of_nonpos (by linarith), abs_of_nonneg nonneg]
          linarith)
      rw [if_pos viewportsIn]
      exact standsFor_larger zero left
    · have all : (100 : ℚ) - 0 = 100 := by norm_num
      have left := hundred.sub (total.div_infinite (isInfinite_ofNat viewportsIn)) (by
        rw [all]
        exact hundred.inRange)
      rw [all, hundred.nearest_eq] at left
      rw [if_neg viewportsIn, show (100 : ℚ) = max 0 100 by norm_num]
      exact standsFor_larger zero left
  · have total : IsInfinite (Scalar.ofInt lost : Float) := isInfinite_ofNat lostIn
    have mean : IsInfinite (Scalar.ofInt lost / Scalar.ofInt viewports : Float) ∨
        IsNothing (Scalar.ofInt lost / Scalar.ofInt viewports : Float) := by
      by_cases viewportsIn : InRange viewports
      · exact .inl (total.div (standsFor_ofNat viewportsIn) (by linarith))
      · exact .inr (total.div_self (isInfinite_ofNat viewportsIn))
    have none := hundred.not_lt_sub zero mean
    have compared : Scalar.lt (Scalar.zero : Float)
        (Scalar.ofInt 100 - Scalar.ofInt lost / Scalar.ofInt viewports) = false := decide_eq_false none
    unfold Scalar.larger
    rw [if_neg lostIn, compared]
    exact zero

theorem meanPoints_between (lost viewports : ℕ) :
    0 ≤ meanPoints lost viewports ∧ meanPoints lost viewports ≤ 100 := by
  unfold meanPoints
  split
  · split
    · have nonneg : 0 ≤ nearest (nearest lost / nearest viewports) :=
        nearest_nonneg (div_nonneg (nearest_nonneg (Nat.cast_nonneg _)) (nearest_nonneg (Nat.cast_nonneg _)))
      have hundred := nearest_intCast (n := 100) (by decide)
      push_cast at hundred
      refine ⟨le_max_left _ _, max_le (by norm_num) ?_⟩
      exact (nearest_mono (by linarith)).trans_eq hundred
    · norm_num
  · norm_num

/-- The more is lost, the fewer points are left. -/
theorem meanPoints_antitone (viewports : ℕ) : Antitone (meanPoints · viewports) := by
  intro lost more h
  have cast : (lost : ℚ) ≤ more := by exact_mod_cast h
  by_cases moreIn : InRange more
  · have lostIn : InRange lost := moreIn.of_abs_le (by rwa [Nat.abs_cast, Nat.abs_cast])
    simp only [meanPoints, if_pos moreIn, if_pos lostIn]
    split
    · refine max_le_max le_rfl (nearest_mono (sub_le_sub_left (nearest_mono ?_) _))
      exact div_le_div_of_nonneg_right (nearest_mono cast) (nearest_nonneg (Nat.cast_nonneg _))
    · exact le_rfl
  · have none : meanPoints more viewports = 0 := if_neg moreIn
    simp only [none]
    exact (meanPoints_between lost viewports).1

end Categories

namespace Findings

/-- The points of every category, as exact numbers. -/
def points (a : Findings) : Categories ℚ where
  patternFidelity := Categories.patternPoints a.verdicts
  flowReachability := Categories.focusPoints a.focus
  hierarchyGrouping := Categories.groupingPoints a.focus.issues (a.layouts.flatMap (·.issues))
  responsiveBehavior :=
    if a.layouts.isEmpty then 100
    else Categories.meanPoints (sumOf id a.penalties).toNat a.layouts.length

theorem penalties_nonneg (a : Findings) : 0 ≤ sumOf id a.penalties := by
  refine sumOf_nonneg fun p hp => ?_
  obtain ⟨l, -, rfl⟩ := List.mem_map.mp hp
  exact add_nonneg (by positivity) (by positivity)

/-- The scores stand for the points, and these are between zero and a hundred. -/
theorem standsFor_points {a : Findings} (counted : a.Counted) :
    a.scores.All (Between 0 100) ∧ a.scores.exact = a.points := by
  have whole : ∀ lost : ℤ, 0 ≤ lost →
      StandsFor (Scalar.ofInt (Categories.pointsLeft lost) : Float) (Categories.pointsLeft lost) ∧
        (0 : ℚ) ≤ Categories.pointsLeft lost ∧ (Categories.pointsLeft lost : ℚ) ≤ 100 := by
    intro lost h
    have := Categories.pointsLeft_between h
    exact ⟨Categories.standsFor_pointsLeft h, by exact_mod_cast this.1, by exact_mod_cast this.2⟩
  have musts : 0 ≤ sumOf (·.mustFailed) a.verdicts := sumOf_nonneg fun v hv => (counted v hv).1
  have shoulds : 0 ≤ sumOf (·.shouldFailed) a.verdicts := sumOf_nonneg fun v hv => (counted v hv).2
  obtain ⟨pattern, pattern_between⟩ := whole
    (30 * sumOf (·.mustFailed) a.verdicts + 10 * sumOf (·.shouldFailed) a.verdicts) (by omega)
  obtain ⟨flow, flow_between⟩ := whole (30 * a.focus.unreachable.length +
    10 * Issue.count a.focus.issues none (some Severity.warn.name)) (by positivity)
  obtain ⟨grouping, grouping_between⟩ := whole
    (10 * Issue.count a.focus.issues (some "field-after-actions") none +
      5 * (Issue.count (a.layouts.flatMap (·.issues)) (some "spacing-off-scale") none /
        Categories.spacingCluster : ℕ)) (by positivity)
  have responsive : StandsFor (Categories.viewportPoints a.penalties : Float) a.points.responsiveBehavior ∧
      0 ≤ a.points.responsiveBehavior ∧ a.points.responsiveBehavior ≤ 100 := by
    have same : a.penalties.isEmpty = a.layouts.isEmpty := by simp [penalties, List.isEmpty_map]
    unfold Categories.viewportPoints points
    rw [same]
    split
    · exact ⟨standsFor_intCast (n := 100) (by decide), by norm_num, le_rfl⟩
    · rename_i some
      have length : a.penalties.length = a.layouts.length := List.length_map _
      have positive : 0 < a.layouts.length := List.length_pos_iff.mpr (by simpa using some)
      have total : sumOf id a.penalties = (sumOf id a.penalties).toNat :=
        (Int.toNat_of_nonneg a.penalties_nonneg).symm
      rw [total, length]
      exact ⟨Categories.standsFor_meanPoints positive, Categories.meanPoints_between _ _⟩
  constructor
  · exact ⟨⟨_, pattern, pattern_between⟩, ⟨_, flow, flow_between⟩, ⟨_, grouping, grouping_between⟩,
      ⟨_, responsive⟩⟩
  · exact (Categories.mk.injEq ..).mpr ⟨pattern.exact, flow.exact, grouping.exact, responsive.1.exact⟩

theorem NoMore.points {a b : Findings} (h : a.NoMore b) : b.points.Below a.points where
  patternFidelity := by
    have musts := h.musts
    have shoulds := h.shoulds
    exact Int.cast_le.mpr (Categories.pointsLeft_antitone (by omega))
  flowReachability := by
    have unreached := h.unreached
    have warnings := h.keyboard none (some Severity.warn.name)
    exact Int.cast_le.mpr (Categories.pointsLeft_antitone (by omega))
  hierarchyGrouping := by
    have disordered := h.keyboard (some "field-after-actions") none
    have spacing := Nat.div_le_div_right (c := Categories.spacingCluster)
      (h.layouts (some "spacing-off-scale") none)
    exact Int.cast_le.mpr (Categories.pointsLeft_antitone (by omega))
  responsiveBehavior := by
    have same : b.layouts.isEmpty = a.layouts.isEmpty := by
      rw [Bool.eq_iff_iff, List.isEmpty_iff_length_eq_zero, List.isEmpty_iff_length_eq_zero, h.viewports]
    unfold Findings.points
    rw [same, ← h.viewports]
    split
    · exact le_rfl
    · exact Categories.meanPoints_antitone _ (Int.toNat_le_toNat h.penalty)

/-! ## Gates -/

theorem violations_mono {a b : Findings} (h : a.NoMore b) (criteria : Criteria) {overall less : ℤ}
    (below : less ≤ overall) {g : Gate} (violated : g ∈ (a.violations criteria overall).map (·.gate)) :
    g ∈ (b.violations criteria less).map (·.gate) := by
  unfold violations at violated ⊢
  rw [Criteria.mem_gates] at violated ⊢
  cases g with
  | musts =>
    simp only [Criteria.reason?, Option.isSome_ite] at violated ⊢
    exact ⟨violated.1, violated.2.trans_le h.musts⟩
  | reachability =>
    simp only [Criteria.reason?, Option.isSome_ite, Bool.and_eq_true, Number.zero, Number.lt_int] at violated ⊢
    exact ⟨violated.1, violated.2.trans_le (by exact_mod_cast h.unreached)⟩
  | minimum =>
    simp only [Criteria.reason?, Option.isSome_bind, Option.any_eq_true, Option.isSome_ite,
      Number.lt_int] at violated ⊢
    obtain ⟨minimum, on, low⟩ := violated
    exact ⟨minimum, on, below.trans_lt low⟩

/-- What is violated by none is violated by none when there are fewer defects. -/
theorem violations_eq_nil {a b : Findings} (h : a.NoMore b) {criteria : Criteria} {overall less : ℤ}
    (below : less ≤ overall) (clear : b.violations criteria less = []) :
    a.violations criteria overall = [] := by
  rw [← List.map_eq_nil_iff (f := (·.gate)), List.eq_nil_iff_forall_not_mem]
  intro g violated
  have := violations_mono h criteria below violated
  rw [clear] at this
  exact absurd this (List.not_mem_nil)

end Findings

/-- More defects never make a score better. The scores lie between zero and a hundred, so they are
accepted. No category and no overall score is greater than before, whether the weighted sum is
exact or calculated in doubles, and what passes with more defects passes without them. -/
theorem worse_scores_no_better {document : Value} {weights : Categories Float} {a b : Findings}
    (accepted : Categories.readWeights document = .ok weights) (counted : a.Counted)
    (more : Relation.ReflTransGen Findings.Worse a b) :
    (a.scores.check = .ok a.scores ∧ b.scores.check = .ok b.scores) ∧
    (a.scores.exact.All (fun q => 0 ≤ q ∧ q ≤ 100) ∧ b.scores.exact.All fun q => 0 ≤ q ∧ q ≤ 100) ∧
    b.scores.exact.Below a.scores.exact ∧
    (∃ r r' : ℤ, weights.exact.overall a.scores.exact = .ok r ∧
      weights.exact.overall b.scores.exact = .ok r' ∧ r' ≤ r ∧
      ∀ criteria, b.violations criteria r' = [] → a.violations criteria r = []) ∧
    (∃ r r' : ℤ, weights.overall a.scores = .ok r ∧ weights.overall b.scores = .ok r' ∧ r' ≤ r) ∧
    ∀ criteria s', b.judge weights criteria = .ok s' → s'.passed = true →
      ∃ s, a.judge weights criteria = .ok s ∧ s.passed = true ∧ s'.overall ≤ s.overall := by
  have noMore := Findings.noMore_of_worse more
  obtain ⟨hw, -⟩ := Categories.readWeights_eq_ok accepted
  obtain ⟨ha, pa⟩ := Findings.standsFor_points counted
  obtain ⟨hb, pb⟩ := Findings.standsFor_points (Findings.counted_of_worse more counted)
  have below : b.scores.exact.Below a.scores.exact := pa ▸ pb ▸ noMore.points
  have nonneg : weights.exact.All (0 ≤ ·) :=
    (Categories.all_exact hw).imp And.left
  have exact := Categories.overallBy_mono monotone_id (Categories.weightedBy_mono monotone_id nonneg below)
  have doubles := Categories.overallBy_mono nearest_mono (Categories.weightedBy_mono nearest_mono nonneg below)
  have checked : a.scores.check = .ok a.scores := Categories.check_eq_ok.mpr ⟨rfl, ha⟩
  have checked' : b.scores.check = .ok b.scores := Categories.check_eq_ok.mpr ⟨rfl, hb⟩
  refine ⟨⟨checked, checked'⟩, ⟨Categories.all_exact ha, Categories.all_exact hb⟩, below,
    ⟨_, _, Categories.overall_exact _ _, Categories.overall_exact _ _, exact,
      fun criteria => Findings.violations_eq_nil noMore exact⟩,
    ⟨_, _, Categories.overall_doubles hw ha, Categories.overall_doubles hw hb, doubles⟩, ?_⟩
  intro criteria s' judged passed
  obtain ⟨categories, overall, reasons, hc, ho, hr, rfl⟩ := Score.compute_eq_ok.mp judged
  obtain rfl : categories = b.scores := Except.ok.inj (hc.symm.trans checked')
  obtain rfl : overall = _ := Except.ok.inj (ho.symm.trans (Categories.overall_doubles hw hb))
  obtain ⟨rfl, -⟩ := Criteria.judge_eq_ok.mp hr
  have clear := Findings.violations_eq_nil noMore doubles (List.isEmpty_iff.mp passed)
  refine ⟨⟨a.scores, weights, _, criteria, []⟩, Score.compute_eq_ok.mpr ⟨_, _, _, checked,
    Categories.overall_doubles hw ha, Criteria.judge_eq_ok.mpr ⟨clear.symm, nofun⟩, rfl⟩, rfl, doubles⟩

/-- A verdict with so many rules that fail. -/
def Verdict.failing (must should : Int) : Verdict := ⟨"Form.Basic", ⟨"Form.Basic", none, none⟩, 0, must, 0, should, []⟩

def Issue.warning (id : String) : Issue := { id := id, severity := .warn, message := id }

/-- A screen at two viewports without a defect. -/
def soundFindings : Findings :=
  ⟨[.failing 0 0], ⟨["name", "send"], [], []⟩, [⟨"320x640", [], []⟩, ⟨"1280x800", [], []⟩]⟩

/-- The same with one defect of every kind. -/
def brokenFindings : Findings :=
  ⟨[.failing 1 1], ⟨["name", "send"], ["skip"], [.warning "field-after-actions"]⟩,
    [⟨"320x640", [], [.warning "overflow-x"]⟩, ⟨"1280x800", [], []⟩]⟩

theorem brokenFindings_worse : Relation.ReflTransGen Findings.Worse soundFindings brokenFindings := by
  have must : Findings.Worse soundFindings { soundFindings with verdicts := [.failing 1 0] } :=
    .must [] [] _ _ rfl rfl
  have should : Findings.Worse { soundFindings with verdicts := [.failing 1 0] }
      { soundFindings with verdicts := [.failing 1 1] } :=
    .should [] [] _ _ rfl rfl
  have unreached : Findings.Worse { soundFindings with verdicts := [.failing 1 1] }
      { soundFindings with verdicts := [.failing 1 1], focus := ⟨["name", "send"], ["skip"], []⟩ } :=
    .unreached _ _ [] [] "skip" rfl rfl rfl
  have keyboard : Findings.Worse
      { soundFindings with verdicts := [.failing 1 1], focus := ⟨["name", "send"], ["skip"], []⟩ }
      { brokenFindings with layouts := soundFindings.layouts } :=
    .keyboard _ _ [] [] (.warning "field-after-actions") rfl rfl rfl
  have layout : Findings.Worse { brokenFindings with layouts := soundFindings.layouts } brokenFindings :=
    .layout _ _ [] _ [] [] (.warning "overflow-x") rfl rfl
  exact .tail (.tail (.tail (.tail (.single must) should) unreached) keyboard) layout

theorem brokenFindings_no_better : ∃ weights s s', Categories.readWeights (.object []) = .ok weights ∧
    soundFindings.Counted ∧ Relation.ReflTransGen Findings.Worse soundFindings brokenFindings ∧
    brokenFindings.judge weights ⟨false, false, some 60⟩ = .ok s' ∧ s'.overall = 69 ∧
    soundFindings.judge weights ⟨false, false, some 60⟩ = .ok s ∧ s.passed = true ∧ 69 ≤ s.overall := by
  have computed : ((Categories.readWeights (.object [])).map fun w =>
      ((brokenFindings.judge w ⟨false, false, some 60⟩).map fun s => (s.overall, s.passed)).toOption).toOption =
        some (some (69, true)) := by
    decide +kernel
  obtain ⟨weights, accepted, told⟩ := Result.map_toOption_eq_some.mp computed
  obtain ⟨s', judged, told⟩ := Result.map_toOption_eq_some.mp told
  obtain ⟨overall, passed⟩ := Prod.mk.inj told
  have counted : soundFindings.Counted := by
    intro v hv
    obtain rfl := List.mem_singleton.mp hv
    decide
  obtain ⟨-, -, -, -, -, gates⟩ := worse_scores_no_better accepted counted brokenFindings_worse
  obtain ⟨s, judged', passed', higher⟩ := gates _ s' judged passed
  exact ⟨weights, s, s', accepted, counted, brokenFindings_worse, judged, overall, judged', passed',
    overall ▸ higher⟩

end Wireframe
