import Wireframe.Proofs.Record.Reading
import Wireframe.Proofs.Value.Nearest
import Wireframe.Score.Categories

/-
  Wireframe.Proofs.Score.Overall — the overall score and the exact weighted sum.

  The overall score is calculated in doubles: four products are summed up, the sum is rounded to
  six places, a half is added and the whole part taken. Every step is off by a rounding, and all of
  them together by far less than the sixth place. So the overall score is the weighted sum rounded
  to a whole number, unless the sum is within a millionth of a half.

  The weights need not sum to one: they may be off by a hundredth. So the best scores can come to
  101, and this is the most they come to.

  Proved:
  - `check_eq_ok`: scores are accepted when all of them are finite and between zero and a hundred.
  - `overall_doubles`, `overall_exact`: the overall score in doubles and in exact numbers, by the
    rounding of the steps.
  - `overall_near`: how far the overall score is from the weighted sum.
  - `overall_bounded`: so it is between 0 and 101, and at most 100 for weights that sum to one.
-/

namespace Wireframe

open Double

/-- The double stands for a number between two bounds. -/
def Double.Between (low high : ℚ) (x : Float) : Prop := ∃ q, StandsFor x q ∧ low ≤ q ∧ q ≤ high

theorem Double.Between.standsFor {low high : ℚ} {x : Float} (h : Between low high x) :
    StandsFor x (Exact.ofFloat x) ∧ low ≤ Exact.ofFloat x ∧ Exact.ofFloat x ≤ high := by
  obtain ⟨q, hq, bounds⟩ := h
  rw [hq.exact]
  exact ⟨hq, bounds⟩

/-! ## What is accepted -/

/-- A number that is read between two bounds is finite. -/
theorem Shape.realIn_between {low high : ℤ} {v : Value} {x : Float} (h : Shape.realIn low high v = .ok x) :
    Between low high x := by
  simp only [Shape.realIn, Result.bind_eq_ok] at h
  obtain ⟨y, -, h⟩ := h
  split at h
  case isFalse => cases h
  case isTrue below =>
    split at h
    case isFalse => cases h
    case isTrue above =>
      cases h
      have finite : Number.isFinite (.float x) = true := by
        simp only [Number.le, Number.compare?, Number.compareMixed] at below above
        simp only [Number.isFinite]
        cases fields : Decimal.Binary.ofFloat x with
        | nan => rw [fields] at below; cases below
        | infinite negative => rw [fields] at below above; cases negative <;> simp at below above
        | finite => rfl
      have stands := StandsFor.of_finite finite
      refine ⟨_, stands, ?_, ?_⟩
      · simp only [Number.le, Number.compare?, stands.compareMixed, Bool.or_eq_true, beq_iff_eq,
          Option.some.injEq, compare_lt_iff_lt, compare_eq_iff_eq] at above
        exact above.elim le_of_lt le_of_eq
      · simp only [Number.le, Number.compare?, stands.compareMixed, Option.map_some, Bool.or_eq_true,
          beq_iff_eq, Option.some.injEq, Ordering.swap_eq_lt, Ordering.swap_eq_eq, compare_gt_iff_gt,
          compare_eq_iff_eq] at below
        exact below.elim le_of_lt ge_of_eq

namespace Categories

/-- All four have a property. -/
def All {α : Type} (P : α → Prop) (c : Categories α) : Prop :=
  P c.patternFidelity ∧ P c.flowReachability ∧ P c.hierarchyGrouping ∧ P c.responsiveBehavior

theorem All.imp {α : Type} {P Q : α → Prop} {c : Categories α} (h : c.All P) (imp : ∀ {a}, P a → Q a) :
    c.All Q :=
  ⟨imp h.1, imp h.2.1, imp h.2.2.1, imp h.2.2.2⟩

/-- The numbers that doubles stand for. -/
def exact (c : Categories Float) : Categories ℚ := c.map Exact.ofFloat

theorem all_exact {c : Categories Float} {low high : ℚ} (h : c.All (Between low high)) :
    c.exact.All fun q => low ≤ q ∧ q ≤ high :=
  h.imp fun between => between.standsFor.2

theorem all_standsFor {c : Categories Float} {low high : ℚ} (h : c.All (Between low high)) :
    StandsFor c.patternFidelity c.exact.patternFidelity ∧
      StandsFor c.flowReachability c.exact.flowReachability ∧
      StandsFor c.hierarchyGrouping c.exact.hierarchyGrouping ∧
      StandsFor c.responsiveBehavior c.exact.responsiveBehavior :=
  ⟨h.1.standsFor.1, h.2.1.standsFor.1, h.2.2.1.standsFor.1, h.2.2.2.standsFor.1⟩

theorem standsFor_zero : StandsFor (Scalar.zero : Float) 0 := by
  have := standsFor_intCast (n := 0) (by decide)
  rwa [Int.cast_zero] at this

theorem checkScore_eq_ok {key : Key} {x y : Float} :
    checkScore key x = .ok y ↔ y = x ∧ Between 0 100 x := by
  have zero : StandsFor (Scalar.zero : Float) 0 := standsFor_zero
  have hundred : StandsFor (Scalar.ofInt 100 : Float) 100 := standsFor_intCast (n := 100) (by decide)
  unfold checkScore
  rw [Shape.underPlace_eq_ok]
  constructor
  · intro h
    split at h
    case h_1 => cases h
    case h_2 whole floor =>
      have stands := StandsFor.of_floor floor
      split at h
      case isFalse => cases h
      case isTrue below =>
        split at h
        case isFalse => cases h
        case isTrue above =>
          cases h
          exact ⟨rfl, _, stands, (zero.le_iff stands).mp (of_decide_eq_true above),
            (stands.le_iff hundred).mp (of_decide_eq_true below)⟩
  · rintro ⟨rfl, q, stands, above, below⟩
    have floor : Scalar.floor y = .ok ⌊q⌋ := stands.floor
    have above : Scalar.le Scalar.zero y = true := decide_eq_true ((zero.le_iff stands).mpr above)
    have below : Scalar.le y (Scalar.ofInt 100) = true := decide_eq_true ((stands.le_iff hundred).mpr below)
    rw [floor]
    simp only [above, below, if_true]

/-- Scores are accepted when all of them are finite and between zero and a hundred. -/
theorem check_eq_ok {c d : Categories Float} : c.check = .ok d ↔ d = c ∧ c.All (Between 0 100) := by
  unfold check
  rw [Result.map_eq_ok]
  constructor
  · rintro ⟨⟨⟨p, f⟩, h, r⟩, accepted, rfl⟩
    obtain ⟨left, right⟩ := Shape.together_eq_ok.mp accepted
    obtain ⟨first, second⟩ := Shape.together_eq_ok.mp left
    obtain ⟨third, fourth⟩ := Shape.together_eq_ok.mp right
    obtain ⟨rfl, hp⟩ := checkScore_eq_ok.mp first
    obtain ⟨rfl, hf⟩ := checkScore_eq_ok.mp second
    obtain ⟨rfl, hh⟩ := checkScore_eq_ok.mp third
    obtain ⟨rfl, hr⟩ := checkScore_eq_ok.mp fourth
    exact ⟨rfl, hp, hf, hh, hr⟩
  · rintro ⟨rfl, hp, hf, hh, hr⟩
    refine ⟨((d.patternFidelity, d.flowReachability), d.hierarchyGrouping, d.responsiveBehavior), ?_, rfl⟩
    refine Shape.together_eq_ok.mpr ⟨Shape.together_eq_ok.mpr ⟨?_, ?_⟩, Shape.together_eq_ok.mpr ⟨?_, ?_⟩⟩
    · exact checkScore_eq_ok.mpr ⟨rfl, hp⟩
    · exact checkScore_eq_ok.mpr ⟨rfl, hf⟩
    · exact checkScore_eq_ok.mpr ⟨rfl, hh⟩
    · exact checkScore_eq_ok.mpr ⟨rfl, hr⟩

theorem check_self {c : Categories Float} (h : c.check.toOption.isSome = true) : c.check = .ok c := by
  obtain ⟨d, hd⟩ := Option.isSome_iff_exists.mp h
  have checked := Result.toOption_eq_some.mp hd
  obtain ⟨rfl, -⟩ := check_eq_ok.mp checked
  exact checked

theorem standardWeights_between : standardWeights.All (Between 0 1) := by
  have each : standardWeights.All fun x => Number.isFinite (.float x) = true ∧
      0 ≤ Exact.ofFloat x ∧ Exact.ofFloat x ≤ 1 := by
    unfold All
    decide +kernel
  exact ⟨⟨_, ⟨each.1.1, rfl⟩, each.1.2⟩, ⟨_, ⟨each.2.1.1, rfl⟩, each.2.1.2⟩,
    ⟨_, ⟨each.2.2.1.1, rfl⟩, each.2.2.1.2⟩, ⟨_, ⟨each.2.2.2.1, rfl⟩, each.2.2.2.2⟩⟩

theorem weight_between {key : Key} {o : Object} {default x : Float} (standard : Between 0 1 default)
    (h : (Reading.optional key (Shape.realIn 0 1) default).Reads o x) : Between 0 1 x := by
  refine h.of_optional standard fun v read => ?_
  have := Shape.realIn_between read
  rwa [Int.cast_zero, Int.cast_one] at this

/-- Weights that are read are finite and between zero and one, and sum to one within the tolerance. -/
theorem readWeights_eq_ok {v : Value} {w : Categories Float} (h : readWeights v = .ok w) :
    w.All (Between 0 1) ∧ w.isBalanced = true := by
  simp only [readWeights, Result.bind_eq_ok] at h
  obtain ⟨w', hw, h⟩ := h
  split at h
  case isFalse => cases h
  case isTrue balanced =>
    cases h
    refine ⟨?_, balanced⟩
    obtain ⟨o, -, reads⟩ := Reading.record_eq_ok hw
    simp only [weightReading, Reading.reads_seq, Reading.reads_map] at reads
    obtain ⟨_, r, ⟨_, h, ⟨_, f, ⟨p, hp, rfl⟩, hf, rfl⟩, hh, rfl⟩, hr, rfl⟩ := reads
    obtain ⟨sp, sf, sh, sr⟩ := standardWeights_between
    exact ⟨weight_between sp hp, weight_between sf hf, weight_between sh hh, weight_between sr hr⟩

/-! ## Sums with rounding -/

section

variable (round : ℚ → ℚ)

/-- The sum of weights when every step is rounded. -/
def totalBy (w : Categories ℚ) : ℚ :=
  round (round (round (w.patternFidelity + w.flowReachability) + w.hierarchyGrouping) +
    w.responsiveBehavior)

/-- The weighted sum when every step is rounded. -/
def weightedBy (w s : Categories ℚ) : ℚ :=
  round (round (round (round (w.patternFidelity * s.patternFidelity) +
    round (w.flowReachability * s.flowReachability)) +
    round (w.hierarchyGrouping * s.hierarchyGrouping)) +
    round (w.responsiveBehavior * s.responsiveBehavior))

/-- The overall score when every step is rounded. -/
def overallBy (w s : Categories ℚ) : ℤ :=
  ⌊round (round (Exact.roundTo 6 (weightedBy round w s)) + 1 / 2)⌋

end

/-- In exact numbers no step is rounded. -/
theorem overall_exact (w s : Categories ℚ) : w.overall s = .ok (overallBy id w s) := by
  have half : (Scalar.decimal 5 1 : ℚ) = 1 / 2 := by decide +kernel
  unfold overall
  rw [half]
  rfl

theorem roundTo_mono (places : ℕ) : Monotone (Exact.roundTo places) := by
  intro p q h
  rw [exact_roundTo, exact_roundTo]
  have ten : (0 : ℚ) < 10 ^ places := by positivity
  refine div_le_div_of_nonneg_right ?_ ten.le
  exact_mod_cast halfEven_mono (mul_le_mul_of_nonneg_right h ten.le)

theorem abs_roundTo_sub_le (q : ℚ) : |Exact.roundTo 6 q - q| ≤ 1 / 2000000 := by
  have near := abs_halfEven_sub_le (q * 10 ^ 6)
  rw [exact_roundTo]
  rw [abs_le] at near ⊢
  constructor <;> linarith

/-- In no category greater. -/
structure Below (s t : Categories ℚ) : Prop where
  patternFidelity : s.patternFidelity ≤ t.patternFidelity
  flowReachability : s.flowReachability ≤ t.flowReachability
  hierarchyGrouping : s.hierarchyGrouping ≤ t.hierarchyGrouping
  responsiveBehavior : s.responsiveBehavior ≤ t.responsiveBehavior

/-- What is greater in no category is not greater in sum, however the steps are rounded. -/
theorem weightedBy_mono {round : ℚ → ℚ} (mono : Monotone round) {w s t : Categories ℚ}
    (nonneg : w.All (0 ≤ ·)) (below : s.Below t) : weightedBy round w s ≤ weightedBy round w t := by
  obtain ⟨hp, hf, hh, hr⟩ := nonneg
  unfold weightedBy
  refine mono (add_le_add (mono (add_le_add (mono (add_le_add ?_ ?_)) ?_)) ?_)
  · exact mono (mul_le_mul_of_nonneg_left below.patternFidelity hp)
  · exact mono (mul_le_mul_of_nonneg_left below.flowReachability hf)
  · exact mono (mul_le_mul_of_nonneg_left below.hierarchyGrouping hh)
  · exact mono (mul_le_mul_of_nonneg_left below.responsiveBehavior hr)

theorem overallBy_mono {round : ℚ → ℚ} (mono : Monotone round) {w s t : Categories ℚ}
    (less : weightedBy round w s ≤ weightedBy round w t) : overallBy round w s ≤ overallBy round w t :=
  Int.floor_le_floor (mono (add_le_add_left (mono (roundTo_mono 6 less)) _))

/-! ## Sums in doubles -/

end Categories

section

variable {x y : Float} {p q : ℚ} {n : ℤ}

theorem Double.nearest_between (low : 0 ≤ q) (high : q ≤ n) (short : |n| ≤ 2 ^ 53) :
    0 ≤ nearest q ∧ nearest q ≤ n :=
  ⟨nearest_nonneg low, (nearest_mono high).trans_eq (nearest_intCast short)⟩

theorem Double.inRange_between (low : 0 ≤ q) (high : q ≤ n) (short : |n| ≤ 2 ^ 53) : InRange q := by
  refine inRange_of_le (k := 53) ?_ (by decide) (by decide)
  rw [abs_of_nonneg low]
  exact high.trans (by exact_mod_cast (le_abs_self n).trans short)

theorem Double.StandsFor.add_between (hx : StandsFor x p) (hy : StandsFor y q) (low : 0 ≤ p + q)
    (high : p + q ≤ n) (short : |n| ≤ 2 ^ 53) :
    StandsFor (x + y) (nearest (p + q)) ∧ 0 ≤ nearest (p + q) ∧ nearest (p + q) ≤ n :=
  ⟨hx.add hy (inRange_between low high short), nearest_between low high short⟩

theorem Double.StandsFor.mul_between (hx : StandsFor x p) (hy : StandsFor y q) (low : 0 ≤ p * q)
    (high : p * q ≤ n) (short : |n| ≤ 2 ^ 53) :
    StandsFor (x * y) (nearest (p * q)) ∧ 0 ≤ nearest (p * q) ∧ nearest (p * q) ≤ n :=
  ⟨hx.mul hy (inRange_between low high short), nearest_between low high short⟩

/-- Rounding is off by little for numbers of the size of scores. -/
theorem Double.abs_nearest_sub_small (small : |q| < 512) : |nearest q - q| ≤ 1 / 10 ^ 13 := by
  have near := abs_nearest_sub_lt (q := q) (k := 9) (by norm_num; exact small) (by decide)
  refine near.trans ?_
  norm_num

end

namespace Categories

variable {w s : Categories Float}

theorem weighted_doubles (hw : w.All (Between 0 1)) (hs : s.All (Between 0 100)) :
    StandsFor (w.weighted s) (weightedBy nearest w.exact s.exact) ∧
      0 ≤ weightedBy nearest w.exact s.exact ∧ weightedBy nearest w.exact s.exact ≤ (400 : ℤ) := by
  have product : ∀ {x y : Float} {p q : ℚ}, StandsFor x p → 0 ≤ p ∧ p ≤ 1 → StandsFor y q →
      0 ≤ q ∧ q ≤ 100 → StandsFor (x * y) (nearest (p * q)) ∧ 0 ≤ nearest (p * q) ∧
        nearest (p * q) ≤ (100 : ℤ) := by
    intro x y p q hx ⟨low, high⟩ hy ⟨low', high'⟩
    refine hx.mul_between hy (mul_nonneg low low') ?_ (by decide)
    push_cast
    calc p * q ≤ 1 * 100 := mul_le_mul high high' low' one_pos.le
      _ = 100 := one_mul _
  obtain ⟨wp, wf, wh, wr⟩ := all_standsFor hw
  obtain ⟨sp, sf, sh, sr⟩ := all_standsFor hs
  obtain ⟨up, uf, uh, ur⟩ := all_exact hw
  obtain ⟨vp, vf, vh, vr⟩ := all_exact hs
  obtain ⟨p, p0, p1⟩ := product wp up sp vp
  obtain ⟨f, f0, f1⟩ := product wf uf sf vf
  obtain ⟨h, h0, h1⟩ := product wh uh sh vh
  obtain ⟨r, r0, r1⟩ := product wr ur sr vr
  obtain ⟨two, two0, two1⟩ := p.add_between f (n := 200) (add_nonneg p0 f0)
    ((add_le_add p1 f1).trans_eq (by norm_num)) (by decide)
  obtain ⟨three, three0, three1⟩ := two.add_between h (n := 300) (add_nonneg two0 h0)
    ((add_le_add two1 h1).trans_eq (by norm_num)) (by decide)
  exact three.add_between r (n := 400) (add_nonneg three0 r0)
    ((add_le_add three1 r1).trans_eq (by norm_num)) (by decide)

/-- In doubles every step is rounded to the nearest double. -/
theorem overall_doubles (hw : w.All (Between 0 1)) (hs : s.All (Between 0 100)) :
    w.overall s = .ok (overallBy nearest w.exact s.exact) := by
  obtain ⟨sum, low, high⟩ := weighted_doubles hw hs
  push_cast at high
  have near := abs_le.mp (abs_roundTo_sub_le (weightedBy nearest w.exact s.exact))
  have places := @StandsFor.roundTo _ _ sum 6 (by decide) (by
    rw [abs_of_nonneg low]
    calc weightedBy nearest w.exact s.exact * 10 ^ 6 ≤ 400 * 10 ^ 6 :=
          mul_le_mul_of_nonneg_right high (by positivity)
      _ ≤ 2 ^ 52 := by norm_num)
  have half : StandsFor (Scalar.decimal 5 1 : Float) (1 / 2) := ⟨by decide +kernel, by decide +kernel⟩
  have nonneg : 0 ≤ Exact.roundTo 6 (weightedBy nearest w.exact s.exact) := by
    have := roundTo_mono 6 low
    rwa [show Exact.roundTo 6 0 = 0 by decide +kernel] at this
  obtain ⟨low', high'⟩ := nearest_between (n := 401) nonneg (by push_cast; linarith) (by decide)
  push_cast at high'
  have added := places.add half (inRange_between (n := 402) (by linarith) (by push_cast; linarith) (by decide))
  exact added.floor

/-! ## How near the overall score is to the weighted sum -/

/-- Seven roundings are off by little. -/
theorem weightedBy_near {w s : Categories ℚ} (hw : w.All fun q => 0 ≤ q ∧ q ≤ 1)
    (hs : s.All fun q => 0 ≤ q ∧ q ≤ 100) :
    |weightedBy nearest w s - w.weighted s| ≤ 7 / 10 ^ 13 := by
  have product : ∀ {p q : ℚ}, 0 ≤ p ∧ p ≤ 1 → 0 ≤ q ∧ q ≤ 100 → 0 ≤ p * q ∧ p * q ≤ 100 := by
    intro p q ⟨low, high⟩ ⟨low', high'⟩
    exact ⟨mul_nonneg low low', (mul_le_mul high high' low' one_pos.le).trans_eq (one_mul _)⟩
  have step : ∀ {q : ℚ}, 0 ≤ q → q ≤ 500 → q - 1 / 10 ^ 13 ≤ nearest q ∧ nearest q ≤ q + 1 / 10 ^ 13 := by
    intro q low high
    have := abs_le.mp (abs_nearest_sub_small (q := q) (by rw [abs_of_nonneg low]; linarith))
    constructor <;> linarith
  obtain ⟨p0, p1⟩ := product hw.1 hs.1
  obtain ⟨f0, f1⟩ := product hw.2.1 hs.2.1
  obtain ⟨h0, h1⟩ := product hw.2.2.1 hs.2.2.1
  obtain ⟨r0, r1⟩ := product hw.2.2.2 hs.2.2.2
  have p := step p0 (by linarith)
  have f := step f0 (by linarith)
  have h := step h0 (by linarith)
  have r := step r0 (by linarith)
  have p' := nearest_nonneg p0
  have f' := nearest_nonneg f0
  have h' := nearest_nonneg h0
  have r' := nearest_nonneg r0
  have two := step (add_nonneg p' f') (by linarith)
  have two' := nearest_nonneg (add_nonneg p' f')
  have three := step (add_nonneg two' h') (by linarith)
  have three' := nearest_nonneg (add_nonneg two' h')
  have four := step (add_nonneg three' r') (by linarith)
  have opened : w.weighted s = w.patternFidelity * s.patternFidelity +
    w.flowReachability * s.flowReachability + w.hierarchyGrouping * s.hierarchyGrouping +
    w.responsiveBehavior * s.responsiveBehavior := rfl
  rw [opened, abs_le]
  unfold weightedBy
  constructor <;> linarith

/-- The overall score is the weighted sum rounded to a whole number, unless the sum is within a
millionth of a half. -/
theorem overall_near (hw : w.All (Between 0 1)) (hs : s.All (Between 0 100)) :
    ∃ r : ℤ, w.overall s = .ok r ∧
      w.exact.weighted s.exact - 1 / 2 - 6 / 10 ^ 7 < r ∧
      (r : ℚ) ≤ w.exact.weighted s.exact + 1 / 2 + 6 / 10 ^ 7 := by
  refine ⟨_, overall_doubles hw hs, ?_⟩
  obtain ⟨-, low, high⟩ := weighted_doubles hw hs
  have near := abs_le.mp (weightedBy_near (all_exact hw) (all_exact hs))
  have six := abs_le.mp (abs_roundTo_sub_le (weightedBy nearest w.exact s.exact))
  unfold overallBy
  push_cast at high
  generalize weightedBy nearest w.exact s.exact = sum at *
  generalize Exact.roundTo 6 sum = places at *
  have rounded := abs_le.mp (abs_nearest_sub_small (q := places) (abs_lt.mpr ⟨by linarith, by linarith⟩))
  have added := abs_le.mp (abs_nearest_sub_small (q := nearest places + 1 / 2)
    (abs_lt.mpr ⟨by linarith, by linarith⟩))
  have floor := Int.floor_le (nearest (nearest places + 1 / 2))
  have floor' := Int.lt_floor_add_one (nearest (nearest places + 1 / 2))
  constructor <;> linarith

/-! ## What weights sum to -/

theorem total_doubles (hw : w.All (Between 0 1)) :
    StandsFor w.total (totalBy nearest w.exact) ∧ |totalBy nearest w.exact - w.exact.total| ≤ 3 / 10 ^ 13 ∧
      0 ≤ totalBy nearest w.exact ∧ totalBy nearest w.exact ≤ (4 : ℤ) := by
  obtain ⟨p, f, h, r⟩ := all_standsFor hw
  obtain ⟨⟨p0, p1⟩, ⟨f0, f1⟩, ⟨h0, h1⟩, r0, r1⟩ := all_exact hw
  obtain ⟨two, two0, two1⟩ := p.add_between f (n := 2) (by linarith) (by push_cast; linarith) (by decide)
  push_cast at two1
  obtain ⟨three, three0, three1⟩ := two.add_between h (n := 3) (by linarith) (by push_cast; linarith)
    (by decide)
  push_cast at three1
  obtain ⟨four, four0, four1⟩ := three.add_between r (n := 4) (by linarith) (by push_cast; linarith)
    (by decide)
  refine ⟨four, ?_, four0, four1⟩
  have first := abs_le.mp (abs_nearest_sub_small (abs_lt.mpr ⟨by linarith, by linarith⟩ :
    |w.exact.patternFidelity + w.exact.flowReachability| < 512))
  have second := abs_le.mp (abs_nearest_sub_small (abs_lt.mpr ⟨by linarith, by linarith⟩ :
    |nearest (w.exact.patternFidelity + w.exact.flowReachability) + w.exact.hierarchyGrouping| < 512))
  have third := abs_le.mp (abs_nearest_sub_small (abs_lt.mpr ⟨by linarith, by linarith⟩ :
    |nearest (nearest (w.exact.patternFidelity + w.exact.flowReachability) + w.exact.hierarchyGrouping) +
      w.exact.responsiveBehavior| < 512))
  have opened : w.exact.total = w.exact.patternFidelity + w.exact.flowReachability +
    w.exact.hierarchyGrouping + w.exact.responsiveBehavior := rfl
  rw [opened, abs_le]
  unfold totalBy
  constructor <;> linarith

/-- Weights that are balanced sum to one but for a hundredth. -/
theorem total_of_balanced (hw : w.All (Between 0 1)) (h : w.isBalanced = true) :
    99 / 100 - 1 / 10 ^ 12 ≤ w.exact.total ∧ w.exact.total ≤ 101 / 100 + 1 / 10 ^ 12 := by
  obtain ⟨stands, near, low, high⟩ := total_doubles hw
  rw [abs_le] at near
  push_cast at high
  have one : StandsFor (Scalar.ofInt 1 : Float) 1 := by
    have := standsFor_intCast (n := 1) (by decide)
    rwa [Int.cast_one] at this
  have tolerance : StandsFor (weightTolerance : Float) (nearest (1 / 100)) := by
    have := @standsFor_decimal 1 2 (by decide) (by decide)
    norm_num at this ⊢
    exact this
  have hundredth := abs_le.mp (abs_nearest_sub_small (q := 1 / 100) (by norm_num))
  have inside : |totalBy nearest w.exact - 1| ≤ 2 ^ (2 : ℤ) := by
    rw [abs_le]
    constructor <;> norm_num <;> linarith
  have inside' : |1 - totalBy nearest w.exact| ≤ 2 ^ (2 : ℤ) := by rwa [abs_sub_comm]
  have above := stands.sub one (inRange_of_le inside (by decide) (by decide))
  have below := one.sub stands (inRange_of_le inside' (by decide) (by decide))
  have off := abs_le.mp (abs_nearest_sub_small (q := totalBy nearest w.exact - 1)
    (inside.trans_lt (by norm_num)))
  have off' := abs_le.mp (abs_nearest_sub_small (q := 1 - totalBy nearest w.exact)
    (inside'.trans_lt (by norm_num)))
  rw [isBalanced, Bool.not_eq_true', Bool.or_eq_false_iff] at h
  have high := not_lt.mp ((tolerance.lt_iff above).not.mp (of_decide_eq_false h.1))
  have low := not_lt.mp ((tolerance.lt_iff below).not.mp (of_decide_eq_false h.2))
  constructor <;> linarith

/-- What the best scores come to is what all weights together come to. -/
theorem weighted_le (w s : Categories ℚ) (hw : w.All fun q => 0 ≤ q ∧ q ≤ 1)
    (hs : s.All fun q => 0 ≤ q ∧ q ≤ 100) :
    0 ≤ w.weighted s ∧ w.weighted s ≤ 100 * w.total := by
  obtain ⟨⟨p, _⟩, ⟨f, _⟩, ⟨h, _⟩, r, _⟩ := hw
  obtain ⟨⟨p', p1⟩, ⟨f', f1⟩, ⟨h', h1⟩, r', r1⟩ := hs
  have opened : w.weighted s = w.patternFidelity * s.patternFidelity +
    w.flowReachability * s.flowReachability + w.hierarchyGrouping * s.hierarchyGrouping +
    w.responsiveBehavior * s.responsiveBehavior := rfl
  have total : w.total = w.patternFidelity + w.flowReachability + w.hierarchyGrouping +
    w.responsiveBehavior := rfl
  have := mul_le_mul_of_nonneg_left p1 p
  have := mul_le_mul_of_nonneg_left f1 f
  have := mul_le_mul_of_nonneg_left h1 h
  have := mul_le_mul_of_nonneg_left r1 r
  rw [opened, total]
  constructor
  · positivity
  · linarith

end Categories

/-- The overall score by weights that are accepted is between 0 and 101, and at most 100 unless the
weights sum to more than 1.00499999. From 1.00500001 on, the best scores come to 101. -/
theorem overall_bounded {document : Value} {weights scores : Categories Float}
    (accepted : Categories.readWeights document = .ok weights) (scored : scores.check = .ok scores) :
    ∃ r : ℤ, weights.overall scores = .ok r ∧ 0 ≤ r ∧ r ≤ 101 ∧
      (weights.exact.total ≤ 100499999 / 10 ^ 8 → r ≤ 100) ∧
      (100500001 / 10 ^ 8 ≤ weights.exact.total → scores.exact.All (· = 100) → r = 101) := by
  obtain ⟨hw, balanced⟩ := Categories.readWeights_eq_ok accepted
  obtain ⟨-, hs⟩ := Categories.check_eq_ok.mp scored
  obtain ⟨-, total⟩ := Categories.total_of_balanced hw balanced
  obtain ⟨low, high⟩ := Categories.weighted_le _ _ (Categories.all_exact hw) (Categories.all_exact hs)
  obtain ⟨r, hr, below, above⟩ := Categories.overall_near hw hs
  have nonneg : 0 ≤ r := by
    have : (-1 : ℚ) < r := by linarith
    have : -1 < r := by exact_mod_cast this
    omega
  have most : r ≤ 101 := by
    have : (r : ℚ) < 102 := by linarith
    have : r < 102 := by exact_mod_cast this
    omega
  refine ⟨r, hr, nonneg, most, fun light => ?_, fun heavy best => ?_⟩
  · have : (r : ℚ) < 101 := by linarith
    have : r < 101 := by exact_mod_cast this
    omega
  · obtain ⟨p, f, h, e⟩ := best
    have sum : weights.exact.weighted scores.exact = 100 * weights.exact.total := by
      have opened : weights.exact.weighted scores.exact =
        weights.exact.patternFidelity * scores.exact.patternFidelity +
        weights.exact.flowReachability * scores.exact.flowReachability +
        weights.exact.hierarchyGrouping * scores.exact.hierarchyGrouping +
        weights.exact.responsiveBehavior * scores.exact.responsiveBehavior := rfl
      have total : weights.exact.total = weights.exact.patternFidelity + weights.exact.flowReachability +
        weights.exact.hierarchyGrouping + weights.exact.responsiveBehavior := rfl
      rw [opened, total, p, f, h, e]
      ring
    have : (100 : ℚ) < r := by linarith
    have : 100 < r := by exact_mod_cast this
    omega

/-- Weights that sum to one, and scores of which one is the worst. -/
def lightWeights : Value :=
  .object [("patternFidelity", .real 0.4), ("flowReachability", .real 0.3),
    ("hierarchyGrouping", .real 0.2), ("responsiveBehavior", .real 0.1)]

def unevenScores : Categories Float := ⟨100.0, 99.5, 87.25, 0.0⟩

theorem unevenScores_bounded : ∃ weights r, Categories.readWeights lightWeights = .ok weights ∧
    unevenScores.check = .ok unevenScores ∧ weights.exact.total ≤ 100499999 / 10 ^ 8 ∧
    weights.overall unevenScores = .ok r ∧ 0 ≤ r ∧ r ≤ 100 := by
  have computed : ((Categories.readWeights lightWeights).map fun w =>
      decide (w.exact.total ≤ 100499999 / 10 ^ 8)).toOption = some true := by
    decide +kernel
  have accepted : unevenScores.check.toOption.isSome = true := by decide +kernel
  obtain ⟨weights, read, light⟩ := Result.map_toOption_eq_some.mp computed
  have checked := Categories.check_self accepted
  obtain ⟨r, hr, low, -, most, -⟩ := overall_bounded read checked
  exact ⟨weights, r, read, checked, of_decide_eq_true light, hr, low, most (of_decide_eq_true light)⟩

/-- Weights that sum to 1.0075. -/
def heavyWeights : Value :=
  .object [("patternFidelity", .real 0.45), ("flowReachability", .real 0.25),
    ("hierarchyGrouping", .real 0.2), ("responsiveBehavior", .real 0.1075)]

def bestScores : Categories Float := ⟨100.0, 100.0, 100.0, 100.0⟩

theorem heavyWeights_exceed : ∃ weights, Categories.readWeights heavyWeights = .ok weights ∧
    bestScores.check = .ok bestScores ∧ weights.overall bestScores = .ok 101 := by
  have computed : ((Categories.readWeights heavyWeights).map fun w =>
      (w.overall bestScores).toOption).toOption = some (some 101) := by
    decide +kernel
  have accepted : bestScores.check.toOption.isSome = true := by decide +kernel
  obtain ⟨weights, read, overall⟩ := Result.map_toOption_eq_some.mp computed
  exact ⟨weights, read, Categories.check_self accepted, Result.toOption_eq_some.mp overall⟩

end Wireframe
