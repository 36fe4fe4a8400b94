import Wireframe.Proofs.Value.Double
import Wireframe.Proofs.Value.Rounding

/-
  Wireframe.Proofs.Value.Unpacked — calculations with doubles come to the nearest double.

  A double is calculated with as a sign, a mantissa and a power of two. The exact result has a
  mantissa that may be too long; it is shifted until 53 bits are left, and of what is lost two bits
  are kept: whether it was a half or more, and whether there was anything else. They are all that
  rounding needs to know, so the outcome is the rounding of the exact result. A carry out of the 53
  bits is shifted out once more, and it loses nothing.

  Proved:
  - `Holds.shiftRight`, `Holds.roundedMantissa_eq`: the two bits survive shifting, and decide.
  - `round_eq`, `normalize_eq`: a mantissa that is put in its place is the nearest one.
  - `add_eq`, `sub_eq`, `mul_eq`, `div_eq`: each calculation comes to the nearest double.
  - `compare_eq`: doubles compare as the numbers do that they stand for.
  - `unpack_pack_canonical`: nothing is lost between calculations.
-/

namespace Wireframe.Double

open Float.Model Float.Model.UnpackedFloat

/-! ## Mantissas with a remainder -/

/-- A mantissa with its two further bits holds a number: its whole part, whether the rest is a half
or more, and whether it is something else than nothing or a half. -/
structure Holds (em : ExtendedMantissa) (t : ℚ) : Prop where
  mantissa : (em.mantissa : ℤ) = ⌊t⌋
  round : em.roundBit = true ↔ 1 / 2 ≤ Int.fract t
  sticky : em.stickyBit = true ↔ Int.fract t ≠ 0 ∧ Int.fract t ≠ 1 / 2

theorem holds_exact (m : ℕ) : Holds ⟨m, false, false⟩ m := by
  refine ⟨(Int.floor_natCast m).symm, ?_, ?_⟩
  · rw [Int.fract_natCast]; norm_num
  · rw [Int.fract_natCast]; norm_num

variable {em : ExtendedMantissa} {t : ℚ}

/-- A shift by one place halves the number. -/
theorem Holds.shiftRightOne (h : Holds em t) : Holds em.shiftRightOne (t / 2) := by
  have parts := Int.floor_add_fract t
  have low := Int.fract_nonneg t
  have high := Int.fract_lt_one t
  have bits : ⌊t⌋ = 2 * (⌊t⌋ / 2) + ⌊t⌋ % 2 := by omega
  have bit : ⌊t⌋ % 2 = 0 ∨ ⌊t⌋ % 2 = 1 := by omega
  have cast : (⌊t⌋ : ℚ) = 2 * (⌊t⌋ / 2 : ℤ) + (⌊t⌋ % 2 : ℤ) := by exact_mod_cast bits
  have floor : ⌊t / 2⌋ = ⌊t⌋ / 2 := by
    rw [Int.floor_eq_iff]
    rcases bit with b | b <;> rw [b] at cast <;> push_cast at cast <;> constructor <;> linarith
  have fract : Int.fract (t / 2) = ((⌊t⌋ % 2 : ℤ) + Int.fract t) / 2 := by
    rw [Int.fract, floor]
    linarith
  have parity : (em.mantissa % 2 != 0) = true ↔ ⌊t⌋ % 2 = 1 := by
    rw [← h.mantissa, bne_iff_ne]
    omega
  refine ⟨?_, ?_, ?_⟩
  · rw [floor, ← h.mantissa]
    rfl
  · show (em.mantissa % 2 != 0) = true ↔ _
    rw [parity, fract]
    rcases bit with b | b <;> rw [b] <;> push_cast
    · simp only [false_iff]; linarith
    · simp only [true_iff]; linarith
  · show (em.roundBit || em.stickyBit) = true ↔ _
    rw [Bool.or_eq_true, h.round, h.sticky, fract]
    rcases bit with b | b <;> rw [b] <;> push_cast
    · constructor
      · rintro (h | ⟨h, -⟩)
        · constructor <;> intro e <;> linarith
        · exact ⟨fun e => h (by linarith), fun e => by linarith⟩
      · rintro ⟨h, -⟩
        by_cases half : 1 / 2 ≤ Int.fract t
        · exact .inl half
        · exact .inr ⟨fun e => h (by rw [e]; norm_num), fun e => half e.ge⟩
    · constructor
      · rintro (h | ⟨h, -⟩)
        · constructor <;> intro e <;> linarith
        · exact ⟨fun e => by linarith, fun e => h (by linarith)⟩
      · rintro ⟨-, h⟩
        by_cases half : 1 / 2 ≤ Int.fract t
        · exact .inl half
        · exact .inr ⟨fun e => h (by rw [e]; norm_num), fun e => half e.ge⟩

theorem Holds.shiftRight (h : Holds em t) (k : ℕ) : Holds (em >>> k) (t / 2 ^ k) := by
  induction k with
  | zero => rw [pow_zero, div_one]; exact h
  | succ k ih =>
    rw [pow_succ, ← div_div]
    exact ih.shiftRightOne

/-- The two bits are what rounding needs to know. -/
theorem Holds.roundedMantissa_eq (h : Holds em t) : (em.roundedMantissa : ℤ) = halfEven t := by
  obtain ⟨m, r, s⟩ := em
  obtain ⟨mantissa, round, sticky⟩ := h
  simp only at mantissa round sticky
  have low := Int.fract_nonneg t
  unfold halfEven
  rw [← mantissa]
  cases r <;> cases s <;>
    simp only [Bool.false_eq_true, false_iff, true_iff, not_le, not_and_or, not_not] at round sticky
  · rw [if_pos (.inl round)]; rfl
  · rw [if_pos (.inl round)]; rfl
  · have tie : Int.fract t = 1 / 2 := sticky.resolve_left fun e => by rw [e] at round; norm_num at round
    show ((m + m % 2 : ℕ) : ℤ) = _
    by_cases even : Even (m : ℤ)
    · rw [if_pos (.inr ⟨tie, even⟩)]
      have := Int.even_iff.mp even
      omega
    · rw [if_neg]
      · have := Int.not_even_iff.mp even
        omega
      · rintro (h | ⟨-, h⟩)
        · exact absurd tie h.ne
        · exact even h
  · rw [if_neg]
    · rfl
    · rintro (h | ⟨h, -⟩)
      · exact absurd round h.not_ge
      · exact sticky.2 h

/-- A quotient with its remainder. -/
theorem holds_div {n d : ℕ} (positive : 0 < d) :
    Holds (ExtendedMantissa.ofMantissaAndAccuracy (n / d) (accuracyOfFraction (n % d) d)) (n / d : ℚ) := by
  have fract : Int.fract (n / d : ℚ) = (n % d : ℕ) / d := Int.fract_div_natCast_eq_div_natCast_mod
  unfold accuracyOfFraction
  split
  case isTrue none =>
    have exact : Int.fract (n / d : ℚ) = 0 := by rw [fract, none]; simp
    refine ⟨(floor_quotient n d).symm, ?_, ?_⟩ <;> rw [exact] <;>
      simp [ExtendedMantissa.ofMantissaAndAccuracy]
  case isFalse some =>
    have nonzero : Int.fract (n / d : ℚ) ≠ 0 := by
      rw [fract]
      exact div_ne_zero (Nat.cast_ne_zero.mpr some) (Nat.cast_ne_zero.mpr positive.ne')
    refine ⟨?_, ?_, ?_⟩
    · rw [floor_quotient]
      cases compare (2 * (n % d)) d <;> rfl
    · rw [← not_lt, fract_quotient_lt_half positive, ← Nat.compare_eq_lt]
      cases compare (2 * (n % d)) d <;> simp [ExtendedMantissa.ofMantissaAndAccuracy]
    · rw [Ne, Ne, fract_quotient_eq_half positive, ← Nat.compare_eq_eq]
      cases compare (2 * (n % d)) d <;> simp [ExtendedMantissa.ofMantissaAndAccuracy, nonzero]

/-! ## Rounded mantissas -/

/-- A finite double as it is calculated with: the mantissa has 53 bits, or fewer at the least power
of two. -/
def Canonical : UnpackedFloat → Prop
  | .finite _ m e _ => m < 2 ^ 53 ∧ -1074 ≤ e ∧ (2 ^ 52 ≤ m ∨ e = -1074)
  | .zero _ => True
  | _ => False

def factor : Sign → ℚ
  | .positive => 1
  | .negative => -1

/-- The number that a finite double stands for. -/
def value : UnpackedFloat → ℚ
  | .finite s m e _ => factor s * (m * 2 ^ e)
  | _ => 0

@[simp] theorem value_zero (s : Sign) : value (.zero s) = 0 := rfl

theorem value_finite (s : Sign) (m : ℕ) (e : ℤ) (positive : 0 < m) :
    value (.finite s m e positive) = factor s * (m * 2 ^ e) := rfl

theorem log2_mul_two_pow {m : ℕ} (positive : 0 < m) (k : ℕ) : (m * 2 ^ k).log2 = m.log2 + k := by
  refine (Nat.log2_eq_iff (by positivity)).mpr ⟨?_, ?_⟩
  · rw [Nat.pow_add]
    exact Nat.mul_le_mul_right _ (Nat.log2_self_le positive.ne')
  · rw [Nat.add_right_comm, Nat.pow_add]
    exact Nat.mul_lt_mul_of_pos_right Nat.lt_log2_self (Nat.two_pow_pos k)

/-- A mantissa that has its bits at its place is left alone. -/
theorem shiftToTarget_canonical {m : ℕ} {e : ℤ} (short : m < 2 ^ 53) (least : -1074 ≤ e)
    (full : 2 ^ 52 ≤ m ∨ e = -1074) :
    shiftToTargetExponent .binary64 m e .exact = (⟨m, false, false⟩, e) := by
  have target : Format.binary64.targetExponent (totalExponent m e) = e := by
    rw [target_eq, totalExponent]
    rcases Nat.eq_zero_or_pos m with rfl | positive
    · rcases full with long | rfl
      · omega
      · rfl
    · have below := (Nat.log2_lt positive.ne').mpr short
      have above : 2 ^ 52 ≤ m → 52 ≤ m.log2 := (Nat.le_log2 positive.ne').mpr
      omega
  have amount : (e - e).toNat = 0 := by omega
  simp only [shiftToTargetExponent, shiftToExponent, target, amount]
  exact congrArg _ (add_zero e)

/-- A mantissa that was rounded up to 54 bits loses the last one, which is not set. -/
theorem shiftToTarget_carry {e : ℤ} (least : -1074 ≤ e) :
    shiftToTargetExponent .binary64 (2 ^ 53) e .exact = (⟨2 ^ 52, false, false⟩, e + 1) := by
  have target : Format.binary64.targetExponent (totalExponent (2 ^ 53) e) = e + 1 := by
    rw [target_eq, totalExponent, Nat.log2_two_pow]
    omega
  have amount : (e + 1 - e).toNat = 1 := by omega
  simp only [shiftToTargetExponent, shiftToExponent, target, amount]
  rfl

@[simp] theorem mantissa_ofMantissaAndAccuracy (m : ℕ) (a : Accuracy) :
    (ExtendedMantissa.ofMantissaAndAccuracy m a).mantissa = m := by
  cases a with
  | exact => rfl
  | inexact o => cases o <;> rfl

/-- The place that a mantissa is shifted to is the last place of the number that it holds. -/
theorem lastPlace_of_holds {m : ℕ} {e : ℤ} {a : Accuracy}
    (holds : Holds (.ofMantissaAndAccuracy m a) t) (leading : m ≠ 0 ∨ e ≤ -1074) (nonzero : t ≠ 0) :
    lastPlace (t * 2 ^ e) = max (m.log2 + 1 + e - 53) (-1074) := by
  have floor : (m : ℤ) = ⌊t⌋ := by simpa using holds.mantissa
  have low : (m : ℚ) ≤ t := by
    have := Int.floor_le t
    rwa [← floor] at this
  have high : t < m + 1 := by
    have := Int.lt_floor_add_one t
    rwa [← floor] at this
  have positive : 0 < t := lt_of_le_of_ne ((Nat.cast_nonneg m).trans low) nonzero.symm
  have size : |t * 2 ^ e| = t * 2 ^ e := abs_of_pos (mul_pos positive (place_pos e))
  rcases Nat.eq_zero_or_pos m with rfl | some
  · have small : |t * 2 ^ e| < 2 ^ e := by
      rw [size]
      refine mul_lt_of_lt_one_left (place_pos e) ?_
      rwa [Nat.cast_zero, zero_add] at high
    have place := lastPlace_le (mul_ne_zero nonzero (place_pos e).ne') small
    have least := least_le_lastPlace (t * 2 ^ e)
    have := Nat.log2_zero
    omega
  · have below : ((2 ^ m.log2 : ℕ) : ℚ) ≤ m := by exact_mod_cast Nat.log2_self_le some.ne'
    have above : (m : ℚ) + 1 ≤ (2 ^ (m.log2 + 1) : ℕ) := by exact_mod_cast Nat.lt_log2_self (n := m)
    rw [lastPlace_eq (k := m.log2 + e) ?_ ?_]
    · congr 1
      ring
    · rw [size, zpow_add₀ two_ne_zero, zpow_natCast]
      refine mul_le_mul_of_nonneg_right ?_ (place_pos e).le
      push_cast at below
      exact below.trans low
    · rw [size, show (m.log2 : ℤ) + e + 1 = (m.log2 + 1 : ℕ) + e by push_cast; ring,
        zpow_add₀ two_ne_zero, zpow_natCast]
      refine mul_lt_mul_of_pos_right ?_ (place_pos e)
      push_cast at above
      exact high.trans_le above

/-- The rounded mantissa at the place that it was shifted to is the nearest double. -/
theorem roundedMantissa_shifted {m : ℕ} {e : ℤ} {a : Accuracy} {k : ℕ}
    (holds : Holds (.ofMantissaAndAccuracy m a) t) (leading : m ≠ 0 ∨ e ≤ -1074)
    (place : e + k = max (m.log2 + 1 + e - 53) (-1074)) :
    let M := (ExtendedMantissa.ofMantissaAndAccuracy m a >>> k).roundedMantissa
    (M : ℚ) * 2 ^ (e + k) = nearest (t * 2 ^ e) ∧ M ≤ 2 ^ 53 ∧ (2 ^ 52 ≤ M ∨ e + k = -1074) := by
  intro M
  have rounded : (M : ℤ) = halfEven (t / 2 ^ k) := (holds.shiftRight k).roundedMantissa_eq
  rcases eq_or_ne t 0 with rfl | nonzero
  · have none : M = 0 := by
      have := halfEven_intCast 0
      rw [Int.cast_zero] at this
      rw [zero_div, this] at rounded
      exact_mod_cast rounded
    have empty : m = 0 := by
      have := holds.mantissa
      rw [Int.floor_zero, mantissa_ofMantissaAndAccuracy] at this
      exact_mod_cast this
    refine ⟨by simp [none], by omega, .inr ?_⟩
    rw [empty, Nat.log2_zero] at place
    have := leading.resolve_left (· empty)
    omega
  · have same := lastPlace_of_holds holds leading nonzero
    rw [← place] at same
    have scaled : t * 2 ^ e / 2 ^ (e + k) = t / 2 ^ k := by
      rw [zpow_add₀ two_ne_zero, zpow_natCast, mul_comm (2 ^ e : ℚ), mul_div_mul_right _ _ (place_pos e).ne']
    have nonneg : 0 ≤ t := Int.floor_nonneg.mp (holds.mantissa ▸ Int.natCast_nonneg _)
    have size : |t * 2 ^ e| = t * 2 ^ e := abs_of_nonneg (mul_nonneg nonneg (place_pos e).le)
    refine ⟨?_, ?_, ?_⟩
    · rw [nearest, same, scaled, ← rounded]
      rfl
    · have : halfEven (t / 2 ^ k) ≤ halfEven ((2 ^ 53 : ℤ) : ℚ) := by
        refine halfEven_mono ?_
        have bits := abs_lt_lastPlace (t * 2 ^ e)
        rw [same, size, add_comm, zpow_add₀ two_ne_zero, ← div_lt_iff₀ (place_pos _), scaled] at bits
        exact_mod_cast bits.le
      rw [← rounded, halfEven_intCast] at this
      exact_mod_cast this
    · rcases (least_le_lastPlace (t * 2 ^ e)).eq_or_lt with least | above
      · exact .inr (same.symm.trans least.symm)
      · have : halfEven ((2 ^ 52 : ℤ) : ℚ) ≤ halfEven (t / 2 ^ k) := by
          refine halfEven_mono ?_
          have bits := lastPlace_le_abs (mul_ne_zero nonzero (place_pos e).ne') above
          rw [same, size, add_comm, zpow_add₀ two_ne_zero, ← le_div_iff₀ (place_pos _), scaled] at bits
          exact_mod_cast bits
        rw [← rounded, halfEven_intCast] at this
        exact .inl (by exact_mod_cast this)

/-- A mantissa and its power of two put together with a sign. -/
def settle (s : Sign) (p : ExtendedMantissa × ℤ) : UnpackedFloat :=
  if h : p.1.mantissa = 0 then .zero s else .finite s p.1.mantissa p.2 (Nat.pos_of_ne_zero h)

theorem settle_eq (s : Sign) {m : ℕ} {e : ℤ} (h : m < 2 ^ 53 ∧ -1074 ≤ e ∧ (2 ^ 52 ≤ m ∨ e = -1074)) :
    Canonical (settle s (⟨m, false, false⟩, e)) ∧
      value (settle s (⟨m, false, false⟩, e)) = factor s * (m * 2 ^ e) := by
  unfold settle
  split
  case isTrue none =>
    have : m = 0 := none
    simp [Canonical, value, this]
  case isFalse some => exact ⟨h, rfl⟩

/-- Rounding comes to the nearest double. -/
theorem roundWithAccuracy_eq (s : Sign) {m : ℕ} {e : ℤ} {a : Accuracy} {t : ℚ}
    (holds : Holds (.ofMantissaAndAccuracy m a) t) (room : e ≤ max (m.log2 + 1 + e - 53) (-1074))
    (leading : m ≠ 0 ∨ e ≤ -1074) :
    Canonical (roundWithAccuracy .binary64 s m e a) ∧
      value (roundWithAccuracy .binary64 s m e a) = factor s * nearest (t * 2 ^ e) := by
  obtain ⟨k, hk⟩ := Int.eq_ofNat_of_zero_le (sub_nonneg.mpr room)
  have place : e + k = max (m.log2 + 1 + e - 53) (-1074) := by omega
  have target : Format.binary64.targetExponent (totalExponent m e) = e + k := by
    rw [target_eq, totalExponent, place]
  have amount : (e + k - e).toNat = k := by omega
  have first : shiftToTargetExponent .binary64 m e a =
      (ExtendedMantissa.ofMantissaAndAccuracy m a >>> k, e + k) := by
    simp only [shiftToTargetExponent, shiftToExponent, target, amount]
  obtain ⟨same, short, full⟩ := roundedMantissa_shifted holds leading place
  have least : -1074 ≤ e + k := by omega
  have opened : roundWithAccuracy .binary64 s m e a =
      settle s (shiftToTargetExponent .binary64
        (ExtendedMantissa.ofMantissaAndAccuracy m a >>> k).roundedMantissa (e + k) .exact) := by
    rw [roundWithAccuracy, first]
    rfl
  rw [opened, ← same]
  generalize (ExtendedMantissa.ofMantissaAndAccuracy m a >>> k).roundedMantissa = M at *
  rcases short.lt_or_eq with short | rfl
  · rw [shiftToTarget_canonical short least full]
    exact settle_eq s ⟨short, least, full⟩
  · rw [shiftToTarget_carry least]
    obtain ⟨canonical, value⟩ := settle_eq s (m := 2 ^ 52) (e := e + k + 1)
      ⟨by decide, by omega, .inl le_rfl⟩
    refine ⟨canonical, value.trans ?_⟩
    rw [zpow_add_one₀ two_ne_zero]
    push_cast
    ring

theorem nearest_factor (s : Sign) (q : ℚ) : nearest (factor s * q) = factor s * nearest q := by
  cases s with
  | positive => rw [factor, one_mul, one_mul]
  | negative => rw [factor, neg_one_mul, neg_one_mul, nearest_neg]

/-- A finite double is its own nearest double. -/
theorem nearest_value {u : UnpackedFloat} (h : Canonical u) : nearest (value u) = value u := by
  cases u with
  | finite s m e positive =>
    have bits := nearest_of_bits (m := m) (e := e) (by rw [Nat.abs_cast]; exact_mod_cast h.1.le) h.2.1
    rw [value, nearest_factor]
    exact congrArg _ bits
  | _ => exact nearest_zero

theorem round_eq (s : Sign) {m : ℕ} (positive : 0 < m) (e : ℤ) :
    Canonical (UnpackedFloat.round .binary64 s m e) ∧
      value (UnpackedFloat.round .binary64 s m e) = factor s * nearest (m * 2 ^ e) := by
  obtain ⟨j, hj⟩ : ∃ j : ℕ, (e - Format.binary64.targetExponent (totalExponent m e)).toNat = j := ⟨_, rfl⟩
  have target : Format.binary64.targetExponent (totalExponent m e) =
    max (m.log2 + 1 + e - 53) (-1074) := rfl
  have opened : UnpackedFloat.round .binary64 s m e =
      roundWithAccuracy .binary64 s (m * 2 ^ j) (e - j) .exact := by
    simp only [UnpackedFloat.round, decreaseExponent, hj, Nat.shiftLeft_eq]
  have same : ((m * 2 ^ j : ℕ) : ℚ) * 2 ^ (e - j) = m * 2 ^ e := by
    rw [zpow_sub₀ two_ne_zero, zpow_natCast]
    push_cast
    field_simp
  rw [opened, ← same]
  refine roundWithAccuracy_eq s (holds_exact _) ?_ (.inl (by positivity))
  rw [log2_mul_two_pow positive]
  omega

theorem normalize_eq (m e : ℤ) (z : Sign) :
    Canonical (UnpackedFloat.normalize .binary64 m e z) ∧
      value (UnpackedFloat.normalize .binary64 m e z) = nearest (m * 2 ^ e) := by
  unfold UnpackedFloat.normalize
  split
  case h_1 below =>
    have negative : m < 0 := Int.compare_eq_lt.mp below
    obtain ⟨canonical, h⟩ := round_eq .negative (m := (-m).toNat) (by omega) e
    have cast : (((-m).toNat : ℕ) : ℚ) = -m := by
      have : ((-m).toNat : ℤ) = -m := by omega
      exact_mod_cast this
    refine ⟨canonical, h.trans ?_⟩
    rw [cast, neg_mul, nearest_neg]
    simp [factor]
  case h_2 same =>
    obtain rfl : m = 0 := Int.compare_eq_eq.mp same
    refine ⟨trivial, ?_⟩
    rw [Int.cast_zero, zero_mul, nearest_zero]
    rfl
  case h_3 above =>
    have positive : 0 < m := Int.compare_eq_gt.mp above
    obtain ⟨canonical, h⟩ := round_eq .positive (m := m.toNat) (by omega) e
    have cast : ((m.toNat : ℕ) : ℚ) = m := by
      have : (m.toNat : ℤ) = m := by omega
      exact_mod_cast this
    refine ⟨canonical, h.trans ?_⟩
    rw [cast, factor, one_mul]

/-! ## Operations -/

section

variable {u v : UnpackedFloat}

theorem factor_mul (s t : Sign) : factor (s * t) = factor s * factor t := by
  cases s <;> cases t <;> decide +kernel

theorem factor_neg (s : Sign) : factor (-s) = -factor s := by
  cases s <;> decide +kernel

theorem apply_eq (s : Sign) (n : ℤ) : ((s.apply n : ℤ) : ℚ) = factor s * n := by
  cases s <;> simp [Sign.apply, factor]

/-- The mantissa at a lower power of two. -/
theorem decreaseExponent_eq (m : ℕ) {e f : ℤ} (h : f ≤ e) :
    ((decreaseExponent m e f).1 : ℚ) * 2 ^ f = m * 2 ^ e := by
  obtain ⟨j, rfl⟩ : ∃ j : ℕ, e = f + j := ⟨(e - f).toNat, by omega⟩
  have amount : (f + j - f).toNat = j := by omega
  simp only [decreaseExponent, amount, Nat.shiftLeft_eq]
  rw [zpow_add₀ two_ne_zero, zpow_natCast]
  push_cast
  ring

theorem add_eq (hu : Canonical u) (hv : Canonical v) :
    Canonical (UnpackedFloat.add .binary64 u v) ∧
      value (UnpackedFloat.add .binary64 u v) = nearest (value u + value v) := by
  cases u with
  | infinity s => exact hu.elim
  | notANumber => exact hu.elim
  | zero s =>
    cases v with
    | infinity t => exact hv.elim
    | notANumber => exact hv.elim
    | zero t =>
      rw [value_zero, value_zero, zero_add, nearest_zero]
      cases s <;> cases t <;> exact ⟨trivial, rfl⟩
    | finite t n f positive =>
      rw [value_zero, zero_add, nearest_value hv]
      exact ⟨hv, rfl⟩
  | finite s m e positive =>
    cases v with
    | infinity t => exact hv.elim
    | notANumber => exact hv.elim
    | zero t =>
      rw [value_zero, add_zero, nearest_value hu]
      exact ⟨hu, rfl⟩
    | finite t n f positive' =>
      have opened := normalize_eq (s.apply (decreaseExponent m e (min e f)).1 +
        t.apply (decreaseExponent n f (min e f)).1) (min e f) .positive
      refine ⟨opened.1, opened.2.trans ?_⟩
      rw [Int.cast_add, apply_eq, apply_eq, add_mul, mul_assoc, mul_assoc, Int.cast_natCast,
        Int.cast_natCast, decreaseExponent_eq m (min_le_left e f), decreaseExponent_eq n (min_le_right e f)]
      rfl

theorem canonical_neg (hu : Canonical u) : Canonical u.neg := by
  cases u <;> exact hu

theorem value_neg (u : UnpackedFloat) : value u.neg = -value u := by
  cases u with
  | finite s m e positive =>
    show factor (-s) * _ = -(factor s * _)
    rw [factor_neg, neg_mul]
  | _ => exact neg_zero.symm

theorem apply_neg (s : Sign) (n : ℤ) : (-s).apply n = -s.apply n := by
  cases s with
  | negative => exact (Int.neg_neg n).symm
  | positive => rfl

/-- A difference is a sum with the sign turned. -/
theorem sub_eq_add (u v : UnpackedFloat) :
    UnpackedFloat.sub .binary64 u v = UnpackedFloat.add .binary64 u v.neg := by
  cases u <;> cases v <;> try rfl
  case finite.finite s m e _ t n f _ =>
    have turned : s.apply (decreaseExponent m e (min e f)).1 - t.apply (decreaseExponent n f (min e f)).1 =
        s.apply (decreaseExponent m e (min e f)).1 + (-t).apply (decreaseExponent n f (min e f)).1 := by
      rw [apply_neg, Int.sub_eq_add_neg]
    exact congrArg (fun z => UnpackedFloat.normalize .binary64 z (min e f) .positive) turned

theorem sub_eq (hu : Canonical u) (hv : Canonical v) :
    Canonical (UnpackedFloat.sub .binary64 u v) ∧
      value (UnpackedFloat.sub .binary64 u v) = nearest (value u - value v) := by
  rw [sub_eq_add, sub_eq_add_neg, ← value_neg]
  exact add_eq hu (canonical_neg hv)

theorem mul_eq (hu : Canonical u) (hv : Canonical v) :
    Canonical (UnpackedFloat.mul .binary64 u v) ∧
      value (UnpackedFloat.mul .binary64 u v) = nearest (value u * value v) := by
  cases u with
  | infinity s => exact hu.elim
  | notANumber => exact hu.elim
  | zero s =>
    rw [value_zero, zero_mul, nearest_zero]
    cases v with
    | infinity t => exact hv.elim
    | notANumber => exact hv.elim
    | _ => exact ⟨trivial, rfl⟩
  | finite s m e positive =>
    cases v with
    | infinity t => exact hv.elim
    | notANumber => exact hv.elim
    | zero t =>
      rw [value_zero, mul_zero, nearest_zero]
      exact ⟨trivial, rfl⟩
    | finite t n f positive' =>
      obtain ⟨-, least, full⟩ := hu
      obtain ⟨-, least', full'⟩ := hv
      have some := Nat.mul_pos positive positive'
      have long : 2 ^ 52 ≤ m ∨ 2 ^ 52 ≤ n → 52 ≤ (m * n).log2 := by
        rw [Nat.le_log2 some.ne']
        rintro (h | h)
        · exact h.trans (Nat.le_mul_of_pos_right m positive')
        · exact h.trans (Nat.le_mul_of_pos_left n positive)
      have opened := roundWithAccuracy_eq (s * t) (e := e + f) (a := .exact)
        (holds_exact (m * n)) (by omega) (.inl some.ne')
      refine ⟨opened.1, opened.2.trans ?_⟩
      rw [← nearest_factor, factor_mul, value_finite, value_finite, zpow_add₀ two_ne_zero]
      congr 1
      push_cast
      ring

theorem div_eq (hu : Canonical u) (hv : Canonical v) (nonzero : value v ≠ 0) :
    Canonical (UnpackedFloat.div .binary64 u v) ∧
      value (UnpackedFloat.div .binary64 u v) = nearest (value u / value v) := by
  cases v with
  | infinity s => exact hv.elim
  | notANumber => exact hv.elim
  | zero s => exact absurd rfl nonzero
  | finite t n f positive' =>
    cases u with
    | infinity t => exact hu.elim
    | notANumber => exact hu.elim
    | zero s =>
      rw [value_zero, zero_div, nearest_zero]
      exact ⟨trivial, rfl⟩
    | finite s m e positive =>
      obtain ⟨place, target⟩ : ∃ place : ℤ, place = min (e - f)
        (max ((m.log2 + 1 + e) - (n.log2 + 1 + f) - 53) (-1074)) := ⟨_, rfl⟩
      obtain ⟨j, hj⟩ : ∃ j : ℕ, e - f - place = j := ⟨(e - f - place).toNat, by omega⟩
      have core : divCore .binary64 m e n f =
          (m * 2 ^ j / n, place, accuracyOfFraction (m * 2 ^ j % n) n) := by
        have amount : (e - f - place).toNat = j := by omega
        have same : min (e - f) (Format.binary64.targetExponent (totalExponent m e - totalExponent n f)) =
            place := by rw [target, target_eq, totalExponent, totalExponent]
        simp only [divCore, same, amount, Nat.shiftLeft_eq]
      -- The mantissa is shifted so far that the quotient has 53 bits.
      have long : -1074 < place → 52 ≤ (m * 2 ^ j / n).log2 := by
        intro above
        have bits : 52 + (n.log2 + 1) ≤ m.log2 + j := by omega
        have enough : 2 ^ 52 * n ≤ m * 2 ^ j := by
          calc 2 ^ 52 * n ≤ 2 ^ 52 * 2 ^ (n.log2 + 1) := Nat.mul_le_mul_left _ Nat.lt_log2_self.le
            _ = 2 ^ (52 + (n.log2 + 1)) := (Nat.pow_add ..).symm
            _ ≤ 2 ^ (m.log2 + j) := Nat.pow_le_pow_right two_pos bits
            _ = 2 ^ m.log2 * 2 ^ j := Nat.pow_add ..
            _ ≤ m * 2 ^ j := Nat.mul_le_mul_right _ (Nat.log2_self_le positive.ne')
        have quotient : 2 ^ 52 ≤ m * 2 ^ j / n := (Nat.le_div_iff_mul_le positive').mpr enough
        exact (Nat.le_log2 (Nat.pos_of_ne_zero (by omega)).ne').mpr quotient
      have some : m * 2 ^ j / n ≠ 0 ∨ place ≤ -1074 := by
        rcases le_or_gt place (-1074) with low | above
        · exact .inr low
        · refine .inl fun none => ?_
          have := long above
          rw [none, Nat.log2_zero] at this
          omega
      have opened := roundWithAccuracy_eq (s / t) (e := place) (holds_div (n := m * 2 ^ j) positive')
        (by omega) some
      have unfolded : UnpackedFloat.div .binary64 (.finite s m e positive) (.finite t n f positive') =
          roundWithAccuracy .binary64 (s / t) (m * 2 ^ j / n) place
            (accuracyOfFraction (m * 2 ^ j % n) n) := by
        simp only [UnpackedFloat.div, core]
      rw [unfolded]
      refine ⟨opened.1, opened.2.trans ?_⟩
      have sign : factor (s / t) = factor s / factor t := by
        cases s <;> cases t <;> decide +kernel
      have back : e = place + j + f := by omega
      rw [← nearest_factor, sign, value_finite, value_finite, back, zpow_add₀ two_ne_zero,
        zpow_add₀ two_ne_zero, zpow_natCast]
      have := place_pos f
      congr 1
      push_cast
      field_simp

theorem value_pos {m : ℕ} {e : ℤ} (positive : 0 < m) : 0 < value (.finite .positive m e positive) := by
  rw [value_finite, factor, one_mul]
  exact mul_pos (by exact_mod_cast positive) (place_pos e)

theorem value_negative (m : ℕ) (e : ℤ) (positive : 0 < m) :
    value (.finite .negative m e positive) = -value (.finite .positive m e positive) := by
  rw [value_finite, value_finite, factor, factor, one_mul, neg_one_mul]

/-- Of two finite doubles the one with the higher last place is greater, and of two with the same
last place the one with the greater mantissa. -/
theorem compare_positive {m n : ℕ} {e f : ℤ} {hm : 0 < m} {hn : 0 < n}
    (hu : Canonical (.finite .positive m e hm)) (hv : Canonical (.finite .positive n f hn)) :
    (compare e f).then (compare m n) =
      compare (value (.finite .positive m e hm)) (value (.finite .positive n f hn)) := by
  have higher : ∀ {m n : ℕ} {e f : ℤ} {hm : 0 < m} {hn : 0 < n},
      Canonical (.finite .positive m e hm) → Canonical (.finite .positive n f hn) → e < f →
      value (.finite .positive m e hm) < value (.finite .positive n f hn) := by
    intro m n e f hm hn hu hv above
    have short : (m : ℚ) < 2 ^ 53 := by exact_mod_cast hu.1
    have full : (2 : ℚ) ^ 52 ≤ n := by exact_mod_cast hv.2.2.resolve_right (by have := hu.2.1; omega)
    rw [value_finite, value_finite, factor, one_mul, one_mul]
    calc (m : ℚ) * 2 ^ e < 2 ^ 53 * 2 ^ e := mul_lt_mul_of_pos_right short (place_pos e)
      _ = 2 ^ 52 * 2 ^ (e + 1) := by rw [zpow_add_one₀ two_ne_zero]; ring
      _ ≤ 2 ^ 52 * 2 ^ f :=
        mul_le_mul_of_nonneg_left (zpow_le_zpow_right₀ one_le_two above) (by positivity)
      _ ≤ n * 2 ^ f := mul_le_mul_of_nonneg_right full (place_pos f).le
  rcases lt_trichotomy e f with less | rfl | greater
  · rw [compare_lt_iff_lt.mpr less, compare_lt_iff_lt.mpr (higher hu hv less)]
    rfl
  · rw [compare_eq_iff_eq.mpr rfl, Ordering.then, value_finite, value_finite, factor, one_mul, one_mul]
    rcases lt_trichotomy m n with less | rfl | greater
    · rw [compare_lt_iff_lt.mpr less, compare_lt_iff_lt.mpr]
      exact mul_lt_mul_of_pos_right (by exact_mod_cast less) (place_pos e)
    · rw [compare_eq_iff_eq.mpr rfl, compare_eq_iff_eq.mpr rfl]
    · rw [compare_gt_iff_gt.mpr greater, compare_gt_iff_gt.mpr]
      exact mul_lt_mul_of_pos_right (by exact_mod_cast greater) (place_pos e)
  · rw [compare_gt_iff_gt.mpr greater, compare_gt_iff_gt.mpr (higher hv hu greater)]
    rfl

theorem compare_neg_neg (p q : ℚ) : compare (-p) (-q) = (compare p q).swap := by
  rcases lt_trichotomy p q with less | rfl | greater
  · rw [compare_lt_iff_lt.mpr less, compare_gt_iff_gt.mpr (neg_lt_neg less)]
    rfl
  · rw [compare_eq_iff_eq.mpr rfl, compare_eq_iff_eq.mpr rfl]
    rfl
  · rw [compare_gt_iff_gt.mpr greater, compare_lt_iff_lt.mpr (neg_lt_neg greater)]
    rfl

/-- Finite doubles are in the order of the numbers that they stand for. -/
theorem compare_eq (hu : Canonical u) (hv : Canonical v) :
    u.compare v = some (compare (value u) (value v)) := by
  cases u with
  | infinity s => exact hu.elim
  | notANumber => exact hu.elim
  | zero s =>
    cases v with
    | infinity t => exact hv.elim
    | notANumber => exact hv.elim
    | zero t => rw [value_zero, value_zero, compare_eq_iff_eq.mpr rfl]; rfl
    | finite t n f hn =>
      cases t with
      | positive => rw [value_zero, compare_lt_iff_lt.mpr (value_pos hn)]; rfl
      | negative =>
        rw [value_zero, value_negative, compare_gt_iff_gt.mpr (neg_neg_of_pos (value_pos hn))]; rfl
  | finite s m e hm =>
    cases v with
    | infinity t => exact hv.elim
    | notANumber => exact hv.elim
    | zero t =>
      cases s with
      | positive => rw [value_zero, compare_gt_iff_gt.mpr (value_pos hm)]; rfl
      | negative =>
        rw [value_zero, value_negative, compare_lt_iff_lt.mpr (neg_neg_of_pos (value_pos hm))]; rfl
    | finite t n f hn =>
      cases s with
      | positive =>
        cases t with
        | positive => exact congrArg some (compare_positive hu hv)
        | negative =>
          rw [value_negative, compare_gt_iff_gt.mpr
            ((neg_neg_of_pos (value_pos hn)).trans (value_pos hm))]
          rfl
      | negative =>
        cases t with
        | positive =>
          rw [value_negative, compare_lt_iff_lt.mpr
            ((neg_neg_of_pos (value_pos hm)).trans (value_pos hn))]
          rfl
        | negative =>
          rw [value_negative, value_negative, compare_neg_neg, ← @compare_positive _ _ _ _ hm hn hu hv]
          rfl

/-! ## Words -/

/-- The values of the bits of a word. -/
theorem unpackMantissa_toNat (b : BitVec 64) :
    (@unpackMantissa .binary64 b).toNat = b.toNat % 2 ^ 52 := by
  simp [unpackMantissa]

theorem unpackExponent_toNat (b : BitVec 64) :
    (@unpackExponent .binary64 b).toNat = b.toNat / 2 ^ 52 % 2048 := by
  simp [unpackExponent, Nat.shiftRight_eq_div_pow]

theorem unpackSign_toNat (b : BitVec 64) :
    (@unpackSign .binary64 b).toNat = b.toNat / 2 ^ 63 := by
  have := b.isLt
  simp [unpackSign, Nat.shiftRight_eq_div_pow]
  omega

/-- A word taken apart, in numbers. -/
theorem unpack_word (b : BitVec 64) :
    UnpackedFloat.unpack .binary64 b =
      if b.toNat / 2 ^ 52 % 2048 = 2047 then
        if b.toNat % 2 ^ 52 = 0 then .infinity (.ofBitVec (@unpackSign .binary64 b)) else .notANumber
      else if b.toNat / 2 ^ 52 % 2048 = 0 then
        if h : b.toNat % 2 ^ 52 = 0 then .zero (.ofBitVec (@unpackSign .binary64 b))
        else .finite (.ofBitVec (@unpackSign .binary64 b)) (b.toNat % 2 ^ 52) (-1074)
          (Nat.pos_of_ne_zero h)
      else .finite (.ofBitVec (@unpackSign .binary64 b)) (b.toNat % 2 ^ 52 + 2 ^ 52)
        ((b.toNat / 2 ^ 52 % 2048 : ℕ) - 1075) (Nat.add_pos_right _ (by decide)) := by
  have mantissa := unpackMantissa_toNat b
  have exponent := unpackExponent_toNat b
  have none : @unpackMantissa .binary64 b = 0#52 ↔ b.toNat % 2 ^ 52 = 0 := by
    rw [← BitVec.toNat_inj, mantissa]
    rfl
  have top : @unpackExponent .binary64 b = -1#11 ↔ b.toNat / 2 ^ 52 % 2048 = 2047 := by
    rw [← BitVec.toNat_inj, exponent]
    rfl
  have bottom : @unpackExponent .binary64 b = 0#11 ↔ b.toNat / 2 ^ 52 % 2048 = 0 := by
    rw [← BitVec.toNat_inj, exponent]
    rfl
  have whole : (1#1 ++ @unpackMantissa .binary64 b).toNat = b.toNat % 2 ^ 52 + 2 ^ 52 := by
    rw [BitVec.toNat_append, ← Nat.shiftLeft_add_eq_or_of_lt (BitVec.isLt _), mantissa, Nat.add_comm]
    rfl
  have bias : (Format.binary64.exponentBias : ℤ) + (Format.binary64.mantissaBitsWithoutImplicit : ℤ) = 1075 :=
    rfl
  unfold UnpackedFloat.unpack
  simp only [none, top, bottom, mantissa, exponent, whole, bias]
  split
  · rfl
  · split
    case isTrue h => simp only [h]; rfl
    case isFalse h => rfl

/-- A word that is finite is canonical when it is taken apart. -/
theorem canonical_of_word (b : BitVec 64) (finite : b.toNat / 2 ^ 52 % 2048 ≠ 2047) :
    Canonical (UnpackedFloat.unpack .binary64 b) := by
  rw [unpack_word, if_neg finite]
  split
  · split
    · trivial
    · exact ⟨by omega, le_rfl, .inr rfl⟩
  · exact ⟨by omega, by omega, .inl (by omega)⟩

theorem abs_value_finite (s : Sign) (m : ℕ) (e : ℤ) (positive : 0 < m) :
    |value (.finite s m e positive)| = m * 2 ^ e := by
  have := value_pos (e := e) positive
  rw [value_finite, factor, one_mul] at this
  cases s with
  | positive => rw [value_finite, factor, one_mul, abs_of_pos this]
  | negative => rw [value_finite, factor, neg_one_mul, abs_neg, abs_of_pos this]

/-- There is a greatest double. -/
theorem abs_value_lt (b : BitVec 64) : |value (UnpackedFloat.unpack .binary64 b)| < 2 ^ (1024 : ℤ) := by
  have bound : ∀ (s : Sign) (m : ℕ) (e : ℤ) (positive : 0 < m), m < 2 ^ 53 → e ≤ 971 →
      |value (.finite s m e positive)| < 2 ^ (1024 : ℤ) := by
    intro s m e positive short greatest
    rw [abs_value_finite, show (1024 : ℤ) = 53 + 971 by decide, zpow_add₀ two_ne_zero]
    calc (m : ℚ) * 2 ^ e < 2 ^ 53 * 2 ^ e :=
          mul_lt_mul_of_pos_right (by exact_mod_cast short) (place_pos e)
      _ ≤ 2 ^ 53 * 2 ^ (971 : ℤ) :=
          mul_le_mul_of_nonneg_left (zpow_le_zpow_right₀ one_le_two greatest) (by positivity)
  have zero : |(0 : ℚ)| < 2 ^ (1024 : ℤ) := by rw [abs_zero]; exact place_pos _
  rw [unpack_word]
  split
  · split <;> exact zero
  · split
    · split
      · exact zero
      · exact bound _ _ _ _ (by omega) (by decide)
    · exact bound _ _ _ _ (by omega) (by omega)

theorem unpack_subnormal (s : Sign) {m : ℕ} (positive : 0 < m) (short : m < 2 ^ 52) :
    UnpackedFloat.unpack .binary64 (UnpackedFloat.pack .binary64 (.finite s m (-1074) positive)) =
      .finite s m (-1074) positive := by
  have packed : UnpackedFloat.pack .binary64 (.finite s m (-1074) positive) =
      packComponents .binary64 s 0#11 (BitVec.ofNat 52 m) := by
    have biased : ((-1074 : ℤ) + (Format.binary64.exponentBias : ℤ) +
      (Format.binary64.mantissaBitsWithoutImplicit : ℤ)).toNat = 1 := by decide
    have log : m.log2 < 52 := (Nat.log2_lt positive.ne').mpr short
    simp only [UnpackedFloat.pack, biased]
    rw [if_neg (by decide), if_neg (by show ¬ m.log2 + 1 = 53; omega)]
  have mantissa : (BitVec.ofNat 52 m).toNat = m := by
    rw [BitVec.toNat_ofNat]
    exact Nat.mod_eq_of_lt short
  have some : BitVec.ofNat 52 m ≠ 0#52 := fun none => by
    have := congrArg BitVec.toNat none
    rw [mantissa] at this
    exact positive.ne' this
  rw [packed]
  unfold UnpackedFloat.unpack
  simp only [unpackMantissa_packComponents, unpackExponent_packComponents, unpackSign_packComponents,
    Sign.ofBitVec_toBitVec]
  rw [if_neg (by decide), if_pos trivial, dif_neg some]
  simp only [mantissa]
  rfl

/-- A finite double within range that is put together and taken apart is the same. -/
theorem unpack_pack_canonical (h : Canonical u) (range : |value u| < 2 ^ (1024 : ℤ)) :
    UnpackedFloat.unpack .binary64 (UnpackedFloat.pack .binary64 u) = u := by
  cases u with
  | infinity s => exact h.elim
  | notANumber => exact h.elim
  | zero s => cases s <;> rfl
  | finite s m e positive =>
    obtain ⟨short, least, full⟩ := h
    rcases Nat.lt_or_ge m (2 ^ 52) with below | long
    · obtain rfl : e = -1074 := full.resolve_left (by omega)
      exact unpack_subnormal s positive below
    · have greatest : e ≤ 971 := by
        have size := abs_value_finite s m e positive
        have low : (2 : ℚ) ^ (52 + e) ≤ m * 2 ^ e := by
          rw [zpow_add₀ two_ne_zero]
          exact mul_le_mul_of_nonneg_right (by exact_mod_cast long) (place_pos e).le
        have := (zpow_lt_zpow_iff_right₀ one_lt_two).mp (low.trans_lt (size ▸ range))
        omega
      exact unpack_pack s ⟨long, short, least, greatest⟩

/-- Beyond the range a double is put together as an infinity. -/
theorem unpack_pack_beyond {s : Sign} {m : ℕ} {e : ℤ} {positive : 0 < m}
    (h : Canonical (.finite s m e positive)) (beyond : 2 ^ (1024 : ℤ) ≤ |value (.finite s m e positive)|) :
    UnpackedFloat.unpack .binary64 (UnpackedFloat.pack .binary64 (.finite s m e positive)) =
      .infinity s := by
  have high : 971 < e := by
    rw [abs_value_finite] at beyond
    have above : (2 : ℚ) ^ (1024 : ℤ) < 2 ^ (53 + e) := by
      rw [zpow_add₀ two_ne_zero]
      exact beyond.trans_lt (mul_lt_mul_of_pos_right (by exact_mod_cast h.1) (place_pos e))
    have := (zpow_lt_zpow_iff_right₀ one_lt_two).mp above
    omega
  have packed : UnpackedFloat.pack .binary64 (.finite s m e positive) = packedInfinity .binary64 s := by
    simp only [UnpackedFloat.pack]
    refine if_pos ?_
    show 2 ^ 11 ≤ (e + 1023 + 52).toNat + 1
    omega
  rw [packed]
  cases s <;> rfl

end

end Wireframe.Double
