import Mathlib

/-
  Wireframe.Proofs.Value.Rounding — the doubles nearest to exact numbers.

  A calculation with doubles comes to the double nearest to its exact result. The nearest double
  has 53 bits from the leading bit of the number on, and none below `2 ^ -1074`; of two that are
  equally near, the one with an even last bit is taken. Here this is a function on exact numbers.
  Everything else that is said about calculations follows from four facts about it: it keeps the
  order, it keeps what is a double, it is the same on both sides of zero, and it is off by half a
  last place at most.

  Proved:
  - `halfEven_mono`, `nearest_mono`: rounding keeps the order.
  - `nearest_of_bits`: a number with 53 bits in range is its own nearest double.
  - `abs_nearest_sub_le`: how far rounding is off.
-/

namespace Wireframe.Double

/-! ## Whole numbers -/

/-- The nearest whole number, a half at the even neighbour. -/
def halfEven (t : ℚ) : ℤ :=
  if Int.fract t < 1 / 2 ∨ Int.fract t = 1 / 2 ∧ Even ⌊t⌋ then ⌊t⌋ else ⌊t⌋ + 1

theorem halfEven_eq_floor_or (t : ℚ) : halfEven t = ⌊t⌋ ∨ halfEven t = ⌊t⌋ + 1 := by
  unfold halfEven
  split
  · exact .inl rfl
  · exact .inr rfl

theorem abs_halfEven_sub_le (t : ℚ) : |(halfEven t : ℚ) - t| ≤ 1 / 2 := by
  have parts := Int.floor_add_fract t
  have low := Int.fract_nonneg t
  have high := Int.fract_lt_one t
  unfold halfEven
  rw [abs_le]
  split
  case isTrue below =>
    have : Int.fract t ≤ 1 / 2 := below.elim le_of_lt fun h => h.1.le
    constructor <;> linarith
  case isFalse above =>
    have : 1 / 2 ≤ Int.fract t := not_lt.mp fun h => above (.inl h)
    push_cast
    constructor <;> linarith

@[simp] theorem halfEven_intCast (n : ℤ) : halfEven n = n := by
  simp [halfEven]

/-- Rounding to whole numbers keeps the order. -/
theorem halfEven_mono {s t : ℚ} (h : s ≤ t) : halfEven s ≤ halfEven t := by
  rcases (Int.floor_le_floor h).lt_or_eq with less | same
  · rcases halfEven_eq_floor_or s with e | e <;> rcases halfEven_eq_floor_or t with e' | e' <;> omega
  · have fract : Int.fract s ≤ Int.fract t := by
      rw [Int.fract, Int.fract, same]
      linarith
    unfold halfEven
    rw [same]
    split
    · split <;> omega
    · rename_i up
      rw [if_neg]
      rintro (below | ⟨tie, even⟩)
      · exact up (.inl (fract.trans_lt below))
      · rcases fract.lt_or_eq with less | e
        · exact up (.inl (tie ▸ less))
        · exact up (.inr ⟨e.trans tie, even⟩)

theorem halfEven_neg (t : ℚ) : halfEven (-t) = -halfEven t := by
  rcases eq_or_ne (Int.fract t) 0 with whole | between
  · obtain ⟨n, rfl⟩ : ∃ n : ℤ, (n : ℚ) = t := ⟨⌊t⌋, by
      have := Int.floor_add_fract t
      rw [whole] at this
      linarith⟩
    rw [← Int.cast_neg, halfEven_intCast, halfEven_intCast]
  · have parts := Int.floor_add_fract t
    have low := lt_of_le_of_ne (Int.fract_nonneg t) between.symm
    have high := Int.fract_lt_one t
    have floor : ⌊-t⌋ = -⌊t⌋ - 1 := by
      rw [Int.floor_eq_iff]
      push_cast
      constructor <;> linarith
    have fract : Int.fract (-t) = 1 - Int.fract t := Int.fract_neg between
    have even : Even (-⌊t⌋ - 1) ↔ ¬ Even ⌊t⌋ := by
      rw [show -⌊t⌋ - 1 = -(⌊t⌋ + 1) by ring, even_neg, Int.even_add_one]
    unfold halfEven
    simp only [floor, fract, even]
    rcases lt_trichotomy (Int.fract t) (1 / 2) with below | tie | above
    · rw [if_neg, if_pos (.inl below)]
      · ring
      · rintro (h | ⟨h, -⟩) <;> linarith
    · rw [tie]
      by_cases e : Even ⌊t⌋
      · rw [if_neg, if_pos (.inr ⟨rfl, e⟩)]
        · ring
        · rintro (h | ⟨-, h⟩)
          · norm_num at h
          · exact h e
      · rw [if_pos (.inr ⟨by norm_num, e⟩), if_neg]
        · ring
        · rintro (h | ⟨-, h⟩)
          · exact lt_irrefl _ h
          · exact e h
    · rw [if_pos (.inl (by linarith)), if_neg]
      · ring
      · rintro (h | ⟨h, -⟩) <;> linarith

/-! ## Quotients of whole numbers -/

section

variable {n d : ℕ}

theorem floor_quotient (n d : ℕ) : ⌊(n / d : ℚ)⌋ = (n / d : ℕ) := by
  rw [Rat.floor_natCast_div_natCast]
  rfl

theorem fract_quotient_lt_half (positive : 0 < d) : Int.fract (n / d : ℚ) < 1 / 2 ↔ 2 * (n % d) < d := by
  have dpos : (0 : ℚ) < d := by exact_mod_cast positive
  rw [Int.fract_div_natCast_eq_div_natCast_mod, div_lt_div_iff₀ dpos two_pos, one_mul, mul_comm]
  exact_mod_cast Iff.rfl

theorem fract_quotient_eq_half (positive : 0 < d) : Int.fract (n / d : ℚ) = 1 / 2 ↔ 2 * (n % d) = d := by
  have dpos : (d : ℚ) ≠ 0 := Nat.cast_ne_zero.mpr positive.ne'
  rw [Int.fract_div_natCast_eq_div_natCast_mod, div_eq_div_iff dpos two_ne_zero, one_mul, mul_comm]
  exact_mod_cast Iff.rfl

end

/-! ## Doubles -/

/-- The power of two of the last bit that the doubles around a number have. -/
def lastPlace (q : ℚ) : ℤ := max (Int.log 2 |q| - 52) (-1074)

/-- The nearest number with 53 bits, none of them below `2 ^ -1074`. -/
def nearest (q : ℚ) : ℚ := halfEven (q / 2 ^ lastPlace q) * 2 ^ lastPlace q

theorem place_pos (k : ℤ) : (0 : ℚ) < 2 ^ k := zpow_pos two_pos k

theorem lastPlace_neg (q : ℚ) : lastPlace (-q) = lastPlace q := by rw [lastPlace, abs_neg, lastPlace]

theorem nearest_neg (q : ℚ) : nearest (-q) = -nearest q := by
  rw [nearest, lastPlace_neg, neg_div, halfEven_neg, nearest]
  push_cast
  ring

theorem least_le_lastPlace (q : ℚ) : -1074 ≤ lastPlace q := le_max_right _ _

/-- A number has no more than 53 bits above its last place. -/
theorem abs_lt_lastPlace (q : ℚ) : |q| < 2 ^ (lastPlace q + 53) := by
  have above : |q| < 2 ^ (Int.log 2 |q| + 1) := Int.lt_zpow_succ_log_self one_lt_two |q|
  refine above.trans_le (zpow_le_zpow_right₀ one_le_two ?_)
  have := le_max_left (Int.log 2 |q| - 52) (-1074)
  unfold lastPlace
  omega

/-- Above the smallest doubles it has all of them. -/
theorem lastPlace_le_abs {q : ℚ} (nonzero : q ≠ 0) (h : -1074 < lastPlace q) :
    2 ^ (lastPlace q + 52) ≤ |q| := by
  have : lastPlace q = Int.log 2 |q| - 52 := by unfold lastPlace at h ⊢; omega
  rw [this, sub_add_cancel]
  exact Int.zpow_log_le_self one_lt_two (abs_pos.mpr nonzero)

/-- The last place of a number whose leading bit is known. -/
theorem lastPlace_eq {q : ℚ} {k : ℤ} (low : 2 ^ k ≤ |q|) (high : |q| < 2 ^ (k + 1)) :
    lastPlace q = max (k - 52) (-1074) := by
  have positive : 0 < |q| := (place_pos k).trans_le low
  have : Int.log 2 |q| = k := by
    refine le_antisymm ?_ ((Int.zpow_le_iff_le_log one_lt_two positive).mp low)
    have := (Int.lt_zpow_iff_log_lt one_lt_two positive).mp high
    omega
  rw [lastPlace, this]

theorem lastPlace_mono {p q : ℚ} (nonzero : p ≠ 0) (h : |p| ≤ |q|) : lastPlace p ≤ lastPlace q :=
  max_le_max (sub_le_sub_right (Int.log_mono_right (abs_pos.mpr nonzero) h) _) le_rfl

theorem lastPlace_le {q : ℚ} {k : ℤ} (nonzero : q ≠ 0) (h : |q| < 2 ^ k) :
    lastPlace q ≤ max (k - 53) (-1074) := by
  have : Int.log 2 |q| < k := (Int.lt_zpow_iff_log_lt one_lt_two (abs_pos.mpr nonzero)).mp h
  unfold lastPlace
  omega

/-- Rounding is off by half a last place at most. -/
theorem abs_nearest_sub_le (q : ℚ) : |nearest q - q| ≤ 2 ^ lastPlace q / 2 := by
  have positive := place_pos (lastPlace q)
  have split : nearest q - q =
      (halfEven (q / 2 ^ lastPlace q) - q / 2 ^ lastPlace q) * 2 ^ lastPlace q := by
    rw [nearest, sub_mul, div_mul_cancel₀ _ positive.ne']
  rw [split, abs_mul, abs_of_pos positive]
  calc |_| * (2 : ℚ) ^ lastPlace q ≤ 1 / 2 * 2 ^ lastPlace q :=
        mul_le_mul_of_nonneg_right (abs_halfEven_sub_le _) positive.le
    _ = _ := by ring

@[simp] theorem nearest_zero : nearest 0 = 0 := by
  have := halfEven_intCast 0
  rw [Int.cast_zero] at this
  rw [nearest, zero_div, this, Int.cast_zero, zero_mul]

/-- What has all its bits above its last place is rounded to itself. -/
theorem nearest_of_multiple {m e : ℤ} (h : lastPlace (m * 2 ^ e) ≤ e) :
    nearest (m * 2 ^ e) = m * 2 ^ e := by
  obtain ⟨k, hk⟩ := Int.eq_ofNat_of_zero_le (sub_nonneg.mpr h)
  have whole : (m * 2 ^ e : ℚ) / 2 ^ lastPlace (m * 2 ^ e) = (m * 2 ^ k : ℤ) := by
    rw [mul_div_assoc, ← zpow_sub₀ two_ne_zero, hk]
    push_cast
    rw [zpow_natCast]
  rw [nearest, whole, halfEven_intCast, ← whole, div_mul_cancel₀ _ (place_pos _).ne']

/-- A number with 53 bits in range is its own nearest double. -/
theorem nearest_of_bits {m e : ℤ} (bits : |m| ≤ 2 ^ 53) (least : -1074 ≤ e) :
    nearest (m * 2 ^ e) = m * 2 ^ e := by
  rcases eq_or_ne m 0 with rfl | nonzero
  · rw [Int.cast_zero, zero_mul, nearest_zero]
  rcases bits.lt_or_eq with short | long
  · have small : |(m * 2 ^ e : ℚ)| < 2 ^ (53 + e) := by
      rw [abs_mul, abs_of_pos (place_pos e), zpow_add₀ two_ne_zero]
      refine mul_lt_mul_of_pos_right ?_ (place_pos e)
      exact_mod_cast short
    have := lastPlace_le (mul_ne_zero (Int.cast_ne_zero.mpr nonzero) (place_pos e).ne') small
    exact nearest_of_multiple (by omega)
  · -- The only number with 54 bits is a power of two.
    have power : |(m * 2 ^ e : ℚ)| = 2 ^ (53 + e) := by
      rw [abs_mul, abs_of_pos (place_pos e), zpow_add₀ two_ne_zero]
      congr 1
      exact_mod_cast long
    have place : lastPlace (m * 2 ^ e : ℚ) = max (53 + e - 52) (-1074) :=
      lastPlace_eq power.ge (power ▸ zpow_lt_zpow_right₀ one_lt_two (by omega))
    obtain ⟨half, hm⟩ : ∃ half : ℤ, m = 2 * half := by
      rcases abs_choice m with h | h
      · exact ⟨2 ^ 52, by rw [← h, long]; norm_num⟩
      · exact ⟨-2 ^ 52, by rw [h] at long; rw [← neg_neg m, long]; norm_num⟩
    have shifted : (m * 2 ^ e : ℚ) = half * 2 ^ (e + 1) := by
      rw [hm, zpow_add_one₀ two_ne_zero]
      push_cast
      ring
    rw [shifted] at place ⊢
    exact nearest_of_multiple (by omega)

theorem nearest_nonneg {q : ℚ} (h : 0 ≤ q) : 0 ≤ nearest q := by
  have : halfEven ((0 : ℤ) : ℚ) ≤ halfEven (q / 2 ^ lastPlace q) :=
    halfEven_mono (by rw [Int.cast_zero]; exact div_nonneg h (place_pos _).le)
  rw [halfEven_intCast] at this
  exact mul_nonneg (by exact_mod_cast this) (place_pos _).le

theorem nearest_mono_of_nonneg {p q : ℚ} (nonneg : 0 ≤ p) (h : p ≤ q) : nearest p ≤ nearest q := by
  rcases nonneg.eq_or_lt with rfl | positive
  · rw [nearest_zero]; exact nearest_nonneg h
  have nonzero := positive.ne'
  have places := lastPlace_mono nonzero (abs_le_abs_of_nonneg nonneg h)
  rcases places.lt_or_eq with less | same
  · -- Between the two last places there is a power of two that separates the numbers.
    have low : nearest p ≤ 2 ^ (lastPlace p + 53) := by
      have bits : halfEven (p / 2 ^ lastPlace p) ≤ halfEven ((2 ^ 53 : ℤ) : ℚ) := by
        refine halfEven_mono ?_
        rw [div_le_iff₀ (place_pos _)]
        have := (abs_lt_lastPlace p).le
        rw [abs_of_pos positive, add_comm, zpow_add₀ two_ne_zero] at this
        exact_mod_cast this
      rw [halfEven_intCast] at bits
      rw [nearest, add_comm, zpow_add₀ two_ne_zero]
      exact mul_le_mul_of_nonneg_right (by exact_mod_cast bits) (place_pos _).le
    have high : 2 ^ (lastPlace q + 52) ≤ nearest q := by
      have all := lastPlace_le_abs (positive.trans_le h).ne' ((least_le_lastPlace p).trans_lt less)
      have bits : halfEven ((2 ^ 52 : ℤ) : ℚ) ≤ halfEven (q / 2 ^ lastPlace q) := by
        refine halfEven_mono ?_
        rw [le_div_iff₀ (place_pos _)]
        rw [abs_of_pos (positive.trans_le h), add_comm, zpow_add₀ two_ne_zero] at all
        exact_mod_cast all
      rw [halfEven_intCast] at bits
      rw [nearest, add_comm, zpow_add₀ two_ne_zero]
      exact mul_le_mul_of_nonneg_right (by exact_mod_cast bits) (place_pos _).le
    calc nearest p ≤ 2 ^ (lastPlace p + 53) := low
      _ ≤ 2 ^ (lastPlace q + 52) := zpow_le_zpow_right₀ one_le_two (by omega)
      _ ≤ nearest q := high
  · rw [nearest, nearest, same]
    have : halfEven (p / 2 ^ lastPlace q) ≤ halfEven (q / 2 ^ lastPlace q) :=
      halfEven_mono (div_le_div_of_nonneg_right h (place_pos _).le)
    exact mul_le_mul_of_nonneg_right (by exact_mod_cast this) (place_pos _).le

/-- Rounding keeps the order. -/
theorem nearest_mono : Monotone nearest := by
  intro p q h
  rcases le_total 0 p with hp | hp
  · exact nearest_mono_of_nonneg hp h
  rcases le_total 0 q with hq | hq
  · calc nearest p = -nearest (-p) := by rw [nearest_neg, neg_neg]
      _ ≤ 0 := neg_nonpos.mpr (nearest_nonneg (neg_nonneg.mpr hp))
      _ ≤ nearest q := nearest_nonneg hq
  · have := nearest_mono_of_nonneg (neg_nonneg.mpr hq) (neg_le_neg h)
    rwa [nearest_neg, nearest_neg, neg_le_neg_iff] at this

@[simp] theorem nearest_intCast {n : ℤ} (h : |n| ≤ 2 ^ 53) : nearest n = n := by
  have := nearest_of_bits h (e := 0) (by decide)
  rwa [zpow_zero, mul_one] at this

theorem one_le_nearest {n : ℕ} (positive : 0 < n) : 1 ≤ nearest n := by
  have one := nearest_intCast (n := 1) (by decide)
  rw [Int.cast_one] at one
  exact one.symm.trans_le (nearest_mono (by exact_mod_cast positive))

/-- Below a power of two rounding is off by a part of it at most. -/
theorem abs_nearest_sub_lt {q : ℚ} {k : ℤ} (h : |q| < 2 ^ k) (least : -1021 ≤ k) :
    |nearest q - q| ≤ 2 ^ (k - 54) := by
  rcases eq_or_ne q 0 with rfl | nonzero
  · rw [nearest_zero, sub_zero, abs_zero]; exact (place_pos _).le
  have place := lastPlace_le nonzero h
  refine (abs_nearest_sub_le q).trans ?_
  rw [div_le_iff₀ two_pos, ← zpow_add_one₀ two_ne_zero]
  exact zpow_le_zpow_right₀ one_le_two (by omega)

end Wireframe.Double
