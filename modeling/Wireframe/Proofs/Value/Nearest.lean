import Wireframe.Proofs.Layout.Exact
import Wireframe.Proofs.Value.Unpacked

/-
  Wireframe.Proofs.Value.Nearest — what calculations with doubles come to, in exact numbers.

  A finite double stands for an exact number. As long as no result leaves the range of doubles, a
  calculation with finite doubles comes to the double nearest to what the same calculation comes to
  in exact numbers, and they compare as the exact numbers do.

  Proved:
  - `StandsFor.add`, `StandsFor.mul` and the others: each calculation is exact but for one rounding.
  - `StandsFor.le_iff`, `StandsFor.floor`: comparing and taking the whole part are exact.
  - `standsFor_ofInt`, `standsFor_decimal`: the double of a whole number or a decimal is the nearest.
  - `StandsFor.roundTo`: so is that of a number rounded to some decimal places.
  - `StandsFor.ceil_inRange`, `nearestTo_isSome`: the whole number above a double has a double again,
    and so has a quotient of whole numbers that are not too large.
-/

namespace Wireframe.Double

open Float.Model Float.Model.UnpackedFloat Decimal

/-! ## What a double stands for -/

/-- The double is finite, and this is the number that it stands for. -/
structure StandsFor (x : Float) (q : ℚ) : Prop where
  finite : Number.isFinite (.float x) = true
  exact : Exact.ofFloat x = q

theorem StandsFor.of_finite {x : Float} (h : Number.isFinite (.float x) = true) :
    StandsFor x (Exact.ofFloat x) := ⟨h, rfl⟩

/-- The fields of a double. -/
def fields : UnpackedFloat → Binary
  | .infinity s => .infinite (isNegative s)
  | .notANumber => .nan
  | .zero s => .finite (isNegative s) 0 (-1074)
  | .finite s m e _ => .finite (isNegative s) m e

theorem ofFloat_eq_fields (x : Float) : Binary.ofFloat x = fields x.toModel.unpack := by
  obtain ⟨b, hb⟩ : ∃ b : BitVec 64, b = x.toBits.toBitVec := ⟨_, rfl⟩
  have word : x.toBits.toNat = b.toNat := by rw [hb]; rfl
  have opened : x.toModel.unpack = UnpackedFloat.unpack .binary64 b := by rw [hb]; rfl
  have sign : (b.toNat / twoTo 63 == 1) = isNegative (.ofBitVec (@unpackSign .binary64 b)) := by
    show (b.toNat / 2 ^ 63 == 1) = _
    rw [← unpackSign_toNat]
    generalize @unpackSign .binary64 b = s
    revert s
    decide
  rw [opened, unpack_word]
  simp only [Binary.ofFloat, word, sign]
  show (if b.toNat / 2 ^ 52 % 2048 = 2047 then if b.toNat % 2 ^ 52 = 0 then _ else _
    else if b.toNat / 2 ^ 52 % 2048 = 0 then _ else _) = _
  split
  · split <;> rfl
  · split
    · split
      case isTrue none => exact congrArg (Binary.finite _ · _) none
      case isFalse => rfl
    · rfl

theorem isFinite_iff (x : Float) : Number.isFinite (.float x) = true ↔ Canonical x.toModel.unpack := by
  have canonical := canonical_of_word x.toBits.toBitVec
  change _ → Canonical x.toModel.unpack at canonical
  simp only [Number.isFinite]
  rw [ofFloat_eq_fields]
  cases h : x.toModel.unpack with
  | infinity s => exact ⟨Bool.noConfusion, False.elim⟩
  | notANumber => exact ⟨Bool.noConfusion, False.elim⟩
  | zero s => exact ⟨fun _ => trivial, fun _ => rfl⟩
  | finite s m e positive =>
    refine ⟨fun _ => h ▸ canonical fun top => ?_, fun _ => rfl⟩
    have word := unpack_word x.toBits.toBitVec
    change x.toModel.unpack = _ at word
    rw [h, if_pos top] at word
    split at word <;> cases word

/-- A mantissa times a power of two, as a quotient. -/
theorem scaled_eq_zpow (n : ℤ) (e : ℤ) : mkRat (Ratio.scaled n e).num (Ratio.scaled n e).den = n * 2 ^ e := by
  unfold Ratio.scaled
  split
  case isTrue up =>
    obtain ⟨k, rfl⟩ := Int.eq_ofNat_of_zero_le up
    show mkRat (n * (2 ^ (k : ℤ).toNat : ℕ)) 1 = _
    rw [Rat.mkRat_one, Int.toNat_natCast, zpow_natCast]
    push_cast
    rfl
  case isFalse down =>
    obtain ⟨k, rfl⟩ : ∃ k : ℕ, e = -k := ⟨(-e).toNat, by omega⟩
    show mkRat n (2 ^ (- -(k : ℤ)).toNat) = _
    rw [Rat.mkRat_eq_div, neg_neg, Int.toNat_natCast, zpow_neg, zpow_natCast, div_eq_mul_inv]
    push_cast
    rfl

theorem exact_eq_value {x : Float} (h : Canonical x.toModel.unpack) :
    Exact.ofFloat x = value x.toModel.unpack := by
  unfold Exact.ofFloat
  rw [ofFloat_eq_fields]
  cases hu : x.toModel.unpack with
  | infinity s => rw [hu] at h; exact h.elim
  | notANumber => rw [hu] at h; exact h.elim
  | zero s => cases s <;> simp [fields, scaled_eq_zpow]
  | finite s m e positive =>
    simp only [fields, scaled_eq_zpow, value_finite]
    cases s <;> simp [isNegative, factor]

theorem standsFor_iff {x : Float} {q : ℚ} :
    StandsFor x q ↔ Canonical x.toModel.unpack ∧ value x.toModel.unpack = q := by
  constructor
  · intro h
    have canonical := (isFinite_iff x).mp h.finite
    exact ⟨canonical, (exact_eq_value canonical).symm.trans h.exact⟩
  · intro h
    exact ⟨(isFinite_iff x).mpr h.1, (exact_eq_value h.1).trans h.2⟩

/-- What is put together within range stands for the number that it was put together from. -/
theorem standsFor_pack {u : UnpackedFloat} {q : ℚ} (h : Canonical u ∧ value u = q)
    (range : |q| < 2 ^ (1024 : ℤ)) : StandsFor (.ofModel (.pack u)) q := by
  have same : (Float.ofModel (.pack u)).toModel.unpack = u := unpack_pack_canonical h.1 (h.2 ▸ range)
  exact standsFor_iff.mpr (same.symm ▸ h)

/-! ## Calculations -/

/-- Rounding does not leave a range that ends at a power of two. -/
theorem abs_nearest_le {q : ℚ} {k : ℤ} (h : |q| ≤ 2 ^ k) (least : -1074 ≤ k) : |nearest q| ≤ 2 ^ k := by
  have power : nearest (2 ^ k) = 2 ^ k := by
    have := nearest_of_bits (m := 1) (by decide) least
    rwa [Int.cast_one, one_mul] at this
  rw [abs_le] at h ⊢
  constructor
  · calc -2 ^ k = nearest (-2 ^ k) := by rw [nearest_neg, power]
      _ ≤ nearest q := nearest_mono h.1
  · exact (nearest_mono h.2).trans_eq power

/-- There is a double nearest to the number. -/
def InRange (q : ℚ) : Prop := |nearest q| < 2 ^ (1024 : ℤ)

theorem inRange_of_le {q : ℚ} {k : ℤ} (h : |q| ≤ 2 ^ k) (least : -1074 ≤ k) (inside : k ≤ 1023) :
    InRange q :=
  (abs_nearest_le h least).trans_lt (zpow_lt_zpow_right₀ one_lt_two (by omega))

theorem abs_nearest (q : ℚ) : |nearest q| = nearest |q| := by
  rcases le_total 0 q with h | h
  · rw [abs_of_nonneg h, abs_of_nonneg (nearest_nonneg h)]
  · rw [abs_of_nonpos h, nearest_neg, abs_of_nonpos]
    have := nearest_mono h
    rwa [nearest_zero] at this

theorem InRange.of_abs_le {p q : ℚ} (hq : InRange q) (h : |p| ≤ |q|) : InRange p := by
  unfold InRange at hq ⊢
  rw [abs_nearest] at hq ⊢
  exact (nearest_mono h).trans_lt hq

variable {x y : Float} {p q : ℚ}

theorem StandsFor.nearest_eq (h : StandsFor x p) : nearest p = p := by
  obtain ⟨canonical, rfl⟩ := standsFor_iff.mp h
  exact nearest_value canonical

theorem StandsFor.add (hx : StandsFor x p) (hy : StandsFor y q) (range : InRange (p + q)) :
    StandsFor (x + y) (nearest (p + q)) := by
  obtain ⟨cx, rfl⟩ := standsFor_iff.mp hx
  obtain ⟨cy, rfl⟩ := standsFor_iff.mp hy
  exact standsFor_pack (add_eq cx cy) range

theorem StandsFor.sub (hx : StandsFor x p) (hy : StandsFor y q) (range : InRange (p - q)) :
    StandsFor (x - y) (nearest (p - q)) := by
  obtain ⟨cx, rfl⟩ := standsFor_iff.mp hx
  obtain ⟨cy, rfl⟩ := standsFor_iff.mp hy
  exact standsFor_pack (sub_eq cx cy) range

theorem StandsFor.mul (hx : StandsFor x p) (hy : StandsFor y q) (range : InRange (p * q)) :
    StandsFor (x * y) (nearest (p * q)) := by
  obtain ⟨cx, rfl⟩ := standsFor_iff.mp hx
  obtain ⟨cy, rfl⟩ := standsFor_iff.mp hy
  exact standsFor_pack (mul_eq cx cy) range

theorem StandsFor.div (hx : StandsFor x p) (hy : StandsFor y q) (nonzero : q ≠ 0)
    (range : InRange (p / q)) : StandsFor (x / y) (nearest (p / q)) := by
  obtain ⟨cx, rfl⟩ := standsFor_iff.mp hx
  obtain ⟨cy, rfl⟩ := standsFor_iff.mp hy
  exact standsFor_pack (div_eq cx cy nonzero) range

theorem StandsFor.abs_lt (hx : StandsFor x p) : |p| < 2 ^ (1024 : ℤ) := by
  obtain ⟨-, rfl⟩ := standsFor_iff.mp hx
  exact abs_value_lt x.toBits.toBitVec

theorem StandsFor.inRange (hx : StandsFor x p) : InRange p := by
  unfold InRange
  rw [hx.nearest_eq]
  exact hx.abs_lt

theorem StandsFor.neg (hx : StandsFor x p) : StandsFor (-x) (-p) := by
  have range := hx.abs_lt
  obtain ⟨cx, rfl⟩ := standsFor_iff.mp hx
  rw [← abs_neg] at range
  exact standsFor_pack ⟨canonical_neg cx, value_neg _⟩ range

theorem StandsFor.compare_eq (hx : StandsFor x p) (hy : StandsFor y q) :
    x.toModel.compare y.toModel = some (compare p q) := by
  obtain ⟨cx, rfl⟩ := standsFor_iff.mp hx
  obtain ⟨cy, rfl⟩ := standsFor_iff.mp hy
  exact Double.compare_eq cx cy

theorem StandsFor.lt_iff (hx : StandsFor x p) (hy : StandsFor y q) : x < y ↔ p < q := by
  refine decide_eq_true_iff.trans ?_
  show (x.toModel.compare y.toModel == some .lt) = true ↔ _
  rw [hx.compare_eq hy, ← compare_lt_iff_lt]
  cases compare p q <;> decide

theorem StandsFor.le_iff (hx : StandsFor x p) (hy : StandsFor y q) : x ≤ y ↔ p ≤ q := by
  refine decide_eq_true_iff.trans ?_
  show (x.toModel.compare y.toModel).any (·.isLE) = true ↔ _
  rw [hx.compare_eq hy, ← compare_le_iff_le]
  cases compare p q <;> decide

theorem StandsFor.beq_iff (hx : StandsFor x p) (hy : StandsFor y q) : (x == y) = true ↔ p = q := by
  show (x.toModel.compare y.toModel == some .eq) = true ↔ _
  rw [hx.compare_eq hy]
  refine Iff.trans ?_ compare_eq_iff_eq
  cases compare p q <;> decide

/-! ## Whole numbers and decimals -/

theorem standsFor_toFloat {n : ℕ} (short : n < 2 ^ 53) : StandsFor n.toUInt64.toFloat n := by
  have word : n.toUInt64.toNat = n := by
    show n % 2 ^ 64 = n
    omega
  have rounded := normalize_eq n 0 .positive
  rw [zpow_zero, mul_one, nearest_intCast (by rw [Nat.abs_cast]; exact_mod_cast short.le),
    Int.cast_natCast] at rounded
  have opened : n.toUInt64.toFloat = .ofModel (.pack (UnpackedFloat.normalize .binary64 n 0 .positive)) := by
    show Float.ofModel (.pack (UnpackedFloat.ofNat .binary64 n.toUInt64.toNat)) = _
    rw [word]
    rfl
  rw [opened]
  refine standsFor_pack rounded ?_
  rw [Nat.abs_cast]
  calc (n : ℚ) < 2 ^ (53 : ℤ) := by exact_mod_cast short
    _ ≤ 2 ^ (1024 : ℤ) := zpow_le_zpow_right₀ one_le_two (by decide)

/-- The powers of ten that are doubles. -/
theorem standsFor_power : ∀ e : Fin Float.exactlyRepresentablePowersOfTen.size,
    StandsFor Float.exactlyRepresentablePowersOfTen[e] (10 ^ e.val) := by
  have told : ∀ e : Fin Float.exactlyRepresentablePowersOfTen.size,
      Number.isFinite (.float Float.exactlyRepresentablePowersOfTen[e]) = true ∧
        Exact.ofFloat Float.exactlyRepresentablePowersOfTen[e] = 10 ^ e.val := by
    decide +kernel
  exact fun e => ⟨(told e).1, (told e).2⟩

/-- A decimal with few enough digits is one division. -/
theorem standsFor_decimal {n places : ℕ} (short : n < 2 ^ 53) (few : places ≤ 22) :
    StandsFor (Float.ofScientific n true places) (nearest (n / 10 ^ places)) := by
  have few : places < Float.exactlyRepresentablePowersOfTen.size := Nat.lt_succ_of_le few
  have opened : Float.ofScientific n true places =
      n.toUInt64.toFloat / Float.exactlyRepresentablePowersOfTen[places] :=
    dif_pos ⟨short, Nat.le_of_lt_succ few⟩
  rw [opened]
  refine (standsFor_toFloat short).div (standsFor_power ⟨places, few⟩) (by positivity) ?_
  have low : (1 : ℚ) ≤ 10 ^ places := one_le_pow₀ (by norm_num)
  refine inRange_of_le (k := 53) ?_ (by decide) (by decide)
  rw [abs_of_nonneg (by positivity)]
  calc (n : ℚ) / 10 ^ places ≤ n := div_le_self (Nat.cast_nonneg n) low
    _ ≤ 2 ^ (53 : ℤ) := by exact_mod_cast short.le

theorem float_ofNat_short {n : ℕ} (short : n < 2 ^ 53) : StandsFor (Float.ofNat n) n := by
  have some : 0 < Float.exactlyRepresentablePowersOfTen.size := by decide
  have opened : Float.ofNat n = n.toUInt64.toFloat * Float.exactlyRepresentablePowersOfTen[0] :=
    dif_pos ⟨short, by decide⟩
  have one : StandsFor Float.exactlyRepresentablePowersOfTen[0] 1 := standsFor_power ⟨0, some⟩
  have converted := standsFor_toFloat short
  have product := converted.mul one (by rw [mul_one]; exact converted.inRange)
  rw [mul_one, converted.nearest_eq] at product
  rw [opened]
  exact product

/-- Beyond 53 bits a whole number is rounded. -/
theorem float_ofNat_long {n : ℕ} (long : 2 ^ 53 ≤ n) :
    ∃ u, Float.ofNat n = .ofModel (.pack u) ∧ Canonical u ∧ value u = nearest n := by
  have positive : 0 < n := by omega
  have opened : Float.ofNat n = .ofModel (.pack (UnpackedFloat.ofScientific .binary64 n 0)) :=
    dif_neg fun h => absurd h.1 (by omega)
  have scientific : UnpackedFloat.ofScientific .binary64 n 0 =
      roundWithAccuracy .binary64 (.positive * .positive) (n * 2 ^ 53 * 10 ^ 0) (-53 + 0) .exact := by
    have small : ¬ (0 : ℤ) < -((2 ^ Format.binary64.exponentBits : ℤ) + n.log2) := by
      show ¬ (0 : ℤ) < -((2 ^ 11 : ℤ) + n.log2)
      omega
    unfold UnpackedFloat.ofScientific
    rw [dif_neg positive.ne', if_neg (by decide), if_neg small, if_pos (by decide)]
    simp only [UnpackedFloat.mul, Nat.shiftLeft_eq]
    rfl
  have bits : (n * 2 ^ 53 * 10 ^ 0).log2 = n.log2 + 53 := by
    rw [pow_zero, mul_one, log2_mul_two_pow positive]
  have rounded := roundWithAccuracy_eq (.positive * .positive) (a := .exact) (e := -53 + 0)
    (holds_exact (n * 2 ^ 53 * 10 ^ 0)) (by omega) (.inl (by positivity))
  have sign : factor (.positive * .positive) = 1 := rfl
  have same : ((n * 2 ^ 53 * 10 ^ 0 : ℕ) : ℚ) * 2 ^ (-53 + 0 : ℤ) = n := by
    push_cast
    rw [mul_one, zpow_neg, mul_assoc]
    norm_num
  rw [sign, one_mul, same] at rounded
  exact ⟨_, opened, scientific ▸ rounded⟩

theorem standsFor_ofNat {n : ℕ} (range : InRange n) : StandsFor (Float.ofNat n) (nearest n) := by
  rcases Nat.lt_or_ge n (2 ^ 53) with short | long
  · have exact := float_ofNat_short short
    rwa [exact.nearest_eq]
  · obtain ⟨u, opened, rounded⟩ := float_ofNat_long long
    rw [opened]
    exact standsFor_pack rounded range

/-- The double of a whole number is the nearest one. -/
theorem standsFor_ofInt {n : ℤ} (range : InRange n) : StandsFor (Float.ofInt n) (nearest n) := by
  cases n with
  | ofNat a => exact standsFor_ofNat range
  | negSucc a =>
    have cast : ((Int.negSucc a : ℤ) : ℚ) = -(a + 1 : ℕ) := by push_cast [Int.negSucc_eq]; ring
    rw [cast] at range ⊢
    rw [nearest_neg]
    refine (standsFor_ofNat ?_).neg
    exact range.of_abs_le (abs_neg _).ge

/-- A whole number of at most 53 bits is a double. -/
theorem standsFor_intCast {n : ℤ} (short : |n| ≤ 2 ^ 53) : StandsFor (Float.ofInt n) n := by
  have rounded := standsFor_ofInt (n := n)
    (inRange_of_le (k := 53) (by exact_mod_cast short) (by decide) (by decide))
  rwa [nearest_intCast short] at rounded

/-! ## Whole parts and places -/

theorem floor_ratio (n : ℤ) (d : ℕ) : Ratio.floor ⟨n, d⟩ = ⌊(mkRat n d)⌋ := by
  show Int.fdiv n d = _
  rw [Int.fdiv_eq_ediv_of_nonneg _ (Int.natCast_nonneg d), Rat.mkRat_eq_div, Rat.floor_intCast_div_natCast]

/-- The number of a finite double, by its fields. -/
theorem StandsFor.fields (hx : StandsFor x p) : ∃ negative m e,
    Binary.ofFloat x = .finite negative m e ∧ p = (if negative then -(m : ℤ) else m : ℤ) * 2 ^ e := by
  obtain ⟨finite, rfl⟩ := hx
  simp only [Number.isFinite] at finite
  unfold Exact.ofFloat
  cases h : Binary.ofFloat x with
  | nan => rw [h] at finite; cases finite
  | infinite s => rw [h] at finite; cases finite
  | finite negative m e => exact ⟨negative, m, e, rfl, scaled_eq_zpow _ _⟩

/-- The whole part of a finite double is that of its number. -/
theorem StandsFor.floor (hx : StandsFor x p) : Number.floor (.float x) = .ok ⌊p⌋ := by
  obtain ⟨negative, m, e, fields, rfl⟩ := hx.fields
  simp only [Number.floor, Number.whole, fields]
  rw [← scaled_eq_zpow, floor_ratio]

/-- A finite double of 53 bits or more before the point is whole. -/
theorem StandsFor.whole_or_lt (hx : StandsFor x p) :
    (∃ n : ℤ, p = n) ∨ |p| < 2 ^ (53 : ℤ) := by
  obtain ⟨canonical, rfl⟩ := standsFor_iff.mp hx
  cases h : x.toModel.unpack with
  | infinity s => rw [h] at canonical; exact canonical.elim
  | notANumber => rw [h] at canonical; exact canonical.elim
  | zero s => exact .inl ⟨0, Int.cast_zero.symm⟩
  | finite s m e some =>
    rw [h] at canonical
    rcases le_or_gt 0 e with up | down
    · obtain ⟨k, rfl⟩ := Int.eq_ofNat_of_zero_le up
      refine .inl ⟨s.apply (m * 2 ^ k), ?_⟩
      rw [apply_eq, value_finite]
      push_cast
      rw [zpow_natCast]
    · right
      rw [abs_value_finite]
      have bits : (m : ℚ) < 2 ^ (53 : ℤ) := by exact_mod_cast canonical.1
      have low : (2 : ℚ) ^ e ≤ 1 := zpow_le_one_of_nonpos₀ one_le_two down.le
      calc (m : ℚ) * 2 ^ e ≤ m * 1 := mul_le_mul_of_nonneg_left low (Nat.cast_nonneg m)
        _ < 2 ^ (53 : ℤ) := by rwa [mul_one]

/-- The least whole number above a finite double is within range. -/
theorem StandsFor.ceil_inRange (hx : StandsFor x p) : InRange (⌈p⌉ : ℚ) := by
  rcases hx.whole_or_lt with ⟨n, rfl⟩ | small
  · rw [Int.ceil_intCast]
    exact hx.inRange
  · have whole : ((2 ^ 53 : ℤ) : ℚ) = 2 ^ (53 : ℤ) := by push_cast; rfl
    have bounds := abs_le.mp (small.le.trans_eq whole.symm)
    rw [← Int.cast_neg] at bounds
    refine inRange_of_le (k := 53) ?_ (by decide) (by decide)
    rw [← whole, ← Int.cast_abs, Int.cast_le, abs_le]
    exact ⟨Int.cast_le.mp (bounds.1.trans (Int.le_ceil p)), Int.ceil_le.mpr bounds.2⟩

/-- The whole part upwards of a finite double is that of its number. -/
theorem StandsFor.ceil (hx : StandsFor x p) : Number.ceil (.float x) = .ok ⌈p⌉ := by
  obtain ⟨negative, m, e, fields, rfl⟩ := hx.fields
  have turned : ∀ r : Ratio, r.ceil = ⌈(mkRat r.num r.den)⌉ := by
    intro r
    have floor := floor_ratio (-r.num) r.den
    rw [Rat.mkRat_eq_div, Int.cast_neg, neg_div, Int.floor_neg, ← Rat.mkRat_eq_div] at floor
    show -Ratio.floor ⟨-r.num, r.den⟩ = _
    rw [floor, neg_neg]
  simp only [Number.ceil, Number.whole, fields]
  rw [turned, scaled_eq_zpow]

theorem ratio_scaled_den_pos (n e : ℤ) : 0 < (Ratio.scaled n e).den := by
  unfold Ratio.scaled
  split
  · exact one_pos
  · exact Nat.two_pow_pos _

theorem compare_ratio (n num : ℤ) {den : ℕ} (positive : 0 < den) :
    compare (n * den) num = compare (n : ℚ) (mkRat num den) := by
  have dpos : (0 : ℚ) < den := by exact_mod_cast positive
  rw [Rat.mkRat_eq_div]
  rcases lt_trichotomy (n * den) num with less | same | greater
  · rw [compare_lt_iff_lt.mpr less, compare_lt_iff_lt.mpr]
    rw [lt_div_iff₀ dpos]
    exact_mod_cast less
  · rw [compare_eq_iff_eq.mpr same, compare_eq_iff_eq.mpr]
    rw [eq_div_iff dpos.ne']
    exact_mod_cast same
  · rw [compare_gt_iff_gt.mpr greater, compare_gt_iff_gt.mpr]
    rw [div_lt_iff₀ dpos]
    exact_mod_cast greater

/-- A double is compared with a whole number as its number is. -/
theorem StandsFor.compareMixed (hx : StandsFor x p) (n : ℤ) :
    Number.compareMixed n x = some (compare (n : ℚ) p) := by
  obtain ⟨negative, m, e, fields, rfl⟩ := hx.fields
  simp only [Number.compareMixed, fields]
  rw [← scaled_eq_zpow, compare_ratio _ _ (ratio_scaled_den_pos _ _)]

/-- Only a finite double has a whole part. -/
theorem StandsFor.of_floor {n : ℤ} (h : Number.floor (.float x) = .ok n) :
    StandsFor x (Exact.ofFloat x) := by
  refine .of_finite ?_
  simp only [Number.floor, Number.whole] at h
  simp only [Number.isFinite]
  cases fields : Binary.ofFloat x with
  | nan => rw [fields] at h; cases h
  | infinite negative => rw [fields] at h; cases h
  | finite => rfl

/-- A quotient is rounded to the nearest whole number. -/
theorem roundDiv_eq (n : ℕ) {d : ℕ} (positive : 0 < d) : (roundDiv n d : ℤ) = halfEven (n / d) := by
  have even : Even ((n / d : ℕ) : ℤ) ↔ n / d % 2 = 0 := by
    rw [Int.even_iff]
    omega
  unfold roundDiv halfEven
  simp only [fract_quotient_lt_half positive, fract_quotient_eq_half positive, floor_quotient, even]
  split
  · rename_i h; rw [if_pos (.inl h)]
  · split
    · rw [if_neg (by omega)]; rfl
    · split
      · rw [if_pos (by omega)]
      · rw [if_neg (by omega)]; rfl

theorem exact_roundTo (places : ℕ) (q : ℚ) :
    Exact.roundTo places q = halfEven (q * 10 ^ places) / 10 ^ places := by
  have size : (roundDiv (q.num.natAbs * tenTo places) q.den : ℤ) = halfEven (|q| * 10 ^ places) := by
    rw [roundDiv_eq _ q.den_pos]
    congr 1
    have : |q| = q.num.natAbs / q.den := by
      rw [← Rat.num_div_den q, abs_div, Nat.abs_cast, Rat.num_div_den, Nat.cast_natAbs, Int.cast_abs]
    rw [this]
    show ((q.num.natAbs * 10 ^ places : ℕ) : ℚ) / q.den = _
    push_cast
    ring
  have ten : (tenTo places : ℚ) = 10 ^ places := by
    show ((10 ^ places : ℕ) : ℚ) = _
    push_cast
    rfl
  unfold Exact.roundTo
  rw [Rat.mkRat_eq_div, ten]
  congr 2
  split
  case isTrue negative =>
    rw [size, ← halfEven_neg, abs_of_neg (Rat.num_neg.mp negative)]
    congr 1
    ring
  case isFalse nonneg =>
    rw [size, abs_of_nonneg (Rat.num_nonneg.mp (not_lt.mp nonneg))]

theorem magnitude_scaled (n : ℕ) (e : ℤ) :
    0 < (Magnitude.scaled n e).den ∧
      ((Magnitude.scaled n e).num : ℚ) / (Magnitude.scaled n e).den = n * 2 ^ e := by
  unfold Magnitude.scaled
  split
  case isTrue up =>
    obtain ⟨k, rfl⟩ := Int.eq_ofNat_of_zero_le up
    refine ⟨one_pos, ?_⟩
    show ((n * 2 ^ (k : ℤ).toNat : ℕ) : ℚ) / (1 : ℕ) = _
    rw [Int.toNat_natCast, zpow_natCast]
    push_cast
    exact div_one _
  case isFalse down =>
    obtain ⟨k, rfl⟩ : ∃ k : ℕ, e = -k := ⟨(-e).toNat, by omega⟩
    refine ⟨Nat.two_pow_pos _, ?_⟩
    show (n : ℚ) / (2 ^ (- -(k : ℤ)).toNat : ℕ) = _
    rw [neg_neg, Int.toNat_natCast, zpow_neg, zpow_natCast, div_eq_mul_inv]
    push_cast
    rfl

/-- A number rounded to some decimal places, as a double. -/
theorem StandsFor.roundTo (hx : StandsFor x p) {places : ℕ} (few : places ≤ 22)
    (short : |p| * 10 ^ places ≤ 2 ^ 52) :
    StandsFor (Decimal.roundTo places x) (nearest (Exact.roundTo places p)) := by
  obtain ⟨negative, m, e, fields, rfl⟩ := hx.fields
  obtain ⟨positive, scaled⟩ := magnitude_scaled (m * tenTo places) e
  obtain ⟨n, hn⟩ : ∃ n, n = roundDiv (Magnitude.scaled (m * tenTo places) e).num
    (Magnitude.scaled (m * tenTo places) e).den := ⟨_, rfl⟩
  have size : ((m * tenTo places : ℕ) : ℚ) * 2 ^ e = m * 2 ^ e * 10 ^ places := by
    show ((m * 10 ^ places : ℕ) : ℚ) * 2 ^ e = _
    push_cast
    ring
  have rounded : (n : ℤ) = halfEven (m * 2 ^ e * 10 ^ places) := by
    rw [hn, roundDiv_eq _ positive, scaled, size]
  have magnitude : |((if negative then -(m : ℤ) else m : ℤ) * 2 ^ e : ℚ)| = m * 2 ^ e := by
    have : (0 : ℚ) ≤ m * 2 ^ e := mul_nonneg (Nat.cast_nonneg m) (place_pos e).le
    cases negative with
    | true => push_cast; rw [if_pos rfl, neg_mul, abs_neg, abs_of_nonneg this]
    | false => rw [if_neg (by decide), Int.cast_natCast, abs_of_nonneg this]
  have bits : n < 2 ^ 53 := by
    rw [magnitude] at short
    have whole : ((2 ^ 52 : ℤ) : ℚ) = 2 ^ 52 := by push_cast; rfl
    have := halfEven_mono (short.trans_eq whole.symm)
    rw [halfEven_intCast, ← rounded] at this
    omega
  have decimal := standsFor_decimal (n := n) bits few
  have opened : Decimal.roundTo places x =
      if negative then -Float.ofScientific n true places else Float.ofScientific n true places := by
    simp only [Decimal.roundTo, fields, hn]
  rw [opened, exact_roundTo]
  cases negative with
  | true =>
    rw [if_pos rfl, if_pos rfl, Int.cast_neg, neg_mul, neg_mul, halfEven_neg, Int.cast_natCast,
      ← rounded, Int.cast_neg, neg_div, nearest_neg]
    exact decimal.neg
  | false =>
    rw [if_neg (by decide), if_neg (by decide), Int.cast_natCast, ← rounded]
    exact decimal

/-! ## Quotients of whole numbers -/

theorem twoTo_cast (n : ℕ) : ((twoTo n : ℕ) : ℚ) = 2 ^ (n : ℤ) := by
  show ((2 ^ n : ℕ) : ℚ) = _
  rw [zpow_natCast]
  push_cast
  rfl

/-- The leading bit of a quotient is at most 53 places above its last place. -/
theorem ratio_lt_lastPlace {num den : ℕ} (positive : 0 < den) :
    (num / den : ℚ) < 2 ^ (Decimal.lastPlace num den + 53) := by
  have dpos : (0 : ℚ) < den := by exact_mod_cast positive
  have numHigh : (num : ℚ) < 2 ^ ((num.log2 : ℤ) + 1) := by
    exact_mod_cast (Nat.lt_log2_self : num < 2 ^ (num.log2 + 1))
  have denLow : (2 : ℚ) ^ (den.log2 : ℤ) ≤ den := by
    exact_mod_cast Nat.log2_self_le positive.ne'
  obtain ⟨e, he⟩ : ∃ e : ℤ, e = (num.log2 : ℤ) - den.log2 := ⟨_, rfl⟩
  have above : (num / den : ℚ) < 2 ^ (e + 1) := by
    rw [div_lt_iff₀ dpos]
    calc (num : ℚ) < 2 ^ ((num.log2 : ℤ) + 1) := numHigh
      _ = 2 ^ (e + 1) * 2 ^ (den.log2 : ℤ) := by rw [← zpow_add₀ two_ne_zero]; congr 1; omega
      _ ≤ 2 ^ (e + 1) * den := mul_le_mul_of_nonneg_left denLow (place_pos _).le
  have reached : ∀ (p : Prop) [Decidable p], (¬p → (num / den : ℚ) < 2 ^ e) →
      (num / den : ℚ) < 2 ^ (max ((if p then e else e - 1) - 52) (-1074) + 53) := by
    intro p _ below
    by_cases h : p
    · rw [if_pos h]
      exact above.trans_le (zpow_le_zpow_right₀ one_le_two (by omega))
    · rw [if_neg h]
      exact (below h).trans_le (zpow_le_zpow_right₀ one_le_two (by omega))
  unfold Decimal.lastPlace
  simp only [← he]
  refine reached _ fun short => ?_
  rw [div_lt_iff₀ dpos]
  split at short
  case isTrue up =>
    have cast : (num : ℚ) < den * (twoTo e.toNat : ℕ) := by exact_mod_cast not_le.mp short
    rwa [twoTo_cast, Int.toNat_of_nonneg up, mul_comm] at cast
  case isFalse down =>
    have cast : (num : ℚ) * (twoTo (-e).toNat : ℕ) < den := by exact_mod_cast not_le.mp short
    rw [twoTo_cast, Int.toNat_of_nonneg (by omega), zpow_neg] at cast
    rwa [← div_eq_mul_inv, div_lt_iff₀ (place_pos e), mul_comm] at cast

/-- A quotient of whole numbers has a nearest double when it is not too large. -/
theorem nearestTo_isSome {num den k : ℕ} (short : num < twoTo k) (few : k ≤ 1023) (positive : 0 < den) :
    ∃ x, nearestTo num den = some x := by
  unfold nearestTo
  split
  · exact ⟨_, rfl⟩
  rename_i some
  have bits : num.log2 < k := (Nat.log2_lt some).mpr short
  obtain ⟨e, he⟩ : ∃ e, e = Decimal.lastPlace num den := ⟨_, rfl⟩
  have low : e ≤ 970 := by
    rw [he]
    unfold Decimal.lastPlace
    dsimp only
    split <;> omega
  have small := @ratio_lt_lastPlace num _ positive
  rw [← he] at small ⊢
  have dpos : (0 : ℚ) < den := by exact_mod_cast positive
  have least : ∀ {n d : ℕ}, 0 < d → (n / d : ℚ) < 2 ^ (53 : ℤ) → roundDiv n d ≤ 2 ^ 53 := by
    intro n d hd below
    have whole : ((2 ^ 53 : ℤ) : ℚ) = 2 ^ (53 : ℤ) := by push_cast; rfl
    have := halfEven_mono (below.le.trans_eq whole.symm)
    rw [halfEven_intCast, ← roundDiv_eq n hd] at this
    exact_mod_cast this
  have mantissa : (if 0 ≤ e then roundDiv num (den * twoTo e.toNat)
      else roundDiv (num * twoTo (-e).toNat) den) ≤ 2 ^ 53 := by
    rw [zpow_add₀ two_ne_zero] at small
    split
    case isTrue up =>
      refine least (Nat.mul_pos positive (Nat.two_pow_pos _)) ?_
      rw [Nat.cast_mul, twoTo_cast, Int.toNat_of_nonneg up, ← div_div, div_lt_iff₀ (place_pos e)]
      rwa [mul_comm]
    case isFalse down =>
      refine least positive ?_
      rw [Nat.cast_mul, twoTo_cast, Int.toNat_of_nonneg (by omega), zpow_neg, ← div_eq_mul_inv, div_right_comm,
        div_lt_iff₀ (place_pos e)]
      rwa [mul_comm]
  rw [if_neg]
  · exact ⟨_, rfl⟩
  · show ¬ 2047 * 2 ^ 52 ≤ _ + (e + 1074).toNat * 2 ^ 52
    have place : (e + 1074).toNat ≤ 2044 := by omega
    have := Nat.mul_le_mul_right (2 ^ 52) place
    omega

end Wireframe.Double
