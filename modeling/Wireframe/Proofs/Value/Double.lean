import Wireframe.Value.Number
import Mathlib

/-
  Wireframe.Proofs.Value.Double — doubles, bit by bit.

  Calculations take a double apart into its sign, a mantissa of 53 bits and a power of two, and put
  the rounded result together again. In between nothing is lost: a word is its parts, and the parts
  of a normal number are its own. A whole number of at most 53 bits needs no rounding.

  Proved:
  - `sub_zero`: nothing is subtracted with a zero, whatever the double.
  - `unpack_pack`: a normal number that is put together and taken apart is the same.
  - `ofFloat_eq`: what a double stands for that is put together of a sign, a mantissa and a power.
  - `same_toFloat`: a whole number between `-2 ^ 53` and `2 ^ 53` is a double.
-/

namespace Wireframe.Double

open Float.Model Float.Model.UnpackedFloat

/-- Nothing is subtracted with a zero. -/
theorem sub_zero (x : Float) : x - 0.0 = x := by
  have written : (0.0 : Float) = .ofModel (.pack (.zero .positive)) := by decide +kernel
  have zero : (Float.Model.pack (.zero .positive)).unpack = .zero .positive := rfl
  have same : UnpackedFloat.sub .binary64 x.toModel.unpack (.zero .positive) = x.toModel.unpack := by
    cases x.toModel.unpack with
    | zero s => cases s <;> rfl
    | _ => rfl
  show Float.ofModel (.pack (.sub .binary64 x.toModel.unpack (0.0 : Float).toModel.unpack)) = x
  rw [written, zero, same]
  exact Float.ofBits_toBits x

/-! ## Normal numbers -/

/-- The mantissa of a normal number has its first bit set, and its power of two is in range. -/
structure Normal (m : Nat) (e : Int) : Prop where
  low : 2 ^ 52 ≤ m
  high : m < 2 ^ 53
  least : -1074 ≤ e
  greatest : e ≤ 971

variable {m : Nat} {e : Int}

theorem Normal.positive (n : Normal m e) : 0 < m := Nat.lt_of_lt_of_le (by decide) n.low

theorem Normal.log2_eq (n : Normal m e) : m.log2 = 52 :=
  (Nat.log2_eq_iff n.positive.ne').mpr ⟨n.low, n.high⟩

/-- The first bit of the mantissa is not written. -/
theorem pack_normal (s : Sign) (n : Normal m e) :
    UnpackedFloat.pack .binary64 (.finite s m e n.positive) =
      packComponents .binary64 s (BitVec.ofNat 11 (e + 1075).toNat) (BitVec.ofNat 52 m) := by
  obtain ⟨low, high, least, greatest⟩ := id n
  have biased : (e + (Format.binary64.exponentBias : Int) +
      (Format.binary64.mantissaBitsWithoutImplicit : Int)).toNat = (e + 1075).toNat := by
    show (e + 1023 + 52).toNat = _
    omega
  simp only [UnpackedFloat.pack, biased]
  rw [if_neg (by show ¬ 2 ^ 11 ≤ _; omega), if_pos (by rw [n.log2_eq]; rfl)]

/-- A normal number that is put together and taken apart is the same. -/
theorem unpack_pack (s : Sign) (n : Normal m e) :
    UnpackedFloat.unpack .binary64 (UnpackedFloat.pack .binary64 (.finite s m e n.positive)) =
      .finite s m e n.positive := by
  obtain ⟨low, high, least, greatest⟩ := id n
  have bias : (Format.binary64.exponentBias : Int) + (Format.binary64.mantissaBitsWithoutImplicit : Int) =
    1075 := rfl
  have biased : (BitVec.ofNat 11 (e + 1075).toNat).toNat = (e + 1075).toNat := by
    show _ % 2 ^ 11 = _
    omega
  have whole : (1#1 ++ BitVec.ofNat 52 m).toNat = m := by
    rw [BitVec.toNat_append, ← Nat.shiftLeft_add_eq_or_of_lt (BitVec.isLt _)]
    show 1 * 2 ^ 52 + m % 2 ^ 52 = m
    omega
  have not_top : BitVec.ofNat 11 (e + 1075).toNat ≠ -1#11 := fun same => by
    have : (e + 1075).toNat = 2047 := by rw [← biased, same]; rfl
    omega
  have not_bottom : BitVec.ofNat 11 (e + 1075).toNat ≠ 0#11 := fun same => by
    have : (e + 1075).toNat = 0 := by rw [← biased, same]; rfl
    omega
  rw [pack_normal s n]
  unfold UnpackedFloat.unpack
  simp only [unpackMantissa_packComponents, unpackExponent_packComponents, unpackSign_packComponents,
    Sign.ofBitVec_toBitVec, bias]
  rw [if_neg not_top, if_neg not_bottom]
  simp only [biased, whole]
  congr 1
  omega

/-! ## What a double stands for -/

def isNegative : Sign → Bool
  | .negative => true
  | .positive => false

/-- A normal number stands for its mantissa with its sign, times the power of two. -/
theorem ofFloat_eq (s : Sign) (n : Normal m e) :
    Decimal.Binary.ofFloat (.ofModel (.pack (.finite s m e n.positive))) =
      .finite (isNegative s) m e := by
  obtain ⟨low, high, least, greatest⟩ := id n
  let word := packComponents .binary64 s (BitVec.ofNat 11 (e + 1075).toNat) (BitVec.ofNat 52 m)
  have bits : (Float.ofModel (.pack (.finite s m e n.positive))).toBits.toNat = word.toNat :=
    congrArg BitVec.toNat (pack_normal s n)
  have fraction : word.toNat % Decimal.twoTo 52 = m - 2 ^ 52 := by
    have part : (unpackMantissa word).toNat = word.toNat % 2 ^ 52 := by simp [unpackMantissa]
    rw [unpackMantissa_packComponents] at part
    show _ % 2 ^ 52 = _
    rw [← part]
    show m % 2 ^ 52 = _
    omega
  have biased : word.toNat / Decimal.twoTo 52 % 2048 = (e + 1075).toNat := by
    have part : (unpackExponent word).toNat = word.toNat / 2 ^ 52 % 2048 := by
      simp [unpackExponent, Nat.shiftRight_eq_div_pow]
    rw [unpackExponent_packComponents] at part
    show _ / 2 ^ 52 % 2048 = _
    rw [← part]
    show _ % 2 ^ 11 = _
    omega
  have sign : (word.toNat / Decimal.twoTo 63 == 1) = isNegative s := by
    have bound : word.toNat < 2 ^ 64 := word.isLt
    have part : (unpackSign word).toNat = word.toNat / 2 ^ 63 % 2 := by
      simp [unpackSign, Nat.shiftRight_eq_div_pow]
    rw [unpackSign_packComponents] at part
    have top : word.toNat / Decimal.twoTo 63 = s.toBitVec.toNat := by
      show _ / 2 ^ 63 = _
      omega
    rw [top]
    cases s <;> rfl
  simp only [Decimal.Binary.ofFloat, bits, fraction, biased, sign]
  rw [if_neg (by omega), if_neg (by omega)]
  congr 1
  · show _ + 2 ^ 52 = m
    omega
  · omega

/-! ## Whole numbers -/

/-- Bits that are not set are dropped without a trace. -/
theorem shift_exact (k : Nat) : ∀ m : Nat,
    (⟨m * 2 ^ k, false, false⟩ : ExtendedMantissa) >>> k = ⟨m, false, false⟩ := by
  induction k with
  | zero =>
    intro m
    rw [Nat.pow_zero, Nat.mul_one]
    rfl
  | succ k ih =>
    intro m
    show ((⟨m * 2 ^ (k + 1), false, false⟩ : ExtendedMantissa) >>> k).shiftRightOne = _
    rw [Nat.pow_succ', ← Nat.mul_assoc, ih]
    simp [ExtendedMantissa.shiftRightOne]

theorem target_eq (t : Int) : Format.binary64.targetExponent t = max (t - 53) (-1074) := rfl

theorem shiftToTarget_exact (k : Nat) (n : Normal m e) :
    shiftToTargetExponent .binary64 (m * 2 ^ k) (e - k) .exact = (⟨m, false, false⟩, e) := by
  have positive : 0 < 2 ^ k := Nat.two_pow_pos k
  have long : (m * 2 ^ k).log2 = 52 + k := by
    refine (Nat.log2_eq_iff (Nat.mul_pos n.positive positive).ne').mpr ⟨?_, ?_⟩
    · rw [Nat.pow_add]
      exact Nat.mul_le_mul_right _ n.low
    · rw [Nat.add_right_comm, Nat.pow_add]
      exact Nat.mul_lt_mul_of_pos_right n.high positive
  have target : Format.binary64.targetExponent (totalExponent (m * 2 ^ k) (e - k)) = e := by
    have least := n.least
    rw [target_eq, totalExponent, long]
    omega
  have amount : (e - (e - k)).toNat = k := by omega
  have back : e - (k : Int) + (k : Int) = e := by omega
  simp only [shiftToTargetExponent, shiftToExponent, target, amount, back,
    ExtendedMantissa.ofMantissaAndAccuracy, shift_exact]

/-- A mantissa with more bits than there is room for is rounded to itself when these are not set. -/
theorem round_exact (s : Sign) (k : Nat) (n : Normal m e) :
    roundWithAccuracy .binary64 s (m * 2 ^ k) (e - k) .exact = .finite s m e n.positive := by
  have again := shiftToTarget_exact 0 n
  rw [Nat.pow_zero, Nat.mul_one, Int.ofNat_zero, Int.sub_zero] at again
  simp only [roundWithAccuracy, shiftToTarget_exact k n, ExtendedMantissa.roundedMantissa,
    ExtendedMantissa.accuracy, Accuracy.roundToNearestEven, again]
  exact dif_neg n.positive.ne'

/-- A positive whole number is a normal number when the bits that it is short of are added below. -/
theorem Normal.of_short {n k : Nat} (positive : 0 < n) (bits : n.log2 + k = 52) :
    Normal (n * 2 ^ k) (-k) := by
  have short := Nat.log2_self_le positive.ne'
  have long := Nat.lt_log2_self (n := n)
  have below : 2 ^ 52 = 2 ^ n.log2 * 2 ^ k := by rw [← Nat.pow_add, bits]
  have above : 2 ^ 53 = 2 ^ (n.log2 + 1) * 2 ^ k := by
    rw [← Nat.pow_add]
    congr 1
    omega
  refine ⟨below ▸ Nat.mul_le_mul_right _ short, ?_, by omega, by omega⟩
  rw [above]
  exact Nat.mul_lt_mul_of_pos_right long (Nat.two_pow_pos k)

/-- A positive whole number below `2 ^ 53` is rounded to itself. -/
theorem ofNat_exact {n k : Nat} (positive : 0 < n) (bits : n.log2 + k = 52) :
    UnpackedFloat.ofNat .binary64 n =
      .finite .positive (n * 2 ^ k) (-k) (Normal.of_short positive bits).positive := by
  have sign : compare (n : Int) 0 = .gt := Int.compare_eq_gt.mpr (by omega)
  have target : Format.binary64.targetExponent (totalExponent n 0) = -k := by
    rw [target_eq, totalExponent]
    omega
  have amount : ((0 : Int) - -k).toNat = k := by omega
  have rounded := round_exact .positive 0 (.of_short positive bits)
  rw [Nat.pow_zero, Nat.mul_one, Int.ofNat_zero, Int.sub_zero] at rounded
  simp only [UnpackedFloat.ofNat, UnpackedFloat.ofInt, UnpackedFloat.normalize, sign,
    UnpackedFloat.round, Int.toNat_natCast, decreaseExponent, target, amount, Nat.shiftLeft_eq]
  rw [Int.zero_sub]
  exact rounded

/-- The double that every whole number is multiplied with when it is converted. -/
theorem one_eq : (Float.ofBits 0x3FF0000000000000).toModel.unpack =
    .finite .positive (2 ^ 52) (-52) (by decide) := by
  have written : Float.ofBits 0x3FF0000000000000 =
      .ofModel (.pack (.finite .positive (2 ^ 52) (-52) (by decide))) := by decide +kernel
  rw [written]
  exact unpack_pack .positive ⟨by decide, by decide, by decide, by decide⟩

theorem float_ofNat_eq {n k : Nat} (positive : 0 < n) (bits : n.log2 + k = 52) :
    Float.ofNat n =
      .ofModel (.pack (.finite .positive (n * 2 ^ k) (-k) (Normal.of_short positive bits).positive)) := by
  have normal := Normal.of_short positive bits
  have small : n < 2 ^ 53 := (Nat.le_mul_of_pos_right n (Nat.two_pow_pos k)).trans_lt normal.high
  have word : n.toUInt64.toNat = n := by
    show n % 2 ^ 64 = n
    omega
  have converted : n.toUInt64.toFloat =
      .ofModel (.pack (.finite .positive (n * 2 ^ k) (-k) normal.positive)) := by
    show Float.ofModel (.pack (UnpackedFloat.ofNat .binary64 n.toUInt64.toNat)) = _
    rw [word, ofNat_exact positive bits]
  have opened : Float.ofNat n = n.toUInt64.toFloat * Float.ofBits 0x3FF0000000000000 :=
    dif_pos ⟨small, by decide⟩
  have unpacked : (Float.Model.pack (.finite .positive (n * 2 ^ k) (-k) normal.positive)).unpack =
      .finite .positive (n * 2 ^ k) (-k) normal.positive := unpack_pack .positive normal
  rw [opened, converted]
  show Float.ofModel (.pack (.mul .binary64 (Float.Model.pack _).unpack (Float.ofBits _).toModel.unpack)) = _
  rw [unpacked, one_eq]
  exact congrArg (fun u => Float.ofModel (.pack u)) (round_exact .positive 52 normal)

/-- Scaled down by the bits that are added below, a mantissa is the number again. -/
theorem scaled_eq (z : Int) (k : Nat) :
    z * (Decimal.Ratio.scaled (z * (2 ^ k : Nat)) (-k)).den =
      (Decimal.Ratio.scaled (z * (2 ^ k : Nat)) (-k)).num := by
  unfold Decimal.Ratio.scaled
  by_cases whole : (0 : Int) ≤ -k
  · obtain rfl : k = 0 := by omega
    rw [if_pos whole]
    show z * 1 = z * 1 * 1
    omega
  · have down : (- -(k : Int)).toNat = k := by omega
    rw [if_neg whole, down]
    rfl

theorem compareMixed_exact (s : Sign) {n k : Nat} (positive : 0 < n) (bits : n.log2 + k = 52) :
    Number.compareMixed (if isNegative s then -n else n)
      (.ofModel (.pack (.finite s (n * 2 ^ k) (-k) (Normal.of_short positive bits).positive))) =
        some .eq := by
  rw [Number.compareMixed, ofFloat_eq s (.of_short positive bits)]
  have signed : (if isNegative s then -((n * 2 ^ k : Nat) : Int) else (n * 2 ^ k : Nat)) =
      (if isNegative s then -n else n : Int) * (2 ^ k : Nat) := by
    split
    · rw [Int.natCast_mul, Int.neg_mul]
    · rw [Int.natCast_mul]
  simp only [signed, scaled_eq]
  exact congrArg some (compare_eq_iff_eq.mpr rfl)

theorem float_neg_eq (n : Normal m e) :
    (Float.ofModel (.pack (.finite .positive m e n.positive))).neg =
      .ofModel (.pack (.finite .negative m e n.positive)) := by
  have unpacked : (Float.Model.pack (.finite .positive m e n.positive)).unpack =
    .finite .positive m e n.positive := unpack_pack .positive n
  show Float.ofModel (.pack (Float.Model.pack _).unpack.neg) = _
  rw [unpacked]
  rfl

/-- A whole number between `-2 ^ 53` and `2 ^ 53` is a double. -/
theorem same_toFloat {n : Int} (small : n.natAbs < 2 ^ 53) :
    (Number.int n).same (.float (Number.int n).toFloat) = true := by
  have room : ∀ a : Nat, 0 < a → a < 2 ^ 53 → a.log2 + (52 - a.log2) = 52 := by
    intro a positive high
    have := (Nat.log2_lt positive.ne').mpr high
    omega
  have same : ∀ x : Float, Number.compareMixed n x = some .eq → (Number.int n).same (.float x) = true :=
    fun x hx => beq_iff_eq.mpr hx
  refine same _ ?_
  cases n with
  | ofNat a =>
    rcases Nat.eq_zero_or_pos a with rfl | positive
    · decide +kernel
    · have bits := room a positive small
      show Number.compareMixed a (Float.ofNat a) = _
      rw [float_ofNat_eq positive bits]
      exact compareMixed_exact .positive positive bits
  | negSucc a =>
    have positive : 0 < a + 1 := Nat.succ_pos a
    have bits := room (a + 1) positive small
    show Number.compareMixed (-(a + 1 : Nat)) (Float.ofNat (a + 1)).neg = _
    rw [float_ofNat_eq positive bits, float_neg_eq (.of_short positive bits)]
    exact compareMixed_exact .negative positive bits

end Wireframe.Double
