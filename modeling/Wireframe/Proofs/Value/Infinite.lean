import Wireframe.Proofs.Value.Nearest

/-
  Wireframe.Proofs.Value.Infinite — doubles that stand for no number.

  A whole number beyond the range of doubles becomes an infinity. What is calculated from it may
  still be a number: a number divided by an infinity is zero. A quotient of infinities is nothing
  at all, and it is neither less nor greater than any number.

  Proved:
  - `isInfinite_ofNat`: whole numbers without a nearest double become infinite.
  - `IsInfinite.div`, `IsInfinite.div_self`, `StandsFor.div_infinite`: quotients with infinities.
  - `StandsFor.not_lt_sub`: less an infinity, or less nothing at all, no number is left.
  - `StandsFor.of_beq`: only a number is equal to a number.
-/

namespace Wireframe.Double

open Float.Model Float.Model.UnpackedFloat Decimal

variable {x y z : Float} {p q : ℚ}

/-- The double is the infinity above all numbers. -/
def IsInfinite (x : Float) : Prop := x.toModel.unpack = .infinity .positive

/-- The double stands for nothing, not even an infinity. -/
def IsNothing (x : Float) : Prop := x.toModel.unpack = .notANumber

/-- A whole number beyond the range of doubles becomes an infinity. -/
theorem isInfinite_ofNat {n : ℕ} (beyond : ¬ InRange n) : IsInfinite (Float.ofNat n) := by
  have long : 2 ^ 53 ≤ n := by
    by_contra short
    exact beyond (float_ofNat_short (not_le.mp short)).inRange
  obtain ⟨u, opened, canonical, rounded⟩ := float_ofNat_long long
  have nonneg : 0 ≤ nearest n := nearest_nonneg (Nat.cast_nonneg n)
  have high : 2 ^ (1024 : ℤ) ≤ nearest n :=
    abs_of_nonneg nonneg ▸ not_lt.mp beyond
  have positive := (place_pos 1024).trans_le high
  rw [opened]
  unfold IsInfinite
  cases u with
  | infinity s => exact canonical.elim
  | notANumber => exact canonical.elim
  | zero s => exact absurd rounded positive.ne
  | finite s m e hm =>
    cases s with
    | negative =>
      rw [value_negative] at rounded
      exact absurd (neg_neg_of_pos (value_pos hm)) (rounded ▸ nonneg).not_gt
    | positive =>
      refine unpack_pack_beyond canonical ?_
      rw [rounded, abs_of_nonneg nonneg]
      exact high

/-! ## Calculations -/

theorem StandsFor.unpack_of_pos (hx : StandsFor x p) (positive : 0 < p) :
    ∃ m e some, x.toModel.unpack = .finite .positive m e some := by
  obtain ⟨canonical, rfl⟩ := standsFor_iff.mp hx
  cases h : x.toModel.unpack with
  | infinity s => rw [h] at canonical; exact canonical.elim
  | notANumber => rw [h] at canonical; exact canonical.elim
  | zero s => rw [h, value_zero] at positive; exact absurd positive (lt_irrefl 0)
  | finite s m e some =>
    cases s with
    | positive => exact ⟨m, e, some, rfl⟩
    | negative =>
      rw [h, value_negative] at positive
      exact absurd positive (neg_neg_of_pos (value_pos some)).not_gt

theorem IsInfinite.div (hx : IsInfinite x) (hy : StandsFor y q) (positive : 0 < q) :
    IsInfinite (x / y) := by
  obtain ⟨m, e, some, finite⟩ := hy.unpack_of_pos positive
  have quotient : UnpackedFloat.div .binary64 x.toModel.unpack y.toModel.unpack = .infinity .positive := by
    rw [hx, finite]
    rfl
  show (Float.ofModel (.pack (UnpackedFloat.div .binary64 x.toModel.unpack y.toModel.unpack))).toModel.unpack = _
  rw [quotient]
  rfl

theorem IsInfinite.div_self (hx : IsInfinite x) (hy : IsInfinite y) : IsNothing (x / y) := by
  have quotient : UnpackedFloat.div .binary64 x.toModel.unpack y.toModel.unpack = .notANumber := by
    rw [hx, hy]
    rfl
  show (Float.ofModel (.pack (UnpackedFloat.div .binary64 x.toModel.unpack y.toModel.unpack))).toModel.unpack = _
  rw [quotient]
  rfl

theorem StandsFor.div_infinite (hx : StandsFor x p) (hy : IsInfinite y) : StandsFor (x / y) 0 := by
  show StandsFor (.ofModel (.pack (UnpackedFloat.div .binary64 x.toModel.unpack y.toModel.unpack))) 0
  have canonical := (standsFor_iff.mp hx).1
  rw [show y.toModel.unpack = _ from hy]
  refine standsFor_pack ?_ (by rw [abs_zero]; exact place_pos _)
  cases h : x.toModel.unpack with
  | infinity s => rw [h] at canonical; exact canonical.elim
  | notANumber => rw [h] at canonical; exact canonical.elim
  | zero s => exact ⟨trivial, rfl⟩
  | finite s m e _ => exact ⟨trivial, rfl⟩

theorem not_lt_of_compare (h : y.toModel.compare x.toModel ≠ some .lt) : ¬ y < x := by
  refine (not_congr decide_eq_true_iff).mpr ?_
  show ¬ (y.toModel.compare x.toModel == some .lt) = true
  rwa [beq_iff_eq]

/-- A number less what is above all numbers is below all of them. -/
theorem sub_above {u v : UnpackedFloat} (hu : Canonical u)
    (hv : v = .infinity .positive ∨ v = .notANumber) :
    UnpackedFloat.sub .binary64 u v = .infinity .negative ∨ UnpackedFloat.sub .binary64 u v = .notANumber := by
  rcases hv with rfl | rfl
  · left
    cases u with
    | infinity s => exact hu.elim
    | notANumber => exact hu.elim
    | zero s => rfl
    | finite s m e some => rfl
  · right
    cases u <;> rfl

/-- No number is less than what is below all of them. -/
theorem compare_below {u v : UnpackedFloat} (hu : Canonical u)
    (hv : v = .infinity .negative ∨ v = .notANumber) : u.compare v ≠ some .lt := by
  rcases hv with rfl | rfl
  · cases u with
    | infinity s => exact hu.elim
    | notANumber => exact hu.elim
    | zero s => exact nofun
    | finite s m e some => cases s <;> exact nofun
  · cases u <;> exact nofun

theorem StandsFor.not_lt_sub (hx : StandsFor x p) (hy : StandsFor y q)
    (hz : IsInfinite z ∨ IsNothing z) : ¬ y < x - z := by
  have below := sub_above (standsFor_iff.mp hx).1 hz
  have packed : (x - z).toModel.unpack = .infinity .negative ∨ (x - z).toModel.unpack = .notANumber := by
    refine below.imp (fun h => ?_) fun h => ?_
    · exact (congrArg (fun u => (Float.ofModel (.pack u)).toModel.unpack) h).trans rfl
    · exact (congrArg (fun u => (Float.ofModel (.pack u)).toModel.unpack) h).trans rfl
  exact not_lt_of_compare (compare_below (standsFor_iff.mp hy).1 packed)

/-- No infinity is equal to a number. -/
theorem compare_infinity_ne {v : UnpackedFloat} (hv : Canonical v) (s : Sign) :
    (UnpackedFloat.infinity s).compare v ≠ some .eq := by
  cases v with
  | infinity t => exact hv.elim
  | notANumber => exact hv.elim
  | zero t => cases s <;> exact nofun
  | finite t m e some => cases s <;> exact nofun

/-- What is equal to a number is the same number. -/
theorem StandsFor.of_beq (hy : StandsFor y q) (h : (x == y) = true) : StandsFor x q := by
  have compared : x.toModel.unpack.compare y.toModel.unpack = some .eq := beq_iff_eq.mp h
  have finite : Number.isFinite (.float x) = true := by
    simp only [Number.isFinite]
    rw [ofFloat_eq_fields]
    cases hx : x.toModel.unpack with
    | infinity s =>
      rw [hx] at compared
      exact absurd compared (compare_infinity_ne (standsFor_iff.mp hy).1 s)
    | notANumber => rw [hx] at compared; cases compared
    | zero s => rfl
    | finite s m e some => rfl
  have hx := StandsFor.of_finite finite
  rwa [(hx.beq_iff hy).mp h] at hx

end Wireframe.Double
