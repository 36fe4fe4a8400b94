import Wireframe.Proofs.Layout.Hidden
import Wireframe.Proofs.Value.Infinite

/-
  Wireframe.Proofs.Layout.Bounds — how a calculation of a layout can fail, and on what grounds.

  Layout adds up whole numbers exactly and leaves them for doubles as soon as a double takes part.
  So a calculation fails when a whole number has no double, or when the whole part of an infinity or
  of nothing is asked for. Nothing is divided by zero. When it is known how large the whole numbers
  in a calculation are, it is known how large the outcome is, and whether it has a double.

  Proved:
  - `Calculates.bind`, `Lays.bind`: what holds of every step holds of the whole, with the same
    grounds for its failing.
  - `toDouble_calculates`: whole numbers below a limit have doubles.
  - `calculates_add`, `calculates_sub`, `calculates_mul`, `calculates_div`: what the operations come
    to, and on what grounds they fail.
  - `whole_calculates`, `ceil_calculates`: whole parts of what is finite.
-/

namespace Wireframe

open Double Quantity

/-! ## Grounds -/

/-- What a failure may be put down to. -/
structure Grounds where
  /-- A whole number has no double. -/
  size : Prop
  /-- A quotient is infinite, or nothing at all. -/
  quotient : Prop

namespace Grounds

variable {β γ α : Type} {g : Grounds}

def Explains (g : Grounds) : CalculationFault → Prop
  | .tooLarge => g.size
  | .infinite | .notANumber => g.quotient
  | _ => False

def ExplainsFailure (g : Grounds) : Failure → Prop
  | .frame _ => g.size
  | .calculation fault => g.Explains fault
  | _ => False

theorem not_explainsFailure {e : Failure} (size : ¬g.size) (quotient : ¬g.quotient) :
    ¬g.ExplainsFailure e := by
  cases e with
  | frame faults => exact size
  | calculation fault => cases fault <;> first | exact size | exact quotient | exact id
  | _ => exact id

/-- The calculation comes to something with a property, or fails on these grounds. -/
structure Calculates (g : Grounds) (P : β → Prop) (c : Calculation β) : Prop where
  result : ∀ b, c = .ok b → P b
  fault : ∀ f, c = .error f → g.Explains f

/-- The same for a layout in progress. -/
structure Lays (g : Grounds) (P : β → Prop) (t : Laying α β) : Prop where
  result : ∀ b, t.result = .ok b → P b
  fault : ∀ f, t.result = .error f → g.ExplainsFailure f

variable {P : β → Prop} {Q : γ → Prop}

theorem Calculates.ok {b : β} (h : P b) : g.Calculates P (.ok b) where
  result _ e := Except.ok.inj e ▸ h
  fault := nofun

theorem Calculates.error {f : CalculationFault} (h : g.Explains f) : g.Calculates P (.error f) where
  result := nofun
  fault _ e := Except.error.inj e ▸ h

theorem Calculates.bind {c : Calculation β} {f : β → Calculation γ} (h : g.Calculates P c)
    (next : ∀ b, P b → g.Calculates Q (f b)) : g.Calculates Q (c >>= f) := by
  cases hc : c with
  | ok b => exact next b (h.result b hc)
  | error e => exact .error (h.fault e hc)

theorem Calculates.imp {c : Calculation β} {P' : β → Prop} (h : g.Calculates P c)
    (imp : ∀ b, P b → P' b) : g.Calculates P' c :=
  ⟨fun b hb => imp b (h.result b hb), h.fault⟩

/-- What the calculation comes to is known to come of it. -/
theorem Calculates.known {c : Calculation β} (h : g.Calculates P c) :
    g.Calculates (fun b => P b ∧ c = .ok b) c :=
  ⟨fun b hb => ⟨h.result b hb, hb⟩, h.fault⟩

theorem Lays.done {b : β} (h : P b) : g.Lays P (Trail.done b : Laying α β) where
  result _ e := Except.ok.inj e ▸ h
  fault := nofun

theorem Lays.bind {t : Laying α β} {f : β → Laying α γ} (h : g.Lays P t)
    (next : ∀ b, P b → g.Lays Q (f b)) : g.Lays Q (t >>= f) where
  result c hc := by
    obtain ⟨b, hb, hc⟩ := Trail.result_bind_eq_ok.mp hc
    exact (next b (h.result b hb)).result c hc
  fault e he := by
    rcases Trail.result_bind_eq_error.mp he with he | ⟨b, hb, he⟩
    · exact h.fault e he
    · exact (next b (h.result b hb)).fault e he

theorem Lays.imp {t : Laying α β} {P' : β → Prop} (h : g.Lays P t) (imp : ∀ b, P b → P' b) :
    g.Lays P' t :=
  ⟨fun b hb => imp b (h.result b hb), h.fault⟩

theorem Calculates.lays {c : Calculation β} (h : g.Calculates P c) : g.Lays P (liftM c : Laying α β) where
  result b hb := h.result b (Laying.result_lift.mp hb)
  fault e he := by
    obtain ⟨f, hf, rfl⟩ := Result.mapError_eq_error.mp he
    exact h.fault f hf

theorem Lays.ite_note {p : Prop} [Decidable p] {w : Defect α} {t : Laying α β} (h : g.Lays P t) :
    g.Lays P (if p then (Trail.note w >>= fun _ => t) else t) where
  result b hb := h.result b ((Trail.result_ite_note w t).symm.trans hb)
  fault e he := h.fault e ((Trail.result_ite_note w t).symm.trans he)

end Grounds

/-! ## Bounds -/

/-- Whole numbers below this have doubles. -/
def wholeLimit : ℕ := Decimal.twoTo 1023

/-- A whole number is no larger than this. -/
def Number.UpTo (k : ℕ) : Number → Prop
  | .int n => n.natAbs ≤ k
  | .float _ => True

def Number.IsFloat (a : Number) : Prop := ∃ x, a = .float x

/-- Whole numbers no larger than this have doubles, or else their size is a ground. -/
def Grounds.Fits (g : Grounds) (k : ℕ) : Prop := k < wholeLimit ∨ g.size

section

variable {g : Grounds} {j k l : ℕ} {a b : Number}

theorem Grounds.Fits.mono (h : g.Fits k) (less : j ≤ k) : g.Fits j := h.imp_left less.trans_lt

theorem Decimal.twoTo_le (less : j ≤ k) : Decimal.twoTo j ≤ Decimal.twoTo k :=
  Nat.pow_le_pow_right two_pos less

theorem Grounds.fits_constant (h : k < Decimal.twoTo 53) : g.Fits k :=
  .inl (h.trans_le (Decimal.twoTo_le (by decide)))

theorem Grounds.fits_zero : g.Fits 0 := fits_constant (by decide)

namespace Number

theorem UpTo.mono (h : a.UpTo j) (less : j ≤ k) : a.UpTo k := by
  cases a with
  | int n => exact Nat.le_trans h less
  | float x => trivial

theorem IsFloat.upTo (h : a.IsFloat) : a.UpTo k := by
  obtain ⟨x, rfl⟩ := h
  trivial

theorem UpTo.larger (ha : a.UpTo k) (hb : b.UpTo k) : (Quantity.larger a b).UpTo k :=
  Quantity.larger_of (P := UpTo k) ha hb

theorem UpTo.smaller (ha : a.UpTo k) (hb : b.UpTo k) : (Quantity.smaller a b).UpTo k :=
  Quantity.smaller_of (P := UpTo k) ha hb

theorem upTo_foldl_larger {as : List Number} (ha : a.UpTo k) (h : ∀ b ∈ as, b.UpTo k) :
    (as.foldl Quantity.larger a : Number).UpTo k := by
  induction as generalizing a with
  | nil => exact ha
  | cons b rest ih =>
    obtain ⟨hb, hrest⟩ := List.forall_mem_cons.mp h
    exact ih (ha.larger hb) hrest

theorem upTo_largest {as : List Number} (h : ∀ a ∈ as, a.UpTo k) :
    (Quantity.largest as : Number).UpTo k := by
  cases as with
  | nil => exact Nat.zero_le k
  | cons a rest => exact upTo_foldl_larger (h a List.mem_cons_self) fun b hb => h b (List.mem_cons_of_mem a hb)

theorem IsPadding.upTo {p : Number} (h : p.IsPadding) : p.UpTo 0 := by
  rcases h with rfl | ⟨x, rfl⟩
  · exact Nat.le_refl 0
  · trivial

/-- Within the range of doubles a whole number has one. -/
theorem toDouble_of_inRange {n : ℤ} (h : Double.InRange n) : (int n).toDouble = .ok (Float.ofInt n) :=
  if_pos (standsFor_ofInt h).finite

theorem inRange_of_natAbs_lt {n : ℤ} (h : n.natAbs < wholeLimit) : Double.InRange n := by
  refine inRange_of_le (k := 1023) ?_ (by decide) (by decide)
  have cast : (n.natAbs : ℚ) ≤ (wholeLimit : ℕ) := by exact_mod_cast h.le
  rw [Nat.cast_natAbs, Int.cast_abs] at cast
  exact cast.trans_eq (twoTo_cast 1023)

theorem toDouble_calculates (fits : g.Fits k) (ha : a.UpTo k) :
    g.Calculates (fun _ => True) a.toDouble := by
  cases a with
  | float x => exact .ok trivial
  | int n =>
    rcases fits with short | size
    · rw [toDouble_of_inRange (inRange_of_natAbs_lt (ha.trans_lt short))]
      exact .ok trivial
    · simp only [toDouble]
      split
      · exact .ok trivial
      · exact .error size

/-! ## Operations -/

theorem combine_calculates {onInts : ℤ → ℤ → ℤ} {onDoubles : Float → Float → Float}
    (ha : g.Calculates (fun _ => True) a.toDouble) (hb : g.Calculates (fun _ => True) b.toDouble)
    (ints : ∀ m n, a = .int m → b = .int n → (onInts m n).natAbs ≤ l) :
    g.Calculates (UpTo l) (combine onInts onDoubles a b) := by
  have doubles : g.Calculates (UpTo l) (a.toDouble >>= fun x => b.toDouble >>= fun y =>
      .ok (float (onDoubles x y))) :=
    ha.bind fun x _ => hb.bind fun y _ => .ok trivial
  cases a with
  | float x => exact doubles
  | int m =>
    cases b with
    | float y => exact doubles
    | int n => exact .ok (ints m n rfl rfl)

/-- As soon as a double takes part, the outcome is a double. -/
theorem combine_float_calculates {onInts : ℤ → ℤ → ℤ} {onDoubles : Float → Float → Float}
    (ha : g.Calculates (fun _ => True) a.toDouble) (hb : g.Calculates (fun _ => True) b.toDouble)
    (double : a.IsFloat ∨ b.IsFloat) : g.Calculates IsFloat (combine onInts onDoubles a b) := by
  have doubles : g.Calculates IsFloat (a.toDouble >>= fun x => b.toDouble >>= fun y =>
      .ok (float (onDoubles x y))) :=
    ha.bind fun x _ => hb.bind fun y _ => .ok ⟨_, rfl⟩
  rcases double with ⟨x, rfl⟩ | ⟨y, rfl⟩
  · exact doubles
  · cases a with
    | float x => exact doubles
    | int m => exact doubles

end Number

open Number

/-- A gap or padding is zero or a double. -/
theorem Spacing.quantity_upTo (p : Option (Spacing Float)) :
    (Spacing.orZero p : Spacing Number).quantity.UpTo 0 :=
  (Spacing.isPadding p).upTo

variable {c d : Calculation Number}

/-- An operation on two calculations. -/
theorem Grounds.calculates_lift {op : Number → Number → Calculation Number} {P Q R : Number → Prop}
    (hc : g.Calculates P c) (hd : g.Calculates Q d) (step : ∀ a b, P a → Q b → g.Calculates R (op a b)) :
    g.Calculates R (lift op c d) :=
  hc.bind fun a ha => hd.bind fun b hb => step a b ha hb

theorem Grounds.calculates_add (hc : g.Calculates (UpTo j) c) (hd : g.Calculates (UpTo k) d)
    (fits : g.Fits j) (fits' : g.Fits k) : g.Calculates (UpTo (j + k)) (c + d) := by
  refine calculates_lift hc hd fun a b ha hb =>
    combine_calculates (toDouble_calculates fits ha) (toDouble_calculates fits' hb) ?_
  rintro m n rfl rfl
  exact (Int.natAbs_add_le m n).trans (Nat.add_le_add ha hb)

theorem Grounds.calculates_sub (hc : g.Calculates (UpTo j) c) (hd : g.Calculates (UpTo k) d)
    (fits : g.Fits j) (fits' : g.Fits k) : g.Calculates (UpTo (j + k)) (c - d) := by
  refine calculates_lift hc hd fun a b ha hb =>
    combine_calculates (toDouble_calculates fits ha) (toDouble_calculates fits' hb) ?_
  rintro m n rfl rfl
  exact (Int.natAbs_sub_le m n).trans (Nat.add_le_add ha hb)

theorem Grounds.calculates_mul (hc : g.Calculates (UpTo j) c) (hd : g.Calculates (UpTo k) d)
    (fits : g.Fits j) (fits' : g.Fits k) : g.Calculates (UpTo (j * k)) (c * d) := by
  refine calculates_lift hc hd fun a b ha hb =>
    combine_calculates (toDouble_calculates fits ha) (toDouble_calculates fits' hb) ?_
  rintro m n rfl rfl
  rw [Int.natAbs_mul]
  exact Nat.mul_le_mul ha hb

/-! ## Quotients and whole parts -/

theorem Number.not_le_zero_iff {n : ℤ} : (int n).le (.int 0) = false ↔ 0 < n := by
  simp only [le, compare?]
  rcases lt_trichotomy n 0 with below | rfl | above
  · simp [compare_lt_iff_lt.mpr below, below.le]
  · simp
  · simp [compare_gt_iff_gt.mpr above, above]

/-- What is not at most zero has no double that is zero. -/
theorem Number.toDouble_ne_zero (h : b.le (.int 0) = false) {y : Float} (hy : b.toDouble = .ok y) :
    (y == 0.0) = false := by
  rw [Bool.eq_false_iff]
  intro equal
  have zero : StandsFor 0.0 0 := ⟨by decide +kernel, by decide +kernel⟩
  have stands : StandsFor y 0 := zero.of_beq equal
  cases b with
  | float x =>
    obtain rfl : x = y := Except.ok.inj hy
    have mixed := stands.compareMixed 0
    have same : Number.compare? (.float x) (.int 0) = some .eq := by
      rw [compare?, mixed]
      decide +kernel
    simp [le, same] at h
  | int n =>
    have positive := not_le_zero_iff.mp h
    obtain ⟨k, rfl⟩ := Int.eq_ofNat_of_zero_le positive.le
    have opened : y = Float.ofNat k := by
      simp only [toDouble] at hy
      split at hy
      · exact (Except.ok.inj hy).symm
      · cases hy
    by_cases range : Double.InRange k
    · have same := (opened ▸ standsFor_ofNat range).exact.symm.trans stands.exact
      have least := one_le_nearest (Int.natCast_pos.mp positive)
      rw [same] at least
      exact absurd least (by norm_num)
    · have infinite := isInfinite_ofNat range
      have canonical := (standsFor_iff.mp stands).1
      rw [opened, show (Float.ofNat k).toModel.unpack = _ from infinite] at canonical
      exact canonical

/-- A quotient is a double. It fails only by its size, when nothing is divided by zero. -/
theorem Number.div_calculates (fits : g.Fits j) (fits' : g.Fits k) (ha : a.UpTo j) (hb : b.UpTo k)
    (nonzero : b.le (.int 0) = false) : g.Calculates IsFloat (Number.div a b) := by
  have doubles : g.Calculates IsFloat (a.toDouble >>= fun x =>
      b.toDouble >>= fun y => if y == 0.0 then .error .zeroDivisor else .ok (Number.float (x / y))) := by
    refine (toDouble_calculates fits ha).bind fun x _ => ?_
    cases hy : b.toDouble with
    | error e => exact .error ((toDouble_calculates fits' hb).fault e hy)
    | ok y =>
      show g.Calculates _ (if y == 0.0 then .error .zeroDivisor else .ok (Number.float (x / y)))
      rw [toDouble_ne_zero nonzero hy]
      exact .ok ⟨_, rfl⟩
  cases a with
  | float x => exact doubles
  | int m =>
    cases b with
    | float y => exact doubles
    | int n =>
      have positive := not_le_zero_iff.mp nonzero
      show g.Calculates IsFloat (quotient m n)
      unfold quotient
      rw [if_neg positive.ne']
      dsimp only
      split
      · exact .ok ⟨_, rfl⟩
      · rename_i none
        refine .error (fits.resolve_left fun short => ?_)
        obtain ⟨x, hx⟩ := Double.nearestTo_isSome (k := 1023) (ha.trans_lt short) le_rfl
          (Int.natAbs_pos.mpr positive.ne')
        rw [hx] at none
        cases none

theorem Grounds.calculates_div (hc : g.Calculates (UpTo j) c)
    (hd : g.Calculates (fun b => b.UpTo k ∧ b.le (.int 0) = false) d) (fits : g.Fits j)
    (fits' : g.Fits k) : g.Calculates IsFloat (c / d) :=
  calculates_lift hc hd fun _ _ ha hb => div_calculates fits fits' ha hb.1 hb.2

/-- Only infinities and nothing at all have no whole part. -/
theorem Number.whole_calculates {onRatio : Decimal.Ratio → ℤ} (h : a.isFinite = true ∨ g.quotient) :
    g.Calculates (fun _ => a.isFinite = true) (whole onRatio a) := by
  cases a with
  | int n => exact .ok rfl
  | float x =>
    simp only [whole, isFinite] at h ⊢
    cases fields : Decimal.Binary.ofFloat x with
    | nan =>
      rw [fields] at h
      exact .error (h.resolve_left Bool.false_ne_true)
    | infinite s =>
      rw [fields] at h
      exact .error (h.resolve_left Bool.false_ne_true)
    | finite => exact .ok rfl

/-- The least whole number above a double has a double. -/
theorem Number.ceil_calculates (float : a.IsFloat) (h : a.isFinite = true ∨ g.quotient) :
    g.Calculates (fun n : ℤ => Double.InRange n) a.ceil := by
  obtain ⟨x, rfl⟩ := float
  refine ⟨fun n hn => ?_, (whole_calculates h).fault⟩
  have finite : (Number.float x).isFinite = true := (whole_calculates h).result n hn
  have stands := StandsFor.of_finite finite
  obtain rfl := Except.ok.inj (hn.symm.trans stands.ceil)
  exact stands.ceil_inRange

end

end Wireframe
