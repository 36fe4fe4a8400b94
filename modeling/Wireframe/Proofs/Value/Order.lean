import Wireframe.Proofs.Value.Infinite

/-
  Wireframe.Proofs.Value.Order — numbers in the order of exact numbers.

  Numbers are compared by value, whole numbers and doubles alike. So each of them stands somewhere
  among the exact numbers, or at one of the two ends, and they compare as these places do. Only
  not-a-number stands nowhere, and comparing it with anything comes to nothing.

  Proved:
  - `Double.compare_eq_places`, `Number.compare?_eq`: a comparison is one of places.
  - `Number.lt_iff`, `Number.le_iff`: so are the tests.
  - `Number.Stands.not_lt_iff`, `Number.Stands.le_larger`: numbers that stand somewhere are in a linear order.
  - `Number.Stands.larger_lt_iff`, `Number.Stands.smaller_lt_iff`: when the larger or the smaller one is below.
  - `Number.Stands.le_largest`: and the largest of some is not below any of them.
  - `Number.place?_coordinates_add`: coordinates add up to the sum of the numbers that they are of, when
    this is not too large.
-/

namespace Wireframe

/-! ## Doubles -/

namespace Double

open Float.Model Float.Model.UnpackedFloat Decimal

/-- The exact numbers between two ends. -/
abbrev Line := WithBot (WithTop ℚ)

/-- Where a double stands, nowhere when it is not a number. -/
def place? (x : Float) : Option Line :=
  match Binary.ofFloat x with
  | .nan => none
  | .infinite negative => some (if negative then ⊥ else ((⊤ : WithTop ℚ) : Line))
  | .finite .. => some ((Exact.ofFloat x : WithTop ℚ) : Line)

variable {x y : Float} {q : ℚ}

theorem StandsFor.place? (h : StandsFor x q) : place? x = some ((q : WithTop ℚ) : Line) := by
  obtain ⟨negative, m, e, fields, -⟩ := h.fields
  rw [Double.place?, fields, ← h.exact]

theorem coe_lt_coe {p q : ℚ} : ((p : WithTop ℚ) : Line) < ((q : WithTop ℚ) : Line) ↔ p < q :=
  WithBot.coe_lt_coe.trans WithTop.coe_lt_coe

theorem coe_lt_top (q : ℚ) : ((q : WithTop ℚ) : Line) < ((⊤ : WithTop ℚ) : Line) :=
  WithBot.coe_lt_coe.mpr (WithTop.coe_lt_top q)

/-- Comparing comes to the same before and after what keeps the order. -/
theorem compare_strictMono {β γ : Type} [LinearOrder β] [LinearOrder γ] {f : β → γ} (h : StrictMono f)
    (b c : β) : compare (f b) (f c) = compare b c := by
  rw [← cmp_eq_compare, ← cmp_eq_compare, h.cmp_map_eq]

theorem compare_coe (p q : ℚ) :
    compare ((p : WithTop ℚ) : Line) ((q : WithTop ℚ) : Line) = compare p q :=
  compare_strictMono (f := fun p : ℚ => ((p : WithTop ℚ) : Line)) (fun _ _ => coe_lt_coe.mpr) p q

/-- What a double is, by where it stands. -/
inductive Kind (x : Float) : Option Line → Prop
  | nothing : x.toModel.unpack = .notANumber → Kind x none
  | below : x.toModel.unpack = .infinity .negative → Kind x (some ⊥)
  | above : x.toModel.unpack = .infinity .positive → Kind x (some ((⊤ : WithTop ℚ) : Line))
  | number (q : ℚ) : StandsFor x q → Kind x (some ((q : WithTop ℚ) : Line))

theorem kind (x : Float) : Kind x (place? x) := by
  have fields := ofFloat_eq_fields x
  cases h : x.toModel.unpack with
  | notANumber =>
    rw [place?, fields, h]
    exact .nothing h
  | infinity s =>
    rw [place?, fields, h]
    cases s with
    | positive => exact .above h
    | negative => exact .below h
  | zero s =>
    have number : StandsFor x (Exact.ofFloat x) := .of_finite (by rw [Number.isFinite, fields, h]; rfl)
    exact number.place? ▸ .number _ number
  | finite s m e positive =>
    have number : StandsFor x (Exact.ofFloat x) := .of_finite (by rw [Number.isFinite, fields, h]; rfl)
    exact number.place? ▸ .number _ number

/-- Every number is between the infinities. -/
theorem compare_infinity {v : UnpackedFloat} (hv : Canonical v) :
    (UnpackedFloat.infinity .positive).compare v = some .gt ∧
      (UnpackedFloat.infinity .negative).compare v = some .lt ∧
      v.compare (.infinity .positive) = some .lt ∧ v.compare (.infinity .negative) = some .gt := by
  cases v with
  | infinity s => exact hv.elim
  | notANumber => exact hv.elim
  | zero s => exact ⟨rfl, rfl, rfl, rfl⟩
  | finite s m e positive => cases s <;> exact ⟨rfl, rfl, rfl, rfl⟩

/-- Two doubles compare as the places do where they stand. -/
theorem compare_eq_places (x y : Float) : x.toModel.compare y.toModel =
    (place? x).bind fun p => (place? y).map fun q => compare p q := by
  have hx := kind x
  have hy := kind y
  generalize place? x = p at hx ⊢
  generalize place? y = q at hy ⊢
  show x.toModel.unpack.compare y.toModel.unpack = _
  cases hx with
  | nothing ux => rw [ux]; rfl
  | below ux =>
    cases hy with
    | nothing uy => rw [ux, uy]; rfl
    | below uy => rw [ux, uy]; exact congrArg some (compare_eq_iff_eq.mpr rfl).symm
    | above uy => rw [ux, uy]; exact congrArg some (compare_lt_iff_lt.mpr (WithBot.bot_lt_coe _)).symm
    | number q hy =>
      rw [ux, (compare_infinity (standsFor_iff.mp hy).1).2.1]
      exact congrArg some (compare_lt_iff_lt.mpr (WithBot.bot_lt_coe _)).symm
  | above ux =>
    cases hy with
    | nothing uy => rw [ux, uy]; rfl
    | below uy => rw [ux, uy]; exact congrArg some (compare_gt_iff_gt.mpr (WithBot.bot_lt_coe _)).symm
    | above uy => rw [ux, uy]; exact congrArg some (compare_eq_iff_eq.mpr rfl).symm
    | number q hy =>
      rw [ux, (compare_infinity (standsFor_iff.mp hy).1).1]
      exact congrArg some (compare_gt_iff_gt.mpr (coe_lt_top q)).symm
  | number p hx =>
    cases hy with
    | nothing uy =>
      rw [uy]
      cases x.toModel.unpack <;> rfl
    | below uy =>
      rw [uy, (compare_infinity (standsFor_iff.mp hx).1).2.2.2]
      exact congrArg some (compare_gt_iff_gt.mpr (WithBot.bot_lt_coe _)).symm
    | above uy =>
      rw [uy, (compare_infinity (standsFor_iff.mp hx).1).2.2.1]
      exact congrArg some (compare_lt_iff_lt.mpr (coe_lt_top p)).symm
    | number q hy => exact (hx.compare_eq hy).trans (congrArg some (compare_coe p q).symm)

theorem unpack_zero : (0.0 : Float).toModel.unpack = .zero .positive := by
  have written : (0.0 : Float) = .ofModel (.pack (.zero .positive)) := by decide +kernel
  rw [written]
  rfl

/-- Nothing is added with a zero, unless to the other zero. -/
theorem zero_add (h : x.toModel.unpack ≠ .zero .negative) : 0.0 + x = x := by
  have same : UnpackedFloat.add .binary64 (.zero .positive) x.toModel.unpack = x.toModel.unpack := by
    cases hx : x.toModel.unpack with
    | zero s => cases s with
      | positive => rfl
      | negative => exact absurd hx h
    | _ => rfl
  show Float.ofModel (.pack (.add .binary64 (0.0 : Float).toModel.unpack x.toModel.unpack)) = x
  rw [unpack_zero, same]
  exact Float.ofBits_toBits x

/-- The other zero adds nothing to any double, and with a zero it is this zero. -/
theorem zero_add_negative (h : x.toModel.unpack = .zero .negative) : x + y = y ∧ 0.0 + x = 0.0 := by
  have same : UnpackedFloat.add .binary64 (.zero .negative) y.toModel.unpack = y.toModel.unpack := by
    cases y.toModel.unpack with
    | zero s => cases s <;> rfl
    | _ => rfl
  constructor
  · show Float.ofModel (.pack (.add .binary64 x.toModel.unpack y.toModel.unpack)) = y
    rw [h, same]
    exact Float.ofBits_toBits y
  · show Float.ofModel (.pack (.add .binary64 (0.0 : Float).toModel.unpack x.toModel.unpack)) = 0.0
    rw [unpack_zero, h]
    decide +kernel

/-- A zero makes no difference to where a double stands. -/
theorem place?_zero_add (x : Float) : place? (0.0 + x) = place? x := by
  by_cases h : x.toModel.unpack = .zero .negative
  · have written : place? 0.0 = some ((0 : WithTop ℚ) : Line) := by decide +kernel
    have stands : StandsFor x 0 := standsFor_iff.mpr (by rw [h]; exact ⟨trivial, rfl⟩)
    rw [(zero_add_negative (y := x) h).2, written]
    exact stands.place?.symm
  · rw [zero_add h]

/-- Nor to where a sum stands. -/
theorem place?_zero_add_add (x y : Float) : place? (0.0 + x + y) = place? (x + y) := by
  by_cases h : x.toModel.unpack = .zero .negative
  · obtain ⟨same, zero⟩ := zero_add_negative (y := y) h
    rw [zero, same, place?_zero_add]
  · rw [zero_add h]

theorem lt_iff_compare : x < y ↔ x.toModel.compare y.toModel = some .lt :=
  decide_eq_true_iff.trans beq_iff_eq

theorem beq_iff_compare : (x == y) = true ↔ x.toModel.compare y.toModel = some .eq := by
  show (x.toModel.compare y.toModel == some .eq) = true ↔ _
  exact beq_iff_eq

end Double

/-! ## Numbers -/

namespace Number

open Double Float.Model Float.Model.UnpackedFloat

/-- Where a number stands, nowhere when it is not a number. -/
def place? : Number → Option Line
  | int n => some (((n : ℚ) : WithTop ℚ) : Line)
  | float x => Double.place? x

theorem compareMixed_eq (n : ℤ) (y : Float) :
    compareMixed n y = (Double.place? y).map fun q => compare (((n : ℚ) : WithTop ℚ) : Line) q := by
  have hy := kind y
  generalize Double.place? y = q at hy ⊢
  cases hy with
  | nothing uy => rw [compareMixed, ofFloat_eq_fields, uy]; rfl
  | below uy =>
    rw [compareMixed, ofFloat_eq_fields, uy]
    exact congrArg some (compare_gt_iff_gt.mpr (WithBot.bot_lt_coe _)).symm
  | above uy =>
    rw [compareMixed, ofFloat_eq_fields, uy]
    exact congrArg some (compare_lt_iff_lt.mpr (coe_lt_top _)).symm
  | number q hy => exact (hy.compareMixed n).trans (congrArg some (compare_coe _ q).symm)

/-- Two numbers compare as the places do where they stand. -/
theorem compare?_eq (a b : Number) :
    a.compare? b = a.place?.bind fun p => b.place?.map fun q => compare p q := by
  cases a with
  | int m =>
    cases b with
    | int n =>
      refine congrArg some (Eq.symm ?_)
      exact (compare_coe m n).trans (compare_strictMono Int.cast_strictMono m n)
    | float y => exact compareMixed_eq m y
  | float x =>
    cases b with
    | int n =>
      show (compareMixed n x).map Ordering.swap = _
      rw [compareMixed_eq]
      simp only [place?]
      cases Double.place? x with
      | none => rfl
      | some p => exact congrArg some (Std.OrientedCmp.eq_swap).symm
    | float y =>
      simp only [compare?, place?, lt_iff_compare, beq_iff_compare, compare_eq_places]
      cases Double.place? x with
      | none => cases Double.place? y <;> rfl
      | some p =>
        cases Double.place? y with
        | none => rfl
        | some q =>
          simp only [Option.bind_some, Option.map_some, Option.some.injEq, compare_lt_iff_lt,
            compare_eq_iff_eq]
          rcases lt_trichotomy p q with less | rfl | greater
          · rw [if_pos less, compare_lt_iff_lt.mpr less]
          · rw [if_neg (lt_irrefl _), if_pos rfl, compare_eq_iff_eq.mpr rfl]
          · rw [if_neg greater.not_gt, if_neg greater.ne', if_pos greater, compare_gt_iff_gt.mpr greater]

variable {a b : Number}

theorem lt_iff : a.lt b = true ↔ ∃ p q, a.place? = some p ∧ b.place? = some q ∧ p < q := by
  rw [lt, beq_iff_eq, compare?_eq]
  cases a.place? with
  | none => simp
  | some p => cases b.place? <;> simp [compare_lt_iff_lt]

theorem le_iff : a.le b = true ↔ ∃ p q, a.place? = some p ∧ b.place? = some q ∧ p ≤ q := by
  rw [le, Bool.or_eq_true, beq_iff_eq, beq_iff_eq, compare?_eq]
  cases a.place? with
  | none => simp
  | some p => cases b.place? <;> simp [compare_lt_iff_lt, le_iff_lt_or_eq]

theorem le_trans {c : Number} (hab : a.le b = true) (hbc : b.le c = true) : a.le c = true := by
  obtain ⟨p, q, hp, hq, below⟩ := le_iff.mp hab
  obtain ⟨q', r, hq', hr, above⟩ := le_iff.mp hbc
  obtain rfl : q = q' := Option.some.inj (hq.symm.trans hq')
  exact le_iff.mpr ⟨p, r, hp, hr, below.trans above⟩

theorem le_of_lt (h : a.lt b = true) : a.le b = true := by
  obtain ⟨p, q, hp, hq, below⟩ := lt_iff.mp h
  exact le_iff.mpr ⟨p, q, hp, hq, below.le⟩

theorem lt_irrefl (a : Number) : a.lt a = false := by
  refine Bool.eq_false_iff.mpr fun below => ?_
  obtain ⟨p, q, hp, hq, below⟩ := lt_iff.mp below
  cases hp.symm.trans hq
  exact below.ne rfl

/-- Numbers in one place compare alike. -/
theorem lt_congr {a' b' : Number} (ha : a.place? = a'.place?) (hb : b.place? = b'.place?) :
    a.lt b = a'.lt b' := by
  rw [lt, lt, compare?_eq, compare?_eq, ha, hb]

theorem place?_larger {p q : Double.Line} (ha : a.place? = some p) (hb : b.place? = some q) :
    (Quantity.larger a b).place? = some (max p q) := by
  unfold Quantity.larger
  split
  · rename_i below
    obtain ⟨p', q', hp, hq, below⟩ := lt_iff.mp below
    cases ha.symm.trans hp
    cases hb.symm.trans hq
    rw [max_eq_right below.le, hb]
  · rename_i reached
    have above : ¬p < q := fun below => reached (lt_iff.mpr ⟨p, q, ha, hb, below⟩)
    rw [max_eq_left (not_lt.mp above), ha]

theorem place?_smaller {p q : Double.Line} (ha : a.place? = some p) (hb : b.place? = some q) :
    (Quantity.smaller a b).place? = some (min p q) := by
  unfold Quantity.smaller
  split
  · rename_i below
    obtain ⟨q', p', hq, hp, below⟩ := lt_iff.mp below
    cases ha.symm.trans hp
    cases hb.symm.trans hq
    rw [min_eq_right below.le, hb]
  · rename_i reached
    have above : ¬q < p := fun below => reached (lt_iff.mpr ⟨q, p, hb, ha, below⟩)
    rw [min_eq_left (not_lt.mp above), ha]

/-! ## Numbers that stand somewhere -/

/-- The number stands somewhere. -/
def Stands (a : Number) : Prop := ∃ p, a.place? = some p

theorem stands_int (n : ℤ) : (int n).Stands := ⟨_, rfl⟩

theorem stands_of_isFinite (h : a.isFinite = true) : a.Stands := by
  cases a with
  | int n => exact stands_int n
  | float x => exact ⟨_, (StandsFor.of_finite h).place?⟩

theorem stands_float_iff {x : Float} : (float x).Stands ↔ x.toModel.unpack ≠ .notANumber := by
  have hx := kind x
  show (∃ p, Double.place? x = some p) ↔ _
  generalize Double.place? x = p at hx ⊢
  cases hx with
  | nothing ux => simp [ux]
  | below ux => simp [ux]
  | above ux => simp [ux]
  | number q hx =>
    have canonical := (standsFor_iff.mp hx).1
    refine iff_of_true ⟨_, rfl⟩ fun nothing => ?_
    rw [nothing] at canonical
    exact canonical

theorem stands_of_lt (h : a.lt b = true) : a.Stands ∧ b.Stands := by
  obtain ⟨p, q, hp, hq, -⟩ := lt_iff.mp h
  exact ⟨⟨p, hp⟩, q, hq⟩

namespace Stands

/-- Of two numbers that stand somewhere, one is not above the other when it is not below it. -/
theorem not_lt_iff (ha : a.Stands) (hb : b.Stands) : a.lt b = false ↔ b.le a = true := by
  obtain ⟨p, hp⟩ := ha
  obtain ⟨q, hq⟩ := hb
  rw [← Bool.not_eq_true, lt_iff, le_iff]
  simp [hp, hq]

theorem le_refl (ha : a.Stands) : a.le a = true := by
  obtain ⟨p, hp⟩ := ha
  exact le_iff.mpr ⟨p, p, hp, hp, le_rfl⟩

theorem larger (ha : a.Stands) : (Quantity.larger a b).Stands := by
  unfold Quantity.larger
  split
  · exact (stands_of_lt ‹_›).2
  · exact ha

theorem smaller (ha : a.Stands) : (Quantity.smaller a b).Stands := by
  unfold Quantity.smaller
  split
  · exact (stands_of_lt ‹_›).1
  · exact ha

/-- The larger one of two numbers is not below the second one. -/
theorem le_larger (ha : a.Stands) (hb : b.Stands) : b.le (Quantity.larger a b) = true := by
  unfold Quantity.larger
  split
  · exact hb.le_refl
  · rename_i reached
    exact (ha.not_lt_iff hb).mp (Bool.eq_false_iff.mpr reached)

/-- The larger one of two numbers is not below the first one either. -/
theorem le_larger_first (ha : a.Stands) : a.le (Quantity.larger a b) = true := by
  unfold Quantity.larger
  split
  · exact le_of_lt ‹_›
  · exact ha.le_refl

theorem smaller_le (ha : a.Stands) (hb : b.Stands) : (Quantity.smaller a b).le b = true := by
  obtain ⟨p, hp⟩ := ha
  obtain ⟨q, hq⟩ := hb
  exact le_iff.mpr ⟨_, _, place?_smaller hp hq, hq, min_le_right p q⟩

/-- The larger one of two numbers is below a third when both are. -/
theorem larger_lt_iff {c : Number} (ha : a.Stands) (hb : b.Stands) :
    (Quantity.larger a b).lt c = true ↔ a.lt c = true ∧ b.lt c = true := by
  obtain ⟨p, hp⟩ := ha
  obtain ⟨q, hq⟩ := hb
  simp only [lt_iff, place?_larger hp hq, hp, hq, Option.some.injEq]
  cases c.place? <;> simp

/-- The smaller one of two numbers is below a third when one of them is. -/
theorem smaller_lt_iff {c : Number} (ha : a.Stands) (hb : b.Stands) :
    (Quantity.smaller a b).lt c = true ↔ a.lt c = true ∨ b.lt c = true := by
  obtain ⟨p, hp⟩ := ha
  obtain ⟨q, hq⟩ := hb
  simp only [lt_iff, place?_smaller hp hq, hp, hq, Option.some.injEq]
  cases c.place? <;> simp

/-- The largest of some numbers is not below any of them, nor below the one that is compared first. -/
theorem le_foldl_larger {sizes : List Number} (stands : ∀ size ∈ sizes, size.Stands) : ∀ {first : Number},
    first.Stands → first.le (sizes.foldl Quantity.larger first) = true ∧
      ∀ size ∈ sizes, size.le (sizes.foldl Quantity.larger first) = true := by
  induction sizes with
  | nil => exact fun hf => ⟨hf.le_refl, nofun⟩
  | cons size rest ih =>
    intro first hf
    obtain ⟨hs, below⟩ := List.forall_mem_cons.mp stands
    obtain ⟨own, others⟩ := ih below (hf.larger (b := size))
    exact ⟨le_trans hf.le_larger_first own,
      List.forall_mem_cons.mpr ⟨le_trans (hf.le_larger hs) own, others⟩⟩

theorem le_largest {sizes : List Number} (stands : ∀ size ∈ sizes, size.Stands) :
    ∀ size ∈ sizes, size.le (Quantity.largest sizes) = true := by
  cases sizes with
  | nil => nofun
  | cons first rest =>
    obtain ⟨hf, below⟩ := List.forall_mem_cons.mp stands
    exact List.forall_mem_cons.mpr (le_foldl_larger below hf)

end Stands

/-! ## Calculations -/

/-- What is put together of a sign, a mantissa and a power is a number, or an infinity. -/
theorem stands_pack {u : UnpackedFloat} (h : Canonical u) : (float (.ofModel (.pack u))).Stands := by
  refine stands_float_iff.mpr fun nothing => ?_
  change UnpackedFloat.unpack .binary64 (UnpackedFloat.pack .binary64 u) = _ at nothing
  rcases lt_or_ge |value u| (2 ^ (1024 : ℤ)) with range | beyond
  · rw [unpack_pack_canonical h range] at nothing
    rw [nothing] at h
    exact h
  · cases u with
    | infinity s => exact h
    | notANumber => exact h
    | zero s =>
      rw [value_zero, abs_zero] at beyond
      exact beyond.not_gt (Double.place_pos 1024)
    | finite s m e positive =>
      rw [unpack_pack_beyond h beyond] at nothing
      cases nothing

/-- With a number added, an infinity stays what it is. -/
theorem stands_pack_add_infinity (s : Sign) {v : UnpackedFloat} (hv : Canonical v) :
    (float (.ofModel (.pack (UnpackedFloat.add .binary64 (.infinity s) v)))).Stands := by
  have sum : UnpackedFloat.add .binary64 (.infinity s) v = .infinity s := by
    cases v with
    | infinity t => exact hv.elim
    | notANumber => exact hv.elim
    | zero t => rfl
    | finite t m e positive => rfl
  refine stands_float_iff.mpr ?_
  rw [sum]
  cases s <;> exact nofun

/-- A number that has a double has the one next to it. -/
theorem eq_toFloat {x : Float} (h : a.toDouble = .ok x) : x = a.toFloat := by
  cases a with
  | int n =>
    simp only [toDouble] at h
    split at h
    · exact (Except.ok.inj h).symm
    · cases h
  | float y => exact (Except.ok.inj h).symm

theorem isFinite_of_toDouble {x : Float} (ha : a.isFinite = true) (h : a.toDouble = .ok x) :
    Canonical x.toModel.unpack := by
  refine (isFinite_iff x).mp ?_
  cases a with
  | int n =>
    simp only [toDouble] at h
    split at h
    · cases h; assumption
    · cases h
  | float y => cases h; exact ha

theorem Stands.of_toDouble {x : Float} (ha : a.Stands) (h : a.toDouble = .ok x) : (float x).Stands := by
  cases a with
  | int n => exact stands_of_isFinite ((isFinite_iff x).mpr (isFinite_of_toDouble rfl h))
  | float y => cases h; exact ha

/-- A product of finite numbers stands somewhere. -/
theorem stands_mul {c : Number} (ha : a.isFinite = true) (hb : b.isFinite = true)
    (h : Number.mul a b = .ok c) : c.Stands := by
  unfold mul combine at h
  split at h
  · cases h; exact stands_int _
  · simp only [Result.bind_eq_ok] at h
    obtain ⟨x, hx, y, hy, h⟩ := h
    cases h
    exact stands_pack (mul_eq (isFinite_of_toDouble ha hx) (isFinite_of_toDouble hb hy)).1

/-- So does a sum with a finite number. -/
theorem Stands.add {c : Number} (ha : a.Stands) (hb : b.isFinite = true) (h : Number.add a b = .ok c) :
    c.Stands := by
  unfold Number.add combine at h
  split at h
  · cases h; exact stands_int _
  · simp only [Result.bind_eq_ok] at h
    obtain ⟨x, hx, y, hy, h⟩ := h
    cases h
    have finite := isFinite_of_toDouble hb hy
    obtain ⟨p, hp⟩ := ha.of_toDouble hx
    have hx := kind x
    rw [show Double.place? x = some p from hp] at hx
    show (float (.ofModel (.pack (UnpackedFloat.add .binary64 x.toModel.unpack y.toModel.unpack)))).Stands
    cases hx with
    | below ux => rw [ux]; exact stands_pack_add_infinity _ finite
    | above ux => rw [ux]; exact stands_pack_add_infinity _ finite
    | number q hx => exact stands_pack (add_eq (standsFor_iff.mp hx).1 finite).1

/-! ## Coordinates -/

/-- The double next to the number is in the same place. -/
def IsDouble (a : Number) : Prop := (float a.toFloat).place? = a.place?

theorem isDouble_float (x : Float) : (float x).IsDouble := rfl

theorem isDouble_int {n : ℤ} (short : |n| ≤ 2 ^ 53) : (int n).IsDouble :=
  (standsFor_intCast short).place?

theorem IsDouble.larger (ha : a.IsDouble) (hb : b.IsDouble) : (Quantity.larger a b).IsDouble := by
  unfold Quantity.larger
  split
  · exact hb
  · exact ha

theorem IsDouble.smaller (ha : a.IsDouble) (hb : b.IsDouble) : (Quantity.smaller a b).IsDouble := by
  unfold Quantity.smaller
  split
  · exact hb
  · exact ha

/-- A whole number that has a double, and a number below it, is in the range of doubles. -/
theorem inRange_of_toDouble {n : ℤ} {x y : Float} {q : ℚ} (hx : (int n).toDouble = .ok x)
    (hy : StandsFor y q) (below : q ≤ n) : Double.InRange n := by
  rcases lt_or_ge n 0 with negative | nonneg
  · have negative : (n : ℚ) < 0 := by exact_mod_cast negative
    refine hy.inRange.of_abs_le ?_
    rw [abs_of_neg negative, abs_of_neg (below.trans_lt negative)]
    exact neg_le_neg below
  · obtain ⟨k, rfl⟩ := Int.eq_ofNat_of_zero_le nonneg
    by_contra beyond
    have infinite : IsInfinite (Float.ofNat k) := isInfinite_ofNat (by exact_mod_cast beyond)
    have finite := isFinite_of_toDouble rfl hx
    rw [eq_toFloat hx, show (int k).toFloat.toModel.unpack = _ from infinite] at finite
    exact finite

/-- Rounding does not take a number below a double. -/
theorem IsDouble.le_toFloat {x : Float} (ha : a.IsDouble) (h : a.le b = true)
    (hx : b.toDouble = .ok x) : a.le (float b.toFloat) = true := by
  cases b with
  | float y => exact h
  | int n =>
    obtain ⟨p, _, hp, e, below⟩ := le_iff.mp h
    cases e
    have ka := kind a.toFloat
    rw [show Double.place? a.toFloat = some p from ha.trans hp] at ka
    cases ka with
    | below _ =>
      obtain ⟨q, hq⟩ := (stands_int n).of_toDouble hx
      exact le_iff.mpr ⟨_, q, hp, eq_toFloat hx ▸ hq, bot_le⟩
    | above _ => exact absurd below (not_le.mpr (coe_lt_top _))
    | number q hy =>
      have below : q ≤ n := WithTop.coe_le_coe.mp (WithBot.coe_le_coe.mp below)
      have hn := standsFor_ofInt (inRange_of_toDouble hx hy below)
      refine le_iff.mpr ⟨_, _, hp, hn.place?, WithBot.coe_le_coe.mpr (WithTop.coe_le_coe.mpr ?_)⟩
      calc q = nearest q := hy.nearest_eq.symm
        _ ≤ nearest n := nearest_mono below

/-! ## Sums -/

/-- A sum that is the same number when it is calculated with doubles: of a double and anything, or of
whole numbers of at most 53 bits with such a sum. -/
def SumFits : Number → Number → Prop
  | int n, int m => |n| ≤ 2 ^ 53 ∧ |m| ≤ 2 ^ 53 ∧ |n + m| ≤ 2 ^ 53
  | _, _ => True

/-- The coordinates of two numbers, the first one moved there from zero, add up to their sum. -/
theorem place?_coordinates_add {c : Number} (h : Number.add a b = .ok c) (fits : SumFits a b) :
    (float (0.0 + a.toFloat + b.toFloat)).place? = c.place? := by
  refine (place?_zero_add_add _ _).trans ?_
  unfold Number.add combine at h
  split at h
  · rename_i n m
    cases h
    obtain ⟨shortFirst, shortSecond, short⟩ := fits
    have sum := standsFor_intCast short
    rw [Int.cast_add] at sum
    have added := (standsFor_intCast shortFirst).add (standsFor_intCast shortSecond) sum.inRange
    rw [sum.nearest_eq] at added
    rw [← Int.cast_add] at added
    exact added.place?
  · simp only [Result.bind_eq_ok] at h
    obtain ⟨x, hx, y, hy, h⟩ := h
    cases h
    rw [← eq_toFloat hx, ← eq_toFloat hy]
    rfl

end Number

end Wireframe
