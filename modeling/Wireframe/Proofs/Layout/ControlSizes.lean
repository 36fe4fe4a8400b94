import Wireframe.Proofs.Layout.Targets

/-
  Wireframe.Proofs.Layout.ControlSizes — what buttons and fields measure, and when it is too little.

  A control has a policy for its width and one for its height, bounds that it need not have and that
  need not agree, and a touch target. In width the bounds come first and the touch target last, so no
  control is narrower than the target, whatever its bounds say. In height the target comes first and
  the bounds last. So the upper bound can take a control below the target, and so can the lower one
  where the height is fixed, because a fixed height starts from this bound and not from the target.
  Nothing else can, and these are the controls that a layout tells of.

  Where the bounds do not agree, the upper one holds. All this is about comparisons alone, and so it
  holds of any widths and bounds that can be compared, infinities included.

  Proved:
  - `Measure.clamp_le`, `Measure.le_clamp`, `Measure.clamp_lt_iff`: what bounds do to a number.
  - `Measure.control_sized`: what a control measures.
  - `Node.placed_control_iff`: a control is laid out when its size can be written in doubles.
  - `control_sizes`: the sizes and the warning together.
-/

namespace Wireframe

open Quantity Number

/-! ## Choices -/

section

variable {α δ : Type} [Quantity α δ] {P : α → Prop}

/-- With bounds a number is itself or one of the bounds. -/
theorem Measure.clamp_of {value : α} {low high : Option α} (hv : P value) (hl : ∀ l ∈ low, P l)
    (hh : ∀ m ∈ high, P m) : P (clamp value low high) := by
  have cut : ∀ {w : α}, P w → P (clamp w none high) := by
    intro w hw
    cases high with
    | none => exact hw
    | some m => exact smaller_of hw (hh m rfl)
  cases low with
  | none => exact cut hv
  | some l => exact cut (larger_of hv (hl l rfl))

end

namespace Number

variable {a b c : Number}

theorem larger_le (ha : a.le c = true) (hb : b.le c = true) : (Quantity.larger a b).le c = true :=
  larger_of (P := fun d => Number.le d c = true) ha hb

theorem le_smaller (ha : c.le a = true) (hb : c.le b = true) : c.le (Quantity.smaller a b) = true :=
  smaller_of (P := fun d => c.le d = true) ha hb

end Number

/-! ## Bounds -/

namespace Measure

variable {value c : Number} {low high : Option Number}

theorem clamp_le (hv : value.Stands) (hl : ∀ l ∈ low, l.Stands) {m : Number} (hm : m.Stands) :
    (clamp value low (some m)).le m = true := by
  cases low with
  | none => exact hv.smaller_le hm
  | some l => exact hv.larger.smaller_le hm

/-- A lower bound holds, unless the upper one is below it. -/
theorem le_clamp (hv : value.Stands) {l : Number} (hl : l.Stands) (agree : ∀ m ∈ high, l.le m = true) :
    l.le (clamp value (some l) high) = true := by
  cases high with
  | none => exact hv.le_larger hl
  | some m => exact le_smaller (hv.le_larger hl) (agree m rfl)

/-- With bounds a number is below another one when the upper bound is, or when the number is and the
lower bound too. -/
theorem clamp_lt_iff (hv : value.Stands) (hl : ∀ l ∈ low, l.Stands) (hh : ∀ m ∈ high, m.Stands) :
    (clamp value low high).lt c = true ↔
      (∃ m ∈ high, m.lt c = true) ∨ (value.lt c = true ∧ ∀ l ∈ low, l.lt c = true) := by
  have cut : ∀ {w : Number}, w.Stands →
      ((clamp w none high).lt c = true ↔ (∃ m ∈ high, m.lt c = true) ∨ w.lt c = true) := by
    intro w hw
    cases high with
    | none => simp [clamp]
    | some m => simp [clamp, hw.smaller_lt_iff (hh m rfl), or_comm]
  cases low with
  | none => simpa using cut hv
  | some l =>
    show (clamp (larger value l) none high).lt c = true ↔ _
    rw [cut hv.larger, hv.larger_lt_iff (hl l rfl)]
    simp

end Measure

/-! ## Controls -/

namespace Header

def leastWidth (h : Header) : Option Float := h.minSize.bind (·.w)

def leastHeight (h : Header) : Option Float := h.minSize.bind (·.h)

def mostWidth (h : Header) : Option Float := h.maxSize.bind (·.w)

def mostHeight (h : Header) : Option Float := h.maxSize.bind (·.h)

/-- None of the bounds is not-a-number. -/
structure Comparable (h : Header) : Prop where
  leastWidth : ∀ x ∈ h.leastWidth, (Number.float x).Stands
  leastHeight : ∀ x ∈ h.leastHeight, (Number.float x).Stands
  mostWidth : ∀ x ∈ h.mostWidth, (Number.float x).Stands
  mostHeight : ∀ x ∈ h.mostHeight, (Number.float x).Stands

/-- The bounds of a control take it below the touch target: the upper one, or the lower one where the
height is fixed. -/
def TakesBelow (h : Header) (target : Number) : Prop :=
  (∃ x ∈ h.mostHeight, (Number.float x).lt target = true) ∨
    (h.heightPolicy = .fixed ∧ ∃ x ∈ h.leastHeight, (Number.float x).lt target = true)

end Header

namespace Measure

/-- The width of a control by its policy, before its bounds; with the padding its label is this wide. -/
def widthByPolicy (h : Header) (padded offered : Number) : Number :=
  match h.widthPolicy with
  | .fill => offered
  | .fixed => (h.leastWidth.map .float).getD padded
  | .hug => smaller padded offered

/-- The height of a control by its policy, before its bounds. -/
def heightByPolicy (h : Header) (target : Number) : Number :=
  match h.heightPolicy with
  | .fill => target
  | .fixed => (h.leastHeight.map .float).getD target
  | .hug => larger target (Quantity.orZero h.leastHeight)

/-- What is known of the size of a control. -/
structure Sized (h : Header) (touch e : Extent Number) : Prop where
  stands : e.h.Stands
  target_le_w : touch.w.le e.w = true
  w_le : ∀ x ∈ h.mostWidth, e.w.le (larger (.float x) touch.w) = true
  le_w : ∀ x ∈ h.leastWidth, (∀ y ∈ h.mostWidth, (Number.float x).le (.float y) = true) →
    (Number.float x).le e.w = true
  h_le : ∀ x ∈ h.mostHeight, e.h.le (.float x) = true
  le_h : ∀ x ∈ h.leastHeight, (∀ y ∈ h.mostHeight, (Number.float x).le (.float y) = true) →
    (Number.float x).le e.h = true
  low_iff : e.h.lt touch.h = true ↔ h.TakesBelow touch.h

section

variable {h : Header} {labelWidth padded offered : Number} {touch : Extent Number}

variable {P : Number → Prop}

/-- The width by a policy is the least one, the padded one or the one that is offered. -/
theorem widthByPolicy_of (least : ∀ x ∈ h.leastWidth, P (.float x)) (hp : P padded) (ho : P offered) :
    P (widthByPolicy h padded offered) := by
  unfold widthByPolicy
  cases h.widthPolicy with
  | fill => exact ho
  | fixed =>
    cases hw : h.leastWidth with
    | none => exact hp
    | some x => exact least x hw
  | hug => exact smaller_of hp ho

theorem orZero_of (zero : P (.int 0)) {size : Option Float} (hs : ∀ x ∈ size, P (.float x)) :
    P (Quantity.orZero size) := by
  cases size with
  | none => exact zero
  | some x =>
    show P (if x == 0.0 then .int 0 else .float x)
    split
    · exact zero
    · exact hs x rfl

theorem heightByPolicy_of (zero : P (.int 0)) (least : ∀ x ∈ h.leastHeight, P (.float x))
    {target : Number} (ht : P target) : P (heightByPolicy h target) := by
  unfold heightByPolicy
  cases h.heightPolicy with
  | fill => exact ht
  | fixed =>
    cases hh : h.leastHeight with
    | none => exact ht
    | some x => exact least x hh
  | hug => exact larger_of ht (orZero_of zero least)

/-- Only a fixed height is below the touch target before the upper bound is looked at. -/
theorem heightByPolicy_lt_iff (bounds : h.Comparable) {target : Number} (ht : target.Stands) :
    ((heightByPolicy h target).lt target = true ∧
        ∀ x ∈ h.leastHeight, (Number.float x).lt target = true) ↔
      h.heightPolicy = .fixed ∧ ∃ x ∈ h.leastHeight, (Number.float x).lt target = true := by
  have never : ¬(target.lt target = true) := by simp [lt_irrefl]
  unfold heightByPolicy
  cases h.heightPolicy with
  | fill => simp [never]
  | fixed => cases h.leastHeight <;> simp [never]
  | hug => simp [ht.larger_lt_iff (orZero_of (stands_int 0) bounds.leastHeight), never]

/-- What a control measures, once its label is measured. -/
theorem control_eq (hp : (labelWidth + (controlPadding : Number) : Calculation Number) = .ok padded) :
    control labelWidth h offered touch = .ok
      ⟨larger (clamp (widthByPolicy h padded offered) (h.leastWidth.map .float) (h.mostWidth.map .float))
          touch.w,
        clamp (heightByPolicy h touch.h) (h.leastHeight.map .float) (h.mostHeight.map .float)⟩ := by
  rw [control, hp]
  rfl

/-- A control can always be padded. -/
theorem padded_eq_ok (hl : labelWidth.Stands) : ∃ padded : Number,
    (labelWidth + (controlPadding : Number) : Calculation Number) = .ok padded ∧ padded.Stands := by
  have pad : (Number.int 24).InRange := inRange_int (by decide +kernel)
  obtain ⟨padded, sum⟩ : ∃ padded, Number.add labelWidth (.int 24) = .ok padded := by
    cases labelWidth with
    | int n => exact ⟨_, rfl⟩
    | float x =>
      rcases combine_inRange (· + ·) (· + ·) (inRange_float x) pad with ⟨_, _, e, _⟩ | ⟨z, sum⟩
      · cases e
      · exact ⟨_, sum⟩
  exact ⟨padded, sum, hl.add rfl sum⟩

/-- In any width that can be compared a control measures something, between its bounds as far as these
agree and never narrower than the touch target; and it is lower than the target when its bounds take it
there. -/
theorem control_sized (bounds : h.Comparable) (hl : labelWidth.Stands) (ho : offered.Stands)
    (wide : touch.w.Stands) (high : touch.h.Stands) :
    ∃ e, control labelWidth h offered touch = .ok e ∧ Sized h touch e := by
  obtain ⟨padded, sum, hp⟩ := padded_eq_ok hl
  refine ⟨_, control_eq sum, ?_⟩
  have each : ∀ {size : Option Float}, (∀ x ∈ size, (Number.float x).Stands) →
      ∀ a ∈ size.map Number.float, a.Stands := by
    intro size hs a ha
    obtain ⟨x, hx, rfl⟩ := Option.map_eq_some_iff.mp ha
    exact hs x hx
  have width := widthByPolicy_of bounds.leastWidth hp ho
  have height := heightByPolicy_of (stands_int 0) bounds.leastHeight high
  have clamped := clamp_stands width (h.leastWidth.map .float) (h.mostWidth.map .float)
  refine ⟨clamp_stands height _ _, clamped.le_larger wide, fun x hx => ?_, fun x hx agree => ?_,
    fun x hx => ?_, fun x hx agree => ?_, ?_⟩
  · have most : (Number.float x).Stands := bounds.mostWidth x hx
    rw [Option.mem_def.mp hx]
    refine larger_le (Number.le_trans (clamp_le width (each bounds.leastWidth) most) ?_) (most.le_larger wide)
    exact most.le_larger_first
  · rw [Option.mem_def.mp hx]
    refine Number.le_trans (le_clamp width (bounds.leastWidth x hx) ?_) (clamp_stands width _ _).le_larger_first
    intro m hm
    obtain ⟨y, hy, rfl⟩ := Option.map_eq_some_iff.mp hm
    exact agree y hy
  · rw [Option.mem_def.mp hx]
    exact clamp_le height (each bounds.leastHeight) (bounds.mostHeight x hx)
  · rw [Option.mem_def.mp hx]
    refine le_clamp height (bounds.leastHeight x hx) fun m hm => ?_
    obtain ⟨y, hy, rfl⟩ := Option.map_eq_some_iff.mp hm
    exact agree y hy
  · rw [clamp_lt_iff height (each bounds.leastHeight) (each bounds.mostHeight)]
    simp only [Option.mem_map, exists_exists_and_eq_and, forall_exists_index, and_imp,
      forall_apply_eq_imp_iff₂]
    rw [heightByPolicy_lt_iff bounds high]
    rfl

/-! ### Labels -/

/-- A label has a width, unless it has more characters than a double can tell. -/
theorem textWidth_eq_ok {characters : ℕ} (short : (Number.int characters).InRange) :
    ∃ x, textWidth fontSize characters = .ok (Number.float x) := by
  obtain ⟨c, hc⟩ : ∃ c,
      ((fontSize : Number) * (characterWidth : Number) : Calculation Number) = .ok (.float c) :=
    ⟨_, rfl⟩
  rcases combine_inRange (· * ·) (· * ·) (inRange_float c) short with ⟨_, _, e, _⟩ | ⟨x, product⟩
  · cases e
  · refine ⟨x, ?_⟩
    rw [textWidth, hc]
    exact product

/-- So has a control with this label a size. -/
theorem labelled_sized {label : String} (bounds : h.Comparable) (ho : offered.Stands)
    (wide : touch.w.Stands) (high : touch.h.Stands) {e : Extent Number}
    (measured : labelled label h offered touch = .ok e) : Sized h touch e := by
  obtain ⟨labelWidth, hl, measured⟩ := Result.bind_eq_ok.mp measured
  obtain ⟨e', same, sized⟩ := control_sized bounds (textWidth_stands hl) ho wide high
  cases measured.symm.trans same
  exact sized

/-- Where widths and targets can be written in doubles, the sizes of controls can. -/
theorem labelled_inRange {label : String} (short : (Number.int (Text.size label)).InRange)
    (ho : offered.InRange) (wide : touch.w.InRange) (high : touch.h.InRange) :
    ∃ e, labelled label h offered touch = .ok e ∧ e.w.InRange ∧ e.h.InRange := by
  obtain ⟨x, hx⟩ := textWidth_eq_ok short
  have pad : (Number.int 24).InRange := inRange_int (by decide +kernel)
  obtain ⟨padded, sum⟩ : ∃ z, Number.add (.float x) (.int 24) = .ok (.float z) := by
    rcases combine_inRange (· + ·) (· + ·) (inRange_float x) pad with ⟨_, _, e, _⟩ | padded
    · cases e
    · exact padded
  have doubles : ∀ {size : Option Float}, ∀ a ∈ size.map Number.float, a.InRange := by
    intro size a ha
    obtain ⟨x, -, rfl⟩ := Option.map_eq_some_iff.mp ha
    exact inRange_float x
  have zero : (Number.int 0).InRange := inRange_int (by decide +kernel)
  refine ⟨_, Result.bind_eq_ok.mpr ⟨_, hx, control_eq sum⟩, ?_, ?_⟩
  · have width := widthByPolicy_of (h := h) (fun x _ => inRange_float x) (inRange_float padded) ho
    exact (clamp_of width doubles doubles).larger wide
  · exact clamp_of (heightByPolicy_of zero (fun x _ => inRange_float x) high) doubles doubles

end

end Measure

/-! ## Controls that are laid out -/

namespace Node

variable {s : Surface Number} {n : Node} {offered : Number}

/-- A control is laid out exactly when its size can be written in doubles. -/
theorem placed_control_iff {e : Extent Number} (shown : n.visible = true) (touched : n.isTouched = true)
    (measured : Measure.labelled n.ownLabel n.header offered s.touch = .ok e) :
    (∃ p : Placement Number Float, (n.place s offered).result = .ok (some p)) ↔
      e.w.InRange ∧ e.h.InRange := by
  constructor
  · intro ⟨p, laid⟩
    rw [place_control shown touched] at laid
    obtain ⟨q, hq, -⟩ := Trail.result_bind_eq_ok.mp laid
    obtain ⟨e', measured', hp⟩ := placeLeaf_eq_ok hq
    cases measured.symm.trans measured'
    exact Placement.of_eq_ok_iff.mp ⟨q, hp⟩
  · intro inRange
    obtain ⟨p, hp⟩ : ∃ p : Placement Number Float, Placement.of n.id e.w e.h [] = .ok p :=
      Placement.of_eq_ok_iff.mpr inRange
    obtain ⟨⟨x, hx⟩, y, hy⟩ := inRange
    have checked : (checkTarget s n e).result = .ok () := by
      unfold checkTarget
      split
      · rfl
      · rw [Laying.bind_lift (show toCoordinate e.w = .ok x from hx),
          Laying.bind_lift (show toCoordinate e.h = .ok y from hy)]
        rfl
    rw [place_control shown touched]
    refine ⟨p, Trail.result_bind_eq_ok.mpr ⟨p, ?_, rfl⟩⟩
    rw [placeLeaf, Laying.bind_lift measured, if_pos touched]
    exact Trail.result_bind_eq_ok.mpr ⟨(), checked, hp⟩

/-- A control tells of its size when it is lower than the touch target. -/
theorem sizeDefects_of_sized {e : Extent Number} (touched : n.isTouched = true)
    (measured : Measure.labelled n.ownLabel n.header offered s.touch = .ok e)
    (sized : Measure.Sized n.header s.touch e) (high : s.touch.h.Stands) :
    n.sizeDefects s offered =
      if e.h.lt s.touch.h then [.smallTarget n.id n.typeName e s.touch] else [] := by
  have enough : s.touch.h.le e.h = !e.h.lt s.touch.h := by
    cases low : e.h.lt s.touch.h with
    | false => exact (sized.stands.not_lt_iff high).mp low
    | true =>
      refine Bool.eq_false_iff.mpr fun reached => ?_
      rw [(sized.stands.not_lt_iff high).mpr reached] at low
      cases low
  rw [sizeDefects, extent?_of_touched touched, measured]
  show (if n.isTouched && !(s.touch.w.le e.w && s.touch.h.le e.h) then _ else _) = _
  rw [touched, sized.target_le_w, enough]
  simp

end Node

/-- With bounds, a width and a touch target that can be compared, a control measures something whatever
its label and policies are. It is at least as wide as the touch target, within the bounds as far as these
agree and, in width, the target does; and it is lower than the target exactly when its upper bound is, or
when its height is fixed and the lower one is. A visible button or field that takes part in the focus
order has such a size when it is laid out, and the layout then tells of it exactly when it is too low. It
is laid out whenever its label, the width and the target can be written in doubles. -/
theorem control_sizes {h : Header} {offered : Number} {touch : Extent Number} (bounds : h.Comparable)
    (width : offered.Stands) (wide : touch.w.Stands) (high : touch.h.Stands) :
    (∀ labelWidth : Number, labelWidth.Stands →
      ∃ e, Measure.control labelWidth h offered touch = .ok e ∧ Measure.Sized h touch e) ∧
    ∀ (s : Surface Number) (n : Node), s.touch = touch → n.header = h → n.visible = true →
      n.isTouched = true →
        (∀ p : Placement Number Float, (n.place s offered).result = .ok (some p) →
          Measure.labelled n.ownLabel h offered touch = .ok ⟨p.w, p.h⟩ ∧
          Measure.Sized h touch ⟨p.w, p.h⟩ ∧
          (h.TakesBelow touch.h →
            (n.place s offered : Laying Number (Option (Placement Number Float))).notes =
              [.smallTarget n.id n.typeName ⟨p.w, p.h⟩ touch]) ∧
          (¬h.TakesBelow touch.h →
            (n.place s offered : Laying Number (Option (Placement Number Float))).notes = [])) ∧
        ((Number.int (Text.size n.ownLabel)).InRange → offered.InRange → touch.w.InRange →
          touch.h.InRange →
            ∃ p : Placement Number Float, (n.place s offered).result = .ok (some p)) := by
  refine ⟨fun labelWidth hl => Measure.control_sized bounds hl width wide high, ?_⟩
  rintro s n rfl rfl shown touched
  refine ⟨fun p laid => ?_, fun short widthInRange wideInRange highInRange => ?_⟩
  · obtain ⟨measured, notes⟩ := Node.placed_control touched laid
    have sized := Measure.labelled_sized bounds width wide high measured
    rw [notes, Node.sizeDefects_of_sized touched measured sized high]
    exact ⟨measured, sized, fun low => if_pos (sized.low_iff.mpr low),
      fun enough => if_neg fun low => enough (sized.low_iff.mp low)⟩
  · obtain ⟨e, measured, ew, eh⟩ := Measure.labelled_inRange short widthInRange wideInRange highInRange
    exact (Node.placed_control_iff shown touched measured).mpr ⟨ew, eh⟩

/-- The header of a button with bounds that agree neither with each other nor with a touch target of 44. -/
def Header.tight : Header :=
  { Header.plain "go" with
    widthPolicy := .fixed
    minSize := some ⟨some 60.0, some 56.0, ["w", "h"]⟩
    maxSize := some ⟨some 40.0, some 30.0, ["w", "h"]⟩
    given := ["id", "widthPolicy", "minSize", "maxSize"] }

theorem Header.tight_comparable : tight.Comparable := by
  constructor <;> rintro x ⟨⟩ <;> exact stands_of_isFinite (by decide +kernel)

/-- A button with these bounds is as wide as the touch target and lower than it, and is told of. -/
theorem tight_told : Header.tight.Comparable ∧ (Number.int 320).Stands ∧
    Settings.standard.surface.touch.w.Stands ∧ Settings.standard.surface.touch.h.Stands ∧
    ∃ p : Placement Number Float,
      ((Node.button .tight ⟨"Go", none⟩).place Settings.standard.surface (.int 320)).result =
        .ok (some p) ∧
      p.w = .int 44 ∧ p.h = .float 30.0 ∧
      Measure.Sized .tight Settings.standard.surface.touch ⟨p.w, p.h⟩ ∧
      Header.tight.TakesBelow Settings.standard.surface.touch.h ∧
      ((Node.button .tight ⟨"Go", none⟩).place Settings.standard.surface (.int 320) :
        Laying Number (Option (Placement Number Float))).notes =
          [.smallTarget "go" "Button" ⟨p.w, p.h⟩ Settings.standard.surface.touch] := by
  have wide : Settings.standard.surface.touch.w.Stands := stands_int 44
  have high : Settings.standard.surface.touch.h.Stands := stands_int 44
  have low : Header.tight.TakesBelow Settings.standard.surface.touch.h :=
    .inl ⟨30.0, rfl, by decide +kernel⟩
  obtain ⟨-, laid⟩ := control_sizes Header.tight_comparable (stands_int 320) wide high
  obtain ⟨told, returns⟩ := laid Settings.standard.surface (.button .tight ⟨"Go", none⟩) rfl rfl rfl rfl
  obtain ⟨p, hp⟩ := returns (inRange_int (by decide +kernel)) (inRange_int (by decide +kernel))
    (inRange_int (by decide +kernel)) (inRange_int (by decide +kernel))
  obtain ⟨measured, sized, notes, -⟩ := told p hp
  have size : Measure.labelled "Go" Header.tight (.int 320) Settings.standard.surface.touch =
      .ok ⟨.int 44, .float 30.0⟩ := by rfl
  obtain ⟨w, h⟩ := Extent.mk.inj (Except.ok.inj (measured.symm.trans size))
  exact ⟨Header.tight_comparable, stands_int 320, wide, high, p, hp, w, h, sized, low, notes low⟩

end Wireframe
