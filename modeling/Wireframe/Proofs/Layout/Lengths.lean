import Wireframe.Proofs.Layout.Bounds
import Wireframe.Proofs.Layout.Spots

/-
  Wireframe.Proofs.Layout.Lengths — how large what a container comes to can be.

  A container is as wide as it is offered, and no higher than all its children together: gaps and
  paddings are zero or doubles, so they add nothing to a whole number. Inside a container no whole
  number is larger than twice this, as a child at the far end is moved by what is left of the room.
  So a container fails only when this is beyond the doubles, or as one of its children does.

  Proved:
  - `column_arrange_lays`, `row_arrange_lays`, `wrap_arrange_lays`, `cells_arrange_lays`: the four
    ways in which children are put, each from a lemma about its run over the children.
  - `arrangeStack_lays`, `insetAround_lays`: stacks and boxes.
  - `placeLeaf_lays`: a leaf of a size with doubles, with the check of its touch target.
-/

namespace Wireframe

open Double Quantity Number

variable {g : Grounds} {k j : ℕ}

/-! ## Placements -/

namespace Grounds

theorem moved_calculates (fits : g.Fits k) (p : Placement Number Float) {dx dy : Number}
    (hx : dx.UpTo k) (hy : dy.UpTo k) : g.Calculates (fun _ => True) (p.moved dx dy) :=
  (toDouble_calculates fits hx).bind fun _ _ => (toDouble_calculates fits hy).bind fun _ _ => .ok trivial

theorem of_lays (fits : g.Fits k) (id : String) {w h : Number} (below : List (Frame Number Float))
    (hw : w.UpTo k) (hh : h.UpTo k) :
    g.Lays (fun p => p.w = w ∧ p.h = h)
      (Trail.ofExcept (Placement.of id w h below) : Laying Number (Placement Number Float)) where
  result p hp := by
    obtain rfl := Placement.of_eq hp
    exact ⟨rfl, rfl⟩
  fault e he := by
    rcases fits with short | size
    · have faultless : ∀ {name : String} {a : Number}, a.UpTo k → Placement.lengthFaults name a = [] := by
        intro name a ha
        have calculated := @toDouble_calculates ⟨False, False⟩ k a (.inl short) ha
        unfold Placement.lengthFaults
        split
        · rfl
        · rename_i f hf
          have := calculated.fault f hf
          cases f <;> exact this.elim
      simp only [Trail.result_ofExcept, Placement.of, faultless hw, faultless hh] at he
      cases he
    · simp only [Trail.result_ofExcept, Placement.of] at he
      split at he
      · cases he
      · cases he
        exact size

/-! ## Widths -/

theorem twice_calculates {p : Number} (hp : p.UpTo 0) : g.Calculates (UpTo 0) (twice p) := by
  have two : (Quantity.two : Number).UpTo 2 := Nat.le_refl 2
  exact calculates_mul (.ok two) (.ok hp) (fits_constant (by decide)) fits_zero

/-- A limit with what is forgiven beyond it. -/
theorem tolerated_calculates (fits : g.Fits k) {limit : Number} (h : limit.UpTo k) :
    g.Calculates (UpTo k) (.ok limit + .ok tolerance) :=
  calculates_add (k := 0) (.ok h) (.ok trivial) fits fits_zero

theorem contentWidth_calculates (fits : g.Fits k) {width padding : Number} (hw : width.UpTo k)
    (hp : padding.UpTo 0) : g.Calculates (UpTo k) (contentWidth width padding) :=
  (calculates_sub (.ok hw) (twice_calculates hp) fits fits_zero).bind fun _ ha =>
    .ok (.larger trivial ha)

theorem startOf_calculates (fits : g.Fits (j + k)) (align : Align) {padding room size : Number}
    (hp : padding.UpTo 0) (hr : room.UpTo j) (hs : size.UpTo k) :
    g.Calculates (UpTo (j + k)) (startOf align padding room size) := by
  have rest := calculates_sub (.ok hr) (.ok hs) (fits.mono (by omega)) (fits.mono (by omega))
  have padded : ∀ {c : Calculation Number}, g.Calculates (UpTo (j + k)) c →
      g.Calculates (UpTo (j + k)) (.ok padding + c) := fun hc =>
    (calculates_add (.ok hp) hc fits_zero fits).imp fun _ h => h.mono (by omega)
  cases align with
  | center =>
    have two : g.Calculates (fun b => b.UpTo 2 ∧ b.le (.int 0) = false) (.ok (two : Number)) :=
      .ok ⟨Nat.le_refl 2, by decide⟩
    exact padded ((calculates_div rest two fits (fits_constant (by decide))).imp fun _ h => h.upTo)
  | finish => exact padded rest
  | start | stretch => exact .ok (hp.mono (by omega))

end Grounds

/-! ## Lines of children -/

/-- A child that comes to a placement of bounded size, if to any. -/
def Child.Bounded (g : Grounds) (width height : ℕ) (c : Child Number Float) : Prop :=
  g.Lays (fun placed => ∀ p ∈ placed, width ≤ height ∧ p.w.UpTo width ∧ p.h.UpTo height) c.placed

namespace Grounds

section

variable {id : String} {align : Align} {width padding gap content cell : Number} {columns total : ℕ}
  {children : List (Child Number Float)} {sizes : List ℕ}

/-- The induction is on the children, with what is above them as the bound on where the next one
starts. -/
theorem column_lays (fits : g.Fits total) (hp : padding.UpTo 0) (hg : gap.UpTo 0)
    (hcontent : content.UpTo k) (hchildren : List.Forall₂ (Child.Bounded g k) sizes children) :
    ∀ {y : Number} {j : ℕ}, y.UpTo j → 2 * (j + sizes.sum) ≤ total →
      g.Lays (fun run => run.next.UpTo (j + sizes.sum))
        (Column.runFrom align padding gap content y children) := by
  induction hchildren with
  | nil => intro y j hy _; exact .done hy
  | @cons size c sizes children hc _ ih =>
    intro y j hy within
    rw [List.sum_cons] at within ⊢
    rw [Column.runFrom]
    refine hc.bind fun placed bounded => ?_
    cases placed with
    | none => exact (ih hy (by omega)).imp fun _ h => h.mono (by omega)
    | some p =>
      obtain ⟨wide, hw, hh⟩ := bounded p rfl
      have fitted : (Column.fit align content c p).w.UpTo k ∧ (Column.fit align content c p).h = p.h := by
        unfold Column.fit
        split
        · exact ⟨hcontent, rfl⟩
        · exact ⟨hw, rfl⟩
      -- The room that is left may be as far below zero as the child is wide: twice its bound is needed.
      have start := startOf_calculates (fits.mono (by omega)) align hp hcontent fitted.1
      refine start.lays.bind fun x hx => ?_
      refine (moved_calculates fits _ (hx.mono (by omega)) (hy.mono (by omega))).lays.bind fun _ _ => ?_
      have next := calculates_add (.ok hy) (calculates_add (.ok (fitted.2.symm ▸ hh)) (.ok hg)
        (fits.mono (by omega)) fits_zero) (fits.mono (by omega)) (fits.mono (by omega))
      refine next.lays.bind fun y' hy' => ?_
      exact (ih hy' (by omega)).bind fun run hrun => .done (hrun.mono (by omega))

theorem column_arrange_lays (fits : g.Fits total) (hp : padding.UpTo 0) (hg : gap.UpTo 0)
    (hw : width.UpTo k) (hcontent : content.UpTo k) (wide : k ≤ total)
    (hchildren : List.Forall₂ (Child.Bounded g k) sizes children) (within : 2 * sizes.sum ≤ total) :
    g.Lays (fun p => p.w = width ∧ p.h.UpTo sizes.sum)
      (Column.arrange id align width padding gap content children) := by
  refine (column_lays (j := 0) fits hp hg hcontent hchildren hp (by omega)).bind fun run hrun => ?_
  rw [Nat.zero_add] at hrun
  have height : g.Calculates (UpTo sizes.sum) (if run.any = true then
      Except.ok run.next - Except.ok gap + Except.ok padding else twice padding) := by
    split
    · have reached := calculates_sub (.ok hrun) (.ok hg) (fits.mono (by omega)) fits_zero
      exact (calculates_add reached (.ok hp) (fits.mono (by omega)) fits_zero).imp fun _ h => h.mono (by omega)
    · exact (twice_calculates hp).imp fun _ h => h.mono (Nat.zero_le _)
  refine height.lays.bind fun h hh => ?_
  exact (of_lays fits id run.frames (hw.mono wide) (hh.mono (by omega))).imp fun p e => ⟨e.1, e.2 ▸ hh⟩

theorem row_lays (fits : g.Fits total) (hw : width.UpTo k) (hg : gap.UpTo 0)
    (hchildren : List.Forall₂ (Child.Bounded g k) sizes children) :
    ∀ {x : Number} {j : ℕ}, x.UpTo j → j + sizes.sum ≤ total →
      g.Lays (fun run => ∀ q ∈ run, q.1.UpTo (j + sizes.sum) ∧ q.2.h.UpTo sizes.sum)
        (Row.runFrom id width gap x children) := by
  induction hchildren with
  | nil => intro x j _ _; exact .done nofun
  | @cons size c sizes children hc _ ih =>
    intro x j hx within
    rw [List.sum_cons] at within ⊢
    rw [Row.runFrom]
    refine hc.bind fun placed bounded => ?_
    cases placed with
    | none =>
      exact (ih hx (by omega)).imp fun _ h q hq => ⟨(h q hq).1.mono (by omega), (h q hq).2.mono (by omega)⟩
    | some p =>
      obtain ⟨wide, hpw, hh⟩ := bounded p rfl
      have short : g.Fits k := fits.mono (by omega)
      have reached := calculates_add (.ok hx) (.ok hpw) (fits.mono (by omega)) short
      have bound := tolerated_calculates short hw
      have next := calculates_add (.ok hx) (calculates_add (.ok hpw) (.ok hg) short fits_zero)
        (fits.mono (by omega)) (fits.mono (by omega))
      refine reached.lays.bind fun _ _ => bound.lays.bind fun _ _ => ?_
      refine Lays.ite_note (next.lays.bind fun y hy => (ih hy (by omega)).bind fun run hrun => .done ?_)
      rintro q (_ | ⟨_, hq⟩)
      · exact ⟨hx.mono (by omega), hh.mono (by omega)⟩
      · exact ⟨(hrun q hq).1.mono (by omega), (hrun q hq).2.mono (by omega)⟩

theorem framesOf_calculates (fits : g.Fits (2 * total)) (hp : padding.UpTo 0) {height : Number}
    (hh : height.UpTo total) (run : List (Number × Placement Number Float))
    (hrun : ∀ q ∈ run, q.1.UpTo total ∧ q.2.h.UpTo total) :
    g.Calculates (fun _ => True) (Row.framesOf align padding height run) := by
  induction run with
  | nil => exact .ok trivial
  | cons q rest ih =>
    obtain ⟨hx, hq⟩ := hrun q List.mem_cons_self
    have start := startOf_calculates (fits.mono (by omega)) align hp hh hq
    refine start.bind fun y hy => ?_
    refine (moved_calculates fits q.2 (hx.mono (by omega)) (hy.mono (by omega))).bind fun _ _ => ?_
    exact (ih fun r hr => hrun r (List.mem_cons_of_mem q hr)).bind fun _ _ => .ok trivial

theorem row_arrange_lays (fits : g.Fits total) (hp : padding.UpTo 0) (hg : gap.UpTo 0)
    (hw : width.UpTo k) (wide : k ≤ total)
    (hchildren : List.Forall₂ (Child.Bounded g k) sizes children) (within : 2 * sizes.sum ≤ total) :
    g.Lays (fun p => p.w = width ∧ p.h.UpTo sizes.sum)
      (Row.arrange id align width padding gap children) := by
  refine (row_lays (j := 0) fits hw hg hchildren hp (by omega)).bind fun run hrun => ?_
  rw [Nat.zero_add] at hrun
  have height : (largest (run.map (·.2.h)) : Number).UpTo sizes.sum :=
    upTo_largest (List.forall_mem_map.mpr fun q hq => (hrun q hq).2)
  have outer := calculates_add (.ok height) (twice_calculates hp) (fits.mono (by omega))
    fits_zero
  refine (framesOf_calculates (fits.mono within) hp height run hrun).lays.bind fun frames _ => ?_
  refine outer.lays.bind fun h hh => ?_
  exact (of_lays fits id frames (hw.mono wide) (hh.mono (by omega))).imp fun p e => ⟨e.1, e.2 ▸ hh⟩

/-- The upper edge and the height of a row that is not lower than this. -/
def RowUpTo (j : ℕ) (y rowHeight : Number) : Prop :=
  ∃ above own, y.UpTo above ∧ rowHeight.UpTo own ∧ above + own ≤ j

theorem RowUpTo.mono {y rowHeight : Number} (h : RowUpTo j y rowHeight) (less : j ≤ k) :
    RowUpTo k y rowHeight := by
  obtain ⟨above, own, hy, hr, sum⟩ := h
  exact ⟨above, own, hy, hr, sum.trans less⟩

theorem RowUpTo.edge {y rowHeight : Number} (h : RowUpTo j y rowHeight) : y.UpTo j := by
  obtain ⟨above, own, hy, -, sum⟩ := h
  exact hy.mono (by omega)

/-- A child in the row makes it no higher than the child is. -/
theorem RowUpTo.after {y rowHeight height : Number} (h : RowUpTo j y rowHeight) (hh : height.UpTo k) :
    RowUpTo (j + k) y (larger rowHeight height) := by
  obtain ⟨above, own, hy, hr, sum⟩ := h
  exact ⟨above, own + k, hy, (hr.mono (by omega)).larger (hh.mono (by omega)), by omega⟩

/-- The next row begins where this one ends. -/
theorem RowUpTo.next {y rowHeight : Number} (fits : g.Fits j) (hg : gap.UpTo 0)
    (h : RowUpTo j y rowHeight) :
    g.Calculates (fun y' => RowUpTo j y' noLength) (.ok y + (.ok rowHeight + .ok gap)) := by
  obtain ⟨above, own, hy, hr, sum⟩ := h
  have row := calculates_add (.ok hr) (.ok hg) (fits.mono (by omega)) fits_zero
  refine (calculates_add (.ok hy) row (fits.mono (by omega)) (fits.mono (by omega))).imp fun _ h => ?_
  exact ⟨_, 0, h, trivial, by omega⟩

theorem wrap_advance_calculates (fits : g.Fits j) (short : g.Fits k) (hw : width.UpTo k)
    (hp : padding.UpTo 0) (hg : gap.UpTo 0) {c : Wrap.Cursor Number} {w : Number} (hx : c.x.UpTo j)
    (hrow : RowUpTo j c.y c.rowHeight) (own : w.UpTo k) :
    g.Calculates (fun d => d.x.UpTo j ∧ RowUpTo j d.y d.rowHeight)
      (Wrap.advance width padding gap c w) := by
  have overflows : g.Calculates (fun _ => True) (Wrap.overflows width c w) := by
    unfold Wrap.overflows
    split
    · have bound := tolerated_calculates short hw
      exact (calculates_add (.ok hx) (.ok own) fits short).bind fun _ _ => bound.bind fun _ _ => .ok trivial
    · exact .ok trivial
  refine overflows.bind fun breaks _ => ?_
  split
  · exact (hrow.next fits hg).bind fun y hy => .ok ⟨hp.mono (Nat.zero_le j), hy⟩
  · exact .ok ⟨hx, hrow⟩

theorem wrap_lays (fits : g.Fits total) (hw : width.UpTo k) (hp : padding.UpTo 0) (hg : gap.UpTo 0)
    (hchildren : List.Forall₂ (Child.Bounded g k) sizes children) :
    ∀ {c : Wrap.Cursor Number} {j : ℕ}, c.x.UpTo j → RowUpTo j c.y c.rowHeight →
      j + sizes.sum ≤ total →
      g.Lays (fun out => RowUpTo (j + sizes.sum) out.2.y out.2.rowHeight)
        (Wrap.runFrom width padding gap c children) := by
  induction hchildren with
  | nil => intro c j _ hrow _; exact .done hrow
  | @cons size child sizes children hc _ ih =>
    intro c j hx hrow within
    rw [List.sum_cons] at within ⊢
    rw [Wrap.runFrom]
    refine hc.bind fun placed bounded => ?_
    cases placed with
    | none => exact (ih hx hrow (by omega)).imp fun _ h => h.mono (by omega)
    | some p =>
      obtain ⟨wide, hpw, hh⟩ := bounded p rfl
      have short : g.Fits k := fits.mono (by omega)
      have here : g.Fits j := fits.mono (by omega)
      refine (wrap_advance_calculates here short hw hp hg hx hrow hpw).lays.bind fun d hd => ?_
      obtain ⟨hdx, hdrow⟩ := hd
      refine (moved_calculates here p hdx hdrow.edge).lays.bind fun _ _ => ?_
      have next := calculates_add (.ok hdx) (calculates_add (.ok hpw) (.ok hg) short fits_zero) here
        (fits.mono (by omega))
      have after : g.Calculates (fun d' => d'.x.UpTo (j + size) ∧ RowUpTo (j + size) d'.y d'.rowHeight)
          (Wrap.after gap d p) :=
        next.bind fun x hx' => .ok ⟨hx'.mono (by omega), hdrow.after hh⟩
      refine after.lays.bind fun d' hd' => ?_
      exact (ih hd'.1 hd'.2 (by omega)).bind fun out hout => .done (hout.mono (by omega))

theorem wrap_arrange_lays (fits : g.Fits total) (hp : padding.UpTo 0) (hg : gap.UpTo 0)
    (hw : width.UpTo k) (wide : k ≤ total)
    (hchildren : List.Forall₂ (Child.Bounded g k) sizes children) (within : sizes.sum ≤ total) :
    g.Lays (fun p => p.w = width ∧ p.h.UpTo sizes.sum)
      (Wrap.arrange id width padding gap children) := by
  have first : RowUpTo 0 padding (noLength : Number) := ⟨0, 0, hp, trivial, Nat.le_refl 0⟩
  refine (wrap_lays (j := 0) fits hw hp hg hchildren hp first (by omega)).bind fun ⟨frames, last⟩ hrow => ?_
  rw [Nat.zero_add] at hrow
  have height : g.Calculates (UpTo sizes.sum) (if last.any = true then
      Except.ok last.y + Except.ok last.rowHeight + Except.ok padding else twice padding) := by
    split
    · obtain ⟨above, own, hy, hr, sum⟩ := hrow
      have reached := calculates_add (.ok hy) (.ok hr) (fits.mono (by omega)) (fits.mono (by omega))
      exact (calculates_add reached (.ok hp) (fits.mono (by omega)) fits_zero).imp fun _ h => h.mono (by omega)
    · exact (twice_calculates hp).imp fun _ h => h.mono (Nat.zero_le _)
  refine height.lays.bind fun h hh => ?_
  exact (of_lays fits id frames (hw.mono wide) (hh.mono within)).imp fun p e => ⟨e.1, e.2 ▸ hh⟩

theorem cells_lays (fits : g.Fits total) (hcell : cell.UpTo 0) (hg : gap.UpTo 0)
    (some : 0 < columns) (few : g.Fits columns)
    (hchildren : List.Forall₂ (Child.Bounded g k) sizes children) :
    ∀ {c : Cells.Cursor Number} {j : ℕ}, RowUpTo j c.y c.rowHeight → j + sizes.sum ≤ total →
      g.Lays (fun out => RowUpTo (j + sizes.sum) out.2.y out.2.rowHeight)
        (Cells.runFrom id columns cell gap c children) := by
  induction hchildren with
  | nil => intro c j hrow _; exact .done hrow
  | @cons size child sizes children hc _ ih =>
    intro c j hrow within
    rw [List.sum_cons] at within ⊢
    rw [Cells.runFrom]
    refine hc.bind fun placed bounded => ?_
    cases placed with
    | none => exact (ih hrow (by omega)).imp fun _ h => h.mono (by omega)
    | some p =>
      obtain ⟨-, -, hh⟩ := bounded p rfl
      have here : g.Fits j := fits.mono (by omega)
      have bound := tolerated_calculates (g := g) fits_zero hcell
      refine bound.lays.bind fun _ _ => Lays.ite_note ?_
      have advance : g.Calculates (fun d => RowUpTo j d.y d.rowHeight) (Cells.advance columns gap c) := by
        unfold Cells.advance
        split
        · exact (hrow.next here hg).bind fun y hy => .ok hy
        · exact .ok hrow
      refine advance.lays.bind fun d hd => ?_
      have column : (Quantity.ofInt (d.placed % columns : ℕ) : Number).UpTo columns :=
        (Nat.mod_lt d.placed some).le
      have x := calculates_mul (.ok column) (calculates_add (.ok hcell) (.ok hg) fits_zero fits_zero) few fits_zero
      refine x.lays.bind fun x hx => ?_
      refine (moved_calculates here p (hx.mono (Nat.zero_le j)) hd.edge).lays.bind fun _ _ => ?_
      exact (ih (hd.after hh) (by omega)).bind fun out hout => .done (hout.mono (by omega))

theorem cells_arrange_lays (fits : g.Fits total) (hcell : cell.UpTo 0) (hg : gap.UpTo 0)
    (some : 0 < columns) (few : g.Fits columns) (hw : width.UpTo k) (wide : k ≤ total)
    (hchildren : List.Forall₂ (Child.Bounded g k) sizes children) (within : sizes.sum ≤ total) :
    g.Lays (fun p => p.w = width ∧ p.h.UpTo sizes.sum)
      (Cells.arrange id columns width cell gap children) := by
  have first : RowUpTo 0 (noLength : Number) (noLength : Number) := ⟨0, 0, trivial, trivial, Nat.le_refl 0⟩
  refine (cells_lays (c := ⟨noLength, noLength, 0⟩) (j := 0) fits hcell hg some few hchildren first
    (by omega)).bind fun ⟨frames, last⟩ hrow => ?_
  rw [Nat.zero_add] at hrow
  have height : g.Calculates (UpTo sizes.sum) (if last.placed = 0 then Except.ok Quantity.zero
      else Except.ok last.y + Except.ok last.rowHeight) := by
    split
    · exact .ok (Nat.zero_le _)
    · obtain ⟨above, own, hy, hr, sum⟩ := hrow
      exact (calculates_add (.ok hy) (.ok hr) (fits.mono (by omega)) (fits.mono (by omega))).imp
        fun _ h => h.mono sum
  refine height.lays.bind fun h hh => ?_
  exact (of_lays fits id frames (hw.mono wide) (hh.mono within)).imp fun p e => ⟨e.1, e.2 ▸ hh⟩

theorem arrangeStack_lays (fits : g.Fits total) (hp : padding.UpTo 0) (hg : gap.UpTo 0)
    (hw : width.UpTo k) (hcontent : content.UpTo k) (wide : k ≤ total)
    (hchildren : List.Forall₂ (Child.Bounded g k) sizes children) (within : 2 * sizes.sum ≤ total)
    (c : StackContent) :
    g.Lays (fun p => p.w = width ∧ p.h.UpTo sizes.sum)
      (arrangeStack id c width padding gap content children) := by
  unfold arrangeStack
  split
  · exact column_arrange_lays fits hp hg hw hcontent wide hchildren within
  · exact wrap_arrange_lays fits hp hg hw wide hchildren (by omega)
  · exact row_arrange_lays fits hp hg hw wide hchildren within

theorem insetAround_lays (fits : g.Fits total) (hp : padding.UpTo 0) (hw : width.UpTo k)
    (wide : k ≤ total) {placed : Option (Placement Number Float)} (hplaced : ∀ p ∈ placed, p.h.UpTo j)
    (within : j ≤ total) :
    g.Lays (fun p => p.w = width ∧ p.h.UpTo j) (insetAround id width padding placed) := by
  cases placed with
  | none =>
    exact (of_lays fits id [] (hw.mono wide) (Nat.zero_le _)).imp fun p e => ⟨e.1, e.2 ▸ Nat.zero_le j⟩
  | some p =>
    have hh := hplaced p rfl
    have height := calculates_add (.ok hh) (twice_calculates hp) (fits.mono within) fits_zero
    refine height.lays.bind fun h hh' => ?_
    refine (moved_calculates fits p (hp.mono (Nat.zero_le _)) (hp.mono (Nat.zero_le _))).lays.bind
      fun frames _ => ?_
    exact (of_lays fits id frames (hw.mono wide) (hh'.mono (by omega))).imp fun p e => ⟨e.1, e.2 ▸ hh'⟩

end

/-! ## Checks -/

theorem checkSpacing_lays {s : Surface Number} {n : Node} {property : String} {value : Spacing Number}
    (h : value.quantity.UpTo 0) : g.Lays (fun _ => True) (checkSpacing s n property value) := by
  unfold checkSpacing
  split
  · exact .done trivial
  · exact (toDouble_calculates fits_zero h).lays.bind fun _ _ =>
      ⟨fun _ _ => trivial, nofun⟩

theorem checkTarget_lays (fits : g.Fits k) {s : Surface Number} {n : Node} {e : Extent Number}
    (hw : e.w.UpTo k) (hh : e.h.UpTo k) : g.Lays (fun _ => True) (checkTarget s n e) := by
  unfold checkTarget
  split
  · exact .done trivial
  · exact (toDouble_calculates fits hw).lays.bind fun _ _ => (toDouble_calculates fits hh).lays.bind
      fun _ _ => ⟨fun _ _ => trivial, nofun⟩

theorem placeLeaf_lays (fits : g.Fits k) (s : Surface Number) (n : Node)
    {size : Calculation (Extent Number)} (h : g.Calculates (fun e => e.w.UpTo k ∧ e.h.UpTo k) size) :
    g.Lays (fun p => p.w.UpTo k ∧ p.h.UpTo k)
      (placeLeaf s n size : Laying Number (Placement Number Float)) := by
  refine h.lays.bind fun e he => ?_
  obtain ⟨hw, hh⟩ := he
  have placed : g.Lays (fun p => p.w.UpTo k ∧ p.h.UpTo k)
      (Trail.ofExcept (Placement.of n.id e.w e.h []) : Laying Number (Placement Number Float)) :=
    (of_lays fits n.id [] hw hh).imp fun p e => ⟨e.1 ▸ hw, e.2 ▸ hh⟩
  split
  · exact (checkTarget_lays fits hw hh).bind fun _ _ => placed
  · exact placed

end Grounds

end Wireframe
