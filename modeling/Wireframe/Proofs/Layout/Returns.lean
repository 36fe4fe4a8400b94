import Wireframe.Layout.Screen
import Wireframe.Proofs.Layout.Lengths
import Wireframe.Proofs.Layout.Offers
import Wireframe.Proofs.Node.Columns

/-
  Wireframe.Proofs.Layout.Returns — when a layout comes to something, and why it does not.

  A document that is read is not always laid out. Its blocks are not checked before they are laid
  over a node. A text is broken into lines, and the columns of a grid are reduced, by a quotient that
  is rounded to a whole number; a double near zero or near the end of the doubles makes it infinite,
  or no number at all. And whole numbers that are read have any size, while frames are doubles. A
  layout fails for no other reason. Nothing is divided by zero, as a grid has a column, and what is
  measured is never a container.

  Proved:
  - `Node.LaidOut.calculable`: in a node that is laid out the quotient that is rounded is finite.
  - `Node.place_lays_of_children` / `place_lays`: laying out a tree fails only by such a quotient, or
    by the size of its whole numbers.
  - `layout_returns`: a layout fails only for one of these reasons, and while the whole numbers are
    small it comes to something exactly when no such quotient is in the way.
  - `thinGrid_not_laidOut`: one that is in the way.
-/

namespace Wireframe

open Quantity Number Grounds

/-! ## Quotients that are rounded -/

/-- The font size of a text. -/
def TextContent.font (t : TextContent) : Number := (t.fontSize.map .float).getD Measure.fontSize

/-- The width of a text on one line. -/
def TextContent.lineWidth (t : TextContent) : Calculation Number :=
  match t.intrinsicTextWidth with
  | some w => .ok (.float w)
  | none => Measure.textWidth t.font (Text.size t.text)

/-- The quotients that layout rounds to whole numbers. -/
inductive Node.Rounds (width : Number) : Node → Number → Prop
  /-- The lines of a text in a width that is too narrow for it. -/
  | lines {h : Header} {t : TextContent} {single q : Number} : t.lineWidth = .ok single →
      width.le (.int 0) = false → width.lt single = true → single.div width = .ok q →
      Rounds width (text h t) q
  /-- The columns of a least width that a grid has room for. -/
  | columns {h : Header} {c : GridContent} {cs : List Node} {m : Float} {step room q : Number} :
      c.minColWidth = some m → Number.add (.float m) (grid h c cs).gap = .ok step →
      step.le (.int 0) = false → width.add (grid h c cs).gap = .ok room → room.div step = .ok q →
      Rounds width (grid h c cs) q

/-- No quotient is in the way of laying out a node in a width. -/
def Node.Calculable (width : Number) (n : Node) : Prop := ∀ q, n.Rounds width q → q.isFinite = true

/-! ## Leaves -/

section

variable {g : Grounds} {k : ℕ}

namespace Grounds

theorem font_upTo (t : TextContent) : t.font.UpTo 16 := by
  unfold TextContent.font
  cases t.fontSize with
  | none => exact Nat.le_refl 16
  | some x => trivial

/-- A part of a font size is a double. -/
theorem fontPart_calculates {font : Number} (hf : font.UpTo 16) (part : Float) :
    g.Calculates IsFloat (.ok font * .ok (.float part) : Calculation Number) :=
  combine_float_calculates (toDouble_calculates (fits_constant (by decide)) hf) (.ok trivial) (.inr ⟨part, rfl⟩)

theorem textWidth_calculates {font : Number} {characters : ℕ} (hf : font.UpTo 16)
    (fits : g.Fits characters) : g.Calculates IsFloat (Measure.textWidth font characters) := by
  have count : (Quantity.ofInt characters : Number).UpTo characters := Nat.le_refl _
  refine calculates_lift (fontPart_calculates hf _) (.ok count) fun a b ha hb => ?_
  exact combine_float_calculates (toDouble_calculates fits_zero ha.upTo)
    (toDouble_calculates fits hb) (.inl ha)

theorem lineWidth_calculates (t : TextContent) (fits : g.Fits (Text.size t.text)) :
    g.Calculates IsFloat t.lineWidth := by
  unfold TextContent.lineWidth
  split
  · exact .ok ⟨_, rfl⟩
  · exact textWidth_calculates (font_upTo t) fits

/-- A text is measured from its width on one line. -/
theorem text_eq (t : TextContent) (width : Number) :
    Measure.text t width = do
      let line ← (.ok t.font * .ok Measure.lineHeight : Calculation Number)
      let single ← t.lineWidth
      if width.le (.int 0) then return ⟨.int 0, line⟩
      else if width.lt single then do
        let lines ← Number.ceil (← Number.div single width)
        let height ← Number.mul (.int lines) line
        return ⟨smaller single width, height⟩
      else return ⟨single, line⟩ := by
  unfold Measure.text TextContent.lineWidth
  cases t.intrinsicTextWidth with
  | none => rfl
  | some w => rfl

theorem text_calculates {h : Header} {t : TextContent} {width : Number} (fits : g.Fits k)
    (hw : width.UpTo k) (short : Text.size t.text ≤ k)
    (calculable : (Node.text h t).Calculable width ∨ g.quotient) :
    g.Calculates (fun e => e.w.UpTo k ∧ e.h.UpTo k) (Measure.text t width) := by
  have single := (lineWidth_calculates t (fits.mono short)).known
  rw [text_eq]
  refine (fontPart_calculates (font_upTo t) _).bind fun line hline => single.bind fun single hsingle => ?_
  split
  · exact .ok ⟨Nat.zero_le _, hline.upTo⟩
  rename_i positive
  split
  · rename_i narrow
    have quotient := div_calculates fits_zero fits hsingle.1.upTo hw (Bool.eq_false_iff.mpr positive)
    refine quotient.known.bind fun q hq => ?_
    have finite : q.isFinite = true ∨ g.quotient := calculable.imp_left fun finite =>
      finite q (.lines hsingle.2 (Bool.eq_false_iff.mpr positive) narrow hq.2)
    refine (ceil_calculates hq.1 finite).bind fun lines range => ?_
    have height : g.Calculates IsFloat (Number.mul (.int lines) line) :=
      combine_float_calculates (toDouble_of_inRange range ▸ .ok trivial)
        (toDouble_calculates fits_zero hline.upTo) (.inr hline)
    exact height.bind fun h hh => .ok ⟨hsingle.1.upTo.smaller hw, hh.upTo⟩
  · exact .ok ⟨hsingle.1.upTo, hline.upTo⟩

theorem clamp_upTo {a : Number} (low high : Option Float) (h : a.UpTo k) :
    (Measure.clamp a (low.map .float) (high.map .float) : Number).UpTo k := by
  have raised : ∀ x : Float, (larger a (.float x)).UpTo k := fun _ => h.larger trivial
  have lowered : ∀ {b : Number} (x : Float), b.UpTo k → (smaller b (.float x)).UpTo k :=
    fun _ hb => hb.smaller trivial
  cases low with
  | none =>
    cases high with
    | none => exact h
    | some y => exact lowered y h
  | some x =>
    cases high with
    | none => exact raised x
    | some y => exact lowered y (raised x)

theorem orZero_upTo (x : Option Float) : (Quantity.orZero x : Number).UpTo k := by
  cases x with
  | none => exact Nat.zero_le k
  | some x =>
    show UpTo k (if x == 0.0 then .int 0 else .float x)
    split
    · exact Nat.zero_le k
    · trivial

theorem getD_upTo {a : Number} (x : Option Float) (h : a.UpTo k) :
    ((x.map .float).getD a : Number).UpTo k := by
  cases x with
  | none => exact h
  | some x => trivial

theorem labelled_calculates {label : String} (h : Header) {width : Number} {touch : Extent Number}
    (fits : g.Fits k) (short : Text.size label ≤ k) (hw : width.UpTo k) (htw : touch.w.UpTo k)
    (hth : touch.h.UpTo k) :
    g.Calculates (fun e => e.w.UpTo k ∧ e.h.UpTo k) (Measure.labelled label h width touch) := by
  have font : (Measure.fontSize : Number).UpTo 16 := Nat.le_refl 16
  have single := textWidth_calculates font (fits.mono short)
  refine single.bind fun single hsingle => ?_
  have padded : g.Calculates IsFloat (.ok single + .ok Measure.controlPadding : Calculation Number) :=
    combine_float_calculates (toDouble_calculates fits_zero hsingle.upTo)
      (toDouble_calculates (fits_constant (k := 24) (by decide)) (Nat.le_refl 24)) (.inl hsingle)
  refine padded.bind fun padded hpadded => .ok ⟨?_, ?_⟩
  · refine UpTo.larger (clamp_upTo _ _ ?_) htw
    cases h.widthPolicy with
    | fill => exact hw
    | fixed => exact getD_upTo _ hpadded.upTo
    | hug => exact hpadded.upTo.smaller hw
  · refine clamp_upTo _ _ ?_
    cases h.heightPolicy with
    | fill => exact hth
    | fixed => exact getD_upTo _ hth
    | hug => exact hth.larger (orZero_upTo _)

/-! ## Cells -/

/-- The columns of a grid that has a least width for them. -/
theorem columnsIn_eq {h : Header} {c : GridContent} {cs : List Node} {m : Float}
    (least : c.minColWidth = some m) (width : Number) :
    (Node.grid h c cs).columnsIn width = do
      let step ← Number.add (.float m) (Node.grid h c cs).gap
      if step.le (.int 0) then return c.columns
      else
        let fit ← Number.floor (← width.add (Node.grid h c cs).gap >>= (·.div step))
        return max 1 (min c.columns fit) := by
  show Cells.effectiveColumns c.columns width (Node.grid h c cs).gap (c.minColWidth.map Quantity.ofFloat) = _
  rw [least]
  rfl

theorem columnsIn_calculates {h : Header} {c : GridContent} {cs : List Node} {width : Number}
    (fits : g.Fits k) (hw : width.UpTo k) (column : 1 ≤ c.columns)
    (calculable : (Node.grid h c cs).Calculable width ∨ g.quotient) :
    g.Calculates (fun n => 1 ≤ n ∧ n ≤ c.columns) ((Node.grid h c cs).columnsIn width) := by
  have gap : ((Node.grid h c cs).gap : Number).UpTo 0 := Spacing.quantity_upTo c.gap
  cases least : c.minColWidth with
  | none =>
    show g.Calculates _ (Cells.effectiveColumns c.columns width (Node.grid h c cs).gap
      (c.minColWidth.map Quantity.ofFloat))
    rw [least]
    exact .ok ⟨column, le_rfl⟩
  | some m =>
    rw [columnsIn_eq least]
    have step : g.Calculates IsFloat (Number.add (.float m) (Node.grid h c cs).gap) :=
      combine_float_calculates (.ok trivial) (toDouble_calculates fits_zero gap) (.inl ⟨m, rfl⟩)
    have room : g.Calculates (UpTo (k + 0)) (width.add (Node.grid h c cs).gap) :=
      calculates_add (.ok hw) (.ok gap) fits fits_zero
    refine step.known.bind fun step hstep => ?_
    split
    · exact .ok ⟨column, le_rfl⟩
    rename_i positive
    have positive := Bool.eq_false_iff.mpr positive
    have quotient : g.Calculates (fun q => q.isFinite = true ∨ g.quotient)
        (width.add (Node.grid h c cs).gap >>= (·.div step)) := by
      refine room.known.bind fun room hroom => ?_
      refine (div_calculates fits fits_zero hroom.1 hstep.1.upTo positive).known.imp fun q hq => ?_
      exact calculable.imp_left fun finite => finite q (.columns least hstep.2 positive hroom.2 hq.2)
    refine quotient.bind fun q finite => (whole_calculates finite).bind fun fit _ => .ok ⟨le_max_left _ _, ?_⟩
    exact max_le column (min_le_left _ _)

theorem cellWidth_calculates {width gap : Number} {columns : ℤ} (fits : g.Fits k) (hw : width.UpTo k)
    (hg : gap.UpTo 0) (column : 1 ≤ columns) (few : columns.natAbs ≤ k) :
    g.Calculates (UpTo 0) (Cells.cellWidth width columns gap) := by
  have before : (Quantity.ofInt (columns - 1) : Number).UpTo k := by
    show (columns - 1).natAbs ≤ k
    omega
  have own : g.Calculates (fun n : Number => n.UpTo k ∧ n.le (.int 0) = false)
      (.ok (Quantity.ofInt columns : Number)) := .ok ⟨few, not_le_zero_iff.mpr column⟩
  have gaps := calculates_mul (.ok before) (.ok hg) fits fits_zero
  have cell := calculates_div (calculates_sub (.ok hw) gaps fits fits_zero) own fits fits
  exact cell.bind fun cell hcell => .ok (.larger trivial hcell.upTo)

end Grounds

end

/-! ## Trees -/

/-- How large a whole number is; a double is none. -/
def Number.magnitude : Number → ℕ
  | .int n => n.natAbs
  | .float _ => 0

theorem Number.upTo_magnitude (a : Number) : a.UpTo a.magnitude := by
  cases a with
  | int n => exact Nat.le_refl _
  | float x => trivial

/-- The whole numbers that a node brings into a layout. -/
def Node.wholeNumbers : Node → List ℕ
  | grid _ c _ => [c.columns.natAbs]
  | text _ t => [Text.size t.text]
  | button _ b => [Text.size b.text]
  | field _ f => [Text.size f.label]
  | table _ t => [(48 + 40 * t.rows.getD 5).natAbs]
  | _ => []

namespace Node

/-- What a tree has room in, downwards, when no node of it brings in more than this. -/
def span (bound : ℕ) (n : Node) : ℕ := n.visibleNodes.length * bound

variable {g : Grounds} {s : Surface Number} {n : Node} {bound : ℕ} {w : Number}

theorem span_eq (hv : n.visible = true) : n.span bound = (n.children.map (span bound)).sum + bound := by
  have below : (n.children.map (span bound)).sum =
      (n.children.map fun c => c.visibleNodes.length).sum * bound := (List.sum_map_mul_right ..)
  rw [below, span, visibleNodes_eq, if_pos hv, List.length_cons, List.length_flatMap, Nat.add_one_mul]

theorem span_child_le {c : Node} (hv : n.visible = true) (hc : c ∈ n.children) :
    c.span bound ≤ n.span bound := by
  have part := List.le_sum_of_mem (List.mem_map_of_mem (f := span bound) hc)
  rw [span_eq hv]
  omega

/-- What a node comes to stays within its span. -/
def Spans (g : Grounds) (bound : ℕ) (n : Node) (t : Laying Number (Option (Placement Number Float))) :
    Prop :=
  g.Lays (fun placed => ∀ p ∈ placed, bound ≤ n.span bound ∧ p.w.UpTo bound ∧ p.h.UpTo (n.span bound)) t

theorem spans_container (hv : n.visible = true) (hw : w.UpTo bound)
    {t : Laying Number (Placement Number Float)}
    (h : g.Lays (fun p => p.w = w ∧ p.h.UpTo (n.children.map (span bound)).sum) t) :
    Spans g bound n (t >>= fun p => Trail.done (some p)) := by
  have span : n.span bound = _ := n.span_eq hv
  refine h.bind fun p hp => .done ?_
  rintro _ ⟨rfl⟩
  exact ⟨by omega, hp.1 ▸ hw, hp.2.mono (by omega)⟩

theorem spans_leaf (hv : n.visible = true) (alone : n.children = []) (fits : g.Fits bound)
    {size : Calculation (Extent Number)}
    (h : g.Calculates (fun e => e.w.UpTo bound ∧ e.h.UpTo bound) size) :
    Spans g bound n (placeLeaf s n size >>= fun p => Trail.done (some p)) := by
  have span : n.span bound = _ := n.span_eq hv
  rw [alone, List.map_nil, List.sum_nil, Nat.zero_add] at span
  refine (placeLeaf_lays fits s n h).bind fun p hp => .done ?_
  rintro _ ⟨rfl⟩
  exact ⟨span.ge, hp.1, span.symm ▸ hp.2⟩

/-- A visible node is laid out when its children are, unless there are grounds for its failing. -/
theorem place_lays_of_children (hv : n.visible = true) (column : n.HasColumn)
    (whole : ∀ k ∈ n.wholeNumbers, k ≤ bound) (htw : s.touch.w.UpTo bound)
    (hth : s.touch.h.UpTo bound) (hw : w.UpTo bound) (fits : g.Fits (2 * n.span bound))
    (calculable : n.Calculable w ∨ g.quotient)
    (children : ∀ content, n.offer w = .ok content → content.UpTo bound →
      List.Forall₂ (Child.Bounded g bound) (n.children.map (span bound))
        (n.children.map (asChild s content))) :
    Spans g bound n (n.place s w) := by
  have span : n.span bound = _ := n.span_eq hv
  have wide : bound ≤ 2 * n.span bound := by omega
  have within : 2 * (n.children.map (Node.span bound)).sum ≤ 2 * n.span bound := by omega
  have short : g.Fits bound := fits.mono wide
  unfold place
  rw [if_pos hv]
  cases n with
  | stack h c cs =>
    have hp := Spacing.quantity_upTo c.padding
    have hg := Spacing.quantity_upTo c.gap
    refine (checkSpacing_lays hp).bind fun _ _ => (checkSpacing_lays hg).bind fun _ _ => ?_
    refine (contentWidth_calculates short hw hp).known.lays.bind fun content hcontent => ?_
    rw [placeAll_eq_map]
    exact spans_container hv hw (arrangeStack_lays fits hp hg hw hcontent.1 wide
      (children content hcontent.2 hcontent.1) within c)
  | grid h c cs =>
    have hg := Spacing.quantity_upTo c.gap
    have few : c.columns.natAbs ≤ bound := whole _ List.mem_cons_self
    refine (checkSpacing_lays hg).bind fun _ _ => ?_
    refine (columnsIn_calculates short hw column calculable).known.lays.bind fun columns hcol => ?_
    have some : columns.natAbs ≤ bound := by have : 1 ≤ c.columns := column; omega
    have cell := cellWidth_calculates short hw hg hcol.1.1 some
    refine cell.known.lays.bind fun cell hcell => ?_
    have offer : (grid h c cs).offer w = .ok cell := Result.bind_eq_ok.mpr ⟨columns, hcol.2, hcell.2⟩
    rw [placeAll_eq_map]
    exact spans_container hv hw (cells_arrange_lays fits hcell.1 hg (by omega) (short.mono (by omega)) hw wide
      (children cell offer (hcell.1.mono (Nat.zero_le _))) (by omega))
  | box h p child =>
    have hp := Spacing.quantity_upTo p
    cases child with
    | none =>
      refine (checkSpacing_lays hp).bind fun _ _ => spans_container hv hw ?_
      have empty : ∀ p ∈ (none : Option (Placement Number Float)), p.h.UpTo 0 := by
        intro p hp
        cases hp
      exact insetAround_lays fits hp hw wide empty (Nat.zero_le _)
    | some c =>
      refine (checkSpacing_lays hp).bind fun _ _ => ?_
      refine (contentWidth_calculates short hw hp).known.lays.bind fun content hcontent => ?_
      obtain ⟨own, -⟩ := List.forall₂_cons.mp (children content hcontent.2 hcontent.1)
      refine Lays.bind own fun placed hplaced => spans_container hv hw ?_
      exact insetAround_lays fits hp hw wide (fun q hq => (hplaced q hq).2.2) (by omega)
  | form h f fs as =>
    have none : (Quantity.zero : Number).UpTo 0 := Nat.zero_le 0
    refine (contentWidth_calculates short hw none).known.lays.bind fun content hcontent => ?_
    rw [placeAll_eq_map, placeAll_eq_map, ← List.map_append]
    exact spans_container hv hw (column_arrange_lays fits none none hw hcontent.1 wide
      (children content hcontent.2 hcontent.1) within)
  | text h t =>
    exact spans_leaf hv rfl short (text_calculates short hw (whole _ List.mem_cons_self) calculable)
  | button h b =>
    exact spans_leaf hv rfl short (labelled_calculates h short (whole _ List.mem_cons_self) hw htw hth)
  | field h f =>
    exact spans_leaf hv rfl short (labelled_calculates h short (whole _ List.mem_cons_self) hw htw hth)
  | table h t => exact spans_leaf hv rfl short (.ok ⟨hw, whole _ List.mem_cons_self⟩)

end Node

section

variable {g : Grounds} {s : Surface Number} {root : Located} {width : Number} {bound : ℕ}

/-- Laying out a tree fails only where a quotient is in the way, or by the size of its whole
numbers. -/
theorem place_lays (htw : s.touch.w.UpTo bound) (hth : s.touch.h.UpTo bound)
    (sound : ∀ m ∈ root.subtree, m.node.HasColumn ∧ ∀ k ∈ m.node.wholeNumbers, k ≤ bound)
    (calculable : ∀ l w b, Offered root width l w b → l.node.Calculable w ∨ g.quotient) :
    ∀ (n : Node) (l : Located), l.node = n → ∀ w b, Offered root width l w b → w.UpTo bound →
      g.Fits (2 * n.span bound) → Child.Bounded g bound (n.span bound) (Node.asChild s w n) := by
  intro n
  induction n using Node.byChildren with
  | step n ih =>
    rintro l rfl w b o hw fits
    have hv := Node.visible_of_mem o.mem
    obtain ⟨column, whole⟩ := sound l o.mem
    refine Node.place_lays_of_children hv column whole htw hth hw fits (calculable l w b o) ?_
    intro content offer hcontent
    -- A child is offered the width that the node offers, so what holds of all offers holds of its own.
    rw [List.forall₂_map_left_iff, List.forall₂_map_right_iff, List.forall₂_same]
    intro c hc
    cases shown : c.visible with
    | false =>
      show g.Lays _ (c.place s content)
      rw [Node.place_hidden s content shown]
      exact .done nofun
    | true =>
      rw [← l.node.slots_nodes] at hc
      obtain ⟨slot, hslot, rfl⟩ := List.mem_map.mp hc
      exact ih _ (Node.slot_mem_children hslot) (l.under slot) rfl content _
        (o.child hslot shown offer) hcontent
        (fits.mono (Nat.mul_le_mul_left 2 (Node.span_child_le hv (Node.slot_mem_children hslot))))

/-- What has a whole part is finite. -/
theorem Number.isFinite_of_whole {onRatio : Decimal.Ratio → ℤ} {a : Number} {n : ℤ}
    (h : whole onRatio a = .ok n) : a.isFinite = true :=
  (whole_calculates (g := ⟨True, True⟩) (.inr trivial)).result n h

/-- In a node that is laid out the quotient that is rounded is finite. -/
theorem Node.LaidOut.calculable {n : Node} {w : Number} {p : Placement Number Float} {content : Number}
    {spots : List (Option (Spot Number Float))} (h : n.LaidOut s w p content spots) : n.Calculable w := by
  intro q rounds
  cases rounds with
  | @lines hd t single q hsingle positive narrow hq =>
    obtain ⟨e, measured, -⟩ := h.arranged
    have measured : Measure.text t w = .ok e := Option.some.inj measured
    rw [text_eq] at measured
    obtain ⟨line, -, measured⟩ := Result.bind_eq_ok.mp measured
    rw [hsingle] at measured
    obtain ⟨_, e, measured⟩ := Result.bind_eq_ok.mp measured
    cases e
    rw [if_neg (Bool.eq_false_iff.mp positive), if_pos narrow, hq] at measured
    obtain ⟨_, e, measured⟩ := Result.bind_eq_ok.mp measured
    cases e
    obtain ⟨lines, hlines, -⟩ := Result.bind_eq_ok.mp measured
    exact isFinite_of_whole hlines
  | @columns hd c cs m step room q least hstep positive hroom hq =>
    obtain ⟨columns, counted, -⟩ := h.arranged
    -- The columns were counted, so the whole part of the quotient was taken.
    rw [columnsIn_eq least, hstep] at counted
    obtain ⟨_, e, counted⟩ := Result.bind_eq_ok.mp counted
    cases e
    rw [if_neg (Bool.eq_false_iff.mp positive), hroom] at counted
    obtain ⟨_, e, counted⟩ := Result.bind_eq_ok.mp counted
    obtain rfl := Except.ok.inj (hq.symm.trans e)
    obtain ⟨fit, hfit, -⟩ := Result.bind_eq_ok.mp counted
    exact isFinite_of_whole hfit

end

/-! ## Documents -/

namespace Layout

/-- The largest of the whole numbers that take part in a layout. -/
def largestWhole (s : Surface Number) (v : Viewport) (root : Node) : ℕ :=
  (v.width :: s.touch.w.magnitude :: s.touch.h.magnitude ::
    root.visibleNodes.flatMap Node.wholeNumbers).foldr max 0

/-- Is every whole number in a layout below those without a double? -/
def Fitting (s : Surface Number) (v : Viewport) (root : Node) : Prop :=
  2 * root.span (largestWhole s v root) < wholeLimit

/-- What the failure of a tree at a viewport may be put down to. -/
def grounds (s : Surface Number) (v : Viewport) (root : Node) : Grounds where
  size := ¬Fitting s v root
  quotient := ∃ l w b, Offered ⟨root, rootPointer⟩ (.int v.width) l w b ∧ ¬l.node.Calculable w

/-- Why a layout comes to nothing. -/
inductive Obstacle (s : Scaffold) (v : Viewport) : Failure → Prop
  /-- A node does not read after blocks were laid over it. -/
  | overlaid {k : Node} {faults : List Fault} : Node.FailsAt (.int v.width) s.screen.root k →
      (k.resolveOwn (.int v.width)).result = .error (.overlay faults) → Obstacle s v (.overlay faults)
  /-- The condition of a block has too many digits. -/
  | threshold {k : Node} {fault : Text.TooManyDigits} : Node.FailsAt (.int v.width) s.screen.root k →
      (∃ b ∈ k.blocks, Condition.Overlong b.1) →
      (k.resolveOwn (.int v.width)).result = .error (.digits fault) → Obstacle s v (.digits fault)
  /-- A quotient that is to be rounded is infinite, or no number. -/
  | quotient {root : Node} {l : Located} {w q : Number} {b : Bool} {fault : CalculationFault} :
      (s.screen.root.resolve (.int v.width)).result = .ok root →
      Offered ⟨root, rootPointer⟩ (.int v.width) l w b → l.node.Rounds w q → q.isFinite = false →
      fault = .infinite ∨ fault = .notANumber → Obstacle s v (.calculation fault)
  /-- Whole numbers are too large. -/
  | size {root : Node} {e : Failure} : (s.screen.root.resolve (.int v.width)).result = .ok root →
      ¬Fitting s.settings.surface v root → (e = .calculation .tooLarge ∨ ∃ faults, e = .frame faults) →
      Obstacle s v e

variable {s : Scaffold} {v : Viewport} {detection : PrimaryDetection} {root : Node}

theorem ofResolved_eq_error {e : Failure} : ofResolved s.settings.surface v detection root = .error e ↔
    (root.place (δ := Float) s.settings.surface (.int v.width)).result = .error e := by
  have tree : (ofTree s.settings.surface v detection root).result = .error e ↔
      (root.place (δ := Float) s.settings.surface (.int v.width)).result = .error e := by
    simp [ofTree, Trail.result_bind_eq_error]
    rfl
  rw [← tree, ofResolved]
  cases (ofTree s.settings.surface v detection root).result with
  | error f => exact ⟨fun h => congrArg _ (Except.error.inj h), fun h => congrArg _ (Except.error.inj h)⟩
  | ok frames =>
    constructor
    · intro h; cases h
    · intro h; cases h

/-- A layout fails when its tree cannot be resolved, or cannot be placed. -/
theorem compute_eq_error {e : Failure} : (compute s detection v).result = .error e ↔
    (s.screen.root.resolve (.int v.width)).result = .error e ∨
      ∃ root, (s.screen.root.resolve (.int v.width)).result = .ok root ∧
        (root.place (δ := Float) s.settings.surface (.int v.width)).result = .error e := by
  simp only [compute, Trail.result_bind_eq_error, Trail.result_ofExcept, Trail.result_note,
    Trail.result_pure, ofResolved_eq_error, reduceCtorEq, and_false, exists_false, or_false]

theorem compute_returns_iff (hroot : (s.screen.root.resolve (.int v.width)).result = .ok root) :
    (∃ l, (compute s detection v).result = .ok l) ↔
      ∃ placed, (root.place (δ := Float) s.settings.surface (.int v.width)).result = .ok placed := by
  have fails : ∀ e, (compute s detection v).result = .error e ↔
      (root.place (δ := Float) s.settings.surface (.int v.width)).result = .error e := by
    intro e
    simp [compute_eq_error, hroot]
  cases hp : (root.place (δ := Float) s.settings.surface (.int v.width)).result with
  | error e => simp [(fails e).mpr hp]
  | ok placed =>
    cases hc : (compute s detection v).result with
    | ok l => simp
    | error e => cases hp.symm.trans ((fails e).mp hc)

/-- Placing a tree fails only on the grounds there are for it. -/
theorem place_explained {surface : Surface Number} (columned : root.Columned) {e : Failure}
    (failed : (root.place (δ := Float) surface (.int v.width)).result = .error e) :
    (grounds surface v root).ExplainsFailure e := by
  have hv : root.visible = true := by
    by_contra hidden
    rw [Node.place_hidden _ _ (Bool.eq_false_iff.mpr hidden)] at failed
    cases failed
  have largest : ∀ k ∈ v.width :: surface.touch.w.magnitude :: surface.touch.h.magnitude ::
      root.visibleNodes.flatMap Node.wholeNumbers, k ≤ largestWhole surface v root :=
    fun k hk => List.le_max_of_le' 0 hk le_rfl
  obtain ⟨hw, largest⟩ := List.forall_mem_cons.mp largest
  obtain ⟨htw, largest⟩ := List.forall_mem_cons.mp largest
  obtain ⟨hth, largest⟩ := List.forall_mem_cons.mp largest
  have sound : ∀ m ∈ (⟨root, rootPointer⟩ : Located).subtree,
      m.node.HasColumn ∧ ∀ k ∈ m.node.wholeNumbers, k ≤ largestWhole surface v root := by
    intro m hm
    have shown : m.node ∈ root.visibleNodes := List.mem_map_of_mem hm
    exact ⟨columned _ (root.visibleNodes_subset shown),
      fun k hk => largest k (List.mem_flatMap.mpr ⟨m.node, shown, hk⟩)⟩
  have calculable : ∀ l w b, Offered ⟨root, rootPointer⟩ (.int v.width) l w b →
      l.node.Calculable w ∨ (grounds surface v root).quotient :=
    fun l w b o => (Classical.em _).imp_right fun h => ⟨l, w, b, o, h⟩
  have laid := place_lays ((upTo_magnitude _).mono htw) ((upTo_magnitude _).mono hth) sound calculable
    root _ rfl _ _ (.root hv) hw (Classical.em _)
  exact laid.fault e failed

/-- A tree that is resolved cannot be placed only for what is in the way of it. -/
theorem obstacle_of_place (hroot : (s.screen.root.resolve (.int v.width)).result = .ok root)
    (columned : root.Columned) {e : Failure}
    (failed : (root.place (δ := Float) s.settings.surface (.int v.width)).result = .error e) :
    Obstacle s v e := by
  have explained := place_explained columned failed
  cases e with
  | frame faults => exact .size hroot explained (.inr ⟨faults, rfl⟩)
  | calculation fault =>
    have rounded : (grounds s.settings.surface v root).quotient →
        fault = .infinite ∨ fault = .notANumber → Obstacle s v (.calculation fault) := by
      rintro ⟨l, w, b, o, h⟩ kind
      simp only [Node.Calculable, not_forall, Bool.not_eq_true, exists_prop] at h
      obtain ⟨q, hq, infinite⟩ := h
      exact .quotient hroot o hq infinite kind
    cases fault with
    | tooLarge => exact .size hroot explained (.inl rfl)
    | infinite => exact rounded explained (.inl rfl)
    | notANumber => exact rounded explained (.inr rfl)
    | _ => exact explained.elim
  | _ => exact explained.elim

/-- While there are no grounds for a failure, a tree is placed. -/
theorem placed_of_calculable {surface : Surface Number} (columned : root.Columned)
    (fitting : Fitting surface v root)
    (calculable : ∀ l w b, Offered ⟨root, rootPointer⟩ (.int v.width) l w b → l.node.Calculable w) :
    ∃ placed, (root.place (δ := Float) surface (.int v.width)).result = .ok placed := by
  cases hp : (root.place (δ := Float) surface (.int v.width)).result with
  | ok placed => exact ⟨placed, rfl⟩
  | error e =>
    have quotient : ¬(grounds surface v root).quotient := by
      rintro ⟨l, w, b, o, h⟩
      exact h (calculable l w b o)
    exact absurd (place_explained columned hp) (Grounds.not_explainsFailure (not_not_intro fitting) quotient)

/-- A tree cannot be resolved only for what is in the way of it. -/
theorem obstacle_of_resolve {e : Failure}
    (failed : (s.screen.root.resolve (.int v.width)).result = .error e) : Obstacle s v e := by
  obtain ⟨k, fails, hk⟩ := Node.resolve_eq_error.mp failed
  rcases Node.resolveOwn_eq_error hk with ⟨f, rfl, overlong⟩ | ⟨faults, rfl, -⟩
  · exact .threshold fails overlong hk
  · exact .overlaid fails hk

end Layout

/-- A document that is read is laid out at a viewport, unless something is in the way of it: a block
that makes no node of the one it is laid over, a condition of too many digits, a quotient that cannot
be rounded, or whole numbers that are too large. When the tree cannot be resolved, the layout fails
like that. When it can, a layout takes that every quotient that is rounded is finite, at every node in
the width that it is offered; and while the whole numbers are not too large, it takes nothing else. -/
theorem layout_returns {document : Value} {s : Scaffold} (hs : Scaffold.read document = .ok s)
    (v : Viewport) (detection : PrimaryDetection) :
    (∀ e, (Layout.compute s detection v).result = .error e → Layout.Obstacle s v e) ∧
    (∀ e, (s.screen.root.resolve (.int v.width)).result = .error e →
      (Layout.compute s detection v).result = .error e) ∧
    ∀ root, (s.screen.root.resolve (.int v.width)).result = .ok root →
      ((∃ l, (Layout.compute s detection v).result = .ok l) →
        ∀ l w b, Offered ⟨root, rootPointer⟩ (.int v.width) l w b → l.node.Calculable w) ∧
      (Layout.Fitting s.settings.surface v root →
        (∀ l w b, Offered ⟨root, rootPointer⟩ (.int v.width) l w b → l.node.Calculable w) →
        ∃ l, (Layout.compute s detection v).result = .ok l) := by
  have columned : ∀ root, (s.screen.root.resolve (.int v.width)).result = .ok root → root.Columned :=
    fun root hroot => Node.resolve_columned hroot (Scaffold.columned hs)
  refine ⟨fun e failed => ?_, fun e failed => Layout.compute_eq_error.mpr (.inl failed),
    fun root hroot => ?_⟩
  · rcases Layout.compute_eq_error.mp failed with failed | ⟨root, hroot, failed⟩
    · exact Layout.obstacle_of_resolve failed
    · exact Layout.obstacle_of_place hroot (columned root hroot) failed
  · rw [Layout.compute_returns_iff hroot]
    refine ⟨?_, Layout.placed_of_calculable (columned root hroot)⟩
    rintro ⟨placed, hp⟩ l w b o
    obtain ⟨p₀, rfl⟩ := Node.exists_placement ((Node.mem_walkFrom.mp o.mem).1 rfl) hp
    obtain ⟨⟨p, hl⟩, -⟩ := o.laid hp
    obtain ⟨content, spots, out⟩ := Node.laidOut_of_place hl
    exact out.calculable

/-- A page with a text that takes two lines on a narrow screen, and a grid that keeps three of its
four columns there. -/
def Scaffold.narrowedDocument : Value :=
  .object [("screen", .object [("id", .text "screen"), ("root",
    .object [("type", .text "Stack"), ("id", .text "page"), ("gap", .int 8), ("children", .list
      [.object [("type", .text "Text"), ("id", .text "note"),
          ("text", .text "Everything that was left in the cart is kept for a day")],
        .object [("type", .text "Grid"), ("id", .text "cells"), ("columns", .int 4), ("gap", .int 8),
          ("minColWidth", .int 100), ("children", .list
            [.object [("type", .text "Table"), ("id", .text "rows")]])]])])])]

/-- The page is laid out at a narrow viewport, so its quotients are finite: that of the text, and that
of the grid. -/
theorem narrowed_returns : ∃ (s : Scaffold) (root : Node) (l : Layout),
    Scaffold.read Scaffold.narrowedDocument = .ok s ∧
    (s.screen.root.resolve (.int 320)).result = .ok root ∧
    Layout.Fitting s.settings.surface ⟨320, 640, by decide, by decide⟩ root ∧
    (Layout.compute s .role ⟨320, 640, by decide, by decide⟩).result = .ok l ∧
    (l.frames.map (·.id)) = ["page", "note", "cells", "rows"] ∧
    ∀ l w b, Offered ⟨root, rootPointer⟩ (.int 320) l w b → l.node.Calculable w := by
  have computed : ((Scaffold.read Scaffold.narrowedDocument).toOption.bind fun s =>
      (s.screen.root.resolve (.int 320)).result.toOption.bind fun root =>
        (Layout.compute s .role ⟨320, 640, by decide, by decide⟩).result.toOption.map fun l =>
          (decide (2 * root.span (Layout.largestWhole s.settings.surface
            ⟨320, 640, by decide, by decide⟩ root) < wholeLimit), l.frames.map (·.id))) =
      some (true, ["page", "note", "cells", "rows"]) := by
    decide +kernel
  obtain ⟨s, hs, computed⟩ := Option.bind_eq_some_iff.mp computed
  obtain ⟨root, hroot, computed⟩ := Option.bind_eq_some_iff.mp computed
  obtain ⟨l, hl, told⟩ := Option.map_eq_some_iff.mp computed
  have hs := Result.toOption_eq_some.mp hs
  have hroot := Result.toOption_eq_some.mp hroot
  have hl := Result.toOption_eq_some.mp hl
  obtain ⟨fitting, ids⟩ := Prod.mk.inj told
  have fitting := of_decide_eq_true fitting
  obtain ⟨-, -, returns⟩ := layout_returns hs ⟨320, 640, by decide, by decide⟩ .role
  exact ⟨s, root, l, hs, hroot, fitting, hl, ids, (returns root hroot).1 ⟨l, hl⟩⟩

/-- A grid whose columns have the least width that a double above zero can have. -/
def Scaffold.thinDocument : Value :=
  .object [("screen", .object [("id", .text "screen"), ("root",
    .object [("type", .text "Grid"), ("id", .text "grid"), ("columns", .int 2),
      ("minColWidth", .real (Float.ofScientific 5 true 324))])])]

/-- The document is read and the viewport as well, but there is no layout. -/
theorem thinGrid_not_laidOut : ∃ (s : Scaffold) (v : Viewport),
    Scaffold.read Scaffold.thinDocument = .ok s ∧ Viewport.parse "320x640" = .ok v ∧
    (Layout.compute s .role v).result = .error (.calculation .infinite) := by
  have computed : ((Scaffold.read Scaffold.thinDocument).toOption.bind fun s =>
      (Viewport.parse "320x640").toOption.bind fun v =>
        Result.failure? (Layout.compute s .role v).result) = some (.calculation .infinite) := by
    decide +kernel
  obtain ⟨s, hs, computed⟩ := Option.bind_eq_some_iff.mp computed
  obtain ⟨v, hv, failed⟩ := Option.bind_eq_some_iff.mp computed
  exact ⟨s, v, Result.toOption_eq_some.mp hs, Result.toOption_eq_some.mp hv,
    Result.failure?_eq_some.mp failed⟩

end Wireframe
