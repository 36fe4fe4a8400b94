import Wireframe.Proofs.Layout.Blocks
import Wireframe.Proofs.Record.Reading
import Mathlib.Tactic.Linarith

/-
  Wireframe.Proofs.Layout.Containment — frames lie within the frames above them.

  Wherever a container puts its children, they come in rows one below the other: every child of a
  column is a row, a row is one, and rows that break and the cells of a grid are as many as they
  come to. A row starts where the row before ends, with a gap between, and the container ends with
  its last row. So nothing leaves a container upwards or downwards, as long as no height, gap or
  padding is negative. That gaps and paddings are not negative is what the check against the
  spacing scale comes to, when nothing on the scale is.

  Proved:
  - `Stacked.apart`: rows one below the other do not overlap, and end where the last one does.
  - `Node.Arranged.rows_apart`: so it is in every container, in exact numbers.
  - `Node.spaced_of_place`: without a spacing that is off the scale no gap or padding is negative.
  - `Offered.covers`: a layout covers everything below its root.
  - `frames_nest`: all of this for the layouts of documents.
-/

namespace Wireframe

open Quantity

/-! ## Rows one below the other -/

/-- Spots in rows one below the other, each with the number of its row: from a row that starts at
`y` and is `h` high so far down to where the last row ends. -/
inductive Stacked (gap : ℚ) : ℕ → ℚ → ℚ → List (ℕ × Spot ℚ ℚ) → ℚ → Prop
  | done (row : ℕ) (y h : ℚ) : Stacked gap row y h [] (y + h)
  | beside {row : ℕ} {y h bottom : ℚ} {spot : Spot ℚ ℚ} {rest : List (ℕ × Spot ℚ ℚ)} :
      spot.y = y → Stacked gap row y (max h spot.placed.h) rest bottom →
        Stacked gap row y h ((row, spot) :: rest) bottom
  | beneath {row : ℕ} {y h bottom : ℚ} {spot : Spot ℚ ℚ} {rest : List (ℕ × Spot ℚ ℚ)} :
      spot.y = y + (h + gap) → Stacked gap (row + 1) (y + (h + gap)) (max 0 spot.placed.h) rest bottom →
        Stacked gap row y h ((row + 1, spot) :: rest) bottom

namespace Spot

def bottom (spot : Spot ℚ ℚ) : ℚ := spot.y + spot.placed.h

/-- In different rows, the earlier of two spots ends before the later one starts. -/
def Apart (a b : ℕ × Spot ℚ ℚ) : Prop := a.1 ≠ b.1 → a.2.bottom ≤ b.2.y

end Spot

/-- Rows do not overlap, and all of them end before the last one does. -/
theorem Stacked.apart {gap : ℚ} (hgap : 0 ≤ gap) {row : ℕ} {y h bottom : ℚ}
    {spots : List (ℕ × Spot ℚ ℚ)} (stacked : Stacked gap row y h spots bottom) :
    (∀ q ∈ spots, 0 ≤ q.2.placed.h) → 0 ≤ h →
      y + h ≤ bottom ∧
      (∀ q ∈ spots, y ≤ q.2.y ∧ q.2.bottom ≤ bottom ∧ (row ≠ q.1 → y + h ≤ q.2.y)) ∧
      spots.Pairwise Spot.Apart := by
  induction stacked with
  | done row y h => intro _ _; exact ⟨le_rfl, nofun, .nil⟩
  | @beside row y h bottom spot rest hy _ ih =>
    intro heights hh
    obtain ⟨own, others⟩ := List.forall_mem_cons.mp heights
    obtain ⟨ends, within, apart⟩ := ih others (hh.trans (le_max_left _ _))
    have higher := le_max_left h spot.placed.h
    have tall := le_max_right h spot.placed.h
    have spot_ends : spot.bottom ≤ y + max h spot.placed.h := by rw [Spot.bottom, hy]; linarith
    refine ⟨by linarith, List.forall_mem_cons.mpr ⟨⟨hy.ge, by linarith, (absurd rfl ·)⟩, ?_⟩,
      List.pairwise_cons.mpr ⟨?_, apart⟩⟩
    · intro q hq
      obtain ⟨starts, stops, other⟩ := within q hq
      exact ⟨starts, stops, fun hr => by linarith [other hr]⟩
    · intro q hq other
      exact spot_ends.trans ((within q hq).2.2 other)
  | @beneath row y h bottom spot rest hy _ ih =>
    intro heights hh
    obtain ⟨own, others⟩ := List.forall_mem_cons.mp heights
    obtain ⟨ends, within, apart⟩ := ih others (le_max_left _ _)
    have low := le_max_left 0 spot.placed.h
    have tall := le_max_right 0 spot.placed.h
    have spot_ends : spot.bottom ≤ y + (h + gap) + max 0 spot.placed.h := by
      rw [Spot.bottom, hy]; linarith
    refine ⟨by linarith, List.forall_mem_cons.mpr ⟨⟨by linarith, by linarith, fun _ => by linarith⟩, ?_⟩,
      List.pairwise_cons.mpr ⟨?_, apart⟩⟩
    · intro q hq
      obtain ⟨starts, stops, -⟩ := within q hq
      exact ⟨by linarith, stops, fun _ => by linarith⟩
    · intro q hq other
      exact spot_ends.trans ((within q hq).2.2 other)

/-! ## The rows of each arrangement -/

namespace Exact

section

variable {align : Align} {limit padding gap content height cell : ℚ} {columns : ℕ}
  {p : Placement ℚ ℚ} {x y left top next : ℚ}

theorem column_step_eq_ok : Column.step align padding gap content y p = .ok (left, top, next) ↔
    start align padding content p.w = left ∧ y = top ∧ y + (p.h + gap) = next := by
  simp only [Column.step, startOf_eq, add_eq]
  show Except.ok (_, _, _) = _ ↔ _
  rw [Except.ok.injEq, Prod.mk.injEq, Prod.mk.injEq]

theorem row_step_eq_ok : Row.step align padding gap height x p = .ok (left, top, next) ↔
    x = left ∧ start align padding height p.h = top ∧ x + (p.w + gap) = next := by
  simp only [Row.step, startOf_eq, add_eq]
  show Except.ok (_, _, _) = _ ↔ _
  rw [Except.ok.injEq, Prod.mk.injEq, Prod.mk.injEq]

theorem wrap_step_eq_ok {c after : Wrap.Cursor ℚ} :
    Wrap.step limit padding gap c p = .ok (left, top, after) ↔
      let d := if c.any = true ∧ limit + tolerance < c.x + p.w then
        { c with x := padding, y := c.y + (c.rowHeight + gap), rowHeight := 0 } else c
      d.x = left ∧ d.y = top ∧ ⟨d.x + (p.w + gap), d.y, max d.rowHeight p.h, true⟩ = after := by
  simp only [Wrap.step, wrap_advance_eq, wrap_after_eq]
  show Except.ok (_, _, _) = _ ↔ _
  rw [Except.ok.injEq, Prod.mk.injEq, Prod.mk.injEq]

theorem cells_step_eq_ok {c after : Cells.Cursor ℚ} :
    Cells.step columns cell gap c p = .ok (left, top, after) ↔
      let d := if c.placed % columns = 0 ∧ 0 < c.placed then
        { c with y := c.y + (c.rowHeight + gap), rowHeight := 0 } else c
      (d.placed % columns : ℕ) * (cell + gap) = left ∧ d.y = top ∧
        ⟨d.y, max d.rowHeight p.h, d.placed + 1⟩ = after := by
  simp only [Cells.step, cells_advance_eq, add_eq, mul_eq, ofInt_eq, Cells.after, larger_eq]
  show Except.ok (_, _, _) = _ ↔ _
  rw [Except.ok.injEq, Prod.mk.injEq, Prod.mk.injEq]
  rfl

end

end Exact

section

variable {align : Align} {limit padding gap content cell : ℚ} {columns : ℕ} {spots : List (Spot ℚ ℚ)}

/-- Every child of a column is a row of its own. -/
theorem Column.stacked {y last : ℚ} (course : Course (step align padding gap content) y spots last) :
    (∀ spot ∈ spots, 0 ≤ spot.placed.h) → ∀ {row : ℕ} {y' h : ℚ}, y = y' + (h + gap) →
      Stacked gap row y' h ((List.range' (row + 1) spots.length).zip spots) (last - gap) := by
  induction course with
  | done y =>
    rintro - row y' h rfl
    have : y' + (h + gap) - gap = y' + h := by ring
    rw [this]
    exact .done row y' h
  | @next y next last spot rest put _ ih =>
    rintro heights row y' h rfl
    obtain ⟨own, others⟩ := List.forall_mem_cons.mp heights
    obtain ⟨-, hy, hnext⟩ := Exact.column_step_eq_ok.mp put
    rw [List.length_cons, List.range'_succ, List.zip_cons_cons]
    refine .beneath hy.symm ?_
    rw [max_eq_right own]
    exact ih others hnext.symm

theorem Column.Arranged.stacked {height : ℚ} (h : Arranged align padding gap content spots height)
    (heights : ∀ spot ∈ spots, 0 ≤ spot.placed.h) (some_spot : spots ≠ []) :
    Stacked gap 0 padding 0 ((List.range spots.length).zip spots) (height - padding) := by
  obtain ⟨last, course, ends⟩ := h
  rw [if_neg some_spot] at ends
  obtain rfl := Except.ok.inj ends
  cases course with
  | done => exact absurd rfl some_spot
  | @next _ next _ spot rest put course =>
    obtain ⟨own, others⟩ := List.forall_mem_cons.mp heights
    obtain ⟨-, hy, hnext⟩ := Exact.column_step_eq_ok.mp put
    rw [List.length_cons, List.range_eq_range', List.range'_succ, List.zip_cons_cons, add_sub_cancel_right]
    refine .beside hy.symm ?_
    rw [max_eq_right own]
    exact Column.stacked course others hnext.symm

/-- The row of each of some widths, when a child that does not fit breaks to the next row. -/
def Wrap.rowsFrom (limit padding gap : ℚ) : ℚ → Bool → ℕ → List ℚ → List ℕ
  | _, _, _, [] => []
  | x, any, row, w :: rest =>
    if any = true ∧ limit + tolerance < x + w then
      (row + 1) :: rowsFrom limit padding gap (padding + (w + gap)) true (row + 1) rest
    else row :: rowsFrom limit padding gap (x + (w + gap)) true row rest

theorem Wrap.stacked {c last : Cursor ℚ} (course : Course (step limit padding gap) c spots last) :
    ∀ row, Stacked gap row c.y c.rowHeight
      ((rowsFrom limit padding gap c.x c.any row (spots.map (·.placed.w))).zip spots)
      (last.y + last.rowHeight) := by
  induction course with
  | done c => intro row; exact .done row c.y c.rowHeight
  | @next c next last spot rest put _ ih =>
    intro row
    obtain ⟨-, hy, hnext⟩ := Exact.wrap_step_eq_ok.mp put
    rw [List.map_cons, rowsFrom]
    by_cases breaks : c.any = true ∧ limit + tolerance < c.x + spot.placed.w
    · rw [if_pos breaks] at hy hnext ⊢
      have ih := ih (row + 1)
      rw [← hnext] at ih
      exact .beneath hy.symm ih
    · rw [if_neg breaks] at hy hnext ⊢
      have ih := ih row
      rw [← hnext] at ih
      exact .beside hy.symm ih

/-- A grid breaks to the next row after as many children as it has columns. -/
theorem Cells.stacked {c last : Cursor ℚ} (course : Course (step columns cell gap) c spots last) :
    Stacked gap ((c.placed - 1) / columns) c.y c.rowHeight
      (((List.range' c.placed spots.length).map (· / columns)).zip spots) (last.y + last.rowHeight) := by
  induction course with
  | done c => exact .done _ c.y c.rowHeight
  | @next c next last spot rest put _ ih =>
    obtain ⟨-, hy, hnext⟩ := Exact.cells_step_eq_ok.mp put
    rw [List.length_cons, List.range'_succ, List.map_cons, List.zip_cons_cons,
      row_eq columns c.placed]
    by_cases full : c.placed % columns = 0 ∧ 0 < c.placed
    · rw [if_pos full] at hy hnext ⊢
      rw [← hnext, Nat.add_sub_cancel, row_eq columns c.placed, if_pos full] at ih
      exact .beneath hy.symm ih
    · rw [if_neg full] at hy hnext ⊢
      rw [← hnext, Nat.add_sub_cancel, row_eq columns c.placed, if_neg full] at ih
      exact .beside hy.symm ih

theorem Wrap.length_rowsFrom (limit padding gap : ℚ) (widths : List ℚ) : ∀ (x : ℚ) (any : Bool) (row : ℕ),
    (rowsFrom limit padding gap x any row widths).length = widths.length := by
  induction widths with
  | nil => intro x any row; rfl
  | cons w rest ih =>
    intro x any row
    rw [rowsFrom]
    split <;> simp only [List.length_cons, ih]

end

/-! ## Spots within a container -/

/-- Spots that lie within a height, in rows one below the other. -/
structure Within (height : ℚ) (rows : List ℕ) (spots : List (Spot ℚ ℚ)) : Prop where
  high : 0 ≤ height
  inside : ∀ spot ∈ spots, 0 ≤ spot.y ∧ spot.bottom ≤ height
  apart : (rows.zip spots).Pairwise Spot.Apart

theorem Within.empty {height : ℚ} {rows : List ℕ} (high : 0 ≤ height) : Within height rows [] :=
  ⟨high, nofun, List.zip_nil_right ▸ .nil⟩

theorem Stacked.within {gap y bottom height : ℚ} {row : ℕ} {rows : List ℕ} {spots : List (Spot ℚ ℚ)}
    (stacked : Stacked gap row y 0 (rows.zip spots) bottom) (hgap : 0 ≤ gap)
    (heights : ∀ spot ∈ spots, 0 ≤ spot.placed.h) (all : rows.length = spots.length) (hy : 0 ≤ y)
    (covered : bottom ≤ height) : Within height rows spots := by
  obtain ⟨ends, inside, apart⟩ :=
    stacked.apart hgap (fun q hq => heights _ (List.of_mem_zip hq).2) le_rfl
  refine ⟨by linarith, fun spot hs => ?_, apart⟩
  rw [← List.map_snd_zip all.ge] at hs
  obtain ⟨q, hq, rfl⟩ := List.mem_map.mp hs
  obtain ⟨starts, stops, -⟩ := inside q hq
  exact ⟨hy.trans starts, stops.trans covered⟩

/-- In one row nothing is apart. -/
theorem Spot.apart_replicate (spots : List (Spot ℚ ℚ)) :
    ((List.replicate spots.length 0).zip spots).Pairwise Spot.Apart :=
  List.pairwise_of_forall_mem_list fun a ha b hb other => by
    have first := List.eq_of_mem_replicate (List.of_mem_zip ha).1
    have second := List.eq_of_mem_replicate (List.of_mem_zip hb).1
    exact absurd (first.trans second.symm) other

/-- The largest of some numbers is not below any of them, nor below the one that is compared first. -/
theorem Exact.le_foldl_larger (sizes : List ℚ) : ∀ first : ℚ,
    first ≤ sizes.foldl larger first ∧ ∀ size ∈ sizes, size ≤ sizes.foldl larger first := by
  induction sizes with
  | nil => intro first; exact ⟨le_rfl, nofun⟩
  | cons size rest ih =>
    intro first
    obtain ⟨own, others⟩ := ih (larger first size)
    rw [List.foldl_cons]
    rw [Exact.larger_eq] at own others ⊢
    exact ⟨(le_max_left _ _).trans own, List.forall_mem_cons.mpr ⟨(le_max_right _ _).trans own, others⟩⟩

theorem Exact.le_largest {sizes : List ℚ} : ∀ size ∈ sizes, size ≤ largest sizes := by
  cases sizes with
  | nil => nofun
  | cons first rest => exact List.forall_mem_cons.mpr (Exact.le_foldl_larger rest first)

theorem Exact.largest_nonneg {sizes : List ℚ} (h : ∀ size ∈ sizes, 0 ≤ size) : 0 ≤ largest sizes := by
  cases sizes with
  | nil => exact le_rfl
  | cons first rest =>
    exact (h first List.mem_cons_self).trans (Exact.le_largest first List.mem_cons_self)

section

variable {align : Align} {padding gap content cell width height : ℚ} {columns : ℕ}
  {spots : List (Spot ℚ ℚ)}

theorem Exact.start_within (align : Align) {room size : ℚ} (hp : 0 ≤ padding) (fits : size ≤ room) :
    0 ≤ start align padding room size ∧
      start align padding room size + size ≤ padding + room := by
  cases align <;> constructor <;> unfold start <;> dsimp only <;> linarith

theorem Column.Arranged.within (h : Arranged align padding gap content spots height)
    (hp : 0 ≤ padding) (hgap : 0 ≤ gap) (heights : ∀ spot ∈ spots, 0 ≤ spot.placed.h) :
    Within height (List.range spots.length) spots := by
  by_cases none : spots = []
  · obtain ⟨_, -, ends⟩ := h
    rw [if_pos none, Exact.twice_eq] at ends
    obtain rfl := Except.ok.inj ends
    subst none
    exact .empty (by linarith)
  · exact (h.stacked heights none).within hgap heights List.length_range hp (by linarith)

theorem Row.step_y {x next : ℚ} (course : Course (step align padding gap height) x spots next) :
    ∀ spot ∈ spots, spot.y = Exact.start align padding height spot.placed.h := by
  induction course with
  | done => nofun
  | next put _ ih =>
    obtain ⟨-, hy, -⟩ := Exact.row_step_eq_ok.mp put
    exact List.forall_mem_cons.mpr ⟨hy.symm, ih⟩

theorem Row.Arranged.within (h : Arranged align padding gap spots height)
    (hp : 0 ≤ padding) (heights : ∀ spot ∈ spots, 0 ≤ spot.placed.h) :
    Within height (List.replicate spots.length 0) spots := by
  obtain ⟨_, course, ends⟩ := h
  rw [Exact.twice_eq, Exact.add_eq] at ends
  obtain rfl := Except.ok.inj ends
  have tallest : 0 ≤ largest (spots.map (·.placed.h)) :=
    Exact.largest_nonneg (List.forall_mem_map.mpr heights)
  refine ⟨by linarith, fun spot hs => ?_, Spot.apart_replicate spots⟩
  have fits := Exact.le_largest _ (List.mem_map_of_mem (f := (·.placed.h)) hs)
  obtain ⟨starts, stops⟩ := Exact.start_within align hp fits
  rw [Spot.bottom, Row.step_y course spot hs]
  exact ⟨starts, by linarith⟩

theorem Wrap.Arranged.within (h : Arranged width padding gap spots height)
    (hp : 0 ≤ padding) (hgap : 0 ≤ gap) (heights : ∀ spot ∈ spots, 0 ≤ spot.placed.h) :
    Within height (rowsFrom width padding gap padding false 0 (spots.map (·.placed.w))) spots := by
  obtain ⟨last, course, ends⟩ := h
  have all := (length_rowsFrom width padding gap (spots.map (·.placed.w)) padding false 0).trans
    (List.length_map _)
  have stacked := Wrap.stacked course 0
  rw [Exact.noLength_eq] at stacked
  by_cases none : spots = []
  · rw [if_pos none, Exact.twice_eq] at ends
    obtain rfl := Except.ok.inj ends
    subst none
    exact .empty (by linarith)
  · rw [if_neg none, Exact.add_eq, Exact.add_eq] at ends
    obtain rfl := Except.ok.inj ends
    exact stacked.within hgap heights all hp (by linarith)

theorem Cells.Arranged.within (h : Arranged columns cell gap spots height)
    (hgap : 0 ≤ gap) (heights : ∀ spot ∈ spots, 0 ≤ spot.placed.h) :
    Within height ((List.range spots.length).map (· / columns)) spots := by
  obtain ⟨last, course, ends⟩ := h
  have stacked := Cells.stacked course
  rw [Exact.noLength_eq, ← List.range_eq_range', Nat.zero_sub, Nat.zero_div] at stacked
  by_cases none : spots = []
  · rw [if_pos none] at ends
    obtain rfl := Except.ok.inj ends
    subst none
    exact .empty le_rfl
  · rw [if_neg none, Exact.add_eq] at ends
    obtain rfl := Except.ok.inj ends
    exact stacked.within hgap heights (by simp) le_rfl le_rfl

theorem Inset.Arranged.within (h : Inset.Arranged padding spots height)
    (hp : 0 ≤ padding) (heights : ∀ spot ∈ spots, 0 ≤ spot.placed.h) :
    Within height (List.replicate spots.length 0) spots := by
  match spots with
  | [] =>
    obtain rfl := h
    exact .empty le_rfl
  | [spot] =>
    obtain ⟨-, hy, ends⟩ := h
    rw [Exact.twice_eq, Exact.add_eq] at ends
    obtain rfl := Except.ok.inj ends
    have own := heights spot List.mem_cons_self
    refine ⟨by linarith, ?_, List.pairwise_singleton ..⟩
    refine List.forall_mem_cons.mpr ⟨⟨hy.symm ▸ hp, ?_⟩, nofun⟩
    rw [Spot.bottom, hy]
    linarith

/-- The rows in which the visible children of a stack stand when they are this wide. -/
def StackContent.rows (c : StackContent) (width padding gap : ℚ) (widths : List ℚ) : List ℕ :=
  match c.direction, c.wrap with
  | .vertical, _ => List.range widths.length
  | .horizontal, true => Wrap.rowsFrom width padding gap padding false 0 widths
  | .horizontal, false => List.replicate widths.length 0

theorem StackContent.Arranged.within {c : StackContent}
    (h : c.Arranged width padding gap content spots height) (hp : 0 ≤ padding) (hgap : 0 ≤ gap)
    (heights : ∀ spot ∈ spots, 0 ≤ spot.placed.h) :
    Within height (c.rows width padding gap (spots.map (·.placed.w))) spots := by
  unfold rows
  unfold StackContent.Arranged at h
  rw [List.length_map]
  cases hd : c.direction with
  | vertical => rw [hd] at h; exact Column.Arranged.within h hp hgap heights
  | horizontal =>
    rw [hd] at h
    cases hw : c.wrap with
    | true => rw [hw] at h; exact Wrap.Arranged.within h hp hgap heights
    | false => rw [hw] at h; exact Row.Arranged.within h hp heights

end

/-- The rows in which the visible children of a node stand when they are this wide: every child of a
vertical stack or a form is a row, and only rows that break and grids have more than one row else. -/
def Node.rows (n : Node) (width : ℚ) (widths : List ℚ) : List ℕ :=
  match n with
  | stack _ c _ => c.rows width n.inset n.gap widths
  | grid .. => (List.range widths.length).map (· / ((n.columnsIn width).toOption.getD 0).toNat)
  | form .. => List.range widths.length
  | _ => List.replicate widths.length 0

theorem Node.LaidOut.within {s : Surface ℚ} {n : Node} {width content : ℚ} {p : Placement ℚ ℚ}
    {spots : List (Option (Spot ℚ ℚ))} (h : n.LaidOut s width p content spots)
    (hp : 0 ≤ (n.inset : ℚ)) (hgap : 0 ≤ (n.gap : ℚ))
    (leaf : ∀ e, n.extent? width s.touch = some (.ok e) → 0 ≤ e.h)
    (heights : ∀ spot ∈ spots.reduceOption, 0 ≤ spot.placed.h) :
    Within p.h (n.rows width (spots.reduceOption.map (·.placed.w))) spots.reduceOption := by
  have arranged := h.arranged
  unfold rows
  rw [List.length_map]
  cases n with
  | stack hd c cs => exact StackContent.Arranged.within arranged hp hgap heights
  | grid hd c cs =>
    obtain ⟨columns, hc, arranged⟩ := arranged
    rw [hc]
    exact Cells.Arranged.within arranged hgap heights
  | box hd padding child => exact Inset.Arranged.within arranged hp heights
  | form hd f fs as => exact Column.Arranged.within arranged hp hgap heights
  | text | button | field | table =>
    obtain ⟨e, he, measured⟩ := arranged
    obtain rfl : spots = [] := List.forall₂_nil_left_iff.mp h.puts
    exact .empty (measured ▸ leaf e he)

/-! ## Spacings that are on the scale -/

section

variable {s : Surface ℚ}

/-- A spacing that is zero or on a scale without negative numbers is not negative. -/
theorem Spacing.quantity_nonneg {value : Spacing ℚ} {scale : List (Spacing ℚ)}
    (h : value.isRegular scale = true) (positive : ∀ a, .length a ∈ scale → 0 ≤ a) :
    0 ≤ value.quantity := by
  cases value with
  | unlike => exact le_of_eq (by decide +kernel)
  | length a =>
    rcases Bool.or_eq_true_iff.mp h with zero | listed
    · exact ((Exact.same_iff a 0).mp zero).ge
    · obtain ⟨b, hb, like⟩ := List.any_eq_true.mp listed
      cases b with
      | unlike => cases like
      | length b =>
        have same : a = b := by simpa [alike, (Exact.same_iff a a).mpr rfl] using like
        exact same ▸ positive b hb

/-- A spacing about which nothing is noted is regular. -/
theorem isRegular_of_checkSpacing {β : Type} {n : Node} {property : String} {value : Spacing ℚ}
    {next : Unit → Laying ℚ β}
    (h : ∀ d ∈ (checkSpacing s n property value >>= next).notes, d.name ≠ "spacing-off-scale") :
    value.isRegular s.scale = true := by
  by_contra off
  refine h (.offScale n.id n.typeName property value.quantity (s.scale.map (·.quantity)))
    (Trail.notes_subset_bind _ _ ?_) rfl
  rw [checkSpacing, if_neg off]
  exact List.mem_singleton_self _

/-- Without a spacing that is off the scale a node that is laid out has no negative gap or padding. -/
theorem Node.spaced_of_place {n : Node} {width : ℚ} {p : Placement ℚ ℚ}
    (h : (n.place s width).result = .ok (some p))
    (regular : ∀ d ∈ (n.place s width : Laying ℚ (Option (Placement ℚ ℚ))).notes,
      d.name ≠ "spacing-off-scale")
    (positive : ∀ a, .length a ∈ s.scale → 0 ≤ a) :
    0 ≤ (n.inset : ℚ) ∧ 0 ≤ (n.gap : ℚ) := by
  have hv := visible_of_place h
  unfold place at h regular
  rw [if_pos hv] at h regular
  cases n with
  | stack hd c cs =>
    obtain ⟨_, h₁, -⟩ := Trail.result_bind_eq_ok.mp h
    have padding := isRegular_of_checkSpacing regular
    rw [Trail.notes_bind h₁] at regular
    have gap := isRegular_of_checkSpacing (List.forall_mem_append.mp regular).2
    exact ⟨Spacing.quantity_nonneg padding positive, Spacing.quantity_nonneg gap positive⟩
  | grid hd c cs =>
    exact ⟨le_rfl, Spacing.quantity_nonneg (isRegular_of_checkSpacing regular) positive⟩
  | box hd padding child =>
    have padding : (Spacing.orZero padding : Spacing ℚ).isRegular s.scale = true := by
      cases child <;> exact isRegular_of_checkSpacing regular
    exact ⟨Spacing.quantity_nonneg padding positive, le_rfl⟩
  | form | text | button | field | table => exact ⟨le_rfl, le_rfl⟩

end

/-! ## From the root down -/

theorem Node.isContainer_of_mem_children {n c : Node} (h : c ∈ n.children) : n.isContainer = true := by
  cases n with
  | stack | grid | box | form => rfl
  | text | button | field | table => cases h

/-- A placement that is as high as all that is below its root. -/
def Placement.Covers (p : Placement ℚ ℚ) : Prop := 0 ≤ p.h ∧ ∀ f ∈ p.below, 0 ≤ f.y ∧ f.bottom ≤ p.h

theorem Frame.bottom_moved (f : Frame ℚ ℚ) (dx dy : ℚ) : (f.moved dx dy).bottom = f.bottom + dy :=
  add_right_comm ..

theorem Placement.Covers.frames {p : Placement ℚ ℚ} (covers : p.Covers) :
    ∀ f ∈ p.frames, 0 ≤ f.y ∧ f.bottom ≤ p.h :=
  List.forall_mem_cons.mpr ⟨⟨le_rfl, (zero_add p.h).le⟩, covers.2⟩

theorem Placement.Covers.fit {p : Placement ℚ ℚ} (covers : p.Covers) (n : Node) (content : ℚ) (c : Node) :
    (n.fit content c p).Covers := by
  unfold Node.fit
  split <;> exact covers

/-- A tree whose layout has nothing negative in it: no gap or padding is off a scale without negative
numbers, and no leaf has a negative height. -/
structure Upright (s : Surface ℚ) (root : Located) (width : ℚ) : Prop where
  regular : ∀ d ∈ (root.node.place s width : Laying ℚ (Option (Placement ℚ ℚ))).notes,
    d.name ≠ "spacing-off-scale"
  positive : ∀ a, .length a ∈ s.scale → 0 ≤ a
  leaves : ∀ l w b, Offered root width l w b →
    ∀ e, l.node.extent? w s.touch = some (.ok e) → 0 ≤ e.h

section

variable {s : Surface ℚ} {root l : Located} {width w content : ℚ} {b : Bool} {p p₀ : Placement ℚ ℚ}
  {spots : List (Option (Spot ℚ ℚ))}

theorem Offered.within (h : (root.node.place s width).result = .ok (some p₀))
    (up : Upright s root width) (o : Offered root width l w b)
    (hp : (l.node.place s w).result = .ok (some p)) (out : l.node.LaidOut s w p content spots)
    (children : ∀ spot ∈ spots.reduceOption, spot.placed.Covers) :
    Within p.h (l.node.rows w (spots.reduceOption.map (·.placed.w))) spots.reduceOption := by
  obtain ⟨inset, gap⟩ :=
    Node.spaced_of_place hp (fun d hd => up.regular d ((o.laid h).2.subset hd)) up.positive
  exact out.within inset gap (up.leaves l w b o) fun spot hs => (children spot hs).1

/-- Every node is laid out as high as all that is below it. -/
theorem Offered.covers (h : (root.node.place s width).result = .ok (some p₀))
    (up : Upright s root width) (o : Offered root width l w b)
    (hp : (l.node.place s w).result = .ok (some p)) : p.Covers := by
  obtain ⟨n, hn⟩ : ∃ n, n = l.node := ⟨_, rfl⟩
  induction n using Node.byChildren generalizing l w b p with
  | step n ih =>
    subst hn
    obtain ⟨content, spots, out⟩ := Node.laidOut_of_place hp
    have children : ∀ spot ∈ spots.reduceOption, spot.placed.Covers := by
      intro spot hs
      obtain ⟨slot, hslot, q, offered, hq, fitted⟩ := o.of_spot out hs
      rw [fitted]
      exact (ih _ (Node.slot_mem_children hslot) offered hq rfl).fit ..
    have within := o.within h up hp out children
    refine ⟨within.high, fun f hf => ?_⟩
    rw [out.placed] at hf
    obtain ⟨spot?, hs, hf⟩ := List.mem_flatMap.mp hf
    cases spot? with
    | none => cases hf
    | some spot =>
      have hs := List.reduceOption_mem_iff.mpr hs
      obtain ⟨dx, dy, -, hy, frames⟩ := spot.frames_eq
      obtain rfl : spot.y = dy := Except.ok.inj hy
      have hf : f ∈ spot.frames := hf
      rw [frames] at hf
      obtain ⟨g, hg, rfl⟩ := List.mem_map.mp hf
      obtain ⟨above, under⟩ := (children spot hs).frames g hg
      obtain ⟨starts, stops⟩ := within.inside spot hs
      rw [Spot.bottom] at stops
      exact ⟨add_nonneg above starts, by rw [Frame.bottom_moved]; linarith⟩

/-- Side by side with the visible children stand the frames of the spots that they are put in. -/
theorem Node.LaidOut.shown (out : l.node.LaidOut s w p content spots) (dx dy : ℚ) :
    List.Forall₂ (fun m (spot : Spot ℚ ℚ) =>
        (m, (spot.placed.own.moved spot.x spot.y).moved dx dy) ∈
          (l.node.slots.flatMap fun slot => (l.under slot).subtree).zip (p.below.map (·.moved dx dy)))
      l.shownChildren spots.reduceOption := by
  rw [out.zip_below (·.moved dx dy)]
  refine forall₂_reduceOption (List.forall₂_map_left_iff.mpr (List.forall₂_iff_zip.mpr
    ⟨out.put.length_eq, fun {slot spot?} hz => ?_⟩))
  obtain ⟨placed, hq, same⟩ := List.forall₂_zip out.put hz
  show slot.node.visible = _ ∧ _
  cases spot? with
  | none =>
    refine ⟨Bool.eq_false_iff.mpr fun hv => ?_, nofun⟩
    obtain ⟨q, rfl⟩ := Node.exists_placement hv hq
    cases same
  | some spot =>
    obtain ⟨q, rfl, -⟩ := Option.map_eq_some_iff.mp same.symm
    have hv : slot.node.visible = true := Node.visible_of_place hq
    refine ⟨hv, ?_⟩
    rintro _ ⟨⟩
    have frames : spot.frames = spot.placed.frames.map (·.moved spot.x spot.y) :=
      (Except.ok.inj spot.moved).symm
    refine List.mem_flatMap.mpr ⟨_, hz, ?_⟩
    show _ ∈ (l.under slot).subtree.zip (spot.frames.map _)
    rw [Located.subtree_eq (l := l.under slot) hv, frames]
    exact List.mem_cons_self

/-- The frames that a subtree has in the whole, its own first. -/
theorem Offered.moved_iff (h : (root.node.place s width).result = .ok (some p₀))
    (o : Offered root width l w b) :
    ∃ (p : Placement ℚ ℚ) (dx dy : ℚ), (l.node.place s w).result = .ok (some p) ∧
      (∀ f, (l, f) ∈ root.subtree.zip p₀.frames ↔
        f = (if b then p.resized w else p).own.moved dx dy) ∧
      ∀ m ∈ l.subtree, ∀ f, (m, f) ∈ root.subtree.zip p₀.frames ↔
        (m, f) ∈ l.subtree.zip ((if b then p.resized w else p).frames.map (·.moved dx dy)) := by
  obtain ⟨p, moves, hp, own, same⟩ := o.frame_iff h
  obtain ⟨dx, dy, moved⟩ := Frame.shifted_eq_moved moves
  rw [List.map_congr_left fun f _ => moved f] at same
  simp only [moved] at own
  exact ⟨p, dx, dy, hp, own, same⟩

/-- The frame of a node encloses the frames of all nodes below it, upwards and downwards. -/
theorem Offered.encloses (h : (root.node.place s width).result = .ok (some p₀))
    (up : Upright s root width) (o : Offered root width l w b) {f : Frame ℚ ℚ}
    (hf : (l, f) ∈ root.subtree.zip p₀.frames) {m : Located} (hm : m ∈ l.subtree) {g : Frame ℚ ℚ}
    (hg : (m, g) ∈ root.subtree.zip p₀.frames) : f.y ≤ g.y ∧ g.bottom ≤ f.bottom := by
  obtain ⟨p, dx, dy, hp, own, same⟩ := o.moved_iff h
  obtain rfl := (own f).mp hf
  obtain ⟨k, hk, rfl⟩ := List.mem_map.mp (List.of_mem_zip ((same m hm g).mp hg)).2
  have own_covers := o.covers h up hp
  have covers : (if b then p.resized w else p).Covers := by cases b <;> exact own_covers
  obtain ⟨above, under⟩ := covers.frames k hk
  rw [Frame.bottom_moved, Frame.bottom_moved]
  exact ⟨add_le_add_left above dy, add_le_add_left (under.trans (zero_add _).ge) dy⟩

/-- Of the frames of a node's visible children, those in an earlier row end before those in a later
row start. -/
theorem Offered.children_apart (h : (root.node.place s width).result = .ok (some p₀))
    (up : Upright s root width) (o : Offered root width l w b) {f : Frame ℚ ℚ}
    (hf : (l, f) ∈ root.subtree.zip p₀.frames) :
    ∃ gs : List (Frame ℚ ℚ),
      List.Forall₂ (fun m g => (m, g) ∈ root.subtree.zip p₀.frames) l.shownChildren gs ∧
      ((l.node.rows f.w (gs.map (·.w))).zip gs).Pairwise fun a b => a.1 ≠ b.1 → a.2.bottom ≤ b.2.y := by
  obtain ⟨p, dx, dy, hp, own, same⟩ := o.moved_iff h
  obtain ⟨content, spots, out⟩ := Node.laidOut_of_place hp
  have within := o.within h up hp out fun spot hs => by
    obtain ⟨slot, -, q, offered, hq, fitted⟩ := o.of_spot out hs
    exact fitted ▸ (offered.covers h up hq).fit ..
  let there (spot : Spot ℚ ℚ) : Frame ℚ ℚ := (spot.placed.own.moved spot.x spot.y).moved dx dy
  refine ⟨spots.reduceOption.map there, ?_, ?_⟩
  · refine List.forall₂_map_right_iff.mpr ((out.shown dx dy).imp fun m spot beside => ?_)
    refine (same m ?_ _).mpr ?_
    · rw [Located.subtree_eq out.visible]
      exact List.mem_cons_of_mem _ (List.of_mem_zip beside).1
    · rw [Located.subtree_eq out.visible, p.frames_stretched]
      exact List.mem_cons_of_mem _ beside
  · have spans : spots.reduceOption ≠ [] → f.w = w := fun some_spot => by
      obtain ⟨spot, hs⟩ := List.exists_mem_of_ne_nil _ some_spot
      obtain ⟨slot, hslot, -⟩ := o.of_spot out hs
      have container := Node.isContainer_of_mem_children (Node.slot_mem_children hslot)
      rw [(own f).mp hf]
      cases b with
      | true => rfl
      | false =>
        rw [out.placed]
        exact out.spans container
    have widths : spots.reduceOption.map ((·.w) ∘ there) = spots.reduceOption.map (·.placed.w) :=
      List.map_congr_left out.spots_drawn
    rw [List.zip_map_right, List.pairwise_map, List.map_map, widths]
    by_cases none : spots.reduceOption = []
    · rw [none, List.zip_nil_right]
      exact .nil
    · rw [spans none]
      refine within.apart.imp fun {a c} apart other => ?_
      have apart := apart other
      rw [Spot.bottom] at apart
      show (there a.2).bottom ≤ 0 + c.2.y + dy
      rw [Frame.bottom_moved, Frame.bottom_moved]
      show 0 + a.2.placed.h + a.2.y + dy ≤ 0 + c.2.y + dy
      linarith

end

/-! ## Documents -/

theorem Node.Arranged.height_of_extent {s : Surface ℚ} {n : Node} {width content height : ℚ}
    {spots : List (Spot ℚ ℚ)} {e : Extent ℚ} (h : n.Arranged s width content spots height)
    (he : n.extent? width s.touch = some (.ok e)) : n.isContainer = false ∧ height = e.h := by
  cases n with
  | stack | grid | box | form => cases he
  | text | button | field | table =>
    obtain ⟨e', he', rfl⟩ := h
    obtain rfl : e = e' := Except.ok.inj (Option.some.inj (he.symm.trans he'))
    exact ⟨rfl, rfl⟩

/-- The height that a leaf measures is that of its frame. -/
theorem Offered.leaf_height {s : Surface ℚ} {root l : Located} {width w : ℚ} {b : Bool}
    {p₀ : Placement ℚ ℚ} (h : (root.node.place s width).result = .ok (some p₀))
    (o : Offered root width l w b) {e : Extent ℚ} (he : l.node.extent? w s.touch = some (.ok e)) :
    l.node.isContainer = false ∧ ∃ f, (l, f) ∈ root.subtree.zip p₀.frames ∧ f.h = e.h := by
  obtain ⟨p, dx, dy, hp, own, -⟩ := o.moved_iff h
  obtain ⟨content, spots, out⟩ := Node.laidOut_of_place hp
  obtain ⟨leaf, height⟩ := out.arranged.height_of_extent he
  have same_height : (if b then p.resized w else p).h = p.h := by cases b <;> rfl
  exact ⟨leaf, _, (own _).mpr rfl, same_height.trans height⟩

/-- In exact numbers a screen that is read is laid out at every viewport. When no gap or padding is
off a scale without negative numbers, and no leaf has a negative height, the frame of every visible
node encloses, upwards and downwards, the frames of all visible nodes below it; and of its visible
children those in an earlier row end before those in a later row start. -/
theorem frames_nest {document : Value} {s : Scaffold} (hs : Scaffold.read document = .ok s)
    {v : Viewport} {root : Node} (hroot : (s.screen.root.resolve (.int v.width)).result = .ok root)
    (detection : PrimaryDetection) :
    ∃ frames : List (Frame ℚ ℚ),
      (Layout.ofTree s.settings.exact v detection root).result = .ok frames ∧
      ((∀ d ∈ (Layout.ofTree s.settings.exact v detection root : Laying ℚ (List (Frame ℚ ℚ))).notes,
          d.name ≠ "spacing-off-scale") →
        (∀ a, .length a ∈ s.settings.exact.scale → 0 ≤ a) →
        (∀ l f, (l, f) ∈ root.walk.zip frames → l.node.isContainer = false → 0 ≤ f.h) →
        ∀ l f, (l, f) ∈ root.walk.zip frames →
          (∀ m ∈ l.subtree, ∀ g, (m, g) ∈ root.walk.zip frames → f.y ≤ g.y ∧ g.bottom ≤ f.bottom) ∧
          ∃ gs : List (Frame ℚ ℚ),
            List.Forall₂ (fun m g => (m, g) ∈ root.walk.zip frames) l.shownChildren gs ∧
            ((l.node.rows f.w (gs.map (·.w))).zip gs).Pairwise fun a b =>
              a.1 ≠ b.1 → a.2.bottom ≤ b.2.y) := by
  have columned := Node.resolve_columned hroot (Scaffold.columned hs)
  obtain ⟨placed, hp⟩ := root.place_returns s.settings.exact columned (v.width : ℚ)
  refine ⟨(placed.map (·.frames)).getD [], Exact.ofTree_eq_ok.mpr ⟨placed, hp, rfl⟩, ?_⟩
  intro regular positive heights l f hf
  have hl : l ∈ (⟨root, rootPointer⟩ : Located).subtree := (List.of_mem_zip hf).1
  obtain ⟨p₀, rfl⟩ := Node.exists_placement ((Node.mem_walkFrom.mp hl).1 rfl) hp
  have up : Upright s.settings.exact ⟨root, rootPointer⟩ (v.width : ℚ) := by
    refine ⟨fun d hd => regular d (Trail.notes_subset_bind _ _ hd), positive, fun m w b o e he => ?_⟩
    obtain ⟨leaf, g, hg, height⟩ := o.leaf_height hp he
    exact height ▸ heights m g hg leaf
  obtain ⟨w, b, o⟩ := Located.offered_of_mem hp hl
  exact ⟨fun m hm g hg => o.encloses hp up hf hm hg, o.children_apart hp up hf⟩

/-- On the page with the card no spacing is off the scale and no leaf has a negative height, so its
frames nest: the button ends before the card starts, and the first two tables before the third. -/
theorem card_frames_nest : ∃ (s : Scaffold) (root : Node) (frames : List (Frame ℚ ℚ)),
    Scaffold.read Scaffold.cardDocument = .ok s ∧
    (s.screen.root.resolve (.int 320)).result = .ok root ∧
    (Layout.ofTree s.settings.exact ⟨320, 640, by decide, by decide⟩ .role root).result = .ok frames ∧
    (frames.map fun f => (f.id, f.y, f.bottom)) =
      [("page", 0, 584), ("go", 8, 52), ("card", 68, 576), ("cells", 72, 572), ("left", 72, 320),
        ("right", 72, 320), ("total", 324, 572)] ∧
    ∀ l f, (l, f) ∈ root.walk.zip frames →
      (∀ m ∈ l.subtree, ∀ g, (m, g) ∈ root.walk.zip frames → f.y ≤ g.y ∧ g.bottom ≤ f.bottom) ∧
      ∃ gs : List (Frame ℚ ℚ),
        List.Forall₂ (fun m g => (m, g) ∈ root.walk.zip frames) l.shownChildren gs ∧
        ((l.node.rows f.w (gs.map (·.w))).zip gs).Pairwise fun a b => a.1 ≠ b.1 → a.2.bottom ≤ b.2.y := by
  have computed : ((Scaffold.read Scaffold.cardDocument).toOption.bind fun s =>
      (s.screen.root.resolve (.int 320)).result.toOption.bind fun root =>
        let laid : Laying ℚ (List (Frame ℚ ℚ)) :=
          Layout.ofTree s.settings.exact ⟨320, 640, by decide, by decide⟩ .role root
        laid.result.toOption.map fun frames =>
          (frames.map fun f => (f.id, f.y, f.bottom),
            laid.notes.all (·.name != "spacing-off-scale"),
            s.settings.exact.scale.all fun
              | .length a => decide (0 ≤ a)
              | .unlike => true,
            (root.walk.zip frames).all fun q => q.1.node.isContainer || decide (0 ≤ q.2.h))) =
      some ([("page", 0, 584), ("go", 8, 52), ("card", 68, 576), ("cells", 72, 572), ("left", 72, 320),
        ("right", 72, 320), ("total", 324, 572)], true, true, true) := by
    decide +kernel
  obtain ⟨s, hs, computed⟩ := Option.bind_eq_some_iff.mp computed
  obtain ⟨root, hroot, computed⟩ := Option.bind_eq_some_iff.mp computed
  obtain ⟨frames, hframes, told⟩ := Option.map_eq_some_iff.mp computed
  have hs := Result.toOption_eq_some.mp hs
  have hroot := Result.toOption_eq_some.mp hroot
  have hframes := Result.toOption_eq_some.mp hframes
  simp only [Prod.mk.injEq] at told
  obtain ⟨told, regular, positive, heights⟩ := told
  obtain ⟨frames', laid, nest⟩ := frames_nest hs (v := ⟨320, 640, by decide, by decide⟩) hroot .role
  obtain rfl : frames' = frames := Except.ok.inj (laid.symm.trans hframes)
  refine ⟨s, root, frames', hs, hroot, hframes, told, nest ?_ ?_ ?_⟩
  · intro d hd
    exact bne_iff_ne.mp (List.all_eq_true.mp regular d hd)
  · intro a ha
    exact of_decide_eq_true (List.all_eq_true.mp positive _ ha)
  · intro l f hf leaf
    have high := List.all_eq_true.mp heights _ hf
    rw [leaf, Bool.false_or] at high
    exact of_decide_eq_true high

end Wireframe
