import Wireframe.Proofs.Layout.Exact
import Wireframe.Proofs.Layout.Offers
import Mathlib.Tactic.Linarith

/-
  Wireframe.Proofs.Layout.Cells — where a grid puts its children.

  A grid counts the children that it places, and not those that are hidden. A child goes into the
  column that its number leaves when it is divided by the columns, and a row starts when nothing is
  left. The height of the row in progress is reset at the same moment, so the quotient of the number
  and the columns tells the row for the upper edges as well as for the heights.

  How many columns there are is a bound and a floor: as many as are asked for, but no more than the
  widths and the gaps between them have room for. This is the greatest number that leaves every
  column its least width, because a column is wide enough exactly when there is room for all of them
  with one gap more.

  Proved:
  - `Cells.advance_filled`, `Cells.after_filled`: what one child changes.
  - `Cells.Arranged.rowMajor`: the cells of all children, and the height.
  - `Cells.arrange_notes`: what a grid itself tells of its children.
  - `Node.grid_rowMajor`: all of this for a grid that is laid out.
  - `Exact.cell_wide_iff`: when a column is wide enough.
  - `Exact.effectiveColumns_greatest`: the columns of a grid are as many as are wide enough.
-/

namespace Wireframe

open Quantity

variable {α δ : Type} [Quantity α δ] [Scalar δ]

/-! ## Row by row -/

namespace Cells

section

variable {columns : ℕ} {cell gap : α} {top : ℕ → α} {row : ℕ} {spots : List (Spot α δ)}

/-- The spots of one row, when a row has so many columns. -/
def rowOf (columns row : ℕ) (spots : List (Spot α δ)) : List (Spot α δ) :=
  (spots.drop (row * columns)).take columns

/-- A row that is full stays as it is. -/
theorem rowOf_append {more : List (Spot α δ)} (full : (row + 1) * columns ≤ spots.length) :
    rowOf columns row (spots ++ more) = rowOf columns row spots := by
  rw [Nat.add_one_mul] at full
  rw [rowOf, rowOf, List.drop_append_of_le_length (by omega), List.take_append_of_le_length]
  rw [List.length_drop]
  omega

/-- The next spot is in the row that its number tells. -/
theorem rowOf_snoc (some_column : 1 ≤ columns) (spots : List (Spot α δ)) (spot : Spot α δ) :
    rowOf columns (spots.length / columns) (spots ++ [spot]) =
      rowOf columns (spots.length / columns) spots ++ [spot] := by
  have begun := Nat.div_mul_le_self spots.length columns
  have partly := Nat.lt_div_mul_add some_column (a := spots.length)
  have short : (spots.drop (spots.length / columns * columns)).length < columns := by
    rw [List.length_drop]
    omega
  rw [rowOf, rowOf, List.drop_append_of_le_length begun, List.take_of_length_le (Nat.le_of_lt short),
    List.take_of_length_le]
  rw [List.length_append]
  exact short

/-- The row of the last of some spots. -/
def lastRow (columns : ℕ) (spots : List (Spot α δ)) : ℕ := (spots.length - 1) / columns

/-- Spots in the cells of rows that begin at some heights, as far as some row. -/
structure RowMajor (columns : ℕ) (cell gap : α) (top : ℕ → α) (row : ℕ) (spots : List (Spot α δ)) :
    Prop where
  /-- A spot stands in the column that its number leaves when it is divided by the columns. -/
  across : ∀ k (h : k < spots.length),
    ((ofInt (k % columns : ℕ) : α) * (cell + gap) : Calculation α) = .ok spots[k].x
  /-- Spots of the same row have the same upper edge. -/
  level : ∀ k (h : k < spots.length), spots[k].y = top (k / columns)
  first : top 0 = noLength
  /-- A row begins where the row before ends with its tallest spot, and a gap below. -/
  beneath : ∀ r < row,
    (top r + (Spot.tallest (rowOf columns r spots) + gap) : Calculation α) = .ok (top (r + 1))

/-- The same, with where the arrangement stands. -/
structure Filled (columns : ℕ) (cell gap : α) (top : ℕ → α) (row : ℕ) (spots : List (Spot α δ))
    (c : Cursor α) : Prop extends RowMajor columns cell gap top row spots where
  count : c.placed = spots.length
  edge : c.y = top row
  height : c.rowHeight = Spot.tallest (rowOf columns row spots)

/-- Before a child is put, the row in progress is the one that its number tells. -/
theorem advance_filled (some_column : 1 ≤ columns) {c d : Cursor α}
    (h : Filled columns cell gap top (lastRow columns spots) spots c)
    (step : advance columns gap c = .ok d) :
    ∃ top, Filled columns cell gap top (spots.length / columns) spots d := by
  unfold advance at step
  rw [h.count] at step
  split at step
  · rename_i full
    obtain ⟨done, some_spot⟩ := full
    obtain ⟨y, hy, e⟩ := Result.bind_eq_ok.mp step
    cases e
    have next : spots.length / columns = lastRow columns spots + 1 := by
      rw [row_eq, if_pos ⟨done, some_spot⟩, lastRow]
    have all : spots.length = (lastRow columns spots + 1) * columns := by
      rw [← next, Nat.div_mul_cancel (Nat.dvd_of_mod_eq_zero done)]
    generalize lastRow columns spots = r at h next all
    have before : ∀ q ≤ r, Function.update top (r + 1) y q = top q := fun q hq =>
      Function.update_of_ne (by omega) ..
    have none : rowOf columns (r + 1) spots = [] := by
      rw [rowOf, ← all, List.drop_length, List.take_nil]
    rw [next]
    refine ⟨Function.update top (r + 1) y, ⟨h.across, fun k hk => ?_, ?_, fun q hq => ?_⟩, rfl, ?_, ?_⟩
    · rw [h.level k hk, before]
      rw [← Nat.lt_add_one_iff, Nat.div_lt_iff_lt_mul some_column]
      omega
    · rw [before 0 (Nat.zero_le r), h.first]
    · rcases Nat.lt_or_eq_of_le (Nat.le_of_lt_add_one hq) with hq | rfl
      · rw [before q (by omega), before (q + 1) (by omega), h.beneath q hq]
      · rw [before q (Nat.le_refl q), Function.update_self, ← h.edge, ← h.height]
        exact hy
    · rw [Function.update_self]
    · rw [none]
      rfl
  · rename_i partly
    cases step
    have same : spots.length / columns = lastRow columns spots := by
      rw [row_eq, if_neg partly, lastRow]
    rw [same]
    exact ⟨top, h⟩

/-- A child that is put is the next spot. -/
theorem after_filled (some_column : 1 ≤ columns) {d : Cursor α} {spot : Spot α δ}
    (h : Filled columns cell gap top (spots.length / columns) spots d)
    (hx : ((ofInt (d.placed % columns : ℕ) : α) * (cell + gap) : Calculation α) = .ok spot.x)
    (hy : d.y = spot.y) :
    Filled columns cell gap top (lastRow columns (spots ++ [spot])) (spots ++ [spot])
      (after d spot.placed) := by
  have last : lastRow columns (spots ++ [spot]) = spots.length / columns := by
    rw [lastRow, List.length_append, List.length_singleton, Nat.add_sub_cancel]
  rw [last]
  refine ⟨⟨fun k hk => ?_, fun k hk => ?_, h.first, fun r hr => ?_⟩, ?_, h.edge, ?_⟩
  · rw [List.length_append, List.length_singleton, Nat.lt_add_one_iff] at hk
    rcases Nat.lt_or_eq_of_le hk with hk | rfl
    · rw [List.getElem_append_left hk, h.across k hk]
    · rw [List.getElem_concat_length rfl, ← h.count, hx]
  · rw [List.length_append, List.length_singleton, Nat.lt_add_one_iff] at hk
    rcases Nat.lt_or_eq_of_le hk with hk | rfl
    · rw [List.getElem_append_left hk, h.level k hk]
    · rw [List.getElem_concat_length rfl, ← hy, h.edge]
  · rw [rowOf_append, h.beneath r hr]
    exact (Nat.mul_le_mul_right _ hr).trans (Nat.div_mul_le_self _ _)
  · rw [List.length_append, List.length_singleton, ← h.count]
    rfl
  · rw [rowOf_snoc some_column, Spot.tallest_snoc, ← h.height]
    rfl

/-- One child more. -/
theorem step_filled (some_column : 1 ≤ columns) {c next : Cursor α} {spot : Spot α δ}
    (h : Filled columns cell gap top (lastRow columns spots) spots c)
    (put : step columns cell gap c spot.placed = .ok (spot.x, spot.y, next)) :
    ∃ top, Filled columns cell gap top (lastRow columns (spots ++ [spot])) (spots ++ [spot]) next := by
  obtain ⟨d, hd, put⟩ := Result.bind_eq_ok.mp put
  obtain ⟨x, hx, e⟩ := Result.bind_eq_ok.mp put
  simp only [pure, Except.pure, Except.ok.injEq, Prod.mk.injEq] at e
  obtain ⟨rfl, hy, rfl⟩ := e
  obtain ⟨top, filled⟩ := advance_filled some_column h hd
  exact ⟨top, after_filled some_column filled hx hy⟩

/-- The spots of a grid are row by row, and the grid ends below the tallest spot of the last row. -/
theorem Arranged.rowMajor (some_column : 1 ≤ columns) {height : α}
    (h : Arranged columns cell gap spots height) :
    ∃ top, RowMajor columns cell gap top (lastRow columns spots) spots ∧
      (if spots = [] then .ok zero
        else top (lastRow columns spots) + Spot.tallest (rowOf columns (lastRow columns spots) spots) :
        Calculation α) = .ok height := by
  obtain ⟨last, course, ends⟩ := h
  have start : ∃ top, Filled columns cell gap top (lastRow columns ([] : List (Spot α δ))) []
      ⟨noLength, noLength, 0⟩ := by
    refine ⟨fun _ => noLength, ⟨nofun, nofun, rfl, fun r hr => ?_⟩, rfl, rfl, ?_⟩
    · simp [lastRow] at hr
    · simp [rowOf, Spot.tallest]
  obtain ⟨top, filled⟩ := course.keeps
    (fun spots c => ∃ top, Filled columns cell gap top (lastRow columns spots) spots c)
    (fun kept put => kept.elim fun _ filled => step_filled some_column filled put) start
  exact ⟨top, filled.toRowMajor, by rw [← filled.edge, ← filled.height]; exact ends⟩

/-! ## What a grid tells -/

/-- A grid tells of every child what is told of it, and then what it tells of it itself. -/
theorem arrange_notes {id : String} {width : α} {children : List (Child α δ)} {p : Placement α δ}
    (h : (arrange id columns width cell gap children).result = .ok p) :
    (arrange id columns width cell gap children).notes =
      children.flatMap fun child => child.placed.notes ++ told id columns cell child := by
  obtain ⟨spots, held, -⟩ := arrange_eq_ok h
  rw [held.noted, Child.told_of_children held.puts.length_eq]

omit [Scalar δ] in
/-- A grid that asks for a column has one. -/
theorem one_le_effectiveColumns {asked columns : ℤ} {width : α} {least : Option α}
    (h : effectiveColumns asked width gap least = .ok columns) (some_column : 1 ≤ asked) :
    1 ≤ columns := by
  unfold effectiveColumns at h
  split at h
  · cases h; exact some_column
  · obtain ⟨step, -, h⟩ := Result.bind_eq_ok.mp h
    split at h
    · cases h; exact some_column
    · simp only [Result.bind_eq_ok] at h
      obtain ⟨q, -, fit, -, h⟩ := h
      cases h
      exact le_max_left _ _

end

end Cells

/-! ## Grids -/

/-- A grid that is laid out in a width with some gap: its columns, the width of its cells, the spots
of its visible children, and the upper edges of its rows. -/
structure Node.InCells (s : Surface α) (hd : Header) (c : GridContent) (cs : List Node) (width gap : α)
    (p : Placement α δ) (columns : ℕ) (cell : α) (spots : List (Spot α δ)) (top : ℕ → α) : Prop where
  fitting : Cells.effectiveColumns c.columns width gap (c.minColWidth.map ofFloat) = .ok columns
  some_column : 1 ≤ columns
  offered : Cells.cellWidth width columns gap = .ok cell
  /-- The visible children are put in the spots, each as it comes out in the width of a cell. -/
  placed : List.Forall₂ (fun n spot => (n.place s cell).result = .ok (some spot.placed))
    (cs.filter (·.visible)) spots
  rows : Cells.RowMajor columns cell gap top (Cells.lastRow columns spots) spots
  /-- The grid ends below the tallest spot of its last row, and has no height without a spot. -/
  height : (if spots = [] then .ok zero
    else top (Cells.lastRow columns spots) +
      Spot.tallest (Cells.rowOf columns (Cells.lastRow columns spots) spots) : Calculation α) = .ok p.h
  frames : p = ⟨hd.id, width, p.h, rounded width, spots.flatMap (·.frames)⟩
  /-- The grid tells of its gap, and of each child that it is wider than its cell, if it is, after
  what is told of the child. -/
  notes : ((grid hd c cs).place s width : Laying α (Option (Placement α δ))).notes =
    (checkSpacing s (grid hd c cs) "gap" (.orZero c.gap)).notes ++ cs.flatMap fun n =>
      (n.place s cell : Laying α (Option (Placement α δ))).notes ++
        Cells.told hd.id columns cell (asChild s cell n : Child α δ)

/-- A grid that asks for a column, as all do that are read, puts its visible children into its cells
row by row. -/
theorem Node.grid_rowMajor {s : Surface α} {hd : Header} {c : GridContent} {cs : List Node} {width : α}
    {p : Placement α δ} (some_column : 1 ≤ c.columns)
    (laid : ((grid hd c cs).place s width).result = .ok (some p)) :
    ∃ columns cell spots top,
      Node.InCells s hd c cs width (Spacing.orZero c.gap).quantity p columns cell spots top := by
  obtain ⟨columns, cell, fitting, hcell, made, notes⟩ := place_grid_eq_ok laid
  have some_column := Cells.one_le_effectiveColumns fitting some_column
  obtain ⟨spots, held, arranged⟩ := Cells.arrange_eq_ok made
  obtain ⟨n, rfl⟩ := Int.eq_ofNat_of_zero_le (Int.le_trans (by decide) some_column)
  obtain ⟨top, rows, height⟩ := arranged.rowMajor (Int.ofNat_le.mp some_column)
  refine ⟨n, cell, spots.reduceOption, top, fitting, Int.ofNat_le.mp some_column, hcell,
    placed_of_puts held.puts, rows, height, ?_, ?_⟩
  · rw [← Spot.flatMap_shown]
    exact held.placed
  · rw [notes, Cells.arrange_notes made, List.flatMap_map]
    rfl

/-- A grid that asks for four columns and has room for two, with a hidden child and one that is wider
than a cell. -/
def Node.halvedGrid : Node :=
  .grid (.plain "cells") ⟨4, some (.length 8), some 100⟩
    [.table (.plain "rows") ⟨none, [], some 0, none, none⟩,
      .text (.hidden "note") ⟨"", none, none, none⟩, .plainButton "go" "Go",
      .field { Header.plain "code" with
        widthPolicy := .fixed, minSize := some ⟨some 200, none, ["w"]⟩ } ⟨"Code", none, none, none, none⟩,
      .table (.plain "sum") ⟨none, [], some 1, none, none⟩]

/-- Its visible children stand in two rows of two, and one of them is told of. -/
theorem Node.halvedGrid_rowMajor : ∃ (p : Placement Number Float) (columns : ℕ) (cell : Number)
    (spots : List (Spot Number Float)) (top : ℕ → Number),
    (halvedGrid.place Settings.standard.surface (.int 250)).result = .ok (some p) ∧
    (p.below.map fun f => (f.id, f.x == 0, f.y == 0)) =
      [("rows", true, true), ("go", false, true), ("code", true, false), ("sum", false, false)] ∧
    ((halvedGrid.place Settings.standard.surface (.int 250) :
      Laying Number (Option (Placement Number Float))).notes.map fun d => (d.name, d.nodeId)) =
        [("overflow-x", "code")] ∧
    Node.InCells Settings.standard.surface (.plain "cells") ⟨4, some (.length 8), some 100⟩
      halvedGrid.children (.int 250) (Spacing.orZero (some (.length 8))).quantity p columns cell spots
      top := by
  have computed : ((halvedGrid.place Settings.standard.surface (.int 250) :
      Laying Number (Option (Placement Number Float))).result.map
        fun placed => placed.map fun p => p.below.map fun f => (f.id, f.x == 0, f.y == 0)).toOption =
      some (some
        [("rows", true, true), ("go", false, true), ("code", true, false), ("sum", false, false)]) := by
    decide +kernel
  obtain ⟨placed, laid, shown⟩ := Result.map_toOption_eq_some.mp computed
  obtain ⟨p, rfl, told⟩ := Option.map_eq_some_iff.mp shown
  obtain ⟨columns, cell, spots, top, cells⟩ := grid_rowMajor (by decide) laid
  exact ⟨p, columns, cell, spots, top, laid, told, by decide +kernel, cells⟩

/-! ## Columns -/

namespace Exact

/-- A column is wide enough exactly when there is room for so many columns, with a gap after each. -/
theorem cell_wide_iff {j : ℤ} (some_column : 1 ≤ j) (width gap : ℚ) {least : ℚ} (positive : 0 < least)
    (step : 0 < least + gap) :
    least ≤ max 0 ((width - (j - 1 : ℤ) * gap) / j) ↔ j ≤ ⌊(width + gap) / (least + gap)⌋ := by
  have some_column : (0 : ℚ) < j := by exact_mod_cast some_column
  rw [le_max_iff, or_iff_right (not_le.mpr positive), le_div_iff₀ some_column, Int.le_floor,
    le_div_iff₀ step]
  push_cast
  constructor
  · intro h; linarith
  · intro h; linarith

/-- The columns of a grid are the greatest number that leaves each of them its least width, or one
where there is no such number. -/
theorem effectiveColumns_greatest {columns : ℤ} (some_column : 1 ≤ columns) (width : ℚ) {gap least : ℚ}
    (positive : 0 < least) (step : 0 < least + gap) :
    ∃ k, Cells.effectiveColumns columns width gap (some least) = .ok k ∧ 1 ≤ k ∧ k ≤ columns ∧
      (1 < k → ∃ cell, Cells.cellWidth width k gap = .ok cell ∧ least ≤ cell) ∧
      ∀ j, k < j → j ≤ columns → ∃ cell, Cells.cellWidth width j gap = .ok cell ∧ cell < least := by
  refine ⟨_, effectiveColumns_eq columns width gap least, ?_⟩
  rw [if_neg (not_le.mpr step)]
  refine ⟨le_max_left _ _, max_le some_column (min_le_left _ _), fun several => ?_, fun j more less => ?_⟩
  · have some : 1 ≤ max 1 (min columns ⌊(width + gap) / (least + gap)⌋) := several.le
    refine ⟨_, cellWidth_eq (by omega) width gap, (cell_wide_iff some width gap positive step).mpr ?_⟩
    omega
  · have some : 1 ≤ j := (le_max_left _ _).trans more.le
    refine ⟨_, cellWidth_eq (by omega) width gap, not_le.mp fun wide => ?_⟩
    have fits := (cell_wide_iff some width gap positive step).mp wide
    omega

/-- With gaps that overlap the columns there is room for eight in a width of ten, and the eighth
leaves each of them exactly its least width. -/
theorem overlappingColumns_greatest : ∃ k, Cells.effectiveColumns 12 (10 : ℚ) (-2) (some 3) = .ok k ∧
    k = 8 ∧ (∃ cell, Cells.cellWidth (10 : ℚ) k (-2) = .ok cell ∧ 3 ≤ cell) ∧
    ∀ j, k < j → j ≤ 12 → ∃ cell, Cells.cellWidth (10 : ℚ) j (-2) = .ok cell ∧ cell < 3 := by
  have some_column : (1 : ℤ) ≤ 12 := by decide
  have positive : (0 : ℚ) < 3 := by norm_num
  have step : (0 : ℚ) < 3 + -2 := by norm_num
  obtain ⟨k, hk, -, -, wide, narrow⟩ := effectiveColumns_greatest some_column 10 positive step
  have eight : Cells.effectiveColumns 12 (10 : ℚ) (-2) (some 3) = .ok 8 := by decide +kernel
  obtain rfl : 8 = k := Except.ok.inj (eight.symm.trans hk)
  exact ⟨8, hk, rfl, wide (by decide), narrow⟩

end Exact

end Wireframe
