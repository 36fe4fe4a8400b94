import Wireframe.Proofs.Layout.Containment

/-
  Wireframe.Proofs.Layout.Column — where a column puts its children.

  A vertical stack or a form puts every child below the one before it. The place for the next child
  moves on by a height and a gap each time, so after the last child it is one gap too far; this gap
  is taken back, but only when there is a child. Hidden children take no step at all, wherever they
  are. A child is stretched before it is aligned, and what is stretched starts at the padding.

  In exact numbers nothing is lost on the way, and the running place is a sum.

  Proved:
  - `Column.course_placed`: where each child of a run stands, and where the run ends.
  - `Column.Arranged.closed`: the height that comes of it.
  - `Node.column_closed`: a vertical stack or a form is laid out exactly when its visible children
    are, and then in closed form.
-/

namespace Wireframe

open Quantity

namespace Column

section

variable {align : Align} {padding gap content height : ℚ} {spots : List (Spot ℚ ℚ)}

/-- The room that some spots take one below the other, with a gap after each. -/
def room (gap : ℚ) (spots : List (Spot ℚ ℚ)) : ℚ := (spots.map fun spot => spot.placed.h + gap).sum

theorem room_cons (gap : ℚ) (spot : Spot ℚ ℚ) (rest : List (Spot ℚ ℚ)) :
    room gap (spot :: rest) = spot.placed.h + gap + room gap rest := List.sum_cons

/-- The heights of the spots, and as many gaps. -/
theorem room_eq (gap : ℚ) (spots : List (Spot ℚ ℚ)) :
    room gap spots = (spots.map (·.placed.h)).sum + spots.length * gap := by
  induction spots with
  | nil => simp [room]
  | cons spot rest ih =>
    rw [room_cons, ih, List.map_cons, List.sum_cons, List.length_cons]
    push_cast
    ring

/-- Every child of a run starts below those before it, and the run ends below the last one. -/
theorem course_placed {y last : ℚ} (course : Course (step align padding gap content) y spots last) :
    (∀ k (h : k < spots.length), spots[k].x = Exact.start align padding content spots[k].placed.w ∧
      spots[k].y = y + room gap (spots.take k)) ∧ last = y + room gap spots := by
  induction course with
  | done y => exact ⟨nofun, (add_zero y).symm⟩
  | @next y next last spot rest put _ ih =>
    obtain ⟨hx, hy, rfl⟩ := Exact.column_step_eq_ok.mp put
    obtain ⟨placed, ends⟩ := ih
    refine ⟨fun k hk => ?_, ?_⟩
    · cases k with
      | zero => exact ⟨hx.symm, hy.symm.trans (add_zero y).symm⟩
      | succ k =>
        obtain ⟨across, down⟩ := placed k (Nat.lt_of_succ_lt_succ hk)
        refine ⟨across, down.trans ?_⟩
        rw [List.take_succ_cons, room_cons, add_assoc]
    · rw [ends, room_cons, add_assoc]

/-- A column is as high as its children and the gaps between them, with padding above and below. -/
theorem Arranged.closed (h : Arranged align padding gap content spots height) :
    (∀ k (h : k < spots.length), spots[k].x = Exact.start align padding content spots[k].placed.w ∧
      spots[k].y = padding + room gap (spots.take k)) ∧
    height = if spots = [] then 2 * padding
      else 2 * padding + (spots.map (·.placed.h)).sum + (spots.length - 1) * gap := by
  obtain ⟨last, course, ends⟩ := h
  obtain ⟨placed, rfl⟩ := course_placed course
  refine ⟨placed, ?_⟩
  by_cases none : spots = []
  · rw [if_pos none] at ends ⊢
    exact (Except.ok.inj ends).symm
  · rw [if_neg none] at ends ⊢
    rw [← Except.ok.inj ends, room_eq]
    ring

end

end Column

/-- In its spot a child has its own frame there, and the frames below it are moved with it. -/
theorem Exact.spot_frames (spot : Spot ℚ ℚ) (drawn : spot.placed.drawn = spot.placed.w) :
    spot.frames = ⟨spot.placed.id, spot.x, spot.y, spot.placed.w, spot.placed.h⟩ ::
      spot.placed.below.map (·.moved spot.x spot.y) := by
  have moved := spot.moved
  rw [moved_eq] at moved
  have own : spot.placed.own.moved spot.x spot.y =
      ⟨spot.placed.id, spot.x, spot.y, spot.placed.w, spot.placed.h⟩ := by
    show (⟨_, 0 + spot.x, 0 + spot.y, spot.placed.drawn, _⟩ : Frame ℚ ℚ) = _
    rw [zero_add, zero_add, drawn]
    rfl
  rw [← Except.ok.inj moved, Placement.frames, List.map_cons, own]

/-! ## Vertical stacks and forms -/

namespace Node

/-- How a node that puts its children one below the other aligns them: a vertical stack as it says,
and a form at the start. Other nodes do not. -/
def columnAlign? : Node → Option Align
  | stack _ c _ => if c.direction = .vertical then some c.align else none
  | form .. => some .start
  | _ => none

/-- The exact width inside a node's padding. -/
def contentIn (n : Node) (width : ℚ) : ℚ := max 0 (width - 2 * n.inset)

/-- A child as it comes out in the width inside the padding, stretched to this width in a column that
stretches, unless the child's own width is fixed. -/
def FitsColumn (s : Surface ℚ) (align : Align) (content : ℚ) (c : Node) (p : Placement ℚ ℚ) : Prop :=
  ∃ own, (c.place s content).result = .ok (some own) ∧
    p = if align = .stretch ∧ c.header.widthPolicy ≠ .fixed then own.resized content else own

/-- A node that is laid out as a column in a width, with the spots of its visible children. -/
structure InColumn (s : Surface ℚ) (n : Node) (align : Align) (width : ℚ) (p : Placement ℚ ℚ)
    (spots : List (Spot ℚ ℚ)) : Prop where
  placed : List.Forall₂ (fun c spot => FitsColumn s align (n.contentIn width) c spot.placed)
    (n.children.filter (·.visible)) spots
  /-- A child starts below those before it, each of them with a gap. -/
  down : ∀ k (h : k < spots.length),
    spots[k].y = n.inset + ((spots.take k).map fun before => before.placed.h + n.gap).sum
  across : ∀ k (h : k < spots.length), spots[k].x = match align with
    | .start | .stretch => n.inset
    | .center => n.inset + (n.contentIn width - spots[k].placed.w) / 2
    | .finish => n.inset + (n.contentIn width - spots[k].placed.w)
  height : p.h = if spots = [] then 2 * n.inset
    else 2 * n.inset + (spots.map (·.placed.h)).sum + (spots.length - 1) * n.gap
  /-- The frame of a child stands where its spot is, as large as the child, and the frames below the
  child are moved there with it. -/
  shown : ∀ spot ∈ spots, spot.frames = ⟨spot.placed.id, spot.x, spot.y, spot.placed.w, spot.placed.h⟩ ::
    spot.placed.below.map (·.moved spot.x spot.y)
  frames : p = ⟨n.id, width, p.h, width, spots.flatMap (·.frames)⟩

section

variable {s : Surface ℚ} {n : Node} {align : Align} {width : ℚ}

theorem isContainer_of_column (column : n.columnAlign? = some align) : n.isContainer = true := by
  cases n with
  | stack | form => rfl
  | _ => cases column

theorem offer_of_column (column : n.columnAlign? = some align) (width : ℚ) :
    n.offer width = .ok (n.contentIn width) := by
  cases n with
  | stack | form => exact Exact.contentWidth_eq _ _
  | _ => cases column

theorem arranged_of_column (column : n.columnAlign? = some align) {content height : ℚ}
    {spots : List (Spot ℚ ℚ)} (h : n.Arranged s width content spots height) :
    Column.Arranged align n.inset n.gap content spots height := by
  cases n with
  | stack hd c cs =>
    obtain ⟨vertical, rfl⟩ : c.direction = .vertical ∧ c.align = align := by
      simpa [columnAlign?] using column
    have h : c.Arranged width _ _ content spots height := h
    rwa [StackContent.Arranged, vertical] at h
  | form hd f fs as => cases column; exact h
  | _ => cases column

theorem fit_of_column (column : n.columnAlign? = some align) (content : ℚ) (c : Node)
    (p : Placement ℚ ℚ) : n.fit content c p =
      if align = .stretch ∧ c.header.widthPolicy ≠ .fixed then p.resized content else p := by
  cases n with
  | stack hd st cs =>
    obtain ⟨vertical, rfl⟩ : st.direction = .vertical ∧ st.align = align := by
      simpa [columnAlign?] using column
    simp [fit, stretches, StackContent.stretches, vertical]
  | form hd f fs as => cases column; simp [fit, stretches]
  | _ => cases column

/-- In a column nothing fails but a child. -/
theorem column_returns (column : n.columnAlign? = some align)
    (h : ∀ c ∈ n.children, Laying.Returns (c.place s (n.contentIn width))) :
    Laying.Returns (n.place s width) := by
  have held : ∀ c ∈ n.children.map (asChild s (n.contentIn width)), Laying.Returns c.placed :=
    List.forall_mem_map.mpr h
  unfold place
  split
  · cases n with
    | stack hd c cs =>
      simp only [placeAll_eq_map, Exact.contentWidth_eq]
      refine (checkSpacing_returns ..).bind fun _ _ => (checkSpacing_returns ..).bind fun _ _ => ?_
      exact (Exact.arrangeStack_returns held).map _
    | form hd f fs as =>
      simp only [placeAll_eq_map, ← List.map_append]
      rw [Laying.bind_lift (Exact.contentWidth_eq ..)]
      exact (Exact.column_arrange_returns held).map _
    | _ => cases column
  · exact ⟨none, rfl⟩

/-- What a column comes to, by its spots. -/
theorem inColumn_of_place (column : n.columnAlign? = some align) {p : Placement ℚ ℚ}
    (laid : (n.place s width).result = .ok (some p)) : ∃ spots, InColumn s n align width p spots := by
  obtain ⟨content, spots, out⟩ := laidOut_of_place laid
  have inside : n.children = [] ∨ content = n.contentIn width := by
    refine (em (n.children = [])).imp_right fun some_child => ?_
    exact Except.ok.inj ((out.offer some_child).symm.trans (offer_of_column column width))
  have fitted := fitted_of_puts _ out.puts
  have frames := out.placed
  rw [out.spans (isContainer_of_column column), Spot.flatMap_shown] at frames
  obtain ⟨placed, height⟩ := (arranged_of_column column out.arranged).closed
  have drawn := out.spots_drawn
  generalize spots.reduceOption = shown at fitted frames placed height drawn
  refine ⟨shown, ?_, fun k h => (placed k h).2, fun k h => ?_, height,
    fun spot hs => Exact.spot_frames spot (drawn spot hs), frames⟩
  · rcases inside with none | rfl
    · rw [none] at fitted ⊢
      cases fitted
      exact .nil
    · exact fitted.imp fun c spot ⟨own, hc, same⟩ =>
        ⟨own, hc, same.trans (fit_of_column column _ c own)⟩
  · rcases inside with none | rfl
    · rw [none] at fitted
      cases fitted
      exact absurd h (Nat.not_lt_zero k)
    · rw [(placed k h).1]
      cases align <;> rfl

end

/-- A vertical stack or a form is laid out exactly when its visible children are in the width inside
its padding, and then its children stand in a column. -/
theorem column_closed {s : Surface ℚ} {n : Node} {align : Align} (column : n.columnAlign? = some align)
    (width : ℚ) :
    ((∃ p, (n.place s width).result = .ok (some p)) ↔ n.visible = true ∧ ∀ c ∈ n.children,
      c.visible = true → ∃ q, (c.place s (n.contentIn width)).result = .ok (some q)) ∧
    ∀ p, (n.place s width).result = .ok (some p) → ∃ spots, InColumn s n align width p spots := by
  refine ⟨⟨?_, ?_⟩, fun p laid => inColumn_of_place column laid⟩
  · rintro ⟨p, laid⟩
    obtain ⟨spots, inColumn⟩ := inColumn_of_place column laid
    refine ⟨visible_of_place laid, fun c hc shown => ?_⟩
    obtain ⟨spot, -, own, placed, -⟩ :=
      exists_zip_of_forall₂ inColumn.placed (List.mem_filter.mpr ⟨hc, shown⟩)
    exact ⟨own, placed⟩
  · rintro ⟨shown, children⟩
    have returns : Laying.Returns (n.place s width) := by
      refine column_returns column fun c hc => ?_
      cases hv : c.visible with
      | true =>
        obtain ⟨q, placed⟩ := children c hc hv
        exact ⟨some q, placed⟩
      | false => exact ⟨none, congrArg (·.result) (place_hidden s _ hv)⟩
    obtain ⟨placed, laid⟩ := returns
    obtain ⟨p, rfl⟩ := exists_placement shown laid
    exact ⟨p, laid⟩

/-- A column with a padding below zero that stretches a button and a field of a width of its own,
among hidden texts. -/
def looseColumn : Node :=
  .stack (.plain "page") ⟨.vertical, some (.length 8), some (.length (-4)), .stretch, false⟩
    [.text (.hidden "first") ⟨"", none, none, none⟩,
      .field { Header.plain "code" with
        widthPolicy := .fixed, minSize := some ⟨some 60, none, ["w"]⟩ } ⟨"Code", none, none, none, none⟩,
      .text (.hidden "between") ⟨"", none, none, none⟩, .plainButton "go" "Go",
      .text (.hidden "last") ⟨"", none, none, none⟩]

/-- Its visible children stand one below the other with one gap between, and it is as high as they
are with this gap, less the padding above and below. -/
theorem looseColumn_closed : looseColumn.columnAlign? = some .stretch ∧
    ∃ (p : Placement ℚ ℚ) (spots : List (Spot ℚ ℚ)),
      (looseColumn.place Settings.standard.exact 100).result = .ok (some p) ∧
      p.frames = [⟨"page", 0, 0, 100, 88⟩, ⟨"code", -4, -4, 60, 44⟩, ⟨"go", -4, 48, 108, 44⟩] ∧
      InColumn Settings.standard.exact looseColumn .stretch 100 p spots := by
  have column : looseColumn.columnAlign? = some .stretch := rfl
  have computed : ((looseColumn.place Settings.standard.exact 100 :
      Laying ℚ (Option (Placement ℚ ℚ))).result.map fun placed => placed.map (·.frames)).toOption =
      some (some [⟨"page", 0, 0, 100, 88⟩, ⟨"code", -4, -4, 60, 44⟩, ⟨"go", -4, 48, 108, 44⟩]) := by
    decide +kernel
  obtain ⟨placed, laid, shown⟩ := Result.map_toOption_eq_some.mp computed
  obtain ⟨p, rfl, told⟩ := Option.map_eq_some_iff.mp shown
  obtain ⟨spots, inColumn⟩ := (column_closed column 100).2 p laid
  exact ⟨column, p, spots, laid, told, inColumn⟩

end Node
end Wireframe
