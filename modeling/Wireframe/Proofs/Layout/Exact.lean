import Wireframe.Layout.Screen
import Wireframe.Proofs.Layout.FrameOrder
import Wireframe.Proofs.Node.Columns
import Mathlib.Algebra.Order.Field.Rat
import Mathlib.Data.Rat.Floor

/-
  Wireframe.Proofs.Layout.Exact — layout read over exact numbers.

  Quotients of whole numbers are calculated with freely, and are their own coordinates. A double
  counts as the number that it stands for; infinities and not-a-number stand for none and count as
  zero. Read so, nothing that layout calculates fails but the width of a cell where there are no
  columns.

  Proved:
  - `Exact.contentWidth_eq`, `Exact.effectiveColumns_eq`, `Measure.text_exact` and the others: what each
    calculation comes to.
  - `Node.place_returns`: a tree in which every grid has a column is laid out in every width.
-/

namespace Wireframe

open Quantity

/-! ## Exact numbers -/

/-- The number that a double stands for, zero for one that stands for none. -/
def Exact.ofFloat (x : Float) : ℚ :=
  match Decimal.Binary.ofFloat x with
  | .finite negative m e =>
    let r := Decimal.Ratio.scaled (if negative then -(m : Int) else m) e
    mkRat r.num r.den
  | _ => 0

/-- The nearest number with so many decimal places, a half at the even neighbour. -/
def Exact.roundTo (places : Nat) (x : ℚ) : ℚ :=
  let n : Nat := Decimal.roundDiv (x.num.natAbs * Decimal.tenTo places) x.den
  mkRat (if x.num < 0 then -(n : Int) else n) (Decimal.tenTo places)

instance : Scalar ℚ where
  ofInt n := n
  ofFloat := Exact.ofFloat
  decimal n places := mkRat n (Decimal.tenTo places)
  lt a b := decide (a < b)
  le a b := decide (a ≤ b)
  same a b := decide (a = b)
  floor a := .ok a.floor
  ceil a := .ok a.ceil
  roundTo := Exact.roundTo

def Number.exact : Number → ℚ
  | int n => n
  | float x => Exact.ofFloat x

/-- What a screen with these settings is laid out against, in exact numbers. -/
def Settings.exact (s : Settings) : Surface ℚ :=
  ⟨s.spacingScale.map (.map Exact.ofFloat), ⟨s.minTouchTarget.w.exact, s.minTouchTarget.h.exact⟩⟩

namespace Exact

/-! ## Calculations -/

section

variable (a b : ℚ)

@[simp] theorem noLength_eq : (Quantity.noLength : ℚ) = 0 := by decide

@[simp] theorem two_eq : (Quantity.two : ℚ) = 2 := rfl

@[simp] theorem ofInt_eq (n : Int) : (Quantity.ofInt n : ℚ) = n := rfl

@[simp] theorem add_eq : ((Except.ok a : Calculation ℚ) + (Except.ok b : Calculation ℚ)) = .ok (a + b) :=
  rfl

@[simp] theorem sub_eq : ((Except.ok a : Calculation ℚ) - (Except.ok b : Calculation ℚ)) = .ok (a - b) :=
  rfl

@[simp] theorem mul_eq : ((Except.ok a : Calculation ℚ) * (Except.ok b : Calculation ℚ)) = .ok (a * b) :=
  rfl

@[simp] theorem twice_eq : (twice a : Calculation ℚ) = .ok (2 * a) := rfl

@[simp] theorem lt_iff : Quantity.lt a b = true ↔ a < b := decide_eq_true_iff

@[simp] theorem le_iff : Quantity.le a b = true ↔ a ≤ b := decide_eq_true_iff

@[simp] theorem same_iff : Quantity.same a b = true ↔ a = b := decide_eq_true_iff

theorem div_eq (h : b ≠ 0) :
    ((Except.ok a : Calculation ℚ) / (Except.ok b : Calculation ℚ)) = .ok (a / b) :=
  if_neg fun e => h (of_decide_eq_true e)

@[simp] theorem larger_eq : Quantity.larger a b = max a b := by
  unfold Quantity.larger
  split
  · rename_i h; exact (max_eq_right ((lt_iff a b).mp h).le).symm
  · rename_i h; exact (max_eq_left (not_lt.mp fun l => h ((lt_iff a b).mpr l))).symm

@[simp] theorem smaller_eq : Quantity.smaller a b = min a b := by
  unfold Quantity.smaller
  split
  · rename_i h; exact (min_eq_right ((lt_iff b a).mp h).le).symm
  · rename_i h; exact (min_eq_left (not_lt.mp fun l => h ((lt_iff b a).mpr l))).symm

theorem contentWidth_eq (width padding : ℚ) :
    contentWidth width padding = .ok (max 0 (width - 2 * padding)) := by
  simp only [contentWidth, twice_eq, sub_eq, noLength_eq, larger_eq]
  rfl

/-- Where a child starts in the room inside a padding. -/
def start (align : Align) (padding room size : ℚ) : ℚ :=
  match align with
  | .center => padding + (room - size) / 2
  | .finish => padding + (room - size)
  | _ => padding

theorem startOf_eq (align : Align) (padding room size : ℚ) :
    startOf align padding room size = .ok (start align padding room size) := by
  cases align with
  | center => rw [startOf, two_eq, sub_eq, div_eq _ _ two_ne_zero, add_eq]; rfl
  | finish | start | stretch => rfl

theorem moved_eq (p : Placement ℚ ℚ) (dx dy : ℚ) :
    p.moved dx dy = .ok (p.frames.map (·.moved dx dy)) := rfl

theorem cellWidth_eq {columns : Int} (some_column : columns ≠ 0) (width gap : ℚ) :
    Cells.cellWidth width columns gap =
      .ok (max 0 ((width - (columns - 1 : Int) * gap) / columns)) := by
  simp only [Cells.cellWidth, ofInt_eq, mul_eq, sub_eq, noLength_eq, larger_eq]
  rw [div_eq _ _ (Int.cast_ne_zero.mpr some_column)]
  rfl

theorem wrap_advance_eq (limit padding gap : ℚ) (c : Wrap.Cursor ℚ) (w : ℚ) :
    Wrap.advance limit padding gap c w =
      .ok (if c.any = true ∧ limit + tolerance < c.x + w then
        { c with x := padding, y := c.y + (c.rowHeight + gap), rowHeight := 0 } else c) := by
  have opened : Wrap.advance limit padding gap c w =
      ((if c.any = true then .ok (Quantity.lt (limit + tolerance) (c.x + w)) else .ok false :
        Calculation Bool) >>= fun breaks => if breaks = true then
          .ok { c with x := padding, y := c.y + (c.rowHeight + gap), rowHeight := noLength }
        else .ok c) := rfl
  rw [opened, noLength_eq]
  by_cases any : c.any = true
  · by_cases breaks : limit + tolerance < c.x + w
    · rw [if_pos any, if_pos ⟨any, breaks⟩]
      exact if_pos ((lt_iff _ _).mpr breaks)
    · rw [if_pos any, if_neg fun h => breaks h.2]
      exact if_neg fun h => breaks ((lt_iff _ _).mp h)
  · rw [if_neg any, if_neg fun h => any h.1]
    rfl

theorem wrap_after_eq (gap : ℚ) (c : Wrap.Cursor ℚ) (p : Placement ℚ ℚ) :
    Wrap.after gap c p =
      .ok ⟨c.x + (p.w + gap), c.y, max c.rowHeight p.h, true⟩ := by
  simp only [Wrap.after, add_eq, larger_eq]
  rfl

theorem cells_advance_eq (columns : Nat) (gap : ℚ) (c : Cells.Cursor ℚ) :
    Cells.advance columns gap c =
      .ok (if c.placed % columns = 0 ∧ 0 < c.placed then
        { c with y := c.y + (c.rowHeight + gap), rowHeight := 0 } else c) := by
  unfold Cells.advance
  split
  · rw [noLength_eq]; rfl
  · rfl

/-- As many columns as are asked for, unless less of them fit. -/
theorem effectiveColumns_eq (columns : Int) (width gap least : ℚ) :
    Cells.effectiveColumns columns width gap (some least) =
      .ok (if least + gap ≤ 0 then columns else max 1 (min columns ⌊(width + gap) / (least + gap)⌋)) := by
  have opened : Cells.effectiveColumns columns width gap (some least) =
      if Quantity.le (least + gap) (0 : ℚ) = true then .ok columns
      else ((Except.ok (width + gap) / Except.ok (least + gap) : Calculation ℚ) >>= fun q =>
        .ok (max 1 (min columns q.floor))) := rfl
  rw [opened]
  by_cases step : least + gap ≤ 0
  · rw [if_pos step, if_pos ((le_iff _ _).mpr step)]
  · rw [if_neg step, if_neg fun h => step ((le_iff _ _).mp h), div_eq _ _ fun e => step e.le]
    rfl

/-- A grid that asks for a column has one. -/
theorem effectiveColumns_eq_ok {columns : Int} (some_column : 1 ≤ columns) (width gap : ℚ)
    (least : Option ℚ) : ∃ n, Cells.effectiveColumns columns width gap least = .ok n ∧ 1 ≤ n := by
  cases least with
  | none => exact ⟨columns, rfl, some_column⟩
  | some least =>
    refine ⟨_, effectiveColumns_eq columns width gap least, ?_⟩
    split
    · exact some_column
    · exact le_max_left _ _

end

/-! ## Layouts come to something -/

end Exact

/-- A layout in progress that does not fail. -/
def Laying.Returns {α β : Type} (t : Laying α β) : Prop := ∃ b, t.result = .ok b

namespace Laying.Returns

variable {α β γ : Type} {t : Laying α β} {f : β → Laying α γ}

theorem bind (ht : Returns t) (hf : ∀ b, t.result = .ok b → Returns (f b)) : Returns (t >>= f) := by
  obtain ⟨b, hb⟩ := ht
  obtain ⟨c, hc⟩ := hf b hb
  exact ⟨c, Trail.result_bind_eq_ok.mpr ⟨b, hb, hc⟩⟩

theorem map (ht : Returns t) (f : β → γ) : Returns (t >>= fun b => pure (f b)) :=
  ht.bind fun b _ => ⟨f b, rfl⟩

theorem ite_note {p : Prop} [Decidable p] (w : Defect α) (ht : Returns t) :
    Returns (if p then (Trail.note w >>= fun _ => t) else t) := by
  obtain ⟨b, hb⟩ := ht
  exact ⟨b, (Trail.result_ite_note w t).trans hb⟩

end Laying.Returns

open Laying

namespace Exact

variable {children : List (Child ℚ ℚ)} {id : String} {align : Align}
  {width padding gap content cell : ℚ} {columns : Nat}

theorem column_returns (h : ∀ c ∈ children, Returns c.placed) : ∀ y,
    Returns (Column.runFrom align padding gap content y children) := by
  induction children with
  | nil => intro y; exact ⟨_, rfl⟩
  | cons c rest ih =>
    intro y
    have ih := ih fun d hd => h d (List.mem_cons_of_mem c hd)
    refine (h c List.mem_cons_self).bind fun placed _ => ?_
    cases placed with
    | none => exact ih y
    | some p =>
      simp only [startOf_eq, moved_eq, add_eq]
      exact (ih _).map _

theorem row_returns (h : ∀ c ∈ children, Returns c.placed) : ∀ x,
    Returns (Row.runFrom id width gap x children) := by
  induction children with
  | nil => intro x; exact ⟨_, rfl⟩
  | cons c rest ih =>
    intro x
    have ih := ih fun d hd => h d (List.mem_cons_of_mem c hd)
    refine (h c List.mem_cons_self).bind fun placed _ => ?_
    cases placed with
    | none => exact ih x
    | some p =>
      simp only [add_eq]
      exact ((ih _).map _).ite_note _

theorem framesOf_eq (align : Align) (padding height : ℚ) (run : List (ℚ × Placement ℚ ℚ)) :
    ∃ frames, Row.framesOf align padding height run = .ok frames := by
  induction run with
  | nil => exact ⟨[], rfl⟩
  | cons q rest ih =>
    obtain ⟨frames, hf⟩ := ih
    simp only [Row.framesOf, startOf_eq, moved_eq, hf]
    exact ⟨_, rfl⟩

theorem wrap_returns (h : ∀ c ∈ children, Returns c.placed) : ∀ c,
    Returns (Wrap.runFrom width padding gap c children) := by
  induction children with
  | nil => intro c; exact ⟨_, rfl⟩
  | cons child rest ih =>
    intro c
    have ih := ih fun d hd => h d (List.mem_cons_of_mem child hd)
    refine (h child List.mem_cons_self).bind fun placed _ => ?_
    cases placed with
    | none => exact ih c
    | some p =>
      simp only [wrap_advance_eq, wrap_after_eq, moved_eq]
      exact (ih _).map _

theorem cells_returns (h : ∀ c ∈ children, Returns c.placed) : ∀ c,
    Returns (Cells.runFrom id columns cell gap c children) := by
  induction children with
  | nil => intro c; exact ⟨_, rfl⟩
  | cons child rest ih =>
    intro c
    have ih := ih fun d hd => h d (List.mem_cons_of_mem child hd)
    refine (h child List.mem_cons_self).bind fun placed _ => ?_
    cases placed with
    | none => exact ih c
    | some p =>
      simp only [cells_advance_eq, add_eq, mul_eq, ofInt_eq, moved_eq]
      exact ((ih _).map _).ite_note _

theorem column_arrange_returns (h : ∀ c ∈ children, Returns c.placed) :
    Returns (Column.arrange id align width padding gap content children) := by
  refine (column_returns h _).bind fun run _ => ?_
  cases run.any with
  | true => exact ⟨_, rfl⟩
  | false => exact ⟨_, rfl⟩

theorem cells_arrange_returns (h : ∀ c ∈ children, Returns c.placed) :
    Returns (Cells.arrange id columns width cell gap children) := by
  refine (cells_returns h _).bind fun run _ => ?_
  by_cases none : run.2.placed = 0
  · simp only [none, if_true]
    exact ⟨_, rfl⟩
  · simp only [none, if_false]
    exact ⟨_, rfl⟩

theorem arrangeStack_returns {c : StackContent} (h : ∀ c ∈ children, Returns c.placed) :
    Returns (arrangeStack id c width padding gap content children) := by
  unfold arrangeStack
  split
  · exact column_arrange_returns h
  · refine (wrap_returns h _).bind fun ⟨frames, last⟩ _ => ?_
    dsimp only
    cases last.any with
    | true => exact ⟨_, rfl⟩
    | false => exact ⟨_, rfl⟩
  · refine (row_returns h _).bind fun run _ => ?_
    obtain ⟨frames, hf⟩ := framesOf_eq c.align padding (largest (run.map (·.2.h))) run
    simp only [hf, add_eq, twice_eq]
    exact ⟨_, rfl⟩

end Exact

theorem checkSpacing_returns (s : Surface ℚ) (n : Node) (property : String) (value : Spacing ℚ) :
    Returns (checkSpacing s n property value) := by
  unfold checkSpacing
  split
  · exact ⟨(), rfl⟩
  · exact ⟨(), rfl⟩

/-! ## Texts -/

namespace TextContent

/-- The size of the letters, as an exact number. -/
def exactFont (t : TextContent) : ℚ := (t.fontSize.map Exact.ofFloat).getD 16

/-- How wide the text is on one line. -/
def exactWidth (t : TextContent) : ℚ :=
  match t.intrinsicTextWidth with
  | some w => Exact.ofFloat w
  | none => t.exactFont * (55 / 100) * Text.size t.text

/-- How high a line is. -/
def exactLine (t : TextContent) : ℚ := t.exactFont * (14 / 10)

end TextContent

namespace Measure

theorem fontSize_eq : (fontSize : ℚ) = 16 := by decide +kernel

theorem characterWidth_eq : (characterWidth : ℚ) = 55 / 100 := by decide +kernel

theorem lineHeight_eq : (lineHeight : ℚ) = 14 / 10 := by decide +kernel

/-- What a text measures, in one formula. -/
theorem text_exact (t : TextContent) (offered : ℚ) :
    text t offered =
      if Quantity.le offered (0 : ℚ) = true then .ok ⟨0, t.exactLine⟩
      else if Quantity.lt offered t.exactWidth = true then
        (Except.ok t.exactWidth / Except.ok offered : Calculation ℚ) >>= fun q =>
          .ok ⟨smaller t.exactWidth offered, (q.ceil : ℚ) * t.exactLine⟩
      else .ok ⟨t.exactWidth, t.exactLine⟩ := by
  rw [TextContent.exactWidth, TextContent.exactLine, TextContent.exactFont, ← fontSize_eq,
    ← characterWidth_eq, ← lineHeight_eq]
  unfold text
  cases t.intrinsicTextWidth <;> rfl

/-- A text is broken into lines only where there is room for a line. -/
theorem text_eq_ok (t : TextContent) (offered : ℚ) : ∃ e, text t offered = .ok e := by
  rw [text_exact]
  split
  · exact ⟨_, rfl⟩
  · rename_i none
    split
    · rw [Exact.div_eq _ _ fun e => none ((Exact.le_iff _ _).mpr e.le)]
      exact ⟨_, rfl⟩
    · exact ⟨_, rfl⟩

end Measure

theorem placeLeaf_returns (s : Surface ℚ) (n : Node) {size : Calculation (Extent ℚ)}
    (h : ∃ e, size = .ok e) : Returns (placeLeaf s n size : Laying ℚ (Placement ℚ ℚ)) := by
  obtain ⟨e, rfl⟩ := h
  unfold placeLeaf
  rw [Laying.bind_lift rfl]
  split
  · refine Returns.bind ?_ fun _ _ => ⟨_, rfl⟩
    unfold checkTarget
    split
    · exact ⟨(), rfl⟩
    · exact ⟨(), rfl⟩
  · exact ⟨_, rfl⟩

/-- A tree in which every grid has a column is laid out in every width. -/
theorem Node.place_returns (s : Surface ℚ) (n : Node) (h : n.Columned) :
    ∀ width, Returns (n.place s width) := by
  induction n using byChildren with
  | step n ih =>
    intro width
    obtain ⟨own, below⟩ := columned_iff.mp h
    have held : ∀ content, ∀ c ∈ n.children.map (asChild s content), Returns c.placed :=
      fun content => List.forall_mem_map.mpr fun c hc => ih c hc (below c hc) content
    unfold place
    split
    · cases n with
      | stack hd c cs =>
        simp only [placeAll_eq_map, Exact.contentWidth_eq]
        refine (checkSpacing_returns ..).bind fun _ _ => (checkSpacing_returns ..).bind fun _ _ => ?_
        exact (Exact.arrangeStack_returns (held _)).map _
      | grid hd c cs =>
        have some_column : 1 ≤ c.columns := own
        obtain ⟨columns, hc, positive⟩ := Exact.effectiveColumns_eq_ok some_column width
          (Spacing.orZero c.gap).quantity (c.minColWidth.map Quantity.ofFloat)
        simp only [placeAll_eq_map]
        refine (checkSpacing_returns ..).bind fun _ _ => ?_
        rw [Laying.bind_lift hc, Laying.bind_lift (Exact.cellWidth_eq (Int.ne_of_gt positive) ..)]
        exact (Exact.cells_arrange_returns (held _)).map _
      | box hd p child =>
        cases child with
        | none => exact (checkSpacing_returns ..).bind fun _ _ => ⟨_, rfl⟩
        | some c =>
          refine (checkSpacing_returns ..).bind fun _ _ => ?_
          rw [Laying.bind_lift (Exact.contentWidth_eq ..)]
          refine (held _ _ (List.mem_singleton_self _)).bind fun placed _ => ?_
          cases placed with
          | none => exact ⟨_, rfl⟩
          | some q => exact ⟨_, rfl⟩
      | form hd f fs as =>
        simp only [placeAll_eq_map, ← List.map_append]
        rw [Laying.bind_lift (Exact.contentWidth_eq ..)]
        exact (Exact.column_arrange_returns (held _)).map _
      | text hd t => exact (placeLeaf_returns s _ (Measure.text_eq_ok t width)).map _
      | button hd b => exact (placeLeaf_returns s _ ⟨_, rfl⟩).map _
      | field hd f => exact (placeLeaf_returns s _ ⟨_, rfl⟩).map _
      | table hd t => exact (placeLeaf_returns s _ ⟨_, rfl⟩).map _
    · exact ⟨none, rfl⟩

end Wireframe
