import Wireframe.Proofs.Layout.Notes
import Wireframe.Proofs.Layout.Wrap
import Wireframe.Proofs.Value.Order

/-
  Wireframe.Proofs.Layout.Overflow — children that end beyond their row.

  A row that does not break puts its children beside each other, whether or not there is room, and
  tells of those that end beyond it. It does so on its first way along the children, when it knows
  where they start; what frames they have, it finds on a second way, when it knows how high it is.
  In between the children tell of what is wrong below them, and they may use the same name for it.

  The check is made with the numbers that the row calculates with, and a frame has coordinates. These
  may be other numbers where whole ones are of more than 53 bits, and then a child that fits is told of.

  Proved:
  - `Row.course_beside`: where the children of a row stand.
  - `Node.told_visible`: what is told of children, when nothing is told of hidden ones.
  - `Node.inRow_of_place`: the children of a row, and what is told of them.
  - `Row.Ends.tells`: a check of frames is the same check, unless numbers are too large.
  - `Node.overflows_told`: what a row tells of its children, and that other stacks, boxes and forms
    tell of none.
  - `wideRow_told`: a child that fits, and is told of.
-/

namespace Wireframe

open Quantity

section

variable {α δ : Type} [Quantity α δ] [Scalar δ]

/-! ## Rows -/

/-- Where each child of a run stands: the first one where the run starts, the next ones after the one
before with a gap, and all of them across as they are aligned. -/
theorem Row.course_beside {align : Align} {padding gap height x last : α} {spots : List (Spot α δ)}
    (course : Course (step align padding gap height) x spots last) :
    (∀ spot ∈ spots.head?, spot.x = x) ∧
    spots.IsChain (fun a b => (a.x + (a.placed.w + gap) : Calculation α) = .ok b.x) ∧
    ∀ spot ∈ spots, startOf align padding height spot.placed.h = .ok spot.y := by
  induction course with
  | done => exact ⟨nofun, .nil, nofun⟩
  | @next x next last spot rest put _ ih =>
    obtain ⟨y, hy, put⟩ := Result.bind_eq_ok.mp put
    obtain ⟨beyond, hnext, e⟩ := Result.bind_eq_ok.mp put
    simp only [pure, Except.pure, Except.ok.injEq, Prod.mk.injEq] at e
    obtain ⟨rfl, rfl, rfl⟩ := e
    obtain ⟨first, beside, across⟩ := ih
    refine ⟨fun a ha => Option.some.inj ha ▸ rfl, List.isChain_cons.mpr ⟨fun b hb => ?_, beside⟩,
      List.forall_mem_cons.mpr ⟨hy, across⟩⟩
    rw [first b hb]
    exact hnext

omit [Scalar δ] in
theorem foldl_larger_mem (sizes : List α) : ∀ first : α, sizes.foldl larger first ∈ first :: sizes := by
  induction sizes with
  | nil => intro first; exact List.mem_singleton_self first
  | cons size rest ih =>
    intro first
    rw [List.foldl_cons]
    obtain own | other := List.mem_cons.mp (ih (larger first size))
    · rw [own, larger]
      split
      · exact List.mem_cons_of_mem _ List.mem_cons_self
      · exact List.mem_cons_self
    · exact List.mem_cons_of_mem _ (List.mem_cons_of_mem _ other)

omit [Scalar δ] in
/-- The largest of some numbers is one of them. -/
theorem largest_mem {sizes : List α} (some_size : sizes ≠ []) : largest sizes ∈ sizes := by
  cases sizes with
  | nil => exact absurd rfl some_size
  | cons first rest => exact foldl_larger_mem rest first

namespace Node

/-- Where nothing is told of a hidden child, all is told of the visible ones. -/
theorem told_visible {s : Surface α} {content : α} {fit : Child α δ → Placement α δ → Placement α δ}
    {tells : Child α δ → Option (Spot α δ) → List (Defect α)} (silent : ∀ c, tells c none = [])
    {cs : List Node} {spots : List (Option (Spot α δ))}
    (h : List.Forall₂ (Child.Puts fit) (cs.map (asChild s content)) spots) :
    Child.told tells (cs.map (asChild s content)) spots =
      ((cs.filter (·.visible)).zip spots.reduceOption).flatMap fun q =>
        (q.1.place s content : Laying α (Option (Placement α δ))).notes ++
          tells (asChild s content q.1) (some q.2) := by
  replace h := List.forall₂_map_left_iff.mp h
  induction h with
  | nil => rfl
  | @cons c spot cs spots own _ ih =>
    obtain ⟨placed, laid, same⟩ := own
    have split : Child.told tells ((c :: cs).map (asChild s content)) (spot :: spots) =
        (c.place s content).notes ++ tells (asChild s content c) spot ++
          Child.told tells (cs.map (asChild s content)) spots := rfl
    rw [split, ih, List.filter_cons]
    cases hv : c.visible with
    | true =>
      obtain ⟨p, rfl⟩ := exists_placement hv laid
      obtain ⟨spot, rfl, -⟩ := Option.map_eq_some_iff.mp same
      rw [if_pos rfl, List.reduceOption_cons_of_some, List.zip_cons_cons, List.flatMap_cons]
    | false =>
      have laid : (c.place s content).result = .ok placed := laid
      rw [place_hidden s content hv] at laid ⊢
      cases laid
      obtain rfl := Option.map_eq_none_iff.mp same
      rw [if_neg Bool.false_ne_true, List.reduceOption_cons_of_none, silent]
      rfl

/-- A stack that does not break, laid out as a row in a width with some padding and gap, with the spots
of its visible children. -/
structure InRow (s : Surface α) (hd : Header) (c : StackContent) (cs : List Node)
    (width padding gap : α) (p : Placement α δ) (content : α) (spots : List (Spot α δ)) : Prop where
  offered : contentWidth width padding = .ok content
  /-- The visible children are put in the spots, each as it comes out in the width inside the padding. -/
  placed : List.Forall₂ (fun n spot => (n.place s content).result = .ok (some spot.placed))
    (cs.filter (·.visible)) spots
  first : ∀ spot ∈ spots.head?, spot.x = padding
  beside : spots.IsChain fun a b => (a.x + (a.placed.w + gap) : Calculation α) = .ok b.x
  /-- A child is aligned with the tallest one. -/
  across : ∀ spot ∈ spots, (match c.align with
    | .start | .stretch => padding
    | .center => padding + (largest (spots.map (·.placed.h)) - spot.placed.h) / (two : α)
    | .finish => padding + (largest (spots.map (·.placed.h)) - spot.placed.h) : Calculation α) =
      .ok spot.y
  tallest : spots ≠ [] → ∃ spot ∈ spots, largest (spots.map (·.placed.h)) = spot.placed.h
  height : (largest (spots.map (·.placed.h)) + twice padding : Calculation α) = .ok p.h
  frames : p = ⟨hd.id, width, p.h, rounded width, spots.flatMap (·.frames)⟩
  ends : ∀ spot ∈ spots, ∃ reached bound, Row.Ends width spot reached bound
  /-- The row tells of its spacings, and of each visible child that it ends beyond the row, if it does,
  after what is told of the child. -/
  notes : ((stack hd c cs).place s width : Laying α (Option (Placement α δ))).notes =
    (stack hd c cs).spacingDefects s ++ ((cs.filter (·.visible)).zip spots).flatMap fun q =>
      (q.1.place s content : Laying α (Option (Placement α δ))).notes ++
        Row.told hd.id width (asChild s content q.1) (some q.2)

theorem inRow_of_place {s : Surface α} {hd : Header} {c : StackContent} {cs : List Node} {width : α}
    {p : Placement α δ} (direction : c.direction = .horizontal) (wrap : c.wrap = false)
    (laid : ((stack hd c cs).place s width).result = .ok (some p)) :
    ∃ content spots, InRow s hd c cs width (Spacing.orZero c.padding).quantity
      (Spacing.orZero c.gap).quantity p content spots := by
  obtain ⟨content, offered, made, notes⟩ := place_stack_eq_ok laid
  rw [arrangeStack, direction, wrap] at made notes
  obtain ⟨spots, held, ⟨last, course, height⟩, ends⟩ := Row.arrange_eq_ok made
  obtain ⟨first, beside, across⟩ := Row.course_beside course
  refine ⟨content, spots.reduceOption, offered, placed_of_puts held.puts, first, beside,
    fun spot hs => ?_, fun some_spot => ?_, height, ?_, ends, ?_⟩
  · rw [← across spot hs]
    cases c.align <;> rfl
  · have among : largest (spots.reduceOption.map (·.placed.h)) ∈ spots.reduceOption.map (·.placed.h) :=
      largest_mem (mt List.map_eq_nil_iff.mp some_spot)
    obtain ⟨spot, hs, same⟩ := List.mem_map.mp among
    exact ⟨spot, hs, same.symm⟩
  · rw [← Spot.flatMap_shown]
    exact held.placed
  · rw [notes, held.noted, told_visible (fun _ => rfl) held.puts]

end Node

end

/-! ## Frames -/

/-- The frame that a child has in its spot in a row, where none is stretched. -/
def Spot.frame (spot : Spot Number Float) : Frame Number Float :=
  ⟨spot.placed.id, 0.0 + spot.x.toFloat, 0.0 + spot.y.toFloat, .float spot.placed.w.toFloat,
    spot.placed.h.toFloat⟩

theorem Spot.head_frames {spot : Spot Number Float} (drawn : spot.placed.drawn = rounded spot.placed.w) :
    spot.frames.head? = some spot.frame := by
  obtain ⟨dx, dy, hx, hy, frames⟩ := spot.frames_eq
  obtain rfl := Number.eq_toFloat hx
  obtain rfl := Number.eq_toFloat hy
  have zero : (Scalar.zero : Float) = 0.0 := by decide +kernel
  rw [frames, Placement.frames, List.map_cons, List.head?_cons, Placement.own, Frame.moved, zero, drawn]
  rfl

/-- What a row of some width tells of a child, against the frame that the child has in its spot. -/
structure Row.Tells (row : String) (width : Number) (n : Node) (spot : Spot Number Float)
    (reached bound : Number) (told : List (Defect Number)) : Prop where
  ends : Ends width spot reached bound
  told : told = if bound.lt reached then [.rowOverflow n.id row width reached] else []
  own : spot.frames.head? = some spot.frame
  named : spot.frame.id = n.id
  /-- The row comes to the same when it checks the coordinates of the child, unless they are those of
  whole numbers that are too large. -/
  coordinates : Number.SumFits spot.x spot.placed.w → ∃ right, spot.frame.right = .ok right ∧
    (Number.float right).place? = reached.place? ∧ bound.lt (.float right) = bound.lt reached

theorem Row.Ends.tells {s : Surface Number} {n : Node} {width content reached bound : Number}
    {spot : Spot Number Float} (h : Row.Ends width spot reached bound)
    (placed : (n.place s content).result = .ok (some spot.placed)) (row : String) :
    Row.Tells row width n spot reached bound
      (Row.told row width (Node.asChild s content n) (some spot)) where
  ends := h
  told := h.told _
  own := by
    obtain ⟨_, _, out⟩ := Node.laidOut_of_place placed
    exact Spot.head_frames (congrArg (·.drawn) out.placed)
  named := by
    obtain ⟨_, _, out⟩ := Node.laidOut_of_place placed
    exact congrArg (·.id) out.placed
  coordinates := fun fits => by
    have same := Number.place?_coordinates_add h.reached fits
    exact ⟨_, rfl, same, Number.lt_congr rfl same⟩

namespace Node

/-- Does a node tell of children that take too much width? A row that does not break and a grid do. -/
def limitsWidths : Node → Bool
  | stack _ c _ => c.isRow
  | grid .. => true
  | _ => false

/-- A node that does not limit them adds nothing to what its children tell but what it tells of its own
spacings and size. -/
theorem notes_of_unlimited {s : Surface Number} {n : Node} {width : Number} {p : Placement Number Float}
    (laid : (n.place s width).result = .ok (some p)) (unlimited : n.limitsWidths = false) :
    ∃ content, (n.children ≠ [] → n.offer width = .ok content) ∧
      (n.place s width : Laying Number (Option (Placement Number Float))).notes =
        n.spacingDefects s ++ n.sizeDefects s width ++ n.children.flatMap fun c =>
          (c.place s content : Laying Number (Option (Placement Number Float))).notes := by
  obtain ⟨content, spots, out⟩ := laidOut_of_place laid
  have silent : (n.childDefects width content : Child Number Float → _ → _) = fun _ _ => [] := by
    funext c spot
    cases n with
    | stack hd st cs => exact congrFun (congrFun (StackContent.told_of_not_isRow unlimited) c) spot
    | grid => cases unlimited
    | _ => rfl
  refine ⟨content, out.offer, ?_⟩
  rw [out.notes, silent, Child.told_of_children (by rw [List.length_map, out.puts.length_eq]),
    List.flatMap_map, List.append_assoc]
  simp only [List.append_nil]
  rfl

/-- A row that does not break puts its visible children beside each other, and tells of each of them
that ends beyond it, after what is told of the child. It checks the numbers that it calculates with, and
a check of the child's frame is the same one unless these are whole numbers that are too large. Other
stacks, boxes and forms tell of no child. -/
theorem overflows_told {s : Surface Number} {n : Node} {width : Number} {p : Placement Number Float}
    (laid : (n.place s width).result = .ok (some p)) :
    (∀ hd c cs, n = stack hd c cs → c.direction = .horizontal → c.wrap = false →
      ∃ content spots, InRow s hd c cs width (Spacing.orZero c.padding).quantity
        (Spacing.orZero c.gap).quantity p content spots ∧
      ((∀ spot ∈ spots, spot.placed.h.Stands) →
        ∀ spot ∈ spots, spot.placed.h.le (largest (spots.map (·.placed.h))) = true) ∧
      ∀ q ∈ (cs.filter (·.visible)).zip spots, ∃ reached bound,
        Row.Tells hd.id width q.1 q.2 reached bound
          (Row.told hd.id width (asChild s content q.1) (some q.2))) ∧
    (n.limitsWidths = false → ∃ content, (n.children ≠ [] → n.offer width = .ok content) ∧
      (n.place s width : Laying Number (Option (Placement Number Float))).notes =
        n.spacingDefects s ++ n.sizeDefects s width ++ n.children.flatMap fun c =>
          (c.place s content : Laying Number (Option (Placement Number Float))).notes) ∧
    (∀ d ∈ n.spacingDefects s ++ n.sizeDefects s width, d.name ≠ "overflow-x") ∧
    ∀ v pointers child container limit reached,
      (Defect.rowOverflow child container limit reached).toIssue v pointers =
        { id := "overflow-x", severity := .error
          message := "Child " ++ child ++ " overflows horizontal Stack " ++ container
          nodeId := some (some child), jsonPointer := (Keyed.get? pointers child).map some
          viewport := some (some v.label)
          details := some (some
            [("containerId", .text container), ("containerWidth", .number limit)])
          expected := some (.number limit), found := some (.number reached) } := by
  refine ⟨?_, notes_of_unlimited laid, fun d hd => ?_, fun _ _ _ _ _ _ => rfl⟩
  · rintro hd c cs rfl direction wrap
    obtain ⟨content, spots, row⟩ := inRow_of_place direction wrap laid
    refine ⟨content, spots, row, fun stands spot hs => ?_, fun q hq => ?_⟩
    · exact Number.Stands.le_largest (List.forall_mem_map.mpr stands) _ (List.mem_map_of_mem hs)
    · obtain ⟨reached, bound, ends⟩ := row.ends q.2 (List.of_mem_zip hq).2
      exact ⟨reached, bound, ends.tells ((List.forall₂_iff_zip.mp row.placed).2 hq) hd.id⟩
  · rcases List.mem_append.mp hd with hd | hd
    · rw [spacingDefects_name d hd]
      decide
    · rw [sizeDefects_name d hd]
      decide

/-- A row with a hidden child, in which a table takes all the width that is left inside the padding. -/
def crampedRow : Node :=
  .stack (.plain "row") ⟨.horizontal, some (.length 8), some (.length 16), .center, false⟩
    [.plainButton "go" "Go", .text (.hidden "note") ⟨"", none, none, none⟩,
      .table (.plain "rows") ⟨none, [], some 0, none, none⟩, .plainButton "undo" "Undo"]

/-- The row tells of the table and of what stands behind it, and a box around the row of nothing. -/
theorem crampedRow_told : ∃ (p q : Placement Number Float) (content : Number)
    (spots : List (Spot Number Float)),
    (crampedRow.place Settings.standard.surface (.int 300)).result = .ok (some p) ∧
    (p.below.map fun f => (f.id, f.x)) = [("go", 16.0), ("rows", 68.0), ("undo", 344.0)] ∧
    ((crampedRow.place Settings.standard.surface (.int 300) :
      Laying Number (Option (Placement Number Float))).notes.map fun d => (d.name, d.nodeId)) =
        [("overflow-x", "rows"), ("overflow-x", "undo")] ∧
    InRow Settings.standard.surface (.plain "row")
      ⟨.horizontal, some (.length 8), some (.length 16), .center, false⟩ crampedRow.children (.int 300)
      (Spacing.orZero (some (.length 16))).quantity (Spacing.orZero (some (.length 8))).quantity p content
      spots ∧
    ((box (.plain "card") none (some crampedRow)).place Settings.standard.surface (.int 300)).result =
      .ok (some q) ∧
    ∃ inside, ((box (.plain "card") none (some crampedRow)).place Settings.standard.surface (.int 300) :
        Laying Number (Option (Placement Number Float))).notes =
      (crampedRow.place Settings.standard.surface inside :
        Laying Number (Option (Placement Number Float))).notes := by
  have computed : ((crampedRow.place Settings.standard.surface (.int 300) :
      Laying Number (Option (Placement Number Float))).result.map
        fun placed => placed.map fun p => p.below.map fun f => (f.id, f.x)).toOption =
      some (some [("go", 16.0), ("rows", 68.0), ("undo", 344.0)]) := by
    decide +kernel
  have around : (((box (.plain "card") none (some crampedRow)).place Settings.standard.surface
      (.int 300) : Laying Number (Option (Placement Number Float))).result.map (·.isSome)).toOption =
        some true := by
    decide +kernel
  obtain ⟨placed, laid, shown⟩ := Result.map_toOption_eq_some.mp computed
  obtain ⟨p, rfl, told⟩ := Option.map_eq_some_iff.mp shown
  obtain ⟨placed, card, shown⟩ := Result.map_toOption_eq_some.mp around
  obtain ⟨q, rfl⟩ := Option.isSome_iff_exists.mp shown
  obtain ⟨content, spots, row, -⟩ := (overflows_told laid).1 _ _ _ rfl rfl rfl
  obtain ⟨inside, -, notes⟩ := (overflows_told card).2.1 rfl
  have none : (box (.plain "card") none (some crampedRow)).spacingDefects Settings.standard.surface = [] :=
    rfl
  refine ⟨p, q, content, spots, laid, told, by decide +kernel, row, card, inside, notes.trans ?_⟩
  rw [none]
  exact List.append_nil _

/-- A row with one child, which takes all the width that there is. -/
def wideRow : Node := .plainStack "row" .horizontal [.table (.plain "rows") ⟨none, [], some 5, none, none⟩]

end Node

/-- Is the number that an issue is about the one that is expected? -/
def Issue.asExpected (i : Issue) : Bool :=
  match i.expected, i.found with
  | some (.number expected), some (.number found) => expected.same found
  | _, _ => false

/-- A row of `2 ^ 53 + 1` with a child of the same width: no frame passes the width, and the child is
told of, with the width that is expected. -/
theorem wideRow_told : ∃ (l : Layout) (bound : Number),
    (Layout.compute (.around Node.wideRow) .role ⟨2 ^ 53 + 1, 640, by decide, by decide⟩).result = .ok l ∧
    (Number.int (2 ^ 53 + 1) + (tolerance : Number) : Calculation Number) = .ok bound ∧
    (l.frames.map fun f => (f.id, f.right.toOption.map fun right => bound.lt (.float right))) =
      [("row", some false), ("rows", some false)] ∧
    (l.issues.map fun i => (i.id, i.nodeId, i.asExpected)) =
      [("overflow-x", some (some "rows"), true)] := by
  have computed : ((Layout.compute (.around Node.wideRow) .role
      ⟨2 ^ 53 + 1, 640, by decide, by decide⟩).result.toOption.bind fun l =>
        (Number.int (2 ^ 53 + 1) + (tolerance : Number) : Calculation Number).toOption.map fun bound =>
          (decide ((l.frames.map fun f => (f.id, f.right.toOption.map fun right =>
                bound.lt (.float right))) = [("row", some false), ("rows", some false)]),
            decide ((l.issues.map fun i => (i.id, i.nodeId, i.asExpected)) =
              [("overflow-x", some (some "rows"), true)]))) =
      some (true, true) := by
    decide +kernel
  obtain ⟨l, hl, computed⟩ := Option.bind_eq_some_iff.mp computed
  obtain ⟨bound, hbound, told⟩ := Option.map_eq_some_iff.mp computed
  simp only [Prod.mk.injEq, decide_eq_true_iff] at told
  exact ⟨l, bound, Result.toOption_eq_some.mp hl, Result.toOption_eq_some.mp hbound, told⟩

end Wireframe
