import Wireframe.Layout.Screen
import Wireframe.Proofs.Hidden
import Wireframe.Proofs.Result
import Wireframe.Proofs.Trail
import Wireframe.Proofs.Layout.Offers

/-
  Wireframe.Proofs.Layout.Hidden — hidden nodes take no part in a layout.

  A container passes over what has no placement: no gap, no cell, no break of a row and no height
  comes of it. So it makes the same of its children when the hidden ones are left out. The one
  container that tells a hidden child from none is a box: it calculates the width for the child
  before it looks at it, and this may fail where the width is a whole number beyond the range of
  doubles. Without the child such a box fails as well, because its own width has no coordinate.

  Proved:
  - `arrange_thinned`, in four ways to arrange: children without a placement may be left out.
  - `Node.place_prune_eq`: a tree and the pruned tree are laid out alike, notes included, in a width
    within the range of doubles, or when no box insets a hidden child.
  - `Node.made_of_place`: every placement has a size that can be written in coordinates.
  - `Node.place_fails`: in a width beyond it no container is laid out.
  - `Node.place_prune`: so in any width both trees are laid out alike or neither of them is.
-/

namespace Wireframe

open Quantity

variable {α δ : Type} [Quantity α δ] [Scalar δ]

omit [Quantity α δ] [Scalar δ] in
theorem Laying.lift_ok {β : Type} (b : β) :
    (liftM (.ok b : Calculation β) : Laying α β) = Trail.done b := rfl

omit [Scalar δ] in
/-- The larger one of two numbers is one of them. -/
theorem Quantity.larger_of {P : α → Prop} {a b : α} (ha : P a) (hb : P b) : P (larger a b) := by
  unfold larger
  split
  · exact hb
  · exact ha

omit [Scalar δ] in
theorem Quantity.smaller_of {P : α → Prop} {a b : α} (ha : P a) (hb : P b) : P (smaller a b) := by
  unfold smaller
  split
  · exact hb
  · exact ha

/-! ## Children without a placement -/

/-- The second list is the first without some children that have no placement. -/
inductive Thinned : List (Child α δ) → List (Child α δ) → Prop
  | nil : Thinned [] []
  | keep (c : Child α δ) {as bs} : Thinned as bs → Thinned (c :: as) (c :: bs)
  | drop {c : Child α δ} {as bs} : c.placed = Trail.done none → Thinned as bs → Thinned (c :: as) bs

omit [Quantity α δ] [Scalar δ] in
theorem Thinned.append {as bs cs ds : List (Child α δ)} (h : Thinned as bs) (h' : Thinned cs ds) :
    Thinned (as ++ cs) (bs ++ ds) := by
  induction h with
  | nil => exact h'
  | keep c _ ih => exact .keep c ih
  | drop hidden _ ih => exact .drop hidden ih

section

variable {id : String} {align : Align} {width padding gap content cell limit : α} {columns : Nat}
  {as bs : List (Child α δ)}

theorem Column.runFrom_thinned (h : Thinned as bs) : ∀ y : α,
    Column.runFrom align padding gap content y as = Column.runFrom align padding gap content y bs := by
  induction h with
  | nil => intro y; rfl
  | keep c _ ih =>
    intro y
    refine Trail.bind_congr_ok fun placed _ => ?_
    cases placed with
    | none => exact ih y
    | some p => simp only [ih]
  | drop hidden _ ih =>
    intro y
    simp only [runFrom, hidden, Trail.done_bind, ih]

theorem Column.arrange_thinned (h : Thinned as bs) :
    Column.arrange id align width padding gap content as =
      Column.arrange id align width padding gap content bs := by
  simp only [arrange, runFrom_thinned h]

omit [Scalar δ] in
theorem Row.runFrom_thinned (h : Thinned as bs) : ∀ x : α,
    Row.runFrom id limit gap x as = Row.runFrom id limit gap x bs := by
  induction h with
  | nil => intro x; rfl
  | keep c _ ih =>
    intro x
    refine Trail.bind_congr_ok fun placed _ => ?_
    cases placed with
    | none => exact ih x
    | some p => simp only [ih]
  | drop hidden _ ih =>
    intro x
    simp only [runFrom, hidden, Trail.done_bind, ih]

theorem Row.arrange_thinned (h : Thinned as bs) :
    Row.arrange id align width padding gap as = Row.arrange id align width padding gap bs := by
  simp only [arrange, runFrom_thinned h]

theorem Wrap.runFrom_thinned (h : Thinned as bs) : ∀ c : Wrap.Cursor α,
    Wrap.runFrom limit padding gap c as = Wrap.runFrom limit padding gap c bs := by
  induction h with
  | nil => intro c; rfl
  | keep child _ ih =>
    intro c
    refine Trail.bind_congr_ok fun placed _ => ?_
    cases placed with
    | none => exact ih c
    | some p => simp only [ih]
  | drop hidden _ ih =>
    intro c
    simp only [runFrom, hidden, Trail.done_bind, ih]

theorem Wrap.arrange_thinned (h : Thinned as bs) :
    Wrap.arrange id width padding gap as = Wrap.arrange id width padding gap bs := by
  simp only [arrange, runFrom_thinned h]

theorem Cells.runFrom_thinned (h : Thinned as bs) : ∀ c : Cells.Cursor α,
    Cells.runFrom id columns cell gap c as = Cells.runFrom id columns cell gap c bs := by
  induction h with
  | nil => intro c; rfl
  | keep child _ ih =>
    intro c
    refine Trail.bind_congr_ok fun placed _ => ?_
    cases placed with
    | none => exact ih c
    | some p => simp only [ih]
  | drop hidden _ ih =>
    intro c
    simp only [runFrom, hidden, Trail.done_bind, ih]

theorem Cells.arrange_thinned (h : Thinned as bs) :
    Cells.arrange id columns width cell gap as = Cells.arrange id columns width cell gap bs := by
  simp only [arrange, runFrom_thinned h]

theorem arrangeStack_thinned {c : StackContent} (h : Thinned as bs) :
    arrangeStack id c width padding gap content as =
      arrangeStack id c width padding gap content bs := by
  unfold arrangeStack
  split
  · exact Column.arrange_thinned h
  · exact Wrap.arrange_thinned h
  · exact Row.arrange_thinned h

end

/-- The hidden ones of some nodes are the children that are left out. -/
theorem Node.asChild_thinned {s : Surface α} {width : α} (ns : List Node)
    (h : ∀ n ∈ ns, (n.prune.place s width : Laying α (Option (Placement α δ))) = n.place s width) :
    Thinned (δ := δ) (ns.map (asChild s width)) ((pruneAll ns).map (asChild s width)) := by
  induction ns with
  | nil => exact .nil
  | cons n rest ih =>
    have ih := ih fun m hm => h m (List.mem_cons_of_mem _ hm)
    rw [pruneAll]
    cases hv : n.visible with
    | false => exact .drop (place_hidden s width hv) ih
    | true =>
      have same : (asChild s width n.prune : Child α δ) = asChild s width n := by
        simp only [asChild, id_prune, header_prune, h n List.mem_cons_self]
      rw [if_pos rfl, List.map_cons, List.map_cons, same]
      exact .keep _ ih

/-! ## Widths within the range of doubles -/

/-- The number has a double next to it. -/
def Number.InRange (a : Number) : Prop := ∃ x, a.toDouble = .ok x

theorem Number.inRange_float (x : Float) : (Number.float x).InRange := ⟨x, rfl⟩

theorem Number.inRange_int {n : Int} (finite : isFinite (.float (toFloat (.int n))) = true) :
    (Number.int n).InRange :=
  ⟨toFloat (.int n), if_pos finite⟩

/-- Within the range of doubles a calculation has a result, which is a double as soon as one of the
    numbers is. -/
theorem Number.combine_inRange (onInts : Int → Int → Int) (onDoubles : Float → Float → Float)
    {a b : Number} (ha : a.InRange) (hb : b.InRange) :
    (∃ m n, a = .int m ∧ b = .int n ∧ combine onInts onDoubles a b = .ok (.int (onInts m n))) ∨
      ∃ z, combine onInts onDoubles a b = .ok (.float z) := by
  obtain ⟨x, hx⟩ := ha
  obtain ⟨y, hy⟩ := hb
  cases a with
  | int m =>
    cases b with
    | int n => exact .inl ⟨m, n, rfl, rfl, rfl⟩
    | float w => exact .inr ⟨onDoubles x y, by simp only [combine, hx, hy]; rfl⟩
  | float w => exact .inr ⟨onDoubles x y, by simp only [combine, hx, hy]; rfl⟩

theorem Number.InRange.larger {a b : Number} (ha : a.InRange) (hb : b.InRange) :
    (Quantity.larger a b).InRange :=
  larger_of (P := Number.InRange) ha hb

/-- A quotient is a double. -/
theorem Number.inRange_div {a b c : Number} (h : Number.div a b = .ok c) : c.InRange := by
  unfold div at h
  split at h
  · unfold quotient at h
    split at h
    · cases h
    · split at h
      · cases h; exact inRange_float _
      · cases h
  · simp only [Result.bind_eq_ok] at h
    obtain ⟨x, -, y, -, h⟩ := h
    split at h
    · cases h
    · cases h; exact inRange_float _

/-- What layout takes as a padding: nothing, or a double. -/
def Number.IsPadding (p : Number) : Prop := p = .int 0 ∨ ∃ x, p = .float x

theorem Spacing.isPadding (p : Option (Spacing Float)) :
    (Spacing.orZero p : Spacing Number).quantity.IsPadding := by
  match p with
  | none => exact .inl rfl
  | some (.length x) =>
    show Number.IsPadding (if x == 0.0 then Quantity.zero else Quantity.ofFloat x)
    split
    · exact .inl rfl
    · exact .inr ⟨x, rfl⟩
  | some .unlike => exact .inr ⟨_, rfl⟩

theorem twice_padding {p : Number} (hp : p.IsPadding) :
    ∃ q, twice p = .ok q ∧ q.IsPadding := by
  rcases hp with rfl | ⟨x, rfl⟩
  · exact ⟨.int 0, rfl, .inl rfl⟩
  · have two : (Number.int 2).InRange := Number.inRange_int (by decide +kernel)
    rcases Number.combine_inRange (· * ·) (· * ·) two (Number.inRange_float x) with
      ⟨_, _, _, h, _⟩ | ⟨z, hz⟩
    · cases h
    · exact ⟨.float z, hz, .inr ⟨z, rfl⟩⟩

/-- What is left of a width is a matter of one subtraction. -/
theorem contentWidth_eq {width padding q : Number} (h : twice padding = .ok q) :
    contentWidth width padding = (Number.sub width q).map (larger noLength) := by
  simp only [contentWidth, h]
  rfl

theorem contentWidth_inRange {width padding : Number} (hw : width.InRange)
    (hp : padding.IsPadding) :
    ∃ content, contentWidth width padding = .ok content ∧ content.InRange := by
  obtain ⟨q, hq, padded⟩ := twice_padding hp
  have zero : (Number.int 0).InRange := Number.inRange_int (by decide +kernel)
  have inRange : q.InRange := by
    rcases padded with rfl | ⟨x, rfl⟩
    · exact zero
    · exact Number.inRange_float x
  rw [contentWidth_eq hq]
  rcases Number.combine_inRange (· - ·) (· - ·) hw inRange with ⟨m, n, rfl, rfl, h⟩ | ⟨z, hz⟩
  · -- Of two whole numbers the second one is the padding of zero.
    obtain rfl : n = 0 := by
      rcases padded with h | ⟨x, h⟩ <;> cases h
      rfl
    refine ⟨larger noLength (.int (m - 0)), by rw [Number.sub, h]; rfl, ?_⟩
    exact (Number.inRange_float _).larger ((Int.sub_zero m).symm ▸ hw)
  · refine ⟨larger noLength (.float z), by rw [Number.sub, hz]; rfl, ?_⟩
    exact (Number.inRange_float _).larger (Number.inRange_float z)

theorem inRange_of_contentWidth {width padding content : Number} (hp : padding.IsPadding)
    (h : contentWidth width padding = .ok content) (hw : width.InRange) : content.InRange := by
  obtain ⟨_, h', inRange⟩ := contentWidth_inRange hw hp
  cases h.symm.trans h'
  exact inRange

/-- Without a padding there is always a width left, also beyond the range. -/
theorem contentWidth_zero (width : Number) : ∃ content, contentWidth width (.int 0) = .ok content := by
  cases width with
  | int n => exact ⟨larger noLength (.int (n - 0)), rfl⟩
  | float x =>
    obtain ⟨content, h, -⟩ := contentWidth_inRange (Number.inRange_float x) (.inl rfl)
    exact ⟨content, h⟩

theorem cellWidth_inRange {width gap cell : Number} {columns : Int}
    (h : Cells.cellWidth width columns gap = .ok cell) : cell.InRange := by
  simp only [Cells.cellWidth, Result.bind_eq_ok] at h
  obtain ⟨quotient, hq, h⟩ := h
  cases h
  refine (Number.inRange_float _).larger ?_
  change Quantity.lift Number.div _ _ = _ at hq
  simp only [Quantity.lift, Result.bind_eq_ok] at hq
  obtain ⟨a, -, b, -, hq⟩ := hq
  exact Number.inRange_div hq

/-! ## How placements are made -/

namespace Placement

/-- The placement can be made of what it holds. -/
def Made (p : Placement α δ) : Prop := Placement.of p.id p.w p.h p.below = .ok p

omit [Scalar δ] in
theorem made_of {id : String} {w h : α} {below : List (Frame α δ)} {p : Placement α δ}
    (hp : Placement.of id w h below = .ok p) : p.Made := by
  obtain rfl := of_eq hp
  exact hp

theorem lengthFaults_eq_nil_iff (name : String) {a : Number} :
    lengthFaults name a = [] ↔ a.InRange := by
  unfold lengthFaults
  split
  · exact iff_of_true rfl ⟨_, ‹_›⟩
  · rename_i fault failed
    exact iff_of_false nofun fun ⟨x, hx⟩ => nomatch failed.symm.trans hx

/-- There is a placement of every size that can be written in doubles, and of no other. -/
theorem of_eq_ok_iff {id : String} {w h : Number} {below : List (Frame Number Float)} :
    (∃ p, Placement.of id w h below = .ok p) ↔ w.InRange ∧ h.InRange := by
  rw [← lengthFaults_eq_nil_iff "w", ← lengthFaults_eq_nil_iff "h", ← List.append_eq_nil_iff, Placement.of]
  cases lengthFaults "w" w ++ lengthFaults "h" h <;> simp

theorem Made.inRange {p : Placement Number Float} (h : p.Made) : p.w.InRange ∧ p.h.InRange :=
  of_eq_ok_iff.mp ⟨p, h⟩

end Placement

section

variable {id : String} {align : Align} {width padding gap content cell : α} {columns : Nat}
  {children : List (Child α δ)} {p : Placement α δ}

theorem Column.arrange_made
    (hp : (Column.arrange id align width padding gap content children).result = .ok p) : p.Made := by
  simp only [arrange, Trail.result_bind_eq_ok, Laying.result_lift] at hp
  obtain ⟨run, -, height, -, hp⟩ := hp
  exact Placement.made_of hp

theorem Row.arrange_made (hp : (Row.arrange id align width padding gap children).result = .ok p) :
    p.Made := by
  simp only [arrange, Trail.result_bind_eq_ok, Laying.result_lift] at hp
  obtain ⟨run, -, frames, -, outer, -, hp⟩ := hp
  exact Placement.made_of hp

theorem Wrap.arrange_made (hp : (Wrap.arrange id width padding gap children).result = .ok p) :
    p.Made := by
  simp only [arrange, Trail.result_bind_eq_ok, Laying.result_lift] at hp
  obtain ⟨out, -, height, -, hp⟩ := hp
  exact Placement.made_of hp

theorem Cells.arrange_made
    (hp : (Cells.arrange id columns width cell gap children).result = .ok p) : p.Made := by
  simp only [arrange, Trail.result_bind_eq_ok, Laying.result_lift] at hp
  obtain ⟨out, -, height, -, hp⟩ := hp
  exact Placement.made_of hp

theorem arrangeStack_made {c : StackContent}
    (hp : (arrangeStack id c width padding gap content children).result = .ok p) : p.Made := by
  unfold arrangeStack at hp
  split at hp
  · exact Column.arrange_made hp
  · exact Wrap.arrange_made hp
  · exact Row.arrange_made hp

theorem insetAround_made {q : Option (Placement α δ)}
    (hp : (insetAround id width padding q).result = .ok p) : p.Made := by
  cases q with
  | none => exact Placement.made_of hp
  | some q =>
    simp only [insetAround, Trail.result_bind_eq_ok, Laying.result_lift] at hp
    obtain ⟨height, -, frames, -, hp⟩ := hp
    exact Placement.made_of hp

theorem placeLeaf_made {s : Surface α} {n : Node} {size : Calculation (Extent α)}
    (hp : (placeLeaf s n size).result = .ok p) : p.Made := by
  obtain ⟨e, -, hp⟩ := placeLeaf_eq_ok hp
  exact Placement.made_of hp

/-- Every placement is made as one, whatever the node. -/
theorem Node.made_of_place {s : Surface α} {n : Node}
    (h : (n.place s width).result = .ok (some p)) : p.Made := by
  have hv := visible_of_place h
  have opened := h
  unfold place at opened
  rw [if_pos hv] at opened
  cases n with
  | stack hd c cs =>
    obtain ⟨content, -, hp, -⟩ := place_stack_eq_ok h
    exact arrangeStack_made hp
  | grid hd c cs =>
    obtain ⟨columns, cell, -, -, hp, -⟩ := place_grid_eq_ok h
    exact Cells.arrange_made hp
  | box hd pad child =>
    cases child with
    | none =>
      obtain ⟨-, -, opened⟩ := Trail.result_bind_eq_ok.mp opened
      obtain ⟨q, hq, e⟩ := Trail.result_bind_eq_ok.mp opened
      cases e
      exact insetAround_made hq
    | some c =>
      simp only [Trail.result_bind_eq_ok] at opened
      obtain ⟨-, -, content, -, placed, -, q, hq, e⟩ := opened
      cases e
      exact insetAround_made hq
  | form hd f fs as =>
    simp only [Trail.result_bind_eq_ok] at opened
    obtain ⟨content, -, q, hq, e⟩ := opened
    cases e
    exact Column.arrange_made hq
  | _ =>
    obtain ⟨q, hq, e⟩ := Trail.result_bind_eq_ok.mp opened
    cases e
    exact placeLeaf_made hq

end

/-! ## Trees -/

namespace Node

/-- The node is a box with a padding around a child that is hidden. -/
def insetsHidden : Node → Bool
  | box _ p (some c) => !c.visible && match p with
    | none => false
    | some (.length x) => !(x == 0.0)
    | some .unlike => true
  | _ => false

/-- No visible box of the tree insets a hidden child. -/
def InsetsShown (n : Node) : Prop := ∀ m ∈ n.visibleNodes, m.insetsHidden = false

theorem InsetsShown.child {n c : Node} (h : n.InsetsShown) (shown : n.visible = true)
    (hc : c ∈ n.children) : c.InsetsShown := by
  intro m hm
  refine h m ?_
  rw [visibleNodes_eq, if_pos shown]
  exact List.mem_cons_of_mem n (List.mem_flatMap.mpr ⟨c, hc, hm⟩)

/-- A box finds a width for its child, hidden or not. -/
theorem box_contentWidth {hd : Header} {p : Option (Spacing Float)} {c : Node} {width : Number}
    (h : width.InRange ∨ (box hd p (some c)).insetsHidden = false) (hidden : c.visible = false) :
    ∃ content, contentWidth width (Spacing.orZero p : Spacing Number).quantity = .ok content := by
  rcases h with inRange | flat
  · obtain ⟨content, h, -⟩ := contentWidth_inRange inRange (Spacing.isPadding p)
    exact ⟨content, h⟩
  · simp only [insetsHidden, hidden, Bool.not_false, Bool.true_and] at flat
    have none_taken : (Spacing.orZero p : Spacing Number).quantity = .int 0 := by
      match p, flat with
      | none, _ => rfl
      | some (.length x), flat => exact if_pos (by simpa using flat)
    rw [none_taken]
    exact contentWidth_zero width

/-- Hidden nodes take no part in a layout, neither in its outcome nor in what is noted. -/
theorem place_prune_eq (s : Surface Number) (n : Node) : ∀ width : Number,
    width.InRange ∨ n.InsetsShown →
      (n.prune.place s width : Laying Number (Option (Placement Number Float))) =
        n.place s width := by
  induction n using byChildren with
  | step n ih =>
    intro width h
    cases hv : n.visible with
    | false => rw [place_hidden s width hv, place_hidden s width (n.visible_prune.trans hv)]
    | true =>
    -- What a container offers its children is in range if its own width is.
    have passes : ∀ content : Number, (width.InRange → content.InRange) → ∀ c ∈ n.children,
        (c.prune.place s content : Laying Number (Option (Placement Number Float))) =
          c.place s content := fun content inRange c hc =>
      ih c hc content (h.imp inRange fun shown => shown.child hv hc)
    unfold place
    rw [if_pos hv, if_pos (n.visible_prune.trans hv)]
    cases n with
    | stack hd c cs =>
      refine Trail.bind_congr_ok fun _ _ => Trail.bind_congr_ok fun _ _ =>
        Trail.bind_congr_ok fun content hcontent => ?_
      rw [Laying.result_lift] at hcontent
      have inRange := inRange_of_contentWidth (Spacing.isPadding c.padding) hcontent
      rw [placeAll_eq_map, placeAll_eq_map,
        arrangeStack_thinned (asChild_thinned cs (passes content inRange))]
    | grid hd c cs =>
      refine Trail.bind_congr_ok fun _ _ => Trail.bind_congr_ok fun columns _ =>
        Trail.bind_congr_ok fun cell hcell => ?_
      rw [Laying.result_lift] at hcell
      rw [placeAll_eq_map, placeAll_eq_map,
        Cells.arrange_thinned (asChild_thinned cs (passes cell fun _ => cellWidth_inRange hcell))]
    | box hd p child =>
      cases child with
      | none => rfl
      | some c =>
        cases shown : c.visible with
        | true =>
          simp only [prune, pruneChild, shown, if_true]
          refine Trail.bind_congr_ok fun _ _ => Trail.bind_congr_ok fun content hcontent => ?_
          rw [Laying.result_lift] at hcontent
          have inRange := inRange_of_contentWidth (Spacing.isPadding p) hcontent
          rw [passes content inRange c (List.mem_singleton_self c)]
        | false =>
          simp only [prune, pruneChild, shown]
          refine Trail.bind_congr_ok fun _ _ => ?_
          obtain ⟨content, hcontent⟩ := box_contentWidth (h.imp_right fun flat => flat _
            (mem_visibleNodes_self hv)) shown
          rw [hcontent, Laying.lift_ok, Trail.done_bind, place_hidden s content shown,
            Trail.done_bind]
    | form hd f fs as =>
      refine Trail.bind_congr_ok fun content hcontent => ?_
      rw [Laying.result_lift] at hcontent
      have inRange := inRange_of_contentWidth (.inl rfl) hcontent
      have below := passes content inRange
      rw [placeAll_eq_map, placeAll_eq_map, placeAll_eq_map, placeAll_eq_map,
        Column.arrange_thinned ((asChild_thinned fs fun c hc => below c (List.mem_append_left as hc)).append
          (asChild_thinned as fun c hc => below c (List.mem_append_right fs hc)))]
    | text | button | field | table => rfl

/-- In a width that has no coordinate no container has a placement. -/
theorem place_fails (s : Surface Number) {n : Node} (container : n.isContainer = true)
    (shown : n.visible = true) {width : Number} (beyond : ¬width.InRange) :
    ∃ e, (n.place s width : Laying Number (Option (Placement Number Float))).result = .error e := by
  refine Result.fails_of_not_ok fun placed laid => beyond ?_
  obtain ⟨p, rfl⟩ := exists_placement shown laid
  obtain ⟨content, spots, out⟩ := laidOut_of_place laid
  rw [← out.spans container]
  exact (made_of_place laid).inRange.1

/-- Either both trees are laid out alike, or neither is laid out. -/
theorem place_prune (s : Surface Number) {n : Node} (shown : n.visible = true) (width : Number) :
    (n.prune.place s width : Laying Number (Option (Placement Number Float))) = n.place s width ∨
      ¬width.InRange ∧ (∃ m ∈ n.visibleNodes, m.insetsHidden = true) ∧
      (∃ e, (n.place (δ := Float) s width).result = .error e) ∧
      ∃ e, (n.prune.place (δ := Float) s width).result = .error e := by
  by_cases inRange : width.InRange
  · exact .inl (place_prune_eq s n width (.inl inRange))
  by_cases flat : n.InsetsShown
  · exact .inl (place_prune_eq s n width (.inr flat))
  cases container : n.isContainer with
  | false => exact .inl (by rw [prune_leaf container])
  | true =>
    have inset : ∃ m ∈ n.visibleNodes, m.insetsHidden = true := by
      simpa only [InsetsShown, not_forall, Bool.not_eq_false, exists_prop] using flat
    have container' : n.prune.isContainer = true := by rwa [isContainer, kind_prune]
    exact .inr ⟨inRange, inset, place_fails s container shown inRange,
      place_fails s container' (n.visible_prune.trans shown) inRange⟩

end Node

end Wireframe
