import Wireframe.Proofs.Layout.Spots
import Wireframe.Proofs.Address

/-
  Wireframe.Proofs.Layout.Offers — the widths that nodes are offered, from the root down.

  The root is offered the width of the viewport. A container offers all its children one width,
  and this hangs on its own fields and on the width it is offered itself, on nothing else. What a
  node comes to in the width it is offered is moved as a whole when its container is put together,
  and again by every container further up; only a stretched child has the width of its own frame
  changed, to the width it was offered.

  Proved:
  - `Node.laidOut_of_place`: how a node that is laid out holds its children.
  - `Offered.laid`: every visible node below is laid out in the width it is offered, and what is noted
    about it is noted about the whole, in one piece.
  - `Located.offered_of_mem`: every visible node is offered a width.
  - `Offered.block`: the frames of a subtree are those of its layout in the width it is offered,
    moved, and they stand where its nodes stand among all visible nodes.
  - `Offered.frame_iff`: so the frame of each of its nodes is the one that it has in this layout,
    moved.
-/

namespace Wireframe

open Quantity

variable {α δ : Type} [Quantity α δ]

theorem placeLeaf_eq_ok [Scalar δ] {s : Surface α} {n : Node} {size : Calculation (Extent α)}
    {p : Placement α δ} (h : (placeLeaf s n size).result = .ok p) :
    ∃ e, size = .ok e ∧ Placement.of n.id e.w e.h [] = .ok p := by
  simp only [placeLeaf, Trail.result_bind_eq_ok, Laying.result_lift] at h
  obtain ⟨e, he, h⟩ := h
  refine ⟨e, he, ?_⟩
  split at h
  · obtain ⟨_, -, h⟩ := Trail.result_bind_eq_ok.mp h
    exact h
  · exact h

namespace Node

/-! ## What a container offers -/

/-- The padding that layout calculates with. -/
def inset : Node → α
  | stack _ c _ => (Spacing.orZero c.padding).quantity
  | box _ p _ => (Spacing.orZero p).quantity
  | _ => zero

/-- The gap that layout calculates with. -/
def gap : Node → α
  | stack _ c _ => (Spacing.orZero c.gap).quantity
  | grid _ c _ => (Spacing.orZero c.gap).quantity
  | _ => zero

/-- The columns of a grid in a width, none of anything else. -/
def columnsIn (n : Node) (width : α) : Calculation Int :=
  match n with
  | grid _ c _ => Cells.effectiveColumns c.columns width n.gap (c.minColWidth.map ofFloat)
  | _ => .ok 0

/-- The width that a container offers its children when it is offered one: a cell in a grid, else
what is inside the padding. -/
def offer (n : Node) (width : α) : Calculation α :=
  match n with
  | grid .. => do Cells.cellWidth width (← n.columnsIn width) n.gap
  | _ => contentWidth width n.inset

/-- Does a node give a child the whole width it offers? -/
def stretches (n c : Node) : Bool :=
  match n with
  | stack _ s _ => s.stretches c.header.widthPolicy
  | _ => false

/-- A child's placement as the node holds it. -/
def fit (n : Node) (content : α) (c : Node) (p : Placement α δ) : Placement α δ :=
  if n.stretches c then p.resized content else p

/-! ## What a node tells -/

/-- The spacings of a node in the order in which they are checked, with zero for one that is missing. -/
def checkedSpacings : Node → List (String × Spacing α)
  | stack _ c _ => [("padding", .orZero c.padding), ("gap", .orZero c.gap)]
  | grid _ c _ => [("gap", .orZero c.gap)]
  | box _ p _ => [("padding", .orZero p)]
  | _ => []

/-- What a node tells of its spacings: those that are neither zero nor on the scale. -/
def spacingDefects (s : Surface α) (n : Node) : List (Defect α) :=
  (n.checkedSpacings.filter fun q => !q.2.isRegular s.scale).map fun q =>
    .offScale n.id n.typeName q.1 q.2.quantity (s.scale.map (·.quantity))

/-- What a node tells of the size that it measures in a width. -/
def sizeDefects (s : Surface α) (n : Node) (width : α) : List (Defect α) :=
  match n.extent? width s.touch with
  | some (.ok e) =>
    if n.isTouched && !(le s.touch.w e.w && le s.touch.h e.h) then
      [.smallTarget n.id n.typeName e s.touch]
    else []
  | _ => []

variable [Scalar δ]

/-- What a node itself tells of a child that is put in a spot. -/
def childDefects (n : Node) (width content : α) (c : Child α δ) (spot : Option (Spot α δ)) :
    List (Defect α) :=
  match n with
  | stack hd st _ => st.told hd.id width c spot
  | grid hd _ _ =>
    match n.columnsIn width with
    | .ok columns => Cells.told hd.id columns.toNat content c
    | .error _ => []
  | _ => []

omit [Scalar δ] in
theorem checkSpacing_notes {s : Surface α} {n : Node} {property : String} {value : Spacing α} {u : Unit}
    (h : (checkSpacing s n property value).result = .ok u) : (checkSpacing s n property value).notes =
      if value.isRegular s.scale then [] else
        [.offScale n.id n.typeName property value.quantity (s.scale.map (·.quantity))] := by
  unfold checkSpacing at h ⊢
  split
  · rfl
  · rename_i irregular
    rw [if_neg irregular] at h
    obtain ⟨x, hx, -⟩ := Trail.result_bind_eq_ok.mp h
    rw [Laying.bind_lift (Laying.result_lift.mp hx)]
    rfl

omit [Scalar δ] in
/-- Checks that come to an end tell of the spacings that are not regular. -/
theorem checks_notes {s : Surface α} {n : Node} {spacings : List (String × Spacing α)}
    (h : ∀ q ∈ spacings, (checkSpacing s n q.1 q.2).result = .ok ()) :
    (spacings.flatMap fun q => (checkSpacing s n q.1 q.2).notes) =
      (spacings.filter fun q => !q.2.isRegular s.scale).map fun q =>
        .offScale n.id n.typeName q.1 q.2.quantity (s.scale.map (·.quantity)) := by
  induction spacings with
  | nil => rfl
  | cons q rest ih =>
    obtain ⟨own, below⟩ := List.forall_mem_cons.mp h
    rw [List.flatMap_cons, ih below, checkSpacing_notes own, List.filter_cons]
    cases q.2.isRegular s.scale <;> rfl

/-- A leaf tells of its size, when it is to be touched. -/
theorem placeLeaf_notes {s : Surface α} {n : Node} {width : α} {size : Calculation (Extent α)}
    {p : Placement α δ} (h : (placeLeaf s n size).result = .ok p)
    (own : n.extent? width s.touch = some size) :
    (placeLeaf s n size : Laying α (Placement α δ)).notes = n.sizeDefects s width := by
  obtain ⟨e, rfl, -⟩ := placeLeaf_eq_ok h
  rw [sizeDefects, own]
  simp only [placeLeaf, Laying.bind_lift rfl] at h ⊢
  cases touched : n.isTouched with
  | false => rfl
  | true =>
    simp only [touched, if_true, Bool.true_and] at h ⊢
    obtain ⟨_, checked, -⟩ := Trail.result_bind_eq_ok.mp h
    rw [Trail.notes_bind checked]
    refine (List.append_nil _).trans ?_
    unfold checkTarget at checked ⊢
    cases large : le s.touch.w e.w && le s.touch.h e.h with
    | true => rfl
    | false =>
      simp only [large, Bool.false_eq_true, if_false] at checked
      obtain ⟨x, hx, checked⟩ := Trail.result_bind_eq_ok.mp checked
      obtain ⟨y, hy, -⟩ := Trail.result_bind_eq_ok.mp checked
      simp only [Bool.false_eq_true, if_false, Bool.not_false, if_true,
        Laying.bind_lift (Laying.result_lift.mp hx), Laying.bind_lift (Laying.result_lift.mp hy)]
      rfl

/-- What a node puts for a child, nothing when it is hidden. -/
def Puts (s : Surface α) (n : Node) (content : α) (c : Node) (spot : Option (Spot α δ)) : Prop :=
  ∃ placed, (c.place s content).result = .ok placed ∧
    spot.map (·.placed) = placed.map (n.fit content c)

/-- Spots in a node of some height; a leaf has the height that it measures. -/
def Arranged (s : Surface α) (n : Node) (width content : α) (spots : List (Spot α δ)) (height : α) :
    Prop :=
  match n with
  | stack _ c _ => c.Arranged width n.inset n.gap content spots height
  | grid .. => ∃ columns, n.columnsIn width = .ok columns ∧
      Cells.Arranged columns.toNat content n.gap spots height
  | box .. => Inset.Arranged n.inset spots height
  | form .. => Column.Arranged .start n.inset n.gap content spots height
  | _ => ∃ e, n.extent? width s.touch = some (.ok e) ∧ height = e.h

/-- What laying out a visible node in a width comes to. -/
structure LaidOut (s : Surface α) (n : Node) (width : α) (p : Placement α δ) (content : α)
    (spots : List (Option (Spot α δ))) : Prop where
  visible : n.visible = true
  offer : n.children ≠ [] → n.offer width = .ok content
  puts : List.Forall₂ (n.Puts s content) n.children spots
  placed : p = ⟨n.id, p.w, p.h, rounded p.w, spots.flatMap Spot.shown⟩
  spans : n.isContainer = true → p.w = width
  arranged : n.Arranged s width content spots.reduceOption p.h
  notes : (n.place s width : Laying α (Option (Placement α δ))).notes =
    n.spacingDefects s ++ (n.sizeDefects s width ++
      Child.told (n.childDefects width content) (n.children.map (asChild s content)) spots)

theorem visible_of_place {s : Surface α} {n : Node} {width : α} {p : Placement α δ}
    (h : (n.place s width).result = .ok (some p)) : n.visible = true := by
  by_contra hv
  rw [place_hidden s width (Bool.eq_false_iff.mpr hv)] at h
  cases h

/-- A container that holds its children holds each of them as it came out in the width offered. -/
theorem LaidOut.of_held {s : Surface α} {n : Node} {width content : α} {p : Placement α δ}
    {fit : Child α δ → Placement α δ → Placement α δ} {spots : List (Option (Spot α δ))}
    {made : Laying α (Placement α δ)} (visible : n.visible = true)
    (offer : n.offer width = .ok content)
    (held : Held fit (n.childDefects width content) n.id width (n.children.map (asChild s content)) spots
      made p)
    (fits : ∀ c q, fit (asChild s content c) q = n.fit content c q)
    (arranged : n.Arranged s width content spots.reduceOption p.h)
    (notes : (n.place s width : Laying α (Option (Placement α δ))).notes =
      n.spacingDefects s ++ (n.sizeDefects s width ++ made.notes)) :
    n.LaidOut s width p content spots where
  visible := visible
  offer := fun _ => offer
  puts := by
    refine (List.forall₂_map_left_iff.mp held.puts).imp fun c spot ⟨placed, hc, same⟩ => ?_
    exact ⟨placed, hc, same.trans (congrArg (placed.map ·) (funext (fits c)))⟩
  placed := by
    have widths : p.w = width := congrArg (·.w) held.placed
    rw [widths]
    exact held.placed
  spans := fun _ => congrArg (·.w) held.placed
  arranged := arranged
  notes := held.noted ▸ notes

/-- A stack that is laid out arranges its children in the width inside its padding. -/
theorem place_stack_eq_ok {s : Surface α} {hd : Header} {c : StackContent} {cs : List Node} {width : α}
    {p : Placement α δ} (h : ((stack hd c cs).place s width).result = .ok (some p)) :
    let padding : Spacing α := .orZero c.padding
    let gap : Spacing α := .orZero c.gap
    ∃ content, contentWidth width padding.quantity = .ok content ∧
      let made := arrangeStack hd.id c width padding.quantity gap.quantity content
        (cs.map (asChild s content))
      made.result = .ok p ∧ ((stack hd c cs).place s width : Laying α (Option (Placement α δ))).notes =
        (stack hd c cs).spacingDefects s ++ made.notes := by
  have hv := visible_of_place h
  unfold place at h ⊢
  rw [if_pos hv] at h ⊢
  simp only [Trail.result_bind_eq_ok, Laying.result_lift, placeAll_eq_map] at h
  obtain ⟨_, h₁, _, h₂, content, hc, q, hq, e⟩ := h
  cases e
  refine ⟨content, hc, hq, ?_⟩
  simp only [Trail.notes_bind h₁, Trail.notes_bind h₂, Laying.bind_lift hc, placeAll_eq_map,
    Trail.notes_bind_pure]
  rw [spacingDefects, checkedSpacings, ← checks_notes (by simp [h₁, h₂])]
  simp only [List.flatMap_cons, List.flatMap_nil, List.append_nil, List.append_assoc]

/-- A grid that is laid out puts its children in cells, as many beside each other as it has columns. -/
theorem place_grid_eq_ok {s : Surface α} {hd : Header} {c : GridContent} {cs : List Node} {width : α}
    {p : Placement α δ} (h : ((grid hd c cs).place s width).result = .ok (some p)) :
    let gap : Spacing α := .orZero c.gap
    ∃ columns cell,
      Cells.effectiveColumns c.columns width gap.quantity (c.minColWidth.map ofFloat) = .ok columns ∧
      Cells.cellWidth width columns gap.quantity = .ok cell ∧
      let made := Cells.arrange hd.id columns.toNat width cell gap.quantity (cs.map (asChild s cell))
      made.result = .ok p ∧ ((grid hd c cs).place s width : Laying α (Option (Placement α δ))).notes =
        (checkSpacing s (grid hd c cs) "gap" gap).notes ++ made.notes := by
  have hv := visible_of_place h
  unfold place at h ⊢
  rw [if_pos hv] at h ⊢
  simp only [Trail.result_bind_eq_ok, Laying.result_lift, placeAll_eq_map] at h
  obtain ⟨_, h₁, columns, hcol, cell, hc, q, hq, e⟩ := h
  cases e
  refine ⟨columns, cell, hcol, hc, hq, ?_⟩
  simp only [Trail.notes_bind h₁, Laying.bind_lift hcol, Laying.bind_lift hc, placeAll_eq_map,
    Trail.notes_bind_pure]

theorem laidOut_of_place {s : Surface α} {n : Node} {width : α} {p : Placement α δ}
    (h : (n.place s width).result = .ok (some p)) :
    ∃ content spots, n.LaidOut s width p content spots := by
  have hv := visible_of_place h
  have opened := h
  unfold place at opened
  rw [if_pos hv] at opened
  cases n with
  | stack hd c cs =>
    obtain ⟨content, hc, hq, notes⟩ := place_stack_eq_ok h
    obtain ⟨spots, held, arranged⟩ := arrangeStack_eq_ok hq
    exact ⟨content, spots, .of_held hv hc held (fun _ _ => rfl) arranged notes⟩
  | grid hd c cs =>
    obtain ⟨columns, cell, hcol, hc, hq, notes⟩ := place_grid_eq_ok h
    obtain ⟨spots, held, arranged⟩ := Cells.arrange_eq_ok hq
    obtain ⟨_, checked, -⟩ := Trail.result_bind_eq_ok.mp opened
    have asked : (grid hd c cs).columnsIn width = .ok columns := hcol
    have tells : (fun child _ => Cells.told hd.id columns.toNat cell child) =
        ((grid hd c cs).childDefects width cell : Child α δ → Option (Spot α δ) → List (Defect α)) := by
      funext child spot
      simp only [childDefects, asked]
    refine ⟨cell, spots, .of_held hv (Result.bind_eq_ok.mpr ⟨columns, hcol, hc⟩) (tells ▸ held)
      (fun _ _ => rfl) ⟨columns, hcol, arranged⟩ ?_⟩
    rw [notes, spacingDefects, checkedSpacings, ← checks_notes (List.forall_mem_singleton.mpr checked),
      List.flatMap_singleton]
    rfl
  | box hd pad child =>
    cases child with
    | none =>
      obtain ⟨_, checked, opened⟩ := Trail.result_bind_eq_ok.mp opened
      obtain ⟨q, hq, e⟩ := Trail.result_bind_eq_ok.mp opened
      cases e
      obtain rfl := Placement.of_eq hq
      refine ⟨width, [], hv, (absurd rfl ·), .nil, rfl, fun _ => rfl, rfl, ?_⟩
      rw [spacingDefects, checkedSpacings, ← checks_notes (List.forall_mem_singleton.mpr checked),
        List.flatMap_singleton]
      unfold place
      rw [if_pos hv, Trail.notes_bind checked, Trail.notes_bind_pure]
      rfl
    | some c =>
      simp only [Trail.result_bind_eq_ok, Laying.result_lift] at opened
      obtain ⟨_, checked, content, hc, placed, hp, q, hq, e⟩ := opened
      cases e
      obtain ⟨spot, rfl, made, arranged⟩ := insetAround_eq_ok hq
      refine ⟨content, [spot], hv, fun _ => hc, .cons ⟨_, hp, ?_⟩ .nil, ?_, ?_, ?_, ?_⟩
      · cases spot <;> rfl
      · rw [made]; simp [id, header]
      · intro _; rw [made]
      · cases spot <;> exact arranged
      · have checked' : (checkSpacing s (box hd pad (some c)) "padding" (.orZero pad)).result = .ok () :=
          checked
        rw [spacingDefects, checkedSpacings, ← checks_notes (List.forall_mem_singleton.mpr checked'),
          List.flatMap_singleton]
        unfold place
        rw [if_pos hv, Trail.notes_bind checked, Laying.bind_lift hc, Trail.notes_bind hp,
          Trail.notes_bind_pure, insetAround_notes hq]
        exact congrArg _ (List.append_nil _).symm
  | form hd f fs as =>
    simp only [Trail.result_bind_eq_ok, Laying.result_lift, placeAll_eq_map, ← List.map_append] at opened
    obtain ⟨content, hc, q, hq, e⟩ := opened
    cases e
    obtain ⟨spots, held, arranged⟩ := Column.arrange_eq_ok hq
    refine ⟨content, spots, .of_held hv hc held (fun _ _ => if_neg (by simp)) arranged ?_⟩
    unfold place
    rw [if_pos hv]
    simp only [Laying.bind_lift hc, placeAll_eq_map, ← List.map_append, Trail.notes_bind_pure]
    rfl
  | text | button | field | table =>
    obtain ⟨q, hq, e⟩ := Trail.result_bind_eq_ok.mp opened
    cases e
    obtain ⟨e, he, hp⟩ := placeLeaf_eq_ok hq
    obtain rfl := Placement.of_eq hp
    refine ⟨width, [], hv, (absurd rfl ·), .nil, rfl, fun leaf => absurd leaf Bool.false_ne_true,
      ⟨e, congrArg some he, rfl⟩, ?_⟩
    unfold place
    rw [if_pos hv, Trail.notes_bind_pure, placeLeaf_notes hq rfl]
    exact (List.append_nil _).symm

/-- A visible node that is laid out has a placement. -/
theorem exists_placement {s : Surface α} {n : Node} {width : α} {placed : Option (Placement α δ)}
    (hv : n.visible = true) (h : (n.place s width).result = .ok placed) : ∃ p, placed = some p := by
  have ids := n.place_ids s width placed h
  rw [shownIds_visible hv] at ids
  cases placed with
  | none => cases ids
  | some p => exact ⟨p, rfl⟩

/-- A subtree has as many frames as visible nodes. -/
theorem place_length {s : Surface α} {n : Node} {width : α} {placed : Option (Placement α δ)}
    (h : (n.place s width).result = .ok placed) :
    ((placed.map (·.frames)).getD []).length = n.visibleNodes.length := by
  have ids := congrArg List.length (n.place_ids s width placed h)
  rwa [Placement.shownIds, Frame.ids, List.length_map, shownIds, List.length_map] at ids

end Node

section

variable [Scalar δ]

/-! ## Frames that are moved -/

/-- A frame that is moved several times. -/
def Frame.shifted (moves : List (δ × δ)) (f : Frame α δ) : Frame α δ :=
  moves.foldl (fun f m => f.moved m.1 m.2) f

/-- In its spot a placement is moved as a whole. -/
theorem Spot.frames_eq (spot : Spot α δ) : ∃ dx dy, toCoordinate spot.x = .ok dx ∧
    toCoordinate spot.y = .ok dy ∧ spot.frames = spot.placed.frames.map (·.moved dx dy) := by
  obtain ⟨dx, hx, h⟩ := Result.bind_eq_ok.mp spot.moved
  obtain ⟨dy, hy, h⟩ := Result.bind_eq_ok.mp h
  exact ⟨dx, dy, hx, hy, (Except.ok.inj h).symm⟩

theorem Node.Puts.length {s : Surface α} {n c : Node} {content : α} {spot : Option (Spot α δ)}
    (h : n.Puts s content c spot) : (Spot.shown spot).length = c.visibleNodes.length := by
  obtain ⟨placed, hc, same⟩ := h
  rw [← place_length hc]
  cases placed with
  | none =>
    obtain rfl := Option.map_eq_none_iff.mp same
    rfl
  | some q =>
    obtain ⟨spot, rfl, fitted⟩ := Option.map_eq_some_iff.mp same
    obtain ⟨dx, dy, -, -, frames⟩ := spot.frames_eq
    show spot.frames.length = q.frames.length
    rw [frames, List.length_map, fitted, fit]
    split <;> rfl

/-- Stretching a placement changes no frame but its own. -/
theorem Placement.frames_stretched (p : Placement α δ) (b : Bool) (w : α) :
    (if b then p.resized w else p).frames = (if b then p.resized w else p).own :: p.below := by
  cases b <;> rfl

theorem Placement.length_stretched (p : Placement α δ) (b : Bool) (w : α) :
    (if b then p.resized w else p).frames.length = p.frames.length := by
  rw [frames_stretched]
  rfl

/-! ## Two lists side by side -/

omit [Quantity α δ] [Scalar δ] in
theorem exists_zip_of_forall₂ {β γ : Type} {R : β → γ → Prop} {bs : List β} {cs : List γ} {b : β}
    (h : List.Forall₂ R bs cs) (hb : b ∈ bs) : ∃ c, (b, c) ∈ bs.zip cs ∧ R b c := by
  induction h with
  | nil => exact absurd hb List.not_mem_nil
  | @cons b' c' bs cs own _ ih =>
    rcases List.mem_cons.mp hb with rfl | hb
    · exact ⟨c', List.mem_cons_self, own⟩
    · obtain ⟨c, hc, r⟩ := ih hb
      exact ⟨c, List.mem_cons_of_mem _ hc, r⟩

/-- What is told in laying out a child stands in one piece in what is told of the whole. -/
theorem Node.LaidOut.noted {s : Surface α} {n : Node} {width content : α} {p : Placement α δ}
    {spots : List (Option (Spot α δ))} (h : n.LaidOut s width p content spots) :
    ∀ c ∈ n.children, (c.place s content : Laying α (Option (Placement α δ))).notes <:+:
      (n.place s width : Laying α (Option (Placement α δ))).notes := by
  intro c hc
  obtain ⟨spot, beside, -⟩ := exists_zip_of_forall₂ h.puts hc
  have put : (asChild s content c, spot) ∈ (n.children.map (asChild s content)).zip spots := by
    rw [List.zip_map_left]
    exact List.mem_map_of_mem beside
  have own : (c.place s content : Laying α (Option (Placement α δ))).notes <:+:
      (asChild s content c).placed.notes ++ n.childDefects width content (asChild s content c) spot :=
    (List.prefix_append _ _).isInfix
  have among := List.infix_of_mem_flatten (List.mem_map_of_mem put
    (f := fun q => q.1.placed.notes ++ n.childDefects width content q.1 q.2))
  rw [h.notes]
  exact own.trans (among.trans ((List.suffix_append _ _).trans (List.suffix_append _ _)).isInfix)

/-- Lists that are put together of parts of the same lengths stand side by side part by part. -/
theorem zip_flatMap {β γ β' γ' : Type} {f : β → List β'} {g : γ → List γ'} {bs : List β} {cs : List γ}
    (h : List.Forall₂ (fun b c => (f b).length = (g c).length) bs cs) :
    (bs.flatMap f).zip (cs.flatMap g) = (bs.zip cs).flatMap fun q => (f q.1).zip (g q.2) := by
  induction h with
  | nil => rfl
  | cons own _ ih => rw [List.flatMap_cons, List.flatMap_cons, List.zip_append own, ih]; rfl

omit [Quantity α δ] [Scalar δ] in
/-- What a test keeps stands beside what is there of some options, when it keeps what has one. -/
theorem forall₂_reduceOption {β γ : Type} {R : β → γ → Prop} {keep : β → Bool} {bs : List β}
    {cs : List (Option γ)}
    (h : List.Forall₂ (fun b c => keep b = c.isSome ∧ ∀ d, c = some d → R b d) bs cs) :
    List.Forall₂ R (bs.filter keep) cs.reduceOption := by
  induction h with
  | nil => exact .nil
  | @cons b c bs cs own _ ih =>
    obtain ⟨kept, beside⟩ := own
    rw [List.filter_cons, kept]
    cases c with
    | none => exact ih
    | some d => exact .cons (beside d rfl) ih

/-- The visible ones among some children are put in the spots that there are, as their container fits
them. -/
theorem Node.fitted_of_puts {s : Surface α} {content : α} (fit : Node → Placement α δ → Placement α δ)
    {cs : List Node} {spots : List (Option (Spot α δ))}
    (h : List.Forall₂ (fun c spot => ∃ placed, (c.place s content).result = .ok placed ∧
      spot.map (·.placed) = placed.map (fit c)) cs spots) :
    List.Forall₂ (fun c spot => ∃ own, (c.place s content).result = .ok (some own) ∧
      spot.placed = fit c own) (cs.filter (·.visible)) spots.reduceOption := by
  refine forall₂_reduceOption (h.imp fun c spot ⟨placed, hc, same⟩ => ?_)
  cases placed with
  | some own =>
    obtain ⟨shown, rfl, fitted⟩ := Option.map_eq_some_iff.mp same
    refine ⟨Node.visible_of_place hc, fun q hq => ?_⟩
    exact ⟨own, hc, Option.some.inj hq ▸ fitted⟩
  | none =>
    obtain rfl := Option.map_eq_none_iff.mp same
    refine ⟨Bool.eq_false_iff.mpr fun hv => ?_, nofun⟩
    obtain ⟨q, hq⟩ := Node.exists_placement hv hc
    cases hq

/-- The same where the container takes them as they come out. -/
theorem Node.placed_of_puts {s : Surface α} {content : α} {cs : List Node}
    {spots : List (Option (Spot α δ))}
    (h : List.Forall₂ (Child.Puts fun _ p => p) (cs.map (asChild s content)) spots) :
    List.Forall₂ (fun c spot => (c.place s content).result = .ok (some spot.placed))
      (cs.filter (·.visible)) spots.reduceOption :=
  (Node.fitted_of_puts (fun _ p => p) (List.forall₂_map_left_iff.mp h)).imp
    fun _ _ ⟨_, hc, same⟩ => same ▸ hc

/-- The frames in some spots are those of the spots that there are. -/
theorem Spot.flatMap_shown (spots : List (Option (Spot α δ))) :
    spots.flatMap Spot.shown = spots.reduceOption.flatMap (·.frames) := by
  induction spots with
  | nil => rfl
  | cons spot rest ih =>
    rw [List.flatMap_cons, ih]
    cases spot with
    | none => rfl
    | some spot => rfl

/-! ## The widths of a tree -/

/-- When the root is offered a width, a visible node below is offered a width as well, and may be
stretched to it. -/
inductive Offered (root : Located) (width : α) : Located → α → Bool → Prop
  | root : root.node.visible = true → Offered root width root width false
  | child {l : Located} {w content : α} {b : Bool} {slot : Slot} :
      Offered root width l w b → slot ∈ l.node.slots → slot.node.visible = true →
        l.node.offer w = .ok content →
          Offered root width (l.under slot) content (l.node.stretches slot.node)

omit [Scalar δ] in
theorem Offered.mem {root l : Located} {width w : α} {b : Bool} (o : Offered root width l w b) :
    l ∈ root.subtree := by
  induction o with
  | root hv => exact Node.mem_walkFrom_self fun _ => hv
  | child _ hs hv _ ih => exact Node.under_mem_walkFrom ih hs fun _ => hv

theorem Located.subtree_eq {l : Located} (hv : l.node.visible = true) :
    l.subtree = l :: l.node.slots.flatMap fun slot => (l.under slot).subtree := by
  rw [subtree, Node.walkFrom_eq, if_neg (by simp [hv])]
  rfl

namespace Node.LaidOut

variable {s : Surface α} {l : Located} {w content : α} {p : Placement α δ}
  {spots : List (Option (Spot α δ))}

/-- What is put for the node of a slot. -/
theorem put (h : l.node.LaidOut s w p content spots) :
    List.Forall₂ (fun slot spot => l.node.Puts s content slot.node spot) l.node.slots spots := by
  have puts := h.puts
  rw [← l.node.slots_nodes] at puts
  exact List.forall₂_map_left_iff.mp puts

theorem offers (h : l.node.LaidOut s w p content spots) {slot : Slot} (hs : slot ∈ l.node.slots) :
    l.node.offer w = .ok content :=
  h.offer (List.ne_nil_of_mem (slot_mem_children hs))

/-- The frames below a node, part by part with the subtrees of its children. -/
theorem zip_below (h : l.node.LaidOut s w p content spots) (change : Frame α δ → Frame α δ) :
    (l.node.slots.flatMap fun slot => (l.under slot).subtree).zip (p.below.map change) =
      (l.node.slots.zip spots).flatMap fun q =>
        (l.under q.1).subtree.zip ((Spot.shown q.2).map change) := by
  rw [h.placed, List.map_flatMap]
  refine zip_flatMap (h.put.imp fun slot spot put => ?_)
  rw [List.length_map, put.length, ← walkFrom_nodes slot.node (l.under slot).pointer, List.length_map]
  rfl

end Node.LaidOut

/-- A visible child stands in a spot, as it comes out in the width that it is offered. -/
theorem Located.spot_of_offer {s : Surface α} {l : Located} {w content : α} {p : Placement α δ}
    {slot : Slot} (h : (l.node.place s w).result = .ok (some p)) (hs : slot ∈ l.node.slots)
    (hv : slot.node.visible = true) (offer : l.node.offer w = .ok content) :
    ∃ (spots : List (Option (Spot α δ))) (spot : Spot α δ) (q : Placement α δ),
      l.node.LaidOut s w p content spots ∧ (slot, some spot) ∈ l.node.slots.zip spots ∧
      (slot.node.place s content).result = .ok (some q) ∧
      spot.placed = l.node.fit content slot.node q := by
  obtain ⟨content', spots, out⟩ := Node.laidOut_of_place h
  obtain rfl : content' = content := Except.ok.inj ((out.offers hs).symm.trans offer)
  obtain ⟨_, beside, placed, hc, same⟩ := exists_zip_of_forall₂ out.put hs
  obtain ⟨q, rfl⟩ := Node.exists_placement hv hc
  obtain ⟨spot, rfl, fitted⟩ := Option.map_eq_some_iff.mp same
  exact ⟨spots, spot, q, out, beside, hc, fitted⟩

namespace Offered

variable {s : Surface α} {root l : Located} {width w : α} {b : Bool}

/-- A visible node is laid out in the width it is offered, and what is noted about it stands in one piece
in what is noted about the whole. -/
theorem laid {p₀ : Placement α δ} (h : (root.node.place s width).result = .ok (some p₀))
    (o : Offered root width l w b) :
    (∃ p : Placement α δ, (l.node.place s w).result = .ok (some p)) ∧
      (l.node.place s w : Laying α (Option (Placement α δ))).notes <:+:
        (root.node.place s width : Laying α (Option (Placement α δ))).notes := by
  induction o with
  | root _ => exact ⟨⟨p₀, h⟩, List.infix_refl _⟩
  | @child l w content b slot o hs hv hoffer ih =>
    obtain ⟨⟨p, hp⟩, within⟩ := ih
    obtain ⟨spots, -, q, out, -, hc, -⟩ := Located.spot_of_offer hp hs hv hoffer
    exact ⟨⟨q, hc⟩, (out.noted _ (Node.slot_mem_children hs)).trans within⟩

/-- Side by side with the visible nodes, the frames of a subtree are those of its layout in the width
it is offered, moved as a whole; the width of the subtree's own root is the one that it is stretched
to. -/
theorem block {p₀ : Placement α δ} (h : (root.node.place s width).result = .ok (some p₀))
    (o : Offered root width l w b) :
    ∃ (p : Placement α δ) (moves : List (δ × δ)) (before after : List (Located × Frame α δ)),
      (l.node.place s w).result = .ok (some p) ∧
      root.subtree.zip p₀.frames = before ++
        l.subtree.zip ((if b then p.resized w else p).frames.map (Frame.shifted moves)) ++ after := by
  induction o with
  | root _ =>
    refine ⟨p₀, [], [], [], h, ?_⟩
    rw [List.nil_append, List.append_nil]
    exact congrArg _ (List.map_id _).symm
  | @child l w content b slot o hs hv hoffer ih =>
    obtain ⟨p, moves, before, after, hp, split⟩ := ih
    obtain ⟨spots, spot, q, out, beside, hc, fitted⟩ := Located.spot_of_offer hp hs hv hoffer
    obtain ⟨dx, dy, -, -, frames⟩ := spot.frames_eq
    obtain ⟨earlier, later, parts⟩ := List.append_of_mem beside
    -- The frames of the child are moved to its spot first, and then with its container.
    have own : (Spot.shown (some spot)).map (Frame.shifted moves) =
        (l.node.fit content slot.node q).frames.map (Frame.shifted ((dx, dy) :: moves)) := by
      show spot.frames.map _ = _
      rw [frames, fitted, List.map_map]
      rfl
    rw [p.frames_stretched, List.map_cons, Located.subtree_eq out.visible, List.zip_cons_cons,
      out.zip_below, parts, List.flatMap_append, List.flatMap_cons, own] at split
    have regroup : ∀ (x : Located × Frame α δ) (es part ls : List (Located × Frame α δ)),
        before ++ (x :: (es ++ (part ++ ls))) ++ after = (before ++ x :: es) ++ part ++ (ls ++ after) := by
      intro x es part ls
      simp only [List.append_assoc, List.cons_append]
    rw [regroup] at split
    exact ⟨q, (dx, dy) :: moves, _, _, hc, split⟩

/-- A container that is offered a width offers one to every child that it puts in a spot. -/
theorem of_spot {p : Placement α δ} {content : α} {spots : List (Option (Spot α δ))} {spot : Spot α δ}
    (o : Offered root width l w b) (out : l.node.LaidOut s w p content spots)
    (hs : spot ∈ spots.reduceOption) :
    ∃ slot ∈ l.node.slots, ∃ q : Placement α δ,
      Offered root width (l.under slot) content (l.node.stretches slot.node) ∧
      (slot.node.place s content).result = .ok (some q) ∧ spot.placed = l.node.fit content slot.node q := by
  obtain ⟨slot, hz, placed, hq, same⟩ :=
    exists_zip_of_forall₂ out.put.flip (List.reduceOption_mem_iff.mp hs)
  have hslot := (List.of_mem_zip hz).2
  obtain ⟨q, rfl, fitted⟩ := Option.map_eq_some_iff.mp same.symm
  exact ⟨slot, hslot, q, o.child hslot (Node.visible_of_place hq) (out.offers hslot), hq, fitted.symm⟩

end Offered

/-- Every visible node is offered a width. -/
theorem Located.offered_of_mem {s : Surface α} {root : Located} {width : α} {p₀ : Placement α δ}
    (h : (root.node.place s width).result = .ok (some p₀)) {l : Located} (hl : l ∈ root.subtree) :
    ∃ w b, Offered root width l w b := by
  have below : ∀ (n : Node) (m : Located), m.node = n → ∀ w b, Offered root width m w b →
      l ∈ m.subtree → ∃ w b, Offered root width l w b := by
    intro n
    induction n using Node.byChildren with
    | step n ih =>
      rintro m rfl w b o hm
      obtain ⟨hv, rfl | ⟨slot, hs, hl⟩⟩ := Node.mem_walkFrom.mp hm
      · exact ⟨w, b, o⟩
      · obtain ⟨⟨p, hp⟩, -⟩ := o.laid h
        obtain ⟨content, spots, out⟩ := Node.laidOut_of_place hp
        have shown := (Node.mem_walkFrom.mp hl).1 rfl
        exact ih _ (Node.slot_mem_children hs) (m.under slot) rfl _ _
          (o.child hs shown (out.offers hs)) hl
  exact below _ root rfl _ _ (.root (Node.visible_of_place h)) hl

/-! ## The frame of a node -/

omit [Quantity α δ] [Scalar δ] in
/-- A visible node has one frame. -/
theorem Located.frame_unique {root m : Located} {frames : List (Frame α δ)} {f g : Frame α δ}
    (hf : (m, f) ∈ root.subtree.zip frames) (hg : (m, g) ∈ root.subtree.zip frames) : f = g := by
  have nodup : root.subtree.Nodup := .of_map _ (root.node.pointers_nodup true root.pointer)
  obtain ⟨i, hi, ei⟩ := List.mem_iff_getElem.mp hf
  obtain ⟨j, hj, ej⟩ := List.mem_iff_getElem.mp hg
  rw [List.getElem_zip, Prod.mk.injEq] at ei ej
  obtain rfl : i = j := (nodup.getElem_inj_iff).mp (ei.1.trans ej.1.symm)
  exact ei.2.symm.trans ej.2

theorem Located.length_subtree {s : Surface α} {l : Located} {w : α} {p : Placement α δ}
    (h : (l.node.place s w).result = .ok (some p)) : l.subtree.length = p.frames.length := by
  rw [Located.subtree, ← List.length_map (f := (·.node)), Node.walkFrom_nodes]
  exact (Node.place_length h).symm

/-- The frames that a subtree has in the whole are those of its own layout, moved; the first one is
the frame of its root. -/
theorem Offered.frame_iff {s : Surface α} {root l : Located} {width w : α} {b : Bool}
    {p₀ : Placement α δ} (h : (root.node.place s width).result = .ok (some p₀))
    (o : Offered root width l w b) :
    ∃ (p : Placement α δ) (moves : List (δ × δ)), (l.node.place s w).result = .ok (some p) ∧
      (∀ f, (l, f) ∈ root.subtree.zip p₀.frames ↔
        f = Frame.shifted moves (if b then p.resized w else p).own) ∧
      ∀ m ∈ l.subtree, ∀ f, (m, f) ∈ root.subtree.zip p₀.frames ↔
        (m, f) ∈ l.subtree.zip ((if b then p.resized w else p).frames.map (Frame.shifted moves)) := by
  obtain ⟨p, moves, before, after, hp, split⟩ := o.block h
  have within : ∀ q ∈ l.subtree.zip ((if b then p.resized w else p).frames.map (Frame.shifted moves)),
      q ∈ root.subtree.zip p₀.frames := fun q hq => by
    rw [split]
    exact List.mem_append_left _ (List.mem_append_right _ hq)
  have own : (l, Frame.shifted moves (if b then p.resized w else p).own) ∈
      root.subtree.zip p₀.frames := by
    refine within _ ?_
    rw [Located.subtree_eq (Node.visible_of_place hp)]
    exact List.mem_cons_self
  refine ⟨p, moves, hp, fun f => ⟨fun hf => Located.frame_unique hf own, fun e => e ▸ own⟩,
    fun m hm f => ⟨fun hf => ?_, within (m, f)⟩⟩
  have long : l.subtree.length =
      ((if b then p.resized w else p).frames.map (Frame.shifted moves)).length := by
    rw [List.length_map, Located.length_subtree hp, p.length_stretched]
  rw [← List.map_fst_zip (Nat.le_of_eq long)] at hm
  obtain ⟨⟨m, g⟩, hg, rfl⟩ := List.mem_map.mp hm
  rwa [Located.frame_unique hf (within _ hg)]

end

end Wireframe
