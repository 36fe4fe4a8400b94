import Wireframe.Layout.Screen
import Wireframe.Proofs.Result
import Wireframe.Proofs.Trail
import Wireframe.Proofs.Plain
import Wireframe.Proofs.Walk

/-
  Wireframe.Proofs.Layout.FrameOrder — which frames a layout has, and in what order.

  A container lays its children out one after the other and passes over the hidden ones, whatever
  it does about their places. So each of the four ways to arrange children keeps the frames of
  every child together and in the order of the children.

  Proved:
  - `Column.arrange_ids`, `Row.arrange_ids`, `Wrap.arrange_ids`, `Cells.arrange_ids`: the frames of
    a container are its own and then those of its children, in order.
  - `Node.place_ids`: a subtree has one frame for every visible node, in document order.
  - `frames_follow_walk`: the frames of a layout are those of the visible nodes of the tree that is
    resolved at the width of the viewport, one for each and in document order.
-/

namespace Wireframe

open Quantity

variable {α δ β : Type} [Quantity α δ] [Scalar δ]

@[simp] theorem Laying.result_lift {c : Calculation β} {b : β} :
    (liftM c : Laying α β).result = .ok b ↔ c = .ok b :=
  Result.mapError_eq_ok

omit [Quantity α δ] [Scalar δ] in
theorem Laying.bind_lift {β γ : Type} {c : Calculation β} {b : β} (h : c = .ok b)
    (f : β → Laying α γ) : (liftM c >>= f) = f b := by
  rw [h]
  exact Trail.done_bind b f

/-! ## Placements -/

def Frame.ids (frames : List (Frame α δ)) : List String := frames.map (·.id)

omit [Quantity α δ] [Scalar δ] in
theorem Frame.ids_append (before after : List (Frame α δ)) :
    Frame.ids (before ++ after) = Frame.ids before ++ Frame.ids after := List.map_append

/-- The ids of the frames of a placement, none without one. -/
def Placement.shownIds (p : Option (Placement α δ)) : List String :=
  Frame.ids ((p.map (·.frames)).getD [])

theorem Placement.moved_ids {p : Placement α δ} {dx dy : α} {frames : List (Frame α δ)}
    (h : p.moved dx dy = .ok frames) : Frame.ids frames = Frame.ids p.frames := by
  simp only [moved, Result.bind_eq_ok] at h
  obtain ⟨x, -, y, -, h⟩ := h
  cases h
  simp [Frame.ids, Frame.moved]

theorem Placement.of_ids {id : String} {w h : α} {below : List (Frame α δ)} {p : Placement α δ}
    (hp : Placement.of id w h below = .ok p) : Frame.ids p.frames = id :: Frame.ids below := by
  unfold Placement.of at hp
  split at hp <;> cases hp
  rfl

/-- Whatever comes of laying a child out, its frames have these ids. -/
def Child.Shows (c : Child α δ) (ids : List String) : Prop :=
  ∀ placed, c.placed.result = .ok placed → Placement.shownIds placed = ids

/-! ## The ways to arrange children -/

section

variable {id : String} {align : Align} {width padding gap content cell : α} {columns : Nat}
  {f : β → Child α δ} {ids : β → List String} {p : Placement α δ}

theorem Column.fit_ids (c : Child α δ) (p : Placement α δ) :
    Frame.ids (fit align content c p).frames = Frame.ids p.frames := by
  unfold fit
  split <;> rfl

theorem Column.runFrom_ids (ns : List β) (h : ∀ n ∈ ns, (f n).Shows (ids n)) :
    ∀ {y : α} {run : Run α δ},
      (Column.runFrom align padding gap content y (ns.map f)).result = .ok run →
        Frame.ids run.frames = ns.flatMap ids := by
  induction ns with
  | nil => intro y run hr; cases hr; rfl
  | cons n rest ih =>
    intro y run hr
    have ih := fun {y run} => @ih (fun m hm => h m (List.mem_cons_of_mem _ hm)) y run
    simp only [List.map_cons, runFrom, Trail.result_bind_eq_ok] at hr
    obtain ⟨placed, hn, hr⟩ := hr
    rw [List.flatMap_cons, ← h n (List.mem_cons_self ..) placed hn]
    cases placed with
    | none => exact ih hr
    | some p =>
      simp only [Trail.result_bind_eq_ok, Laying.result_lift] at hr
      obtain ⟨x, -, here, hm, next, -, below, hrest, hr⟩ := hr
      cases hr
      rw [Frame.ids_append, Placement.moved_ids hm, fit_ids, ih hrest]
      rfl

theorem Column.arrange_ids {ns : List β} (h : ∀ n ∈ ns, (f n).Shows (ids n))
    (hp : (Column.arrange id align width padding gap content (ns.map f)).result = .ok p) :
    Frame.ids p.frames = id :: ns.flatMap ids := by
  simp only [arrange, Trail.result_bind_eq_ok, Laying.result_lift] at hp
  obtain ⟨run, hr, height, -, hp⟩ := hp
  rw [Placement.of_ids hp, runFrom_ids ns h hr]

theorem Row.runFrom_ids (ns : List β) (h : ∀ n ∈ ns, (f n).Shows (ids n)) :
    ∀ {x : α} {run : List (α × Placement α δ)},
      (Row.runFrom id width gap x (ns.map f)).result = .ok run →
        (run.flatMap fun q => Frame.ids q.2.frames) = ns.flatMap ids := by
  induction ns with
  | nil => intro x run hr; cases hr; rfl
  | cons n rest ih =>
    intro x run hr
    have ih := fun {x run} => @ih (fun m hm => h m (List.mem_cons_of_mem _ hm)) x run
    simp only [List.map_cons, runFrom, Trail.result_bind_eq_ok] at hr
    obtain ⟨placed, hn, hr⟩ := hr
    rw [List.flatMap_cons, ← h n (List.mem_cons_self ..) placed hn]
    cases placed with
    | none => exact ih hr
    | some p =>
      simp only [Trail.result_bind_eq_ok, Trail.result_ite_note] at hr
      obtain ⟨reached, -, bound, -, next, -, below, hrest, hr⟩ := hr
      cases hr
      rw [List.flatMap_cons, ih hrest]
      rfl

theorem Row.framesOf_ids {height : α} : ∀ {run : List (α × Placement α δ)} {frames : List (Frame α δ)},
    Row.framesOf align padding height run = .ok frames →
      Frame.ids frames = run.flatMap fun q => Frame.ids q.2.frames
  | [], frames, h => by cases h; rfl
  | (x, p) :: rest, frames, h => by
    simp only [framesOf, Result.bind_eq_ok] at h
    obtain ⟨y, -, here, hm, below, hrest, h⟩ := h
    cases h
    rw [Frame.ids_append, Placement.moved_ids hm, framesOf_ids hrest, List.flatMap_cons]

theorem Row.arrange_ids {ns : List β} (h : ∀ n ∈ ns, (f n).Shows (ids n))
    (hp : (Row.arrange id align width padding gap (ns.map f)).result = .ok p) :
    Frame.ids p.frames = id :: ns.flatMap ids := by
  simp only [arrange, Trail.result_bind_eq_ok, Laying.result_lift] at hp
  obtain ⟨run, hr, frames, hf, outer, -, hp⟩ := hp
  rw [Placement.of_ids hp, framesOf_ids hf, runFrom_ids ns h hr]

theorem Wrap.runFrom_ids (ns : List β) (h : ∀ n ∈ ns, (f n).Shows (ids n)) :
    ∀ {c : Wrap.Cursor α} {out : List (Frame α δ) × Wrap.Cursor α},
      (Wrap.runFrom width padding gap c (ns.map f)).result = .ok out →
        Frame.ids out.1 = ns.flatMap ids := by
  induction ns with
  | nil => intro c out hr; cases hr; rfl
  | cons n rest ih =>
    intro c out hr
    have ih := fun {c out} => @ih (fun m hm => h m (List.mem_cons_of_mem _ hm)) c out
    simp only [List.map_cons, runFrom, Trail.result_bind_eq_ok] at hr
    obtain ⟨placed, hn, hr⟩ := hr
    rw [List.flatMap_cons, ← h n (List.mem_cons_self ..) placed hn]
    cases placed with
    | none => exact ih hr
    | some p =>
      simp only [Trail.result_bind_eq_ok, Laying.result_lift] at hr
      obtain ⟨d, -, here, hm, next, -, below, hrest, hr⟩ := hr
      cases hr
      rw [Frame.ids_append, Placement.moved_ids hm, ih hrest]
      rfl

theorem Wrap.arrange_ids {ns : List β} (h : ∀ n ∈ ns, (f n).Shows (ids n))
    (hp : (Wrap.arrange id width padding gap (ns.map f)).result = .ok p) :
    Frame.ids p.frames = id :: ns.flatMap ids := by
  simp only [arrange, Trail.result_bind_eq_ok, Laying.result_lift] at hp
  obtain ⟨out, hr, height, -, hp⟩ := hp
  rw [Placement.of_ids hp, runFrom_ids ns h hr]

theorem Cells.runFrom_ids (ns : List β) (h : ∀ n ∈ ns, (f n).Shows (ids n)) :
    ∀ {c : Cells.Cursor α} {out : List (Frame α δ) × Cells.Cursor α},
      (Cells.runFrom id columns cell gap c (ns.map f)).result = .ok out →
        Frame.ids out.1 = ns.flatMap ids := by
  induction ns with
  | nil => intro c out hr; cases hr; rfl
  | cons n rest ih =>
    intro c out hr
    have ih := fun {c out} => @ih (fun m hm => h m (List.mem_cons_of_mem _ hm)) c out
    simp only [List.map_cons, runFrom, Trail.result_bind_eq_ok] at hr
    obtain ⟨placed, hn, hr⟩ := hr
    rw [List.flatMap_cons, ← h n (List.mem_cons_self ..) placed hn]
    cases placed with
    | none => exact ih hr
    | some p =>
      simp only [Trail.result_bind_eq_ok, Trail.result_ite_note, Laying.result_lift] at hr
      obtain ⟨bound, -, d, -, x, -, here, hm, below, hrest, hr⟩ := hr
      cases hr
      rw [Frame.ids_append, Placement.moved_ids hm, ih hrest]
      rfl

theorem Cells.arrange_ids {ns : List β} (h : ∀ n ∈ ns, (f n).Shows (ids n))
    (hp : (Cells.arrange id columns width cell gap (ns.map f)).result = .ok p) :
    Frame.ids p.frames = id :: ns.flatMap ids := by
  simp only [arrange, Trail.result_bind_eq_ok, Laying.result_lift] at hp
  obtain ⟨out, hr, height, -, hp⟩ := hp
  rw [Placement.of_ids hp, runFrom_ids ns h hr]

end

/-! ## A subtree -/

namespace Node

def shownIds (n : Node) : List String := n.visibleNodes.map (·.id)

theorem shownIds_hidden {n : Node} (h : n.visible = false) : n.shownIds = [] := by
  rw [shownIds, visibleNodes_eq, if_neg (by simp [h])]
  rfl

theorem shownIds_visible {n : Node} (h : n.visible = true) :
    n.shownIds = n.id :: n.children.flatMap shownIds := by
  rw [shownIds, visibleNodes_eq, if_pos h, List.map_cons, List.map_flatMap]
  rfl

/-- A node as the child that its container lays out. -/
def asChild (s : Surface α) (width : α) (n : Node) : Child α δ :=
  ⟨n.id, n.header.widthPolicy, n.place s width⟩

theorem placeAll_eq_map (s : Surface α) (width : α) (ns : List Node) :
    placeAll s width ns = ns.map (asChild s width) := by
  induction ns with
  | nil => rfl
  | cons n rest ih => rw [placeAll, ih]; rfl

theorem place_hidden (s : Surface α) (width : α) {n : Node} (h : n.visible = false) :
    n.place s width = Trail.done none := by
  unfold place
  rw [if_neg (by simp [h])]

end Node

theorem arrangeStack_ids {id : String} {c : StackContent} {width padding gap content : α}
    {f : β → Child α δ} {ids : β → List String} {ns : List β} (h : ∀ n ∈ ns, (f n).Shows (ids n))
    {p : Placement α δ}
    (hp : (arrangeStack id c width padding gap content (ns.map f)).result = .ok p) :
    Frame.ids p.frames = id :: ns.flatMap ids := by
  unfold arrangeStack at hp
  split at hp
  · exact Column.arrange_ids h hp
  · exact Wrap.arrange_ids h hp
  · exact Row.arrange_ids h hp

theorem insetAround_ids {id : String} {width padding : α} {q : Option (Placement α δ)}
    {p : Placement α δ} (hp : (insetAround id width padding q).result = .ok p) :
    Frame.ids p.frames = id :: Placement.shownIds q := by
  cases q with
  | none => exact Placement.of_ids hp
  | some q =>
    simp only [insetAround, Trail.result_bind_eq_ok, Laying.result_lift] at hp
    obtain ⟨height, -, frames, hm, hp⟩ := hp
    rw [Placement.of_ids hp, Placement.moved_ids hm]
    rfl

theorem placeLeaf_ids {s : Surface α} {n : Node} {size : Calculation (Extent α)}
    {p : Placement α δ} (hp : (placeLeaf s n size).result = .ok p) : Frame.ids p.frames = [n.id] := by
  simp only [placeLeaf, Trail.result_bind_eq_ok, Laying.result_lift] at hp
  obtain ⟨e, -, hp⟩ := hp
  split at hp
  · obtain ⟨_, -, hp⟩ := Trail.result_bind_eq_ok.mp hp
    exact Placement.of_ids hp
  · exact Placement.of_ids hp

/-- A subtree has one frame for every visible node, in document order. -/
theorem Node.place_ids (s : Surface α) (n : Node) : ∀ width, (asChild s width n).Shows n.shownIds := by
  induction n using byChildren with
  | step n ih =>
    intro width placed h
    replace h : (n.place s width).result = .ok placed := h
    cases hv : n.visible with
    | false =>
      rw [place_hidden s width hv] at h
      cases h
      exact (shownIds_hidden hv).symm
    | true =>
      rw [shownIds_visible hv]
      unfold place at h
      rw [if_pos hv] at h
      cases n with
      | stack hd c cs =>
        simp only [Trail.result_bind_eq_ok, Laying.result_lift, placeAll_eq_map] at h
        obtain ⟨_, -, _, -, content, -, p, hp, h⟩ := h
        cases h
        exact arrangeStack_ids (fun c hc => ih c hc content) hp
      | grid hd c cs =>
        simp only [Trail.result_bind_eq_ok, Laying.result_lift, placeAll_eq_map] at h
        obtain ⟨_, -, columns, -, cell, -, p, hp, h⟩ := h
        cases h
        exact Cells.arrange_ids (fun c hc => ih c hc cell) hp
      | box hd pad child =>
        cases child with
        | none =>
          simp only [Trail.result_bind_eq_ok] at h
          obtain ⟨_, -, p, hp, h⟩ := h
          cases h
          exact insetAround_ids hp
        | some c =>
          simp only [Trail.result_bind_eq_ok, Laying.result_lift] at h
          obtain ⟨_, -, content, -, placed, hc, p, hp, h⟩ := h
          cases h
          have inner := ih c (List.mem_singleton_self c) content placed hc
          exact (insetAround_ids hp).trans (by rw [inner]; simp [children, id, header])
      | form hd f fs as =>
        simp only [Trail.result_bind_eq_ok, Laying.result_lift, placeAll_eq_map,
          ← List.map_append] at h
        obtain ⟨content, -, p, hp, h⟩ := h
        cases h
        exact Column.arrange_ids (fun c hc => ih c hc content) hp
      | text | button | field | table =>
        simp only [Trail.result_bind_eq_ok] at h
        obtain ⟨p, hp, h⟩ := h
        cases h
        exact placeLeaf_ids hp

/-! ## A screen -/

theorem Layout.ofTree_ids {s : Surface α} {v : Viewport} {detection : PrimaryDetection}
    {root : Node} {frames : List (Frame α δ)}
    (h : (Layout.ofTree s v detection root).result = .ok frames) :
    Frame.ids frames = root.shownIds := by
  simp only [Layout.ofTree, Trail.result_bind_eq_ok] at h
  obtain ⟨placed, hp, _, -, h⟩ := h
  cases h
  exact root.place_ids s _ placed hp

/-- The layout of a screen is that of its tree at the width of the viewport. -/
theorem Layout.resolved_of_compute {s : Scaffold} {detection : PrimaryDetection} {v : Viewport}
    {l : Layout} (h : (Layout.compute s detection v).result = .ok l) :
    ∃ root, (s.screen.root.resolve (.int v.width)).result = .ok root ∧
      Layout.ofResolved s.settings.surface v detection root = .ok l := by
  simp only [Layout.compute, Trail.result_bind_eq_ok] at h
  obtain ⟨root, hroot, m, hm, _, -, h⟩ := h
  cases h
  exact ⟨root, hroot, hm⟩

/-- The frames of a layout are those of the visible nodes, one for each and in document order, of
    the tree that is resolved at the width of the viewport. -/
theorem frames_follow_walk {s : Scaffold} {detection : PrimaryDetection} {v : Viewport} {l : Layout}
    (h : (Layout.compute s detection v).result = .ok l) :
    ∃ root, (s.screen.root.resolve (.int v.width)).result = .ok root ∧
      l.frames.map (·.id) = root.visibleNodes.map (·.id) := by
  simp only [Layout.compute, Trail.result_bind_eq_ok] at h
  obtain ⟨root, hroot, m, hm, _, -, h⟩ := h
  cases h
  refine ⟨root, hroot, ?_⟩
  obtain ⟨frames, hf, rfl⟩ := Result.map_eq_ok.mp hm
  exact Layout.ofTree_ids hf

/-- A stretching stack with a wrapping row of two buttons of one id and a hidden one, a grid, and a
    hidden box. -/
def mixedRoot : Node :=
  .stack (.plain "page") ⟨.vertical, none, none, .stretch, false⟩
    [.stack (.cascading "chips" [(">=320", some [("wrap", .bool true)])])
        ⟨.horizontal, none, none, .start, false⟩
        [.plainButton "go" "Go", .button (.hidden "off") ⟨"Off", none⟩, .plainButton "go" "Go"],
      .grid (.plain "cells") ⟨2, none, none⟩ [.table (.plain "t") ⟨none, [], none, none, none⟩],
      .box (.hidden "gone") none (some (.plainButton "lost" ""))]

theorem mixedRoot_frames : ∃ l root,
    (Layout.compute (.around mixedRoot) .role ⟨320, 640, by decide, by decide⟩).result = .ok l ∧
    (mixedRoot.resolve (.int 320)).result = .ok root ∧
    l.frames.map (·.id) = root.visibleNodes.map (·.id) ∧
    l.frames.map (·.id) = ["page", "chips", "go", "go", "cells", "t"] := by
  have computed : ((Layout.compute (.around mixedRoot) .role ⟨320, 640, by decide, by decide⟩).result.map
      fun l => l.frames.map (·.id)).toOption = some ["page", "chips", "go", "go", "cells", "t"] := by
    decide +kernel
  obtain ⟨l, hl, ids⟩ := Result.map_toOption_eq_some.mp computed
  obtain ⟨root, hroot, same⟩ := frames_follow_walk hl
  exact ⟨l, root, hl, hroot, same, ids⟩

end Wireframe
