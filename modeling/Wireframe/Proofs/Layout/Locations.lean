import Wireframe.Proofs.Cascade.Places
import Wireframe.Proofs.Layout.Offers
import Wireframe.Proofs.Locations

/-
  Wireframe.Proofs.Layout.Locations — where the issues of a layout are.

  A layout is that of the tree resolved at the width of the viewport, and so are the pointers of its
  issues. Everything that is wrong with a layout is wrong with a visible node of this tree: a
  container tells of a child only after it has found a place for it. So every issue is located, but
  in the resolved tree; in the document of the scaffold its pointer may lead to another node.

  Proved:
  - `Column.arrange_names`, `Row.arrange_names`, `Wrap.arrange_names`, `Cells.arrange_names`: an
    arrangement tells of nothing but its children and what is told of them.
  - `Node.place_names`: what is noted about a subtree names visible nodes of it.
  - `layout_issues_located`: every issue of a layout tells a visible node of the resolved tree and
    where it stands there; in the document too, when no block that applies moves a node.
  - `swappedRoot_mislocated`: a block that exchanges the children of the root.
-/

namespace Wireframe

open Quantity Trail

variable {α δ : Type} [Quantity α δ] [Scalar δ]

/-! ## Arrangements -/

/-- Nothing is noted but about these nodes. -/
abbrev Laying.Names {β : Type} (ids : List String) (t : Laying α β) : Prop :=
  t.OnlyNotes fun d => d.nodeId ∈ ids

omit [Quantity α δ] [Scalar δ] in
theorem Laying.names_lift {β γ : Type} {ids : List String} {c : Calculation β} {f : β → Laying α γ}
    (h : ∀ b, c = .ok b → (f b).Names ids) : (liftM c >>= f).Names ids :=
  OnlyNotes.bind (onlyNotes_ofExcept _) fun b hb => h b (Laying.result_lift.mp hb)

/-- What is noted about a child is about these nodes, and the child is one of them if it is shown. -/
structure Child.Names (ids : List String) (c : Child α δ) : Prop where
  notes : c.placed.Names ids
  own : ∀ p, c.placed.result = .ok (some p) → c.id ∈ ids

section

variable {ids : List String} {id : String} {align : Align} {width padding gap content cell limit : α}
  {columns : Nat} {children : List (Child α δ)} (h : ∀ c ∈ children, c.Names ids)
include h

theorem Column.runFrom_names (y : α) :
    (runFrom align padding gap content y children).Names ids := by
  induction children generalizing y with
  | nil => exact onlyNotes_done _
  | cons c rest ih =>
    obtain ⟨own, below⟩ := List.forall_mem_cons.mp h
    rw [runFrom]
    refine own.notes.bind fun placed _ => ?_
    cases placed with
    | none => exact ih below y
    | some p =>
      refine Laying.names_lift fun x _ => Laying.names_lift fun frames _ =>
        Laying.names_lift fun next _ => ?_
      exact (ih below next).bind fun run _ => onlyNotes_done _

theorem Column.arrange_names : (arrange id align width padding gap content children).Names ids := by
  refine (runFrom_names h padding).bind fun run _ => Laying.names_lift fun height _ => ?_
  exact onlyNotes_ofExcept _

omit [Scalar δ] in
theorem Row.runFrom_names (x : α) : (runFrom id limit gap x children).Names ids := by
  induction children generalizing x with
  | nil => exact onlyNotes_done _
  | cons c rest ih =>
    obtain ⟨own, below⟩ := List.forall_mem_cons.mp h
    rw [runFrom]
    refine own.notes.bind fun placed hp => ?_
    cases placed with
    | none => exact ih below x
    | some p =>
      refine Laying.names_lift fun reached _ => Laying.names_lift fun bound _ => ?_
      refine OnlyNotes.ite_note (own.own p hp) (Laying.names_lift fun next _ => ?_)
      exact (ih below next).bind fun run _ => onlyNotes_done _

theorem Row.arrange_names : (arrange id align width padding gap children).Names ids := by
  refine (runFrom_names h padding).bind fun run _ => Laying.names_lift fun frames _ =>
    Laying.names_lift fun outer _ => ?_
  exact onlyNotes_ofExcept _

theorem Wrap.runFrom_names (at_ : Wrap.Cursor α) :
    (runFrom limit padding gap at_ children).Names ids := by
  induction children generalizing at_ with
  | nil => exact onlyNotes_done _
  | cons c rest ih =>
    obtain ⟨own, below⟩ := List.forall_mem_cons.mp h
    rw [runFrom]
    refine own.notes.bind fun placed _ => ?_
    cases placed with
    | none => exact ih below at_
    | some p =>
      refine Laying.names_lift fun here _ => Laying.names_lift fun frames _ =>
        Laying.names_lift fun next _ => ?_
      exact (ih below next).bind fun run _ => onlyNotes_done _

theorem Wrap.arrange_names : (arrange id width padding gap children).Names ids := by
  refine (runFrom_names h _).bind fun run _ => Laying.names_lift fun height _ => ?_
  exact onlyNotes_ofExcept _

theorem Cells.runFrom_names (at_ : Cells.Cursor α) :
    (runFrom id columns cell gap at_ children).Names ids := by
  induction children generalizing at_ with
  | nil => exact onlyNotes_done _
  | cons c rest ih =>
    obtain ⟨own, below⟩ := List.forall_mem_cons.mp h
    rw [runFrom]
    refine own.notes.bind fun placed hp => ?_
    cases placed with
    | none => exact ih below at_
    | some p =>
      refine Laying.names_lift fun bound _ => OnlyNotes.ite_note (own.own p hp) ?_
      refine Laying.names_lift fun here _ => Laying.names_lift fun x _ =>
        Laying.names_lift fun frames _ => ?_
      exact (ih below _).bind fun run _ => onlyNotes_done _

theorem Cells.arrange_names : (arrange id columns width cell gap children).Names ids := by
  refine (runFrom_names h _).bind fun run _ => Laying.names_lift fun height _ => ?_
  exact onlyNotes_ofExcept _

theorem arrangeStack_names {c : StackContent} :
    (arrangeStack id c width padding gap content children).Names ids := by
  unfold arrangeStack
  split
  · exact Column.arrange_names h
  · exact Wrap.arrange_names h
  · exact Row.arrange_names h

end

theorem insetAround_names {ids : List String} {id : String} {width padding : α}
    (placed : Option (Placement α δ)) : (insetAround id width padding placed).Names ids := by
  cases placed with
  | none => exact onlyNotes_ofExcept _
  | some p =>
    refine Laying.names_lift fun height _ => Laying.names_lift fun frames _ => ?_
    exact onlyNotes_ofExcept _

/-! ## Nodes -/

section

variable {s : Surface α} {n : Node} {ids : List String} (own : n.id ∈ ids)
include own

omit [Scalar δ] in
theorem checkSpacing_names {property : String} {value : Spacing α} :
    (checkSpacing s n property value).Names ids := by
  unfold checkSpacing
  split
  · exact onlyNotes_done _
  · exact Laying.names_lift fun _ _ => onlyNotes_note own

omit [Scalar δ] in
theorem checkTarget_names {e : Extent α} : (checkTarget s n e).Names ids := by
  unfold checkTarget
  split
  · exact onlyNotes_done _
  · exact Laying.names_lift fun _ _ => Laying.names_lift fun _ _ => onlyNotes_note own

omit [Scalar δ] in
theorem placeLeaf_names {size : Calculation (Extent α)} :
    (placeLeaf s n size : Laying α (Placement α δ)).Names ids := by
  refine Laying.names_lift fun e _ => ?_
  split
  · exact (checkTarget_names own).bind fun _ _ => onlyNotes_ofExcept _
  · exact onlyNotes_ofExcept _

end

namespace Node

/-- A child of a visible node tells of nodes that are visible below this one. -/
theorem asChild_names {s : Surface α} {n c : Node} (hv : n.visible = true) (hc : c ∈ n.children)
    {width : α} (h : (c.place s width : Laying α (Option (Placement α δ))).Names c.shownIds) :
    (asChild s width c : Child α δ).Names n.shownIds where
  notes d hd := by
    rw [shownIds_visible hv]
    exact List.mem_cons_of_mem _ (List.mem_flatMap.mpr ⟨c, hc, h d hd⟩)
  own p hp := by
    rw [shownIds_visible hv]
    refine List.mem_cons_of_mem _ (List.mem_flatMap.mpr ⟨c, hc, ?_⟩)
    rw [shownIds_visible (visible_of_place hp)]
    exact List.mem_cons_self

/-- What is noted about a subtree is about visible nodes of it. -/
theorem place_names (s : Surface α) (n : Node) : ∀ width : α,
    (n.place s width : Laying α (Option (Placement α δ))).Names n.shownIds := by
  induction n using byChildren with
  | step n ih =>
    intro width
    cases hv : n.visible with
    | false =>
      rw [place_hidden s width hv]
      exact onlyNotes_done _
    | true =>
      have own : n.id ∈ n.shownIds := shownIds_visible hv ▸ List.mem_cons_self
      have below : ∀ w, ∀ c ∈ n.children.map (asChild s w), Child.Names (δ := δ) n.shownIds c := by
        intro w child hchild
        obtain ⟨c, hc, rfl⟩ := List.mem_map.mp hchild
        exact asChild_names hv hc (ih c hc w)
      unfold place
      rw [if_pos hv]
      cases n with
      | stack hd c cs =>
        refine (checkSpacing_names own).bind fun _ _ => (checkSpacing_names own).bind fun _ _ =>
          Laying.names_lift fun content _ => ?_
        rw [placeAll_eq_map]
        exact (arrangeStack_names (below content)).bind fun _ _ => onlyNotes_done _
      | grid hd c cs =>
        refine (checkSpacing_names own).bind fun _ _ => Laying.names_lift fun columns _ =>
          Laying.names_lift fun cell _ => ?_
        rw [placeAll_eq_map]
        exact (Cells.arrange_names (below cell)).bind fun _ _ => onlyNotes_done _
      | box hd pad child =>
        cases child with
        | none =>
          refine (checkSpacing_names own).bind fun _ _ => ?_
          exact (insetAround_names none).bind fun _ _ => onlyNotes_done _
        | some c =>
          refine (checkSpacing_names own).bind fun _ _ => Laying.names_lift fun content _ => ?_
          refine (below content _ List.mem_cons_self).notes.bind fun placed _ => ?_
          exact (insetAround_names placed).bind fun _ _ => onlyNotes_done _
      | form hd f fs as =>
        refine Laying.names_lift fun content _ => ?_
        rw [placeAll_eq_map, placeAll_eq_map, ← List.map_append]
        exact (Column.arrange_names (below content)).bind fun _ _ => onlyNotes_done _
      | text | button | field | table =>
        exact (placeLeaf_names own).bind fun _ _ => onlyNotes_done _

end Node

/-! ## Screens -/

namespace Layout

theorem foldDefects_names {root : Node} {frames : List (Frame α δ)} {height : Int}
    {detection : PrimaryDetection} :
    ∀ d ∈ (foldDefects root frames height detection : List (Defect α)), d.nodeId ∈ root.shownIds := by
  intro d hd
  unfold foldDefects at hd
  split at hd
  · cases hd
  · rename_i f _
    simp only [List.mem_ite_nil_left, List.mem_ite_nil_right, List.mem_singleton] at hd
    obtain ⟨-, shown, rfl⟩ := hd
    obtain ⟨n, hn, same⟩ := List.any_eq_true.mp shown
    exact List.mem_map.mpr ⟨n, hn, eq_of_beq same⟩

theorem ofTree_names (s : Surface α) (v : Viewport) (detection : PrimaryDetection) (root : Node) :
    (ofTree s v detection root : Laying α (List (Frame α δ))).Names root.shownIds := by
  refine (root.place_names s _).bind fun placed _ => OnlyNotes.bind ?_ fun _ _ => onlyNotes_done _
  exact foldDefects_names

/-- Every issue of a tree that is laid out tells a visible node and where it stands. -/
theorem issues_point {s : Surface Number} {v : Viewport} {detection : PrimaryDetection} {root : Node}
    {l : Layout} (h : ofResolved s v detection root = .ok l) : ∀ i ∈ l.issues, i.PointsInto root := by
  intro i hi
  obtain ⟨frames, -, rfl⟩ := Result.map_eq_ok.mp h
  obtain ⟨d, hd, rfl⟩ := List.mem_map.mp hi
  obtain ⟨n, hn, same⟩ := List.mem_map.mp (ofTree_names s v detection root d hd)
  obtain ⟨k, hk, rfl⟩ := List.mem_map.mp hn
  obtain ⟨m, hm, id, pointer⟩ := Node.pointers_get? hk
  refine ⟨m, hm, ?_, ?_⟩
  · show some (some d.nodeId) = _
    rw [← same, id]
  · show (Keyed.get? root.pointers d.nodeId).map some = _
    rw [← same, pointer]
    rfl

end Layout

/-- An issue about a tree that stands in that of a scaffold resolves in the document of this one. -/
theorem Issue.PointsInto.resolves_standing {s : Scaffold} {root : Node} {i : Issue}
    (hi : i.PointsInto root) (stands : root.StandsIn s.screen.root) (fits : s.screen.root.Fits) :
    i.Resolves (s.write .full) := by
  obtain ⟨l, hl, id, pointer⟩ := hi
  obtain ⟨tokens, way, hp⟩ := Node.reaches_of_mem_walk hl
  obtain ⟨k, way', same⟩ := stands tokens l.node way
  obtain ⟨members, written, hid⟩ := k.write_id
  refine ⟨k.id, l.pointer, members, same ▸ id, pointer, ?_, hid⟩
  rw [← written, hp]
  exact Scaffold.resolve_walk fits (way'.mem_walkFrom rootPointer)

/-- Every issue of a layout tells a visible node of the tree that is resolved at the width of the
    viewport, and where it stands in this tree. In the whole document of the scaffold the pointer
    addresses an object with the id that the issue tells, as long as no block that applies at this
    width gives its node another id or other children. -/
theorem layout_issues_located {s : Scaffold} {detection : PrimaryDetection} {v : Viewport} {l : Layout}
    (h : (Layout.compute s detection v).result = .ok l) (fits : s.screen.root.Fits) :
    ∃ root, (s.screen.root.resolve (.int v.width)).result = .ok root ∧
      (∀ i ∈ l.issues, i.PointsInto root) ∧
      (s.screen.root.KeepsPlaces (.int v.width) → ∀ i ∈ l.issues, i.Resolves (s.write .full)) := by
  obtain ⟨root, hroot, hl⟩ := Layout.resolved_of_compute h
  have point := Layout.issues_point hl
  refine ⟨root, hroot, point, fun keeps i hi => ?_⟩
  exact (point i hi).resolves_standing (Node.resolve_standsIn keeps hroot) fits

/-- A page with a row to which a block gives a gap that is on no scale. -/
def gappedRoot : Node :=
  .plainStack "page" .vertical
    [.stack (.cascading "row" [(">=320", some [("type", .text "Grid"), ("gap", .int 7)])])
      ⟨.vertical, none, none, .start, false⟩ [.plainButton "go" "Go"]]

theorem gappedRoot_located : ∃ l root,
    (Layout.compute (.around gappedRoot) .role ⟨320, 640, by decide, by decide⟩).result = .ok l ∧
    (gappedRoot.resolve (.int 320)).result = .ok root ∧
    l.issues.map (·.jsonPointer) = [some (some "/screen/root/children/0")] ∧
    (∀ i ∈ l.issues, i.PointsInto root) ∧ gappedRoot.KeepsPlaces (.int 320) ∧
    ∀ i ∈ l.issues, i.Resolves ((Scaffold.around gappedRoot).write .full) := by
  have computed : ((Layout.compute (.around gappedRoot) .role
      ⟨320, 640, by decide, by decide⟩).result.map fun l => l.issues.map (·.jsonPointer)).toOption =
      some [some (some "/screen/root/children/0")] := by
    decide +kernel
  have fits : gappedRoot.Fits := by unfold Node.Fits; decide +kernel
  have keeps : gappedRoot.KeepsPlaces (.int 320) := by
    have overlaid : ∀ m ∈ gappedRoot.allNodes, ∀ b ∈ m.blocks, ∀ e ∈ b.2.getD [],
        e.1 ∉ Node.placeKeys := by
      decide +kernel
    exact fun m hm b hb _ _ _ => overlaid m hm b hb
  obtain ⟨l, hl, pointers⟩ := Result.map_toOption_eq_some.mp computed
  obtain ⟨root, hroot, point, resolves⟩ := layout_issues_located hl fits
  exact ⟨l, root, hl, hroot, pointers, point, keeps, resolves keeps⟩

/-- A page with a note, in the place of which a block puts a row with a gap that is on no scale. -/
def swappedRoot : Node :=
  .stack (.cascading "page" [(">=320", some [("children", .list [.object
      [("type", .text "Stack"), ("id", .text "row"), ("gap", .int 7)]])])])
    ⟨.vertical, none, none, .start, false⟩ [.text (.plain "note") ⟨"Note", none, none, none⟩]

/-- Without that condition the pointer of an issue may lead to another node: here it is told of the
    row where in the document the note is. -/
theorem swappedRoot_mislocated : swappedRoot.UniqueIds ∧ ∃ l members,
    (Layout.compute (.around swappedRoot) .role ⟨320, 640, by decide, by decide⟩).result = .ok l ∧
    l.issues.map (fun i => (i.nodeId, i.jsonPointer)) =
      [(some (some "row"), some (some "/screen/root/children/0"))] ∧
    Pointer.resolve ((Scaffold.around swappedRoot).write .full) "/screen/root/children/0" =
      .ok (.object members) ∧ Keyed.get? members "id" = some (.text "note") ∧
    ¬∀ i ∈ l.issues, i.Resolves ((Scaffold.around swappedRoot).write .full) := by
  refine ⟨by decide +kernel, ?_⟩
  have computed : ((Layout.compute (.around swappedRoot) .role
      ⟨320, 640, by decide, by decide⟩).result.map fun l =>
        l.issues.map fun i => (i.nodeId, i.jsonPointer)).toOption =
      some [(some (some "row"), some (some "/screen/root/children/0"))] := by
    decide +kernel
  obtain ⟨l, hl, told⟩ := Result.map_toOption_eq_some.mp computed
  have fits : swappedRoot.Fits := by unfold Node.Fits; decide +kernel
  have note : ⟨.text (.plain "note") ⟨"Note", none, none, none⟩, "/screen/root/children/0"⟩ ∈
      swappedRoot.walkFrom false rootPointer := List.mem_cons_of_mem _ List.mem_cons_self
  have resolved := Scaffold.resolve_walk (s := .around swappedRoot) fits note
  refine ⟨l, _, hl, told, resolved, rfl, fun all => ?_⟩
  obtain ⟨i, hi, about⟩ : ∃ i ∈ l.issues, (i.nodeId, i.jsonPointer) =
      (some (some "row"), some (some "/screen/root/children/0")) :=
    List.mem_map.mp (told ▸ List.mem_singleton_self _)
  obtain ⟨nodeId, jsonPointer⟩ := Prod.mk.inj about
  obtain ⟨id, pointer, members, hid, hpointer, stands, named⟩ := all i hi
  obtain rfl : "row" = id := by simpa [nodeId] using hid
  obtain rfl : "/screen/root/children/0" = pointer := by simpa [jsonPointer] using hpointer
  cases resolved.symm.trans stands
  have same : "note" = "row" := Value.text.inj (Option.some.inj named)
  exact absurd same (by decide)

end Wireframe
