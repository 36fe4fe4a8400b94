import Wireframe.Proofs.Layout.Widths

/-
  Wireframe.Proofs.Layout.Notes — what a layout tells, one kind of defect at a time.

  Everything that is told goes to one list. A node tells of its spacings before it lays out its
  children, a leaf of its size when it has measured it, and a container of a child that is too wide
  right after the child. So, of any one kind but overflows, a layout tells of the visible nodes in
  document order, and of each of them what the node is by itself.

  Proved:
  - `Node.LaidOut.named_notes`: of one kind of defect, a node tells its own and then those of its
    children.
  - `Node.place_offScale`: what is told of spacings in a subtree.
  - `Layout.named_issues`: the issues of a layout are what is told of its tree, one kind at a time.
  - `spacing_issues`: the issues about spacings.
-/

namespace Wireframe

open Quantity

variable {α δ : Type} [Quantity α δ] [Scalar δ]

/-! ## One kind of defect -/

/-- The defects of a name among some defects. -/
def Defect.named (name : String) (ds : List (Defect α)) : List (Defect α) := ds.filter (·.name == name)

namespace Defect

variable {name : String}

omit [Quantity α δ] [Scalar δ] in
theorem named_append (ds es : List (Defect α)) : named name (ds ++ es) = named name ds ++ named name es :=
  List.filter_append ds es

omit [Quantity α δ] [Scalar δ] in
theorem named_eq_self {ds : List (Defect α)} (h : ∀ d ∈ ds, d.name = name) : named name ds = ds :=
  List.filter_eq_self.mpr fun d hd => beq_iff_eq.mpr (h d hd)

omit [Quantity α δ] [Scalar δ] in
theorem named_eq_nil {ds : List (Defect α)} (h : ∀ d ∈ ds, d.name ≠ name) : named name ds = [] :=
  List.filter_eq_nil_iff.mpr fun d hd e => h d hd (eq_of_beq e)

end Defect

theorem Row.told_name {id : String} {limit : α} {child : Child α δ} {spot : Option (Spot α δ)} :
    ∀ d ∈ told id limit child spot, d.name = "overflow-x" := by
  intro d hd
  cases spot with
  | none => cases hd
  | some spot =>
    simp only [told] at hd
    generalize (spot.x + spot.placed.w : Calculation α) = reached,
      (limit + (tolerance : α) : Calculation α) = bound at hd
    cases reached with
    | error => cases hd
    | ok reached =>
      cases bound with
      | error => cases hd
      | ok bound =>
        obtain ⟨-, hd⟩ := List.mem_ite_nil_right.mp hd
        obtain rfl := List.mem_singleton.mp hd
        rfl

namespace StackContent

/-- Is the stack a row that does not break? -/
def isRow (c : StackContent) : Bool := c.direction = .horizontal ∧ c.wrap = false

theorem isRow_iff {c : StackContent} : c.isRow = true ↔ c.direction = .horizontal ∧ c.wrap = false :=
  decide_eq_true_iff

variable {c : StackContent} {id : String} {width : α}

theorem told_of_isRow (row : c.isRow = true) :
    (c.told id width : Child α δ → Option (Spot α δ) → List (Defect α)) = Row.told id width := by
  obtain ⟨direction, wrap⟩ := isRow_iff.mp row
  rw [told, direction, wrap]

theorem told_of_not_isRow (other : c.isRow = false) :
    (c.told id width : Child α δ → Option (Spot α δ) → List (Defect α)) = fun _ _ => [] := by
  unfold told
  split
  · rename_i direction wrap
    rw [isRow_iff.mpr ⟨direction, wrap⟩] at other
    cases other
  · rfl

theorem told_name {child : Child α δ} {spot : Option (Spot α δ)} :
    ∀ d ∈ c.told id width child spot, d.name = "overflow-x" := by
  intro d hd
  cases row : c.isRow with
  | true =>
    rw [told_of_isRow row] at hd
    exact Row.told_name d hd
  | false =>
    rw [told_of_not_isRow row] at hd
    cases hd

end StackContent

omit [Scalar δ] in
theorem Cells.told_name {id : String} {columns : ℕ} {cell : α} {child : Child α δ} :
    ∀ d ∈ told id columns cell child, d.name = "overflow-x" := by
  intro d hd
  unfold told at hd
  split at hd
  · obtain ⟨-, hd⟩ := List.mem_ite_nil_right.mp hd
    obtain rfl := List.mem_singleton.mp hd
    rfl
  · cases hd

/-- Where a container itself tells nothing of a name, only its children do. -/
theorem Child.named_told {name : String} {tells : Child α δ → Option (Spot α δ) → List (Defect α)}
    {children : List (Child α δ)} {spots : List (Option (Spot α δ))}
    (long : children.length = spots.length) (silent : ∀ c spot, Defect.named name (tells c spot) = []) :
    Defect.named name (Child.told tells children spots) =
      children.flatMap fun c => Defect.named name c.placed.notes := by
  conv_rhs => rw [← List.map_fst_zip (Nat.le_of_eq long), List.flatMap_map]
  refine List.filter_flatMap.trans (List.flatMap_congr fun q _ => ?_)
  show Defect.named name _ = _
  rw [Defect.named_append, silent, List.append_nil]

namespace Node

/-- Of a child a container itself tells nothing but that it is too wide. -/
theorem childDefects_name {n : Node} {width content : α} {c : Child α δ} {spot : Option (Spot α δ)} :
    ∀ d ∈ n.childDefects width content c spot, d.name = "overflow-x" := by
  intro d hd
  cases n with
  | stack h st cs => exact st.told_name d hd
  | grid h g cs =>
    unfold childDefects at hd
    dsimp only at hd
    split at hd
    · exact Cells.told_name d hd
    · cases hd
  | _ => cases hd

omit [Scalar δ] in
theorem spacingDefects_name {s : Surface α} {n : Node} :
    ∀ d ∈ n.spacingDefects s, d.name = "spacing-off-scale" := by
  intro d hd
  obtain ⟨q, -, rfl⟩ := List.mem_map.mp hd
  rfl

omit [Scalar δ] in
theorem sizeDefects_name {s : Surface α} {n : Node} {width : α} :
    ∀ d ∈ n.sizeDefects s width, d.name = "touch-target-too-small" := by
  intro d hd
  unfold sizeDefects at hd
  split at hd
  · obtain ⟨-, hd⟩ := List.mem_ite_nil_right.mp hd
    obtain rfl := List.mem_singleton.mp hd
    rfl
  · cases hd

variable {s : Surface α} {n : Node} {width content : α} {p : Placement α δ}
  {spots : List (Option (Spot α δ))}

/-- Every child of a node that is laid out comes to something in the width that it is offered. -/
theorem LaidOut.returns (h : n.LaidOut s width p content spots) {c : Node} (hc : c ∈ n.children) :
    ∃ placed : Option (Placement α δ), (c.place s content).result = .ok placed := by
  obtain ⟨spot, -, placed, laid, -⟩ := exists_zip_of_forall₂ h.puts hc
  exact ⟨placed, laid⟩

/-- Of any one kind of defect but overflows, a node tells its own and then those of its children. -/
theorem LaidOut.named_notes (h : n.LaidOut s width p content spots) {name : String}
    (other : "overflow-x" ≠ name) :
    Defect.named name (n.place s width : Laying α (Option (Placement α δ))).notes =
      Defect.named name (n.spacingDefects s) ++ Defect.named name (n.sizeDefects s width) ++
        n.children.flatMap fun c =>
          Defect.named name (c.place s content : Laying α (Option (Placement α δ))).notes := by
  have silent : ∀ (c : Child α δ) spot, Defect.named name (n.childDefects width content c spot) = [] :=
    fun c spot => Defect.named_eq_nil fun d hd e => other ((childDefects_name d hd).symm.trans e)
  have long : (n.children.map (asChild (δ := δ) s content)).length = spots.length := by
    rw [List.length_map, h.puts.length_eq]
  rw [h.notes, Defect.named_append, Defect.named_append, Child.named_told long silent, List.flatMap_map,
    List.append_assoc]
  rfl

/-- Of spacings, every visible node of a subtree tells in document order. -/
theorem place_offScale : ∀ {width : α} {placed : Option (Placement α δ)},
    (n.place s width).result = .ok placed →
      Defect.named "spacing-off-scale" (n.place s width : Laying α (Option (Placement α δ))).notes =
        n.visibleNodes.flatMap fun m => m.spacingDefects s := by
  induction n using byChildren with
  | step n ih =>
    intro width placed h
    cases hv : n.visible with
    | false =>
      rw [place_hidden s width hv, visibleNodes_eq, if_neg (by simp [hv])]
      rfl
    | true =>
      obtain ⟨p, rfl⟩ := exists_placement hv h
      obtain ⟨content, spots, out⟩ := laidOut_of_place h
      rw [out.named_notes (by decide), Defect.named_eq_self spacingDefects_name,
        Defect.named_eq_nil fun d hd e => absurd ((sizeDefects_name d hd).symm.trans e) (by decide),
        List.append_nil, visibleNodes_eq, if_pos hv, List.flatMap_cons, List.flatMap_assoc]
      refine congrArg _ (List.flatMap_congr fun c hc => ?_)
      obtain ⟨placed, laid⟩ := out.returns hc
      exact ih c hc laid

end Node

/-! ## Screens -/

/-- The issues of a name, but the one about the fold, are the defects of this name that are told of the
tree. -/
theorem Layout.named_issues {s : Scaffold} {detection : PrimaryDetection} {v : Viewport} {l : Layout}
    (h : (Layout.compute s detection v).result = .ok l) :
    ∃ root, (s.screen.root.resolve (.int v.width)).result = .ok root ∧
      ∃ placed : Option (Placement Number Float),
        (root.place s.settings.surface (.int v.width)).result = .ok placed ∧
        l.frames = (placed.map (·.frames)).getD [] ∧
        ∀ name, "primary-below-fold" ≠ name → l.issues.filter (·.id == name) =
          (Defect.named name (root.place s.settings.surface (.int v.width) :
            Laying Number (Option (Placement Number Float))).notes).map (Defect.toIssue v root.pointers) := by
  obtain ⟨root, placed, hroot, hp, frames, issues⟩ := issues_of_compute h
  refine ⟨root, hroot, placed, hp, frames, fun name other => ?_⟩
  have fold : Defect.named name (foldDefects root l.frames v.height detection : List (Defect Number)) = [] := by
    refine Defect.named_eq_nil fun d hd e => other (Eq.trans ?_ e)
    unfold foldDefects at hd
    split at hd
    · cases hd
    · simp only [List.mem_ite_nil_left, List.mem_ite_nil_right, List.mem_singleton] at hd
      obtain ⟨-, -, rfl⟩ := hd
      rfl
  rw [issues, List.filter_map]
  refine congrArg _ ?_
  show Defect.named name _ = _
  rw [Defect.named_append, fold, List.append_nil]

/-! ## Spacings -/

/-- The issues of a layout about spacings are those of the visible nodes in document order: of a stack
first its padding and then its gap, of a grid its gap and of a box its padding, when it is neither zero
nor on the scale. -/
theorem spacing_issues {s : Scaffold} {detection : PrimaryDetection} {v : Viewport} {l : Layout}
    (h : (Layout.compute s detection v).result = .ok l) :
    ∃ root, (s.screen.root.resolve (.int v.width)).result = .ok root ∧
      l.issues.filter (·.id == "spacing-off-scale") = root.visibleNodes.flatMap fun n =>
        (n.checkedSpacings.filter fun q =>
          !(q.2.isZero || q.2.onScale (s.settings.spacingScale.map (.map .float)))).map fun q =>
          { id := "spacing-off-scale", severity := .warn
            message := n.typeName ++ " " ++ n.id ++ " " ++ q.1 ++ " " ++ q.2.quantity.message ++
              " is not in spacingScale"
            nodeId := some (some n.id), jsonPointer := (Keyed.get? root.pointers n.id).map some
            viewport := some (some v.label)
            details := some (some [("property", .text q.1), ("value", .number q.2.quantity)])
            expected := some (.list (s.settings.surface.scale.map fun a => .number a.quantity))
            found := some (.number q.2.quantity) } := by
  obtain ⟨root, hroot, placed, hp, -, named⟩ := Layout.named_issues h
  refine ⟨root, hroot, ?_⟩
  rw [named _ (by decide), Node.place_offScale hp, List.map_flatMap]
  refine List.flatMap_congr fun n _ => ?_
  rw [Node.spacingDefects, List.map_map]
  refine List.map_congr_left fun q _ => ?_
  have scale : (.list ((s.settings.surface.scale.map (·.quantity)).map .number) : Value) =
      .list (s.settings.surface.scale.map fun a => .number a.quantity) :=
    congrArg Value.list List.map_map
  rw [← scale]
  rfl

/-- A page with spacings on and off the scale: of a row in which a table does not fit, of a box with a
hidden child, of a grid without children, and of a hidden stack. -/
def unevenRoot : Node :=
  .stack (.plain "page") ⟨.vertical, some (.length 5), some (.length 7), .start, false⟩
    [.stack (.plain "row") ⟨.horizontal, some (.length 3), some (.length 8), .start, false⟩
        [.plainButton "go" "Go", .table (.plain "rows") ⟨none, [], some 1, none, none⟩],
      .box (.plain "card") (some (.length 9)) (some (.stack (.hidden "note")
        ⟨.vertical, some (.length 7), none, .start, false⟩ [])),
      .grid (.plain "cells") ⟨2, some (.length 10), none⟩ []]

theorem unevenRoot_told : ∃ l root,
    (Layout.compute (.around unevenRoot) .role ⟨320, 640, by decide, by decide⟩).result = .ok l ∧
    (unevenRoot.resolve (.int 320)).result = .ok root ∧
    l.issues.map (fun i => (i.id, i.nodeId)) =
      [("spacing-off-scale", some (some "page")), ("spacing-off-scale", some (some "page")),
        ("spacing-off-scale", some (some "row")), ("overflow-x", some (some "rows")),
        ("spacing-off-scale", some (some "card")), ("spacing-off-scale", some (some "cells"))] ∧
    ((l.issues.filter (·.id == "spacing-off-scale")).map fun i => (i.nodeId, i.details)) =
      root.visibleNodes.flatMap fun n => (n.checkedSpacings.filter fun q =>
        !(q.2.isZero || q.2.onScale (standardScale.map (.map .float)))).map fun q =>
          (some (some n.id), some (some [("property", .text q.1), ("value", .number q.2.quantity)])) := by
  have computed : ((Layout.compute (.around unevenRoot) .role
      ⟨320, 640, by decide, by decide⟩).result.map fun l =>
        l.issues.map fun i => (i.id, i.nodeId)).toOption =
      some [("spacing-off-scale", some (some "page")), ("spacing-off-scale", some (some "page")),
        ("spacing-off-scale", some (some "row")), ("overflow-x", some (some "rows")),
        ("spacing-off-scale", some (some "card")), ("spacing-off-scale", some (some "cells"))] := by
    decide +kernel
  obtain ⟨l, hl, told⟩ := Result.map_toOption_eq_some.mp computed
  obtain ⟨root, hroot, spacings⟩ := spacing_issues hl
  refine ⟨l, root, hl, hroot, told, ?_⟩
  rw [spacings, List.map_flatMap]
  exact List.flatMap_congr fun n _ => List.map_map

end Wireframe
