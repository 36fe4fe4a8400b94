import Wireframe.Proofs.Layout.Offers
import Wireframe.Proofs.Value.Double

/-
  Wireframe.Proofs.Layout.Widths — containers are as wide as what they are offered.

  Widths come from above only. What a container holds makes no difference to its own width, and
  moving a frame does not change it; a container that is stretched is stretched to the width that
  it was offered. Only a leaf has a width of its own. The one thing that happens to a width on its
  way into a frame is that it becomes a double, which a whole number of more than 53 bits may not
  survive. The width that a container is stretched to is put into the frame afterwards, and stays
  as it is.

  Proved:
  - `Offered.frame_width`: the frame of a container has the width it is offered, as a coordinate
    unless the container is stretched.
  - `Node.offer_form`: a form offers its own width, or none when that is negative.
  - `container_widths`: so it is in every layout of a screen, and as a number it is the same width
    up to `2 ^ 53`.
  - `wide_root_rounded`: beyond, it may be another one.
-/

namespace Wireframe

open Quantity

section

variable {α δ : Type} [Quantity α δ] [Scalar δ]

omit [Quantity α δ] in
theorem Frame.shifted_w (moves : List (δ × δ)) (f : Frame α δ) : (f.shifted moves).w = f.w := by
  induction moves generalizing f with
  | nil => rfl
  | cons m rest ih => exact ih (f.moved m.1 m.2)

/-- The frame of a container has the width that the container is offered, rounded unless the container
is stretched to it. -/
theorem Offered.frame_width {s : Surface α} {root l : Located} {width w : α} {b : Bool}
    {p₀ : Placement α δ} (h : (root.node.place s width).result = .ok (some p₀))
    (o : Offered root width l w b) (container : l.node.isContainer = true) {f : Frame α δ}
    (hf : (l, f) ∈ root.subtree.zip p₀.frames) : f.w = if b then w else rounded w := by
  obtain ⟨p, moves, hp, own, -⟩ := o.frame_iff h
  obtain ⟨content, spots, out⟩ := Node.laidOut_of_place hp
  rw [(own f).mp hf, Frame.shifted_w]
  cases b with
  | true => rfl
  | false =>
    rw [out.placed]
    exact congrArg rounded (out.spans container)

end

/-- A form has no padding: it offers its own width, or none when that is negative. -/
theorem Node.offer_form (hd : Header) (c : FormContent) (fields actions : List Node) (w : Number) :
    (form hd c fields actions).offer w = .ok (larger noLength w) := by
  have zero : (Number.int 0).toDouble = .ok 0.0 := by decide +kernel
  have same : Number.sub w (.int 0) = .ok w := by
    cases w with
    | int n => exact congrArg (fun m => Except.ok (Number.int m)) (Int.sub_zero n)
    | float x =>
      show ((Number.int 0).toDouble >>= fun y => .ok (.float (x - y)) : Calculation Number) = _
      rw [zero]
      exact congrArg (fun y => Except.ok (Number.float y)) (Double.sub_zero x)
  show (Number.sub w (.int 0) >>= fun content => .ok (larger noLength content) : Calculation Number) = _
  rw [same]
  rfl

/-! ## Screens -/

/-- The issues of a layout are what is told of its tree, and then of the fold. -/
theorem Layout.issues_of_compute {s : Scaffold} {detection : PrimaryDetection} {v : Viewport}
    {l : Layout} (h : (Layout.compute s detection v).result = .ok l) :
    ∃ root placed, (s.screen.root.resolve (.int v.width)).result = .ok root ∧
      (root.place s.settings.surface (.int v.width)).result = .ok placed ∧
      l.frames = (placed.map (·.frames)).getD [] ∧
      l.issues = ((root.place s.settings.surface (.int v.width) :
        Laying Number (Option (Placement Number Float))).notes ++
          foldDefects root l.frames v.height detection).map (Defect.toIssue v root.pointers) := by
  obtain ⟨root, hroot, hl⟩ := Layout.resolved_of_compute h
  obtain ⟨frames, hf, rfl⟩ := Result.map_eq_ok.mp hl
  obtain ⟨placed, hp, hf⟩ := Trail.result_bind_eq_ok.mp hf
  cases hf
  refine ⟨root, placed, hroot, hp, rfl, ?_⟩
  have notes : (ofTree s.settings.surface v detection root : Laying Number (List (Frame Number Float))).notes =
      (root.place s.settings.surface (.int v.width) :
        Laying Number (Option (Placement Number Float))).notes ++
          foldDefects root ((placed.map (·.frames)).getD []) v.height detection :=
    (Trail.notes_bind hp).trans (congrArg _ (List.append_nil _))
  exact congrArg (List.map (Defect.toIssue v root.pointers)) notes

theorem Layout.compute_eq_ok {s : Scaffold} {detection : PrimaryDetection} {v : Viewport} {l : Layout}
    (h : (Layout.compute s detection v).result = .ok l) :
    ∃ root placed, (s.screen.root.resolve (.int v.width)).result = .ok root ∧
      (root.place s.settings.surface (.int v.width)).result = .ok placed ∧
      l.frames = (placed.map (·.frames)).getD [] := by
  obtain ⟨root, placed, hroot, hp, frames, -⟩ := issues_of_compute h
  exact ⟨root, placed, hroot, hp, frames⟩

/-- Every visible node of a screen that is laid out is offered a width, and has one frame. The frame
of a container has the width that the container is offered: this number itself when the container is
stretched to it, and otherwise the number as a double. So a width that is a double stays as it is, and a
whole number between `-2 ^ 53` and `2 ^ 53` is the same number. For want of a padding, the children of a
form are offered its own width. -/
theorem container_widths {s : Scaffold} {detection : PrimaryDetection} {v : Viewport} {l : Layout}
    (h : (Layout.compute s detection v).result = .ok l) :
    ∃ root, (s.screen.root.resolve (.int v.width)).result = .ok root ∧
      root.walk.length = l.frames.length ∧
      (∀ m ∈ root.walk, ∃ w b, Offered ⟨root, rootPointer⟩ (Number.int v.width) m w b) ∧
      (∀ hd c fields actions (w : Number),
        (Node.form hd c fields actions).offer w = .ok (larger noLength w)) ∧
      ∀ m f, (m, f) ∈ root.walk.zip l.frames → m.node.isContainer = true →
        ∀ w b, Offered ⟨root, rootPointer⟩ (Number.int v.width) m w b →
          (b = true → f.w = w) ∧ (b = false → f.w = .float w.toFloat) ∧
          (∀ x, w = .float x → f.w = .float x) ∧
          ∀ n, w = .int n → n.natAbs < 2 ^ 53 → w.same f.w = true := by
  obtain ⟨root, placed, hroot, hp, frames⟩ := Layout.compute_eq_ok h
  refine ⟨root, hroot, ?_, fun m hm => ?_, Node.offer_form, fun m f hf container w b o => ?_⟩
  · rw [frames, Node.place_length hp, ← Node.walkFrom_nodes root rootPointer, List.length_map]
    rfl
  · obtain ⟨p₀, rfl⟩ := Node.exists_placement ((Node.mem_walkFrom.mp hm).1 rfl) hp
    exact Located.offered_of_mem hp hm
  · obtain ⟨p₀, rfl⟩ := Node.exists_placement ((Node.mem_walkFrom.mp o.mem).1 rfl) hp
    rw [frames] at hf
    have width : f.w = if b then w else .float w.toFloat := o.frame_width hp container hf
    cases b with
    | true =>
      obtain rfl : f.w = w := width
      refine ⟨fun _ => rfl, nofun, fun _ same => same, fun n whole _ => ?_⟩
      rw [whole]
      exact beq_iff_eq.mpr (congrArg some Std.ReflCmp.compare_self)
    | false =>
      refine ⟨nofun, fun _ => width, ?_, ?_⟩
      · rintro x rfl
        exact width
      · rintro n rfl small
        rw [width]
        exact Double.same_toFloat small

/-- A page that stretches a box with padding, in which a grid of two columns holds a form. -/
def paddedRoot : Node :=
  .stack (.plain "page") ⟨.vertical, none, none, .stretch, false⟩
    [.box (.plain "card") (some (.length 8.0)) (some
      (.grid (.plain "cells") ⟨2, some (.length 8.0), none⟩
        [.form (.plain "sign-up") ⟨none, none⟩ [] [.plainButton "go" "Go"]]))]

/-- At a viewport of `2 ^ 53 + 1` the box keeps the width that it is stretched to, and the page around
it does not keep the same width. -/
theorem paddedRoot_widths : ∃ l root,
    (Layout.compute (.around paddedRoot) .role ⟨2 ^ 53 + 1, 640, by decide, by decide⟩).result = .ok l ∧
    (paddedRoot.resolve (.int (2 ^ 53 + 1))).result = .ok root ∧
    (l.frames.map fun f => (f.id, f.w)) =
      [("page", .float 9007199254740992), ("card", .int 9007199254740993),
        ("cells", .float 9007199254740976), ("sign-up", .float 4503599627370484), ("go", .float 44)] ∧
    ∀ m f, (m, f) ∈ root.walk.zip l.frames → m.node.isContainer = true →
      ∀ w b, Offered ⟨root, rootPointer⟩ (Number.int (2 ^ 53 + 1)) m w b →
        (b = true → f.w = w) ∧ (b = false → f.w = .float w.toFloat) := by
  have computed : ((Layout.compute (.around paddedRoot) .role
      ⟨2 ^ 53 + 1, 640, by decide, by decide⟩).result.map
        fun l => l.frames.map fun f => (f.id, f.w)).toOption =
      some [("page", .float 9007199254740992), ("card", .int 9007199254740993),
        ("cells", .float 9007199254740976), ("sign-up", .float 4503599627370484), ("go", .float 44)] := by
    decide +kernel
  obtain ⟨l, hl, told⟩ := Result.map_toOption_eq_some.mp computed
  obtain ⟨root, hroot, -, -, -, spans⟩ := container_widths hl
  refine ⟨l, root, hl, hroot, told, fun m f hf container w b o => ?_⟩
  obtain ⟨stretched, unstretched, -⟩ := spans m f hf container w b o
  exact ⟨stretched, unstretched⟩

/-- A page without children at a viewport of `2 ^ 53 + 1`: the root is offered this width, and its
frame is narrower. -/
theorem wide_root_rounded : ∃ l root,
    (Layout.compute (.around (.plainStack "page" .vertical [])) .role
      ⟨2 ^ 53 + 1, 640, by decide, by decide⟩).result = .ok l ∧
    ((Node.plainStack "page" .vertical []).resolve (.int (2 ^ 53 + 1))).result = .ok root ∧
    root.isContainer = true ∧
    Offered ⟨root, rootPointer⟩ (Number.int (2 ^ 53 + 1)) ⟨root, rootPointer⟩ (.int (2 ^ 53 + 1)) false ∧
    l.frames.map (·.id) = [root.id] ∧
    ∀ f ∈ l.frames, (Number.int (2 ^ 53 + 1)).same f.w = false := by
  have computed : ((Layout.compute (.around (.plainStack "page" .vertical [])) .role
      ⟨2 ^ 53 + 1, 640, by decide, by decide⟩).result.toOption.bind fun l =>
        ((Node.plainStack "page" .vertical []).resolve (.int (2 ^ 53 + 1))).result.toOption.map
          fun root => (root.isContainer, root.visible, decide (l.frames.map (·.id) = [root.id]),
            l.frames.all fun f => !(Number.int (2 ^ 53 + 1)).same f.w)) =
      some (true, true, true, true) := by
    decide +kernel
  obtain ⟨l, hl, computed⟩ := Option.bind_eq_some_iff.mp computed
  obtain ⟨root, hroot, told⟩ := Option.map_eq_some_iff.mp computed
  simp only [Prod.mk.injEq] at told
  obtain ⟨container, visible, ids, other⟩ := told
  refine ⟨l, root, Result.toOption_eq_some.mp hl, Result.toOption_eq_some.mp hroot, container,
    .root visible, of_decide_eq_true ids, fun f hf => ?_⟩
  exact Bool.not_eq_true' _ |>.mp (List.all_eq_true.mp other f hf)

end Wireframe
