import Wireframe.Proofs.Layout.Exact
import Wireframe.Proofs.Layout.Offers

/-
  Wireframe.Proofs.Layout.Blocks — a subtree looks the same wherever it stands.

  In exact numbers it makes no difference how often a subtree is moved: all of its frames are moved
  by one distance. So a subtree depends on its siblings and on what is above it only through the
  width it is offered and this distance.

  Proved:
  - `Offered.moved`: the frames of a subtree are those of its layout in the width it is offered,
    moved by one distance.
  - `subtree_frames_moved`: so it is in the layouts of documents, each of which comes to something.
-/

namespace Wireframe

open Quantity

/-! ## One distance -/

theorem Frame.moved_moved (f : Frame ℚ ℚ) (a b c d : ℚ) :
    (f.moved a b).moved c d = f.moved (a + c) (b + d) := by
  simp only [moved, add_assoc]

theorem Frame.moved_zero (f : Frame ℚ ℚ) : f.moved 0 0 = f := by
  simp only [moved, add_zero]

theorem Frame.shifted_eq_moved (moves : List (ℚ × ℚ)) :
    ∃ dx dy, ∀ f : Frame ℚ ℚ, f.shifted moves = f.moved dx dy := by
  induction moves with
  | nil => exact ⟨0, 0, fun f => f.moved_zero.symm⟩
  | cons m rest ih =>
    obtain ⟨dx, dy, same⟩ := ih
    exact ⟨m.1 + dx, m.2 + dy, fun f => (same _).trans (f.moved_moved ..)⟩

/-- Side by side with the visible nodes, the frames of a subtree are those of its layout in the width
it is offered, moved by one distance. -/
theorem Offered.moved {s : Surface ℚ} {root l : Located} {width w : ℚ} {b : Bool}
    {p₀ : Placement ℚ ℚ} (h : (root.node.place s width).result = .ok (some p₀))
    (o : Offered root width l w b) :
    ∃ (p : Placement ℚ ℚ) (dx dy : ℚ) (before after : List (Located × Frame ℚ ℚ)),
      (l.node.place s w).result = .ok (some p) ∧
      root.subtree.zip p₀.frames = before ++
        l.subtree.zip ((if b then p.resized w else p).frames.map (·.moved dx dy)) ++ after := by
  obtain ⟨p, moves, before, after, hp, split⟩ := o.block h
  obtain ⟨dx, dy, same⟩ := Frame.shifted_eq_moved moves
  refine ⟨p, dx, dy, before, after, hp, split.trans ?_⟩
  rw [List.map_congr_left fun f _ => same f]

/-- The frame of a child is as wide as the child, whether it is stretched or not. -/
theorem Node.LaidOut.spots_drawn {s : Surface ℚ} {n : Node} {w content : ℚ} {p : Placement ℚ ℚ}
    {spots : List (Option (Spot ℚ ℚ))} (out : n.LaidOut s w p content spots) :
    ∀ spot ∈ spots.reduceOption, spot.placed.drawn = spot.placed.w := by
  intro spot hs
  obtain ⟨c, -, q, hq, fitted⟩ := exists_zip_of_forall₂ (Node.fitted_of_puts _ out.puts).flip hs
  obtain ⟨_, _, own⟩ := Node.laidOut_of_place hq
  rw [fitted, Node.fit, own.placed]
  split <;> rfl

/-! ## Documents -/

/-- A part of two lists side by side is a part of either. -/
theorem parts_of_zip {β γ : Type} {xs part : List β} {ys part' : List γ}
    {before after : List (β × γ)} (same : xs.length = ys.length) (same' : part.length = part'.length)
    (h : xs.zip ys = before ++ part.zip part' ++ after) :
    xs = before.map (·.1) ++ part ++ after.map (·.1) ∧
      ys = before.map (·.2) ++ part' ++ after.map (·.2) := by
  have firsts := congrArg (List.map Prod.fst) h
  have seconds := congrArg (List.map Prod.snd) h
  rw [List.map_append, List.map_append, List.map_fst_zip same.le, List.map_fst_zip same'.le] at firsts
  rw [List.map_append, List.map_append, List.map_snd_zip same.ge, List.map_snd_zip same'.ge] at seconds
  exact ⟨firsts, seconds⟩

theorem Exact.ofTree_eq_ok {s : Surface ℚ} {v : Viewport} {detection : PrimaryDetection} {root : Node}
    {frames : List (Frame ℚ ℚ)} : (Layout.ofTree s v detection root).result = .ok frames ↔
      ∃ placed, (root.place s (v.width : ℚ)).result = .ok placed ∧
        frames = (placed.map (·.frames)).getD [] := by
  simp only [Layout.ofTree, Trail.result_bind_eq_ok, Exact.ofInt_eq, Int.cast_natCast]
  constructor
  · rintro ⟨placed, hp, _, -, e⟩
    cases e
    exact ⟨placed, hp, rfl⟩
  · rintro ⟨placed, hp, rfl⟩
    exact ⟨placed, hp, (), rfl, rfl⟩

/-- A screen that is read is laid out at every viewport. Every visible node is offered a width, and
the frames of its subtree stand together among all frames, where its visible nodes stand among all
visible nodes. They are those of its own layout in the width it is offered, all moved by one distance;
only a node that is stretched has this width itself. -/
theorem subtree_frames_moved {document : Value} {s : Scaffold} (hs : Scaffold.read document = .ok s)
    {v : Viewport} {root : Node} (hroot : (s.screen.root.resolve (.int v.width)).result = .ok root)
    (detection : PrimaryDetection) :
    ∃ frames : List (Frame ℚ ℚ),
      (Layout.ofTree s.settings.exact v detection root).result = .ok frames ∧
      (∀ l ∈ root.walk, ∃ w b, Offered ⟨root, rootPointer⟩ (v.width : ℚ) l w b) ∧
      ∀ l w b, Offered ⟨root, rootPointer⟩ (v.width : ℚ) l w b →
        ∃ (p : Placement ℚ ℚ) (dx dy : ℚ) (nodesBefore nodesAfter : List Located)
            (before after : List (Frame ℚ ℚ)),
          (l.node.place s.settings.exact w).result = .ok (some p) ∧
          root.walk = nodesBefore ++ l.subtree ++ nodesAfter ∧
          frames = before ++ (if b then p.resized w else p).frames.map (·.moved dx dy) ++ after ∧
          nodesBefore.length = before.length ∧ l.subtree.length = p.frames.length := by
  have columned := Node.resolve_columned hroot (Scaffold.columned hs)
  obtain ⟨placed, hp⟩ := root.place_returns s.settings.exact columned (v.width : ℚ)
  refine ⟨(placed.map (·.frames)).getD [], Exact.ofTree_eq_ok.mpr ⟨placed, hp, rfl⟩, ?_, ?_⟩
  · intro l hl
    obtain ⟨p₀, rfl⟩ := Node.exists_placement ((Node.mem_walkFrom.mp hl).1 rfl) hp
    exact Located.offered_of_mem hp hl
  · intro l w b o
    obtain ⟨p₀, rfl⟩ := Node.exists_placement ((Node.mem_walkFrom.mp o.mem).1 rfl) hp
    obtain ⟨p, dx, dy, before, after, hl, split⟩ := o.moved hp
    have lengths := Located.length_subtree hl
    have own : ((if b then p.resized w else p).frames.map (·.moved dx dy)).length = p.frames.length := by
      rw [List.length_map, p.length_stretched]
    obtain ⟨nodes, frames⟩ := parts_of_zip
      (Located.length_subtree (l := ⟨root, rootPointer⟩) hp) (lengths.trans own.symm) split
    exact ⟨p, dx, dy, _, _, _, _, hl, nodes, frames, by rw [List.length_map, List.length_map], lengths⟩

/-- A page that stretches a button and a card, in which a grid of two columns holds three tables. -/
def Scaffold.cardDocument : Value :=
  .object [("screen", .object [("id", .text "screen"), ("root",
    .object [("type", .text "Stack"), ("id", .text "page"), ("align", .text "stretch"),
      ("padding", .int 8), ("gap", .int 16), ("children", .list
        [.object [("type", .text "Button"), ("id", .text "go"), ("text", .text "Go")],
          .object [("type", .text "Box"), ("id", .text "card"), ("padding", .int 4), ("child",
            .object [("type", .text "Grid"), ("id", .text "cells"), ("columns", .int 2),
              ("gap", .int 4), ("children", .list
                [.object [("type", .text "Table"), ("id", .text "left")],
                  .object [("type", .text "Table"), ("id", .text "right")],
                  .object [("type", .text "Table"), ("id", .text "total")]])])]])])])]

/-- The frames of the page at a narrow viewport, in exact numbers; the card is moved, and its grid
within it. -/
theorem card_frames_moved : ∃ (s : Scaffold) (root : Node) (frames : List (Frame ℚ ℚ)),
    Scaffold.read Scaffold.cardDocument = .ok s ∧
    (s.screen.root.resolve (.int 320)).result = .ok root ∧
    (Layout.ofTree s.settings.exact ⟨320, 640, by decide, by decide⟩ .role root).result = .ok frames ∧
    (frames.map fun f => (f.id, f.x, f.y, f.w, f.h)) =
      [("page", 0, 0, 320, 584), ("go", 8, 8, 304, 44), ("card", 8, 68, 304, 508),
        ("cells", 12, 72, 296, 500), ("left", 12, 72, 146, 248), ("right", 162, 72, 146, 248),
        ("total", 12, 324, 146, 248)] ∧
    ∀ l ∈ root.walk, ∃ (w : ℚ) (b : Bool) (p : Placement ℚ ℚ) (dx dy : ℚ)
        (before after : List (Frame ℚ ℚ)),
      (l.node.place s.settings.exact w).result = .ok (some p) ∧
      frames = before ++ (if b then p.resized w else p).frames.map (·.moved dx dy) ++ after := by
  have computed : ((Scaffold.read Scaffold.cardDocument).toOption.bind fun s =>
      (s.screen.root.resolve (.int 320)).result.toOption.bind fun root =>
        (Layout.ofTree s.settings.exact ⟨320, 640, by decide, by decide⟩ .role root).result.toOption.map
          fun (frames : List (Frame ℚ ℚ)) => frames.map fun f => (f.id, f.x, f.y, f.w, f.h)) =
      some [("page", 0, 0, 320, 584), ("go", 8, 8, 304, 44), ("card", 8, 68, 304, 508),
        ("cells", 12, 72, 296, 500), ("left", 12, 72, 146, 248), ("right", 162, 72, 146, 248),
        ("total", 12, 324, 146, 248)] := by
    decide +kernel
  obtain ⟨s, hs, computed⟩ := Option.bind_eq_some_iff.mp computed
  obtain ⟨root, hroot, computed⟩ := Option.bind_eq_some_iff.mp computed
  obtain ⟨frames, hframes, told⟩ := Option.map_eq_some_iff.mp computed
  have hs := Result.toOption_eq_some.mp hs
  have hroot := Result.toOption_eq_some.mp hroot
  have hframes := Result.toOption_eq_some.mp hframes
  obtain ⟨frames', laid, offered, moved⟩ :=
    subtree_frames_moved hs (v := ⟨320, 640, by decide, by decide⟩) hroot .role
  obtain rfl : frames' = frames := Except.ok.inj (laid.symm.trans hframes)
  refine ⟨s, root, frames', hs, hroot, hframes, told, fun l hl => ?_⟩
  obtain ⟨w, b, o⟩ := offered l hl
  obtain ⟨p, dx, dy, -, -, before, after, hp, -, split, -⟩ := moved l w b o
  exact ⟨w, b, p, dx, dy, before, after, hp, split⟩

end Wireframe
