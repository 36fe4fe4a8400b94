import Wireframe.Proofs.Layout.ControlSizes

/-
  Wireframe.Proofs.Layout.Context — layouts that share one list of issues.

  A node is laid out in a context: a viewport, what to check against, and the issues that were found so
  far. What is found is reported to the context, one defect after the other, and a report only adds to
  the issues. The layouts of the children are made in the same context, so each of them finds there
  what was reported before it, and what it reports stays.

  What comes out is a placement, whose first frame is that of the node itself, or nothing when the node
  is hidden. The size of a placement may be a whole number, and its frame is made with doubles: of a
  whole number beyond `2 ^ 53` it has the nearest one. A width that is given to the placement later is
  put into the frame as it is.

  Proved:
  - `Context.run_bind`: a layout in steps runs in the context that each step leaves.
  - `Context.reports_grow`: what is reported is added to the issues.
  - `Offered.placed_within`: the layout of a node is made in the middle of that of the whole.
  - `placements_in_context`: placements and issues together.
  - `wide_frame_rounded`: a frame that is narrower than its placement.
-/

namespace Wireframe

open Quantity Number

/-! ## Contexts -/

/-- What layouts share. -/
structure Context where
  viewport : Viewport
  surface : Surface Number
  pointers : List (String × String)
  issues : List Issue

namespace Context

variable {β γ : Type} {c c' c'' : Context}

/-- Adds the issue that a defect is told as. -/
def report (c : Context) (d : Defect Number) : Context :=
  { c with issues := c.issues ++ [d.toIssue c.viewport c.pointers] }

/-- The same for some defects in order. -/
def reports (c : Context) (defects : List (Defect Number)) : Context := defects.foldl report c

/-- What a layout in progress comes to in a context, and the context that it leaves. -/
def run (c : Context) (t : Laying Number β) : Except Failure β × Context :=
  (t.result, c.reports t.notes)

/-- The layout of a node in a width. -/
def place (c : Context) (n : Node) (width : Number) :
    Except Failure (Option (Placement Number Float)) × Context :=
  c.run (n.place c.surface width)

theorem place_fst (c : Context) (n : Node) (width : Number) :
    (c.place n width).1 = (n.place c.surface width).result := rfl

theorem reports_append (before after : List (Defect Number)) :
    c.reports (before ++ after) = (c.reports before).reports after :=
  List.foldl_append

@[simp] theorem run_done (b : β) : c.run (Trail.done b) = (.ok b, c) := rfl

@[simp] theorem run_note (d : Defect Number) : c.run (Trail.note d) = (.ok (), c.report d) := rfl

@[simp] theorem run_fail (f : Failure) : c.run (Trail.fail f : Laying Number β) = (.error f, c) := rfl

/-- A layout in steps runs in the context that each step leaves, up to the first one that fails. -/
theorem run_bind (t : Laying Number β) (f : β → Laying Number γ) :
    c.run (t >>= f) =
      match c.run t with
      | (.ok b, c') => c'.run (f b)
      | (.error e, c') => (.error e, c') := by
  show c.run (Trail.bind t f) = _
  unfold run Trail.bind
  cases t.result with
  | ok b => exact congrArg _ (reports_append t.notes (f b).notes)
  | error e => rfl

/-! ### Reports -/

/-- One context becomes another one by issues alone, which come after those that it had and are
labelled with its viewport. -/
def Grows (c c' : Context) : Prop :=
  ∃ added : List Issue, c' = { c with issues := c.issues ++ added } ∧
    ∀ i ∈ added, i.viewport = some (some c.viewport.label)

theorem Grows.refl (c : Context) : c.Grows c :=
  ⟨[], by rw [List.append_nil], fun _ hi => absurd hi List.not_mem_nil⟩

theorem Grows.trans (first : c.Grows c') (second : c'.Grows c'') : c.Grows c'' := by
  obtain ⟨more, rfl, labelled⟩ := first
  obtain ⟨last, rfl, labelled'⟩ := second
  refine ⟨more ++ last, by simp only [List.append_assoc], fun i hi => ?_⟩
  exact (List.mem_append.mp hi).elim (labelled i) (labelled' i)

theorem report_grows (c : Context) (d : Defect Number) : c.Grows (c.report d) :=
  ⟨[d.toIssue c.viewport c.pointers], rfl, List.forall_mem_singleton.mpr rfl⟩

theorem reports_grow (defects : List (Defect Number)) : ∀ c : Context, c.Grows (c.reports defects) := by
  induction defects with
  | nil => exact .refl
  | cons d rest ih => exact fun c => (c.report_grows d).trans (ih (c.report d))

/-- The issues after some reports, in the order of the reports. -/
theorem reports_eq (defects : List (Defect Number)) : ∀ c : Context,
    c.reports defects =
      { c with issues := c.issues ++ defects.map (·.toIssue c.viewport c.pointers) } := by
  induction defects with
  | nil => exact fun c => by rw [List.map_nil, List.append_nil]; rfl
  | cons d rest ih =>
    intro c
    show (c.report d).reports rest = _
    rw [ih]
    simp [report]

/-- A screen is laid out in a context that has no issues yet. -/
theorem ofResolved_eq (s : Surface Number) (v : Viewport) (detection : PrimaryDetection) (root : Node) :
    Layout.ofResolved s v detection root =
      let made := run ⟨v, s, root.pointers, []⟩ (Layout.ofTree s v detection root)
      made.1.map fun frames => ⟨v.label, frames, made.2.issues⟩ := by
  simp only [run, reports_eq, List.nil_append]
  rfl

end Context

/-! ## Placements -/

/-- The double that a number is written as when a frame is made: the same double, or the one nearest to a whole
number. -/
structure Number.WrittenAs (a : Number) (x : Float) : Prop where
  nearest : a.toDouble = .ok x
  double : ∀ y, a = .float y → x = y
  whole : ∀ n : ℤ, a = .int n → n.natAbs < 2 ^ 53 → a.same (.float x) = true

theorem Number.InRange.writtenAs {a : Number} (h : a.InRange) : a.WrittenAs a.toFloat := by
  obtain ⟨x, hx⟩ := h
  refine ⟨eq_toFloat hx ▸ hx, ?_, ?_⟩
  · rintro y rfl
    rfl
  · rintro n rfl small
    exact Double.same_toFloat small

namespace Placement

/-- The first frame of a placement is at the origin and has its size. -/
structure StartsWith (p : Placement Number Float) (id : String) (f : Frame Number Float)
    (rest : List (Frame Number Float)) : Prop where
  frames : p.frames = f :: rest
  id : f.id = id
  x : f.x = 0.0
  y : f.y = 0.0
  w : ∃ x, f.w = .float x ∧ p.w.WrittenAs x
  h : p.h.WrittenAs f.h

/-- A placement that is made starts with a frame of its own. -/
theorem Made.startsWith {p : Placement Number Float} (h : p.Made) : p.StartsWith p.id p.own p.below :=
  ⟨rfl, rfl, rfl, rfl, ⟨p.w.toFloat, congrArg (·.drawn) (of_eq h), h.inRange.1.writtenAs⟩,
    h.inRange.2.writtenAs⟩

/-- Another width of a placement changes its first frame, and only in width. -/
theorem resized_eq (p : Placement Number Float) (w : Number) :
    (p.resized w).w = w ∧ (p.resized w).h = p.h ∧ ∃ f rest, p.frames = f :: rest ∧
      (p.resized w).frames = { f with w := w } :: rest :=
  ⟨rfl, rfl, p.own, p.below, rfl, rfl⟩

/-- Moving a placement changes the places of its frames. -/
theorem moved_eq_ok_iff {p : Placement Number Float} {dx dy : Number} {frames : List (Frame Number Float)} :
    p.moved dx dy = .ok frames ↔ ∃ x y, dx.toDouble = .ok x ∧ dy.toDouble = .ok y ∧
      frames = p.frames.map fun f => { f with x := f.x + x, y := f.y + y } := by
  simp only [moved, Result.bind_eq_ok]
  constructor
  · rintro ⟨x, hx, y, hy, e⟩
    exact ⟨x, y, hx, hy, (Except.ok.inj e).symm⟩
  · rintro ⟨x, y, hx, hy, rfl⟩
    exact ⟨x, hx, y, hy, rfl⟩

end Placement

/-! ## Layouts within layouts -/

/-- While the whole is laid out, the layout of a node that is offered a width is made in the context that
it finds then, and what it reports is followed by the rest. -/
theorem Offered.placed_within {c : Context} {root l : Located} {width w : Number} {b : Bool}
    {p₀ : Placement Number Float} (h : (root.node.place c.surface width).result = .ok (some p₀))
    (o : Offered root width l w b) : ∃ before after : List (Defect Number),
      (c.place root.node width).2 = ((c.reports before).place l.node w).2.reports after := by
  obtain ⟨-, before, after, split⟩ := o.laid h
  have same : (c.reports before).surface = c.surface := by rw [Context.reports_eq]
  refine ⟨before, after, ?_⟩
  show c.reports _ = ((c.reports before).reports (l.node.place (c.reports before).surface w).notes).reports after
  rw [same, ← split, Context.reports_append, Context.reports_append]

/-- A layout of a node only adds issues to its context, after those that are there and with the label of
its viewport. A hidden node has no placement, and adds none. What a visible node comes to is a placement
with a frame, the first one of which is its own: at the origin, and with the size of the placement as
doubles. The layouts of the nodes below are made in the course of it, each in the context that the
reports before it leave. Another width of a placement changes its first frame alone and only in width,
to this very number; moving a placement changes every frame, and only its place. -/
theorem placements_in_context (c : Context) (n : Node) (width : Number) :
    c.Grows (c.place n width).2 ∧
    (n.visible = false → c.place n width = (.ok none, c)) ∧
    (n.visible = true → ∀ placed, (c.place n width).1 = .ok placed → ∃ p, placed = some p ∧
      (∃ f rest, p.StartsWith n.id f rest) ∧
      ∀ pointer l w b, Offered ⟨n, pointer⟩ width l w b → ∃ before after : List (Defect Number),
        (c.place n width).2 = ((c.reports before).place l.node w).2.reports after) ∧
    (∀ (p : Placement Number Float) w, (p.resized w).w = w ∧ (p.resized w).h = p.h ∧
      ∃ f rest, p.frames = f :: rest ∧ (p.resized w).frames = { f with w := w } :: rest) ∧
    ∀ (p : Placement Number Float) dx dy frames, p.moved dx dy = .ok frames ↔
      ∃ x y, dx.toDouble = .ok x ∧ dy.toDouble = .ok y ∧
        frames = p.frames.map fun f => { f with x := f.x + x, y := f.y + y } := by
  refine ⟨Context.reports_grow _ c, fun hidden => ?_, fun shown placed laid => ?_, Placement.resized_eq,
    fun _ _ _ _ => Placement.moved_eq_ok_iff⟩
  · rw [Context.place, Node.place_hidden c.surface width hidden, Context.run_done]
  · rw [Context.place_fst] at laid
    obtain ⟨p, rfl⟩ := Node.exists_placement shown laid
    obtain ⟨content, spots, out⟩ := Node.laidOut_of_place laid
    have own : p.StartsWith n.id p.own p.below :=
      (congrArg (·.id) out.placed : p.id = n.id) ▸ (Node.made_of_place laid).startsWith
    exact ⟨p, rfl, ⟨p.own, p.below, own⟩, fun pointer l w b o => o.placed_within laid⟩

/-- A page with a padding that is not on the scale, a hidden text and a button that is too low. -/
def Node.uneven : Node :=
  .stack (.plain "page") ⟨.vertical, none, some (.length 7.0), .start, false⟩
    [.text (.hidden "note") ⟨"Note", none, none, none⟩, .button .tight ⟨"Go", none⟩]

/-- The context of a page at a small viewport. -/
def Context.around (root : Node) : Context :=
  ⟨⟨320, 568, by decide, by decide⟩, Settings.standard.surface, root.pointers, []⟩

/-- Both are told of, one after the other, and only the page and the button have frames. -/
theorem uneven_in_context : ∃ p, ((Context.around .uneven).place .uneven (.int 320)).1 = .ok (some p) ∧
    p.frames.map (·.id) = ["page", "go"] ∧
    ((Context.around .uneven).place .uneven (.int 320)).2.issues.map (·.id) =
      ["spacing-off-scale", "touch-target-too-small"] ∧
    (Context.around .uneven).Grows ((Context.around .uneven).place .uneven (.int 320)).2 ∧
    ∃ f rest, p.StartsWith "page" f rest := by
  obtain ⟨grows, -, placed, -⟩ := placements_in_context (.around .uneven) .uneven (.int 320)
  have computed : (((Context.around .uneven).place .uneven (.int 320)).1.toOption.bind fun placed =>
      placed.map fun p => p.frames.map (·.id)) = some ["page", "go"] := by decide +kernel
  have told : ((Context.around .uneven).place .uneven (.int 320)).2.issues.map (·.id) =
      ["spacing-off-scale", "touch-target-too-small"] := by decide +kernel
  obtain ⟨_, laid, computed⟩ := Option.bind_eq_some_iff.mp computed
  obtain ⟨p, rfl, ids⟩ := Option.map_eq_some_iff.mp computed
  have laid := Result.toOption_eq_some.mp laid
  obtain ⟨_, ⟨⟩, ⟨f, rest, own⟩, -⟩ := placed rfl _ laid
  exact ⟨p, laid, ids, told, grows, f, rest, own⟩

/-- A page that is offered a width of `2 ^ 53 + 1` has a placement of this width, with a frame that is
narrower. -/
theorem wide_frame_rounded : ∃ p,
    ((Context.around (.plainStack "page" .vertical [])).place (.plainStack "page" .vertical [])
      (.int (2 ^ 53 + 1))).1 = .ok (some p) ∧
    p.w = .int (2 ^ 53 + 1) ∧ ∃ f rest, p.frames = f :: rest ∧ f.id = "page" ∧
      p.w.same f.w = false := by
  have computed : (((Context.around (.plainStack "page" .vertical [])).place
      (.plainStack "page" .vertical []) (.int (2 ^ 53 + 1))).1.toOption.bind fun placed =>
        placed.map fun p => (p.own.id, (Number.int (2 ^ 53 + 1)).same p.own.w)) =
      some ("page", false) := by
    decide +kernel
  obtain ⟨_, laid, computed⟩ := Option.bind_eq_some_iff.mp computed
  obtain ⟨p, rfl, told⟩ := Option.map_eq_some_iff.mp computed
  obtain ⟨id, other⟩ := Prod.mk.inj told
  have laid := Result.toOption_eq_some.mp laid
  obtain ⟨content, spots, out⟩ := Node.laidOut_of_place ((Context.place_fst _ _ _).symm.trans laid)
  have w : p.w = .int (2 ^ 53 + 1) := out.spans rfl
  refine ⟨p, laid, w, p.own, p.below, rfl, id, ?_⟩
  rw [w]
  exact other

end Wireframe
