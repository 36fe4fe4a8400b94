import Wireframe.Proofs.Layout.Notes
import Wireframe.Proofs.Layout.Hidden
import Wireframe.Proofs.Value.Order

/-
  Wireframe.Proofs.Layout.Targets — controls that are too small to be touched.

  A button or field is checked when it is measured. It never measures less than the touch target in
  width, so as long as sizes are numbers, what is told of is its height. But a column that stretches
  gives a control another width after the check, the width inside the padding, and this may be less
  than the touch target. Then a frame is too narrow, and nothing is told.

  Proved:
  - `Measure.labelled_fits`: what a control measures.
  - `Node.place_lowControls`: what is told of touch targets in a subtree.
  - `Offered.stretched_of_narrow`: a control that is too narrow was stretched.
  - `low_controls_told`: what a layout tells of touch targets, and which frames it passes over.
  - `narrowButton_untold`: a button that is stretched to less than the touch target.
-/

namespace Wireframe

open Quantity Number

/-! ## What controls measure -/

/-- The least sizes of a node are finite, where it has any. -/
def Header.FiniteMinimum (h : Header) : Prop :=
  ∀ b ∈ h.minSize, ∀ x, b.w = some x ∨ b.h = some x → Number.isFinite (.float x) = true

/-- The sizes of a touch target stand somewhere, and are doubles. -/
structure Extent.Touchable (touch : Extent Number) : Prop where
  width : touch.w.Stands
  height : touch.h.Stands
  broad : touch.w.IsDouble
  tall : touch.h.IsDouble

namespace Measure

theorem clamp_stands {value : Number} (hv : value.Stands) (low high : Option Number) :
    (clamp value low high).Stands := by
  cases low <;> cases high
  · exact hv
  · exact hv.smaller
  · exact hv.larger
  · exact hv.larger.smaller

theorem clamp_isDouble {value : Number} (hv : value.IsDouble) (low high : Option Float) :
    (clamp value (low.map .float) (high.map .float)).IsDouble := by
  have bound : ∀ x : Float, (Number.float x).IsDouble := isDouble_float
  cases low <;> cases high
  · exact hv
  · exact hv.smaller (bound _)
  · exact hv.larger (bound _)
  · exact (hv.larger (bound _)).smaller (bound _)

/-- The width of a label stands somewhere. -/
theorem textWidth_stands {characters : ℕ} {width : Number}
    (h : textWidth fontSize characters = .ok width) : width.Stands := by
  obtain ⟨c, hc⟩ : ∃ c, ((fontSize : Number) * (characterWidth : Number) : Calculation Number) = .ok c :=
    ⟨_, rfl⟩
  have finite : ((fontSize : Number) * (characterWidth : Number) : Calculation Number).map isFinite =
      .ok true := by decide +kernel
  have product : Number.mul c (.int characters) = .ok width := by
    rw [textWidth, hc] at h
    exact h
  rw [hc] at finite
  exact stands_mul (Except.ok.inj finite) rfl product

theorem getD_stands {size : Option Float} (finite : ∀ x ∈ size, Number.isFinite (.float x) = true)
    {other : Number} (ho : other.Stands) : ((size.map .float).getD other).Stands := by
  cases size with
  | none => exact ho
  | some x => exact stands_of_isFinite (finite x rfl)

theorem orZero_isDouble (size : Option Float) : (Quantity.orZero size : Number).IsDouble := by
  have zero : (Number.int 0).IsDouble := isDouble_int (by decide)
  unfold Quantity.orZero
  split
  · exact zero
  · split
    · exact zero
    · exact isDouble_float _

variable {label : String} {h : Header} {offered : Number} {touch e : Extent Number}

/-- In a width that stands somewhere a control measures no less than the touch target is wide, and its
height is a double. -/
theorem labelled_fits (minimum : h.FiniteMinimum) (target : touch.Touchable) (width : offered.Stands)
    (measured : labelled label h offered touch = .ok e) :
    touch.w.le e.w = true ∧ e.h.Stands ∧ e.h.IsDouble := by
  obtain ⟨single, hsingle, measured⟩ := Result.bind_eq_ok.mp measured
  obtain ⟨padded, hpadded, measured⟩ := Result.bind_eq_ok.mp measured
  cases measured
  have padded_stands : padded.Stands := (textWidth_stands hsingle).add rfl hpadded
  have leastWidth : ∀ x ∈ h.minSize.bind (·.w), Number.isFinite (.float x) = true := fun x hx => by
    obtain ⟨b, hb, hx⟩ := Option.bind_eq_some_iff.mp hx
    exact minimum b hb x (.inl hx)
  have leastHeight : ∀ x ∈ h.minSize.bind (·.h), Number.isFinite (.float x) = true := fun x hx => by
    obtain ⟨b, hb, hx⟩ := Option.bind_eq_some_iff.mp hx
    exact minimum b hb x (.inr hx)
  refine ⟨(clamp_stands ?_ _ _).le_larger target.width, clamp_stands ?_ _ _, clamp_isDouble ?_ _ _⟩
  · cases h.widthPolicy with
    | fill => exact width
    | fixed => exact getD_stands leastWidth padded_stands
    | hug => exact padded_stands.smaller
  · cases h.heightPolicy with
    | fill => exact target.height
    | fixed => exact getD_stands leastHeight target.height
    | hug => exact target.height.larger
  · cases h.heightPolicy with
    | fill => exact target.tall
    | fixed =>
      cases h.minSize.bind (·.h) with
      | none => exact target.tall
      | some x => exact isDouble_float x
    | hug => exact target.tall.larger (orZero_isDouble _)

end Measure

/-! ## What is told of controls -/

/-- Those of some nodes that are to be touched and, with these heights, are lower than a limit. -/
def lowControls (limit : Number) (nodes : List Node) (heights : List Float) : List String :=
  ((nodes.zip heights).filter fun q => q.1.isTouched && (Number.float q.2).lt limit).map (·.1.id)

theorem lowControls_append {limit : Number} {before after : List Node} {heights more : List Float}
    (long : before.length = heights.length) : lowControls limit (before ++ after) (heights ++ more) =
      lowControls limit before heights ++ lowControls limit after more := by
  rw [lowControls, List.zip_append long, List.filter_append, List.map_append]
  rfl

/-- What is told part by part is told of the whole. -/
theorem lowControls_flatMap {β γ : Type} {limit : Number} {told : β → List String}
    {nodes : β → List Node} {heights : γ → List Float} {bs : List β} {cs : List γ}
    (h : List.Forall₂ (fun b c => (nodes b).length = (heights c).length ∧
      told b = lowControls limit (nodes b) (heights c)) bs cs) :
    bs.flatMap told = lowControls limit (bs.flatMap nodes) (cs.flatMap heights) := by
  induction h with
  | nil => rfl
  | cons own _ ih =>
    rw [List.flatMap_cons, List.flatMap_cons, List.flatMap_cons, lowControls_append own.1, own.2, ih]

namespace Node

theorem offer_stands {n : Node} {width content : Number} (h : n.offer width = .ok content) :
    content.Stands := by
  have floor : (noLength : Number).Stands := stands_of_isFinite (by decide +kernel)
  have inside : ∀ {padding : Number}, contentWidth width padding = .ok content → content.Stands := by
    intro padding h
    obtain ⟨x, -, h⟩ := Result.bind_eq_ok.mp h
    cases h
    exact floor.larger
  cases n with
  | grid hd c cs =>
    obtain ⟨columns, -, h⟩ := Result.bind_eq_ok.mp h
    obtain ⟨x, -, h⟩ := Result.bind_eq_ok.mp h
    cases h
    exact floor.larger
  | _ => exact inside h

variable {s : Surface Number} {n : Node} {width content : Number} {p : Placement Number Float}
  {spots : List (Option (Spot Number Float))}

/-- The label of a button or field. -/
def ownLabel : Node → String
  | button _ b => b.text
  | field _ f => f.label
  | _ => ""

theorem extent?_of_touched (touched : n.isTouched = true) (touch : Extent Number) :
    n.extent? width touch = some (Measure.labelled n.ownLabel n.header width touch) := by
  cases n with
  | button | field => rfl
  | _ => cases touched

/-- A visible control is a leaf with the size of its label. -/
theorem place_control (shown : n.visible = true) (touched : n.isTouched = true) :
    (n.place s width : Laying Number (Option (Placement Number Float))) =
      placeLeaf s n (Measure.labelled n.ownLabel n.header width s.touch) >>= fun p => pure (some p) := by
  unfold place
  rw [if_pos shown]
  cases n with
  | button | field => rfl
  | _ => cases touched

/-- A control that is laid out has the size that it measures, and tells of it when it is too small. -/
theorem placed_control (touched : n.isTouched = true) (laid : (n.place s width).result = .ok (some p)) :
    Measure.labelled n.ownLabel n.header width s.touch = .ok ⟨p.w, p.h⟩ ∧
      (n.place s width : Laying Number (Option (Placement Number Float))).notes =
        n.sizeDefects s width := by
  have shown := visible_of_place laid
  rw [place_control shown touched] at laid ⊢
  obtain ⟨q, hq, same⟩ := Trail.result_bind_eq_ok.mp laid
  cases same
  obtain ⟨e, measured, hp⟩ := placeLeaf_eq_ok hq
  obtain rfl := Placement.of_eq hp
  refine ⟨measured, ?_⟩
  rw [Trail.notes_bind_pure, placeLeaf_notes hq (extent?_of_touched touched s.touch)]

/-- A node tells of its own size when it is to be touched and lower than the touch target. -/
theorem sizeDefects_ids (laid : (n.place s width).result = .ok (some p)) (target : s.touch.Touchable)
    (stands : width.Stands) (minimum : n.isTouched = true → n.header.FiniteMinimum) :
    (n.sizeDefects s width).map (·.nodeId) = lowControls s.touch.h [n] [p.own.h] := by
  unfold sizeDefects lowControls
  cases touched : n.isTouched with
  | false =>
    simp only [Bool.false_and, List.zip_cons_cons, List.zip_nil_right, List.filter_cons, touched]
    split <;> rfl
  | true =>
    obtain ⟨measured, -⟩ := placed_control touched laid
    obtain ⟨broad, stands, double⟩ := Measure.labelled_fits (minimum touched) target stands measured
    have low : (Number.float p.own.h).lt s.touch.h = !s.touch.h.le p.h := by
      have same : (Number.float p.own.h).place? = p.h.place? := double
      rw [lt_congr same rfl]
      cases reached : p.h.lt s.touch.h with
      | false => rw [(stands.not_lt_iff target.height).mp reached]; rfl
      | true =>
        cases enough : s.touch.h.le p.h with
        | false => rfl
        | true => rw [(stands.not_lt_iff target.height).mpr enough] at reached; cases reached
    rw [extent?_of_touched touched, measured]
    simp only [List.zip_cons_cons, List.zip_nil_right, List.filter_cons, touched, low, Bool.true_and,
      List.filter_nil]
    change (if !(s.touch.w.le p.w && s.touch.h.le p.h) then _ else _ : List (Defect Number)).map _ = _
    rw [broad, Bool.true_and]
    split <;> rfl

/-- The frames in a spot are as high as those that the child comes out with. -/
theorem Puts.heights {s : Surface Number} {content : Number} {c : Node}
    {spot : Option (Spot Number Float)} {placed : Option (Placement Number Float)}
    (put : n.Puts s content c spot) (laid : (c.place s content).result = .ok placed) :
    (Spot.shown spot).map (·.h) = ((placed.map (·.frames)).getD []).map (·.h) := by
  obtain ⟨placed', laid', same⟩ := put
  obtain rfl : placed' = placed := Except.ok.inj (laid'.symm.trans laid)
  cases placed' with
  | none =>
    obtain rfl := Option.map_eq_none_iff.mp same
    rfl
  | some q =>
    obtain ⟨spot, rfl, fitted⟩ := Option.map_eq_some_iff.mp same
    obtain ⟨dx, dy, -, -, frames⟩ := spot.frames_eq
    show spot.frames.map (·.h) = q.frames.map (·.h)
    rw [frames, fitted, fit, List.map_map]
    split <;> rfl

/-- Of touch targets, a layout tells of those controls of a subtree that are too low. -/
theorem place_lowControls (target : s.touch.Touchable) : ∀ {width : Number}
    {placed : Option (Placement Number Float)}, width.Stands →
      (∀ m ∈ n.visibleNodes, m.isTouched = true → m.header.FiniteMinimum) →
        (n.place s width).result = .ok placed →
          (Defect.named "touch-target-too-small"
            (n.place s width : Laying Number (Option (Placement Number Float))).notes).map (·.nodeId) =
              lowControls s.touch.h n.visibleNodes (((placed.map (·.frames)).getD []).map (·.h)) := by
  induction n using byChildren with
  | step n ih =>
    intro width placed stands minimum laid
    cases hv : n.visible with
    | false =>
      rw [place_hidden s width hv, visibleNodes_eq, if_neg (by simp [hv])]
      rfl
    | true =>
      obtain ⟨p, rfl⟩ := exists_placement hv laid
      obtain ⟨content, spots, out⟩ := laidOut_of_place laid
      rw [visibleNodes_eq, if_pos hv] at minimum ⊢
      obtain ⟨own, below⟩ := List.forall_mem_cons.mp minimum
      have frames : ((some p).map (·.frames)).getD [] = p.own :: spots.flatMap Spot.shown := by
        show p.own :: p.below = _
        rw [out.placed]
      rw [frames, List.map_cons, out.named_notes (by decide),
        Defect.named_eq_nil fun d hd e => absurd ((spacingDefects_name d hd).symm.trans e) (by decide),
        Defect.named_eq_self sizeDefects_name, List.nil_append, List.map_append,
        sizeDefects_ids laid target stands own, List.map_flatMap]
      show _ = lowControls _ ([n] ++ _) ([p.own.h] ++ _)
      rw [lowControls_append rfl, List.map_flatMap]
      refine congrArg _ ?_
      refine lowControls_flatMap (List.forall₂_iff_zip.mpr ⟨out.puts.length_eq, fun {c spot} hz => ?_⟩)
      have hc := (List.of_mem_zip hz).1
      have put := (List.forall₂_iff_zip.mp out.puts).2 hz
      obtain ⟨placed, laid⟩ := out.returns hc
      refine ⟨by rw [List.length_map, put.length], ?_⟩
      rw [put.heights laid]
      exact ih c hc (offer_stands (out.offer (List.ne_nil_of_mem hc)))
        (fun m hm => below m (List.mem_flatMap.mpr ⟨c, hc, hm⟩)) laid

end Node

theorem Offered.stands {root l : Located} {width w : Number} {b : Bool}
    (o : Offered root width l w b) (stands : width.Stands) : w.Stands := by
  cases o with
  | root => exact stands
  | child _ _ _ offer => exact Node.offer_stands offer

/-- A control whose frame is narrower than the touch target was stretched to this. -/
theorem Offered.stretched_of_narrow {s : Surface Number} {root l : Located} {width w : Number} {b : Bool}
    {p₀ : Placement Number Float} (h : (root.node.place s width).result = .ok (some p₀))
    (o : Offered root width l w b) (target : s.touch.Touchable) (stands : width.Stands)
    (touched : l.node.isTouched = true) (minimum : l.node.header.FiniteMinimum) {f : Frame Number Float}
    (hf : (l, f) ∈ root.subtree.zip p₀.frames) (narrow : f.w.lt s.touch.w = true) :
    b = true ∧ f.w = w := by
  obtain ⟨p, moves, laid, own, -⟩ := o.frame_iff h
  have width : f.w = (if b then p.resized w else p).own.w := by
    rw [(own f).mp hf, Frame.shifted_w]
  cases b with
  | true => exact ⟨rfl, width⟩
  | false =>
    obtain ⟨measured, -⟩ := Node.placed_control touched laid
    obtain ⟨_, _, out⟩ := Node.laidOut_of_place laid
    have broad := (Measure.labelled_fits minimum target (o.stands stands) measured).1
    obtain ⟨x, hx⟩ := (Node.made_of_place laid).inRange.1
    have reached := target.broad.le_toFloat broad hx
    have rounded : f.w = .float p.w.toFloat := width.trans (congrArg (·.drawn) out.placed)
    rw [← rounded] at reached
    rw [((stands_of_lt narrow).1.not_lt_iff target.width).mpr reached] at narrow
    cases narrow

/-! ## Screens -/

/-- The sizes of a touch target are doubles. -/
structure TouchTarget.Doubles (t : TouchTarget) : Prop where
  w : t.w.IsDouble
  h : t.h.IsDouble

theorem TouchTarget.standard_doubles : standard.Doubles :=
  ⟨isDouble_int (by decide), isDouble_int (by decide)⟩

theorem isDouble_of_read {v : Value} {a : Number} (h : Shape.number v = .ok a) : a.IsDouble := by
  obtain ⟨x, -, rfl⟩ := Result.map_eq_ok.mp h
  exact isDouble_float x

theorem TouchTarget.read_doubles {v : Value} {t : TouchTarget} (h : TouchTarget.read v = .ok t) :
    t.Doubles := by
  obtain ⟨o, rfl, reads⟩ := Reading.record_eq_ok h
  obtain ⟨f₀, given, h₀, rfl⟩ := Reading.reads_noted reads
  obtain ⟨f₁, height, h₁, hheight, rfl⟩ := Reading.reads_seq.mp h₀
  obtain ⟨width, hwidth, rfl⟩ := Reading.reads_map.mp h₁
  exact ⟨hwidth.of_optional standard_doubles.w fun _ => isDouble_of_read,
    hheight.of_optional standard_doubles.h fun _ => isDouble_of_read⟩

theorem Settings.read_doubles {v : Value} {s : Settings}
    (h : Shape.record "Settings" Reading.settings v = .ok s) : s.minTouchTarget.Doubles := by
  obtain ⟨o, rfl, reads⟩ := Reading.record_eq_ok h
  obtain ⟨f₀, given, h₀, rfl⟩ := Reading.reads_noted reads
  obtain ⟨f₁, breakpoints, h₁, -, rfl⟩ := Reading.reads_seq.mp h₀
  obtain ⟨f₂, target, h₂, htarget, rfl⟩ := Reading.reads_seq.mp h₁
  obtain ⟨scale, -, rfl⟩ := Reading.reads_map.mp h₂
  exact htarget.of_optional TouchTarget.standard_doubles fun _ => TouchTarget.read_doubles

/-- The sizes of the touch target of a screen that is read are doubles. -/
theorem Scaffold.read_doubles {document : Value} {s : Scaffold} (h : read document = .ok s) :
    s.settings.minTouchTarget.Doubles := by
  obtain ⟨o, rfl, reads⟩ := Reading.record_eq_ok h
  obtain ⟨f₀, given, h₀, rfl⟩ := Reading.reads_noted reads
  obtain ⟨f₁, settings, h₁, hsettings, rfl⟩ := Reading.reads_seq.mp h₀
  obtain ⟨f₂, screen, h₂, -, rfl⟩ := Reading.reads_seq.mp h₁
  obtain ⟨version, -, rfl⟩ := Reading.reads_map.mp h₂
  exact hsettings.of_optional (P := fun t => t.minTouchTarget.Doubles) TouchTarget.standard_doubles
    fun _ => Settings.read_doubles

/-- The nodes of a tree that are to be touched, with their frames. -/
def Node.touchedFrames (root : Node) (frames : List (Frame Number Float)) : List (Located × Frame Number Float) :=
  (root.walk.zip frames).filter (·.1.node.isTouched)

def Frame.isNarrow (f : Frame Number Float) (t : TouchTarget) : Bool := f.w.lt t.w

def Frame.isLow (f : Frame Number Float) (t : TouchTarget) : Bool := (Number.float f.h).lt t.h

/-- The nodes that a layout tells of because they are too small to be touched. -/
def Layout.tooSmall (l : Layout) : List (Option (Option String)) :=
  (l.issues.filter (·.id == "touch-target-too-small")).map (·.nodeId)

/-- The ids of some nodes, as issues name them. -/
def issueIds (found : List (Located × Frame Number Float)) : List (Option (Option String)) :=
  found.map fun q => some (some q.1.node.id)

theorem Node.lowControls_eq (root : Node) (t : TouchTarget) (frames : List (Frame Number Float)) :
    lowControls t.h root.visibleNodes (frames.map (·.h)) =
      ((root.touchedFrames frames).filter (·.2.isLow t)).map (·.1.node.id) := by
  rw [lowControls, touchedFrames, ← walkFrom_nodes root rootPointer, List.zip_map, List.filter_map,
    List.map_map, List.filter_filter]
  exact congrArg _ (List.filter_congr fun q _ => Bool.and_comm _ _)

section

variable {document : Value} {s : Scaffold} {detection : PrimaryDetection} {v : Viewport} {l : Layout}
  {root : Node}

/-- Of touch targets, the issues of a layout are those of the controls that are too low. -/
theorem Layout.tooSmall_eq (target : s.settings.surface.touch.Touchable)
    (h : (Layout.compute s detection v).result = .ok l)
    (hroot : (s.screen.root.resolve (.int v.width)).result = .ok root)
    (minimum : ∀ n ∈ root.visibleNodes, n.isTouched = true → n.header.FiniteMinimum) :
    l.tooSmall =
      issueIds ((root.touchedFrames l.frames).filter (·.2.isLow s.settings.minTouchTarget)) := by
  obtain ⟨root', hroot', placed, hp, frames, named⟩ := named_issues h
  obtain rfl : root' = root := Except.ok.inj (hroot'.symm.trans hroot)
  have ids := Node.place_lowControls target (stands_int v.width) minimum hp
  rw [← frames] at ids
  rw [tooSmall, named _ (by decide), List.map_map]
  calc _ = ((Defect.named _ _).map (·.nodeId)).map fun id => some (some id) := List.map_map.symm
    _ = _ := by rw [ids, show s.settings.surface.touch.h = s.settings.minTouchTarget.h from rfl,
      Node.lowControls_eq, List.map_map]; rfl

/-- The control of a frame that is too narrow was stretched to this width. -/
theorem Layout.stretched_of_isNarrow (target : s.settings.surface.touch.Touchable)
    (h : (Layout.compute s detection v).result = .ok l)
    (hroot : (s.screen.root.resolve (.int v.width)).result = .ok root)
    (minimum : ∀ n ∈ root.visibleNodes, n.isTouched = true → n.header.FiniteMinimum)
    {m : Located} {f : Frame Number Float} (hf : (m, f) ∈ root.touchedFrames l.frames)
    (narrow : f.isNarrow s.settings.minTouchTarget = true) :
    ∃ w, Offered ⟨root, rootPointer⟩ (Number.int v.width) m w true ∧ f.w = w := by
  obtain ⟨root', placed, hroot', hp, frames⟩ := compute_eq_ok h
  obtain rfl : root' = root := Except.ok.inj (hroot'.symm.trans hroot)
  obtain ⟨hf, touched⟩ := List.mem_filter.mp hf
  have hm : m ∈ (⟨root', rootPointer⟩ : Located).subtree := (List.of_mem_zip hf).1
  obtain ⟨p₀, rfl⟩ := Node.exists_placement ((Node.mem_walkFrom.mp hm).1 rfl) hp
  have shown : m.node ∈ root'.visibleNodes := by
    rw [← Node.walkFrom_nodes root' rootPointer]
    exact List.mem_map_of_mem hm
  obtain ⟨w, b, o⟩ := Located.offered_of_mem hp hm
  rw [frames] at hf
  obtain ⟨rfl, width⟩ := o.stretched_of_narrow hp target (stands_int v.width) touched
    (minimum _ shown touched) hf narrow
  exact ⟨w, o, width⟩

/-- When the touch target and the least sizes of the controls are finite, the issues of a layout about
touch targets are those of the visible controls, in document order, whose frame is too low. A frame that
is too narrow is the one of a control that was stretched to the width inside its parent, and is not told
of. So all that are too small are told of when no control is stretched to less than the touch target. -/
theorem low_controls_told (hs : Scaffold.read document = .ok s)
    (h : (Layout.compute s detection v).result = .ok l)
    (hroot : (s.screen.root.resolve (.int v.width)).result = .ok root)
    (wide : s.settings.minTouchTarget.w.isFinite = true)
    (high : s.settings.minTouchTarget.h.isFinite = true)
    (minimum : ∀ n ∈ root.visibleNodes, n.isTouched = true → n.header.FiniteMinimum) :
    l.tooSmall =
        issueIds ((root.touchedFrames l.frames).filter (·.2.isLow s.settings.minTouchTarget)) ∧
    (∀ m f, (m, f) ∈ root.touchedFrames l.frames → f.isNarrow s.settings.minTouchTarget = true →
      ∃ w, Offered ⟨root, rootPointer⟩ (Number.int v.width) m w true ∧ f.w = w) ∧
    ((∀ m f, (m, f) ∈ root.touchedFrames l.frames →
        ∀ w, Offered ⟨root, rootPointer⟩ (Number.int v.width) m w true →
          f.isNarrow s.settings.minTouchTarget = false) →
      l.tooSmall = issueIds ((root.touchedFrames l.frames).filter fun q =>
        q.2.isNarrow s.settings.minTouchTarget || q.2.isLow s.settings.minTouchTarget)) := by
  have target : s.settings.surface.touch.Touchable :=
    ⟨stands_of_isFinite wide, stands_of_isFinite high, (Scaffold.read_doubles hs).w,
      (Scaffold.read_doubles hs).h⟩
  have narrow := fun m f => Layout.stretched_of_isNarrow (m := m) (f := f) target h hroot minimum
  have low := Layout.tooSmall_eq target h hroot minimum
  refine ⟨low, narrow, fun unstretched => ?_⟩
  rw [low]
  refine congrArg _ (List.filter_congr fun q hq => ?_)
  cases thin : q.2.isNarrow s.settings.minTouchTarget with
  | false => exact (Bool.false_or _).symm
  | true =>
    obtain ⟨w, o, -⟩ := narrow _ _ hq thin
    exact absurd thin (Bool.eq_false_iff.mp (unstretched _ _ hq w o))

end

/-- A grid with a button that is stretched to its narrow column, and a field that is to be low. -/
def Scaffold.narrowDocument : Value :=
  .object [("screen", .object [("id", .text "screen"), ("root",
    .object [("type", .text "Grid"), ("id", .text "cells"), ("columns", .int 8), ("children", .list
      [.object [("type", .text "Stack"), ("id", .text "column"), ("align", .text "stretch"),
          ("children", .list
            [.object [("type", .text "Button"), ("id", .text "go"), ("text", .text "Go")]])],
        .object [("type", .text "Field"), ("id", .text "name"), ("label", .text "Name"),
          ("heightPolicy", .text "fixed"), ("minSize", .object [("h", .int 20)])]])])])]

/-- The low field is told of. -/
theorem lowField_told : ∃ (s : Scaffold) (root : Node) (l : Layout),
    Scaffold.read Scaffold.narrowDocument = .ok s ∧
    (s.screen.root.resolve (.int 320)).result = .ok root ∧
    (Layout.compute s .role ⟨320, 640, by decide, by decide⟩).result = .ok l ∧
    s.settings.minTouchTarget.w.isFinite = true ∧ s.settings.minTouchTarget.h.isFinite = true ∧
    (∀ n ∈ root.visibleNodes, n.isTouched = true → n.header.FiniteMinimum) ∧
    l.tooSmall = [some (some "name")] ∧
    l.tooSmall =
      issueIds ((root.touchedFrames l.frames).filter (·.2.isLow s.settings.minTouchTarget)) := by
  have computed : ((Scaffold.read Scaffold.narrowDocument).toOption.bind fun s =>
      (s.screen.root.resolve (.int 320)).result.toOption.bind fun root =>
        (Layout.compute s .role ⟨320, 640, by decide, by decide⟩).result.toOption.map fun l =>
          (s.settings.minTouchTarget.w.isFinite, s.settings.minTouchTarget.h.isFinite,
            root.visibleNodes.all fun n => n.header.minSize.toList.all fun b =>
              (b.w.toList ++ b.h.toList).all (isFinite <| .float ·),
            decide (l.tooSmall = [some (some "name")]))) =
      some (true, true, true, true) := by
    decide +kernel
  obtain ⟨s, hs, computed⟩ := Option.bind_eq_some_iff.mp computed
  obtain ⟨root, hroot, computed⟩ := Option.bind_eq_some_iff.mp computed
  obtain ⟨l, hl, told⟩ := Option.map_eq_some_iff.mp computed
  have hs := Result.toOption_eq_some.mp hs
  have hroot := Result.toOption_eq_some.mp hroot
  have hl := Result.toOption_eq_some.mp hl
  simp only [Prod.mk.injEq] at told
  obtain ⟨wide, high, finite, small⟩ := told
  have minimum : ∀ n ∈ root.visibleNodes, n.isTouched = true → n.header.FiniteMinimum := by
    intro n hn _ b hb x hx
    have own := List.all_eq_true.mp (List.all_eq_true.mp finite n hn) b (Option.mem_toList.mpr hb)
    refine List.all_eq_true.mp own x (List.mem_append.mpr ?_)
    exact hx.imp Option.mem_toList.mpr Option.mem_toList.mpr
  exact ⟨s, root, l, hs, hroot, hl, wide, high, minimum, of_decide_eq_true small,
    (low_controls_told hs hl hroot wide high minimum).1⟩

/-- The button is 40 wide, less than the touch target, and is not told of. -/
theorem narrowButton_untold : ∃ (s : Scaffold) (root : Node) (l : Layout),
    Scaffold.read Scaffold.narrowDocument = .ok s ∧
    (s.screen.root.resolve (.int 320)).result = .ok root ∧
    (Layout.compute s .role ⟨320, 640, by decide, by decide⟩).result = .ok l ∧
    (root.visibleNodes.map (·.id)) = ["cells", "column", "go", "name"] ∧
    ((root.touchedFrames l.frames).map fun q => (q.2.w, q.2.h)) = [(.float 40, 44), (.float 44, 20)] ∧
    l.tooSmall = [some (some "name")] ∧
    issueIds ((root.touchedFrames l.frames).filter fun q =>
        q.2.isNarrow s.settings.minTouchTarget || q.2.isLow s.settings.minTouchTarget) =
      [some (some "go"), some (some "name")] := by
  have computed : ((Scaffold.read Scaffold.narrowDocument).toOption.bind fun s =>
      (s.screen.root.resolve (.int 320)).result.toOption.bind fun root =>
        (Layout.compute s .role ⟨320, 640, by decide, by decide⟩).result.toOption.map fun l =>
          (root.visibleNodes.map (·.id),
            (root.touchedFrames l.frames).map fun q => (q.2.w, q.2.h),
            decide (l.tooSmall = [some (some "name")]),
            decide (issueIds ((root.touchedFrames l.frames).filter fun q =>
              q.2.isNarrow s.settings.minTouchTarget || q.2.isLow s.settings.minTouchTarget) =
                [some (some "go"), some (some "name")]))) =
      some (["cells", "column", "go", "name"], [(.float 40, 44), (.float 44, 20)], true, true) := by
    decide +kernel
  obtain ⟨s, hs, computed⟩ := Option.bind_eq_some_iff.mp computed
  obtain ⟨root, hroot, computed⟩ := Option.bind_eq_some_iff.mp computed
  obtain ⟨l, hl, told⟩ := Option.map_eq_some_iff.mp computed
  simp only [Prod.mk.injEq, decide_eq_true_iff] at told
  exact ⟨s, root, l, Result.toOption_eq_some.mp hs, Result.toOption_eq_some.mp hroot,
    Result.toOption_eq_some.mp hl, told⟩

end Wireframe
