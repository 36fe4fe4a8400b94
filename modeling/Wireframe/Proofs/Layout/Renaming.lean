import Wireframe.Layout.Defects
import Wireframe.Proofs.Layout.FrameOrder
import Wireframe.Proofs.Renaming

/-
  Wireframe.Proofs.Layout.Renaming — a layout does not look at ids.

  Ids are handed on to frames and to what is noted, and nothing is calculated from them. So a
  renamed tree comes to the same frames and leaves the same notes, about the nodes by their other
  names, or it fails where the tree fails.

  Proved:
  - `Laying.Renames.bind` and the others: what holds of every step holds of the whole.
  - `Column.arrange_renames`, `Row.arrange_renames`, `Wrap.arrange_renames`, `Cells.arrange_renames`:
    every way to arrange children that come to the same.
  - `Node.place_renames`: a tree, by induction over its children.
  - `Defect.outline_renamed`: what is noted is told with the same pointers.
-/

namespace Wireframe

variable {α δ : Type} (r : Renaming)

def Frame.renamed (f : Frame α δ) : Frame α δ := { f with id := r f.id }

def Placement.renamed (p : Placement α δ) : Placement α δ :=
  { p with id := r p.id, below := p.below.map (Frame.renamed r) }

def Defect.renamed : Defect α → Defect α
  | offScale id typeName property value scale => offScale (r id) typeName property value scale
  | smallTarget id typeName found minimum => smallTarget (r id) typeName found minimum
  | rowOverflow id container limit reached => rowOverflow (r id) (r container) limit reached
  | cellOverflow id container cell columns width => cellOverflow (r id) (r container) cell columns width
  | belowFold id bottom => belowFold (r id) bottom

/-- What a defect is told as names the other node, at the same pointer. -/
theorem Defect.outline_renamed (v : Viewport) (root : Node) (d : Defect Number) :
    ((d.renamed r).toIssue v (root.renamed r).pointers).outline =
      ((d.toIssue v root.pointers).outline).renamed r := by
  have other : (d.renamed r).nodeId = r d.nodeId := by cases d <;> rfl
  have place := root.pointer_renamed r d.nodeId
  cases d <;>
    simp only [toIssue, Issue.outline, Outline.renamed, other, place, Option.map_some] <;> rfl

/-! ## Steps of a layout -/

section

variable {β β' γ γ' : Type}

/-- The second layout is the first about nodes with other names; it comes to what `f` makes of what
    the first one comes to. -/
structure Laying.Renames (f : β → γ) (t : Laying α β) (t' : Laying α γ) : Prop where
  notes : t'.notes = t.notes.map (Defect.renamed r)
  result : t'.result = t.result.map f

namespace Laying.Renames

variable {r} {f : β → β'} {g : γ → γ'}

theorem done (a : β) : Renames (α := α) r f (Trail.done a) (Trail.done (f a)) := ⟨rfl, rfl⟩

theorem note (d : Defect α) : Renames r id (Trail.note d) (Trail.note (d.renamed r)) := ⟨rfl, rfl⟩

theorem ofExcept {e : Except Failure β} {e' : Except Failure β'} (h : e' = e.map f) :
    Renames (α := α) r f (Trail.ofExcept e) (Trail.ofExcept e') := ⟨rfl, h⟩

theorem lift {c : Calculation β} {c' : Calculation β'} (h : c' = c.map f) :
    Renames (α := α) r f (liftM c) (liftM c') := by
  refine ⟨rfl, ?_⟩
  subst h
  cases c <;> rfl

theorem bind {t : Laying α β} {t' : Laying α β'} {k : β → Laying α γ} {k' : β' → Laying α γ'}
    (h : Renames r f t t') (hk : ∀ a, Renames r g (k a) (k' (f a))) :
    Renames r g (t >>= k) (t' >>= k') := by
  obtain ⟨notes, result⟩ := t
  obtain ⟨notes', result'⟩ := t'
  obtain ⟨rfl, rfl⟩ : notes' = notes.map (Defect.renamed r) ∧ result' = result.map f :=
    ⟨h.notes, h.result⟩
  cases result with
  | error e => exact ⟨rfl, rfl⟩
  | ok a =>
    refine ⟨?_, (hk a).result⟩
    show notes.map _ ++ (k' (f a)).notes = (notes ++ (k a).notes).map _
    rw [List.map_append, (hk a).notes]

/-- A calculation that goes into both layouts. -/
theorem lift_bind {c : Calculation β} {k : β → Laying α γ} {k' : β → Laying α γ'}
    (hk : ∀ a, Renames r g (k a) (k' a)) : Renames r g (liftM c >>= k) (liftM c >>= k') := by
  have same : c = c.map id := by cases c <;> rfl
  exact bind (lift same) hk

theorem ite {p : Prop} [Decidable p] {a b : Laying α β} {a' b' : Laying α β'}
    (ha : Renames r f a a') (hb : Renames r f b b') :
    Renames r f (if p then a else b) (if p then a' else b') := by
  split
  · exact ha
  · exact hb

/-- A note that is left only under a condition. -/
theorem ite_note {p : Prop} [Decidable p] {d d' : Defect α} {a : Laying α β} {a' : Laying α β'}
    (same : d' = d.renamed r) (h : Renames r f a a') :
    Renames r f (if p then (Trail.note d >>= fun _ => a) else a)
      (if p then (Trail.note d' >>= fun _ => a') else a') := by
  subst same
  exact ite (bind (note d) fun _ => h) h

end Laying.Renames

end

variable [Quantity α δ] [Scalar δ]

open Laying

/-! ## Placements -/

theorem Placement.frames_renamed (p : Placement α δ) :
    (p.renamed r).frames = p.frames.map (Frame.renamed r) := rfl

theorem Placement.moved_renamed (p : Placement α δ) (dx dy : α) :
    (p.renamed r).moved dx dy = (p.moved dx dy).map (List.map (Frame.renamed r)) := by
  have shifted : ∀ x y : δ, (p.renamed r).frames.map (·.moved x y) =
      (p.frames.map (·.moved x y)).map (Frame.renamed r) := by
    intro x y
    rw [frames_renamed, List.map_map, List.map_map]
    rfl
  unfold moved
  cases Quantity.toCoordinate dx with
  | error e => rfl
  | ok x =>
    cases Quantity.toCoordinate dy with
    | error e => rfl
    | ok y => exact congrArg Except.ok (shifted x y)

omit [Scalar δ] in
theorem Placement.of_renamed (id : String) (w h : α) (below : List (Frame α δ)) :
    Placement.of (r id) w h (below.map (Frame.renamed r)) =
      (Placement.of id w h below).map (Placement.renamed r) := by
  unfold Placement.of
  split
  · rfl
  · rfl

/-- Two children of a container come to the same. -/
structure Child.Renames (c c' : Child α δ) : Prop where
  id : c'.id = r c.id
  widthPolicy : c'.widthPolicy = c.widthPolicy
  placed : c.placed.Renames r (Option.map (Placement.renamed r)) c'.placed

section

variable {r} {name : String} {align : Align} {width padding gap content cell limit : α}
  {columns : Nat} {cs cs' : List (Child α δ)} (children : List.Forall₂ (Child.Renames r) cs cs')
include children

/-! ## Columns -/

def Run.renamed (r : Renaming) (run : Run α δ) : Run α δ :=
  { run with frames := run.frames.map (Frame.renamed r) }

omit [Quantity α δ] [Scalar δ] in
omit children in
theorem Column.fit_renamed {c c' : Child α δ} (child : c.Renames r c') (p : Placement α δ) :
    fit align content c' (p.renamed r) = (fit align content c p).renamed r := by
  unfold fit
  rw [child.widthPolicy]
  split
  · rfl
  · rfl

theorem Column.runFrom_renames (y : α) : (runFrom align padding gap content y cs).Renames r
    (Run.renamed r) (runFrom align padding gap content y cs') := by
  induction children generalizing y with
  | nil => exact .done _
  | cons child _ ih =>
    refine child.placed.bind fun placed => ?_
    cases placed with
    | none => exact ih y
    | some p =>
      simp only [Option.map_some, fit_renamed child]
      refine .lift_bind fun x => .bind (.lift (Placement.moved_renamed r _ x y)) fun frames =>
        .lift_bind fun next => .bind (ih next) fun run => ⟨rfl, ?_⟩
      exact congrArg (fun fs => Except.ok (⟨fs, run.next, true⟩ : Run α δ)) List.map_append.symm

theorem Column.arrange_renames : (arrange name align width padding gap content cs).Renames r
    (Placement.renamed r) (arrange (r name) align width padding gap content cs') :=
  (runFrom_renames children padding).bind fun _ => .lift_bind fun _ =>
    .ofExcept (Placement.of_renamed r ..)

/-! ## Rows -/

omit [Scalar δ] in
theorem Row.runFrom_renames (x : α) : (runFrom name limit gap x cs).Renames r
    (List.map (Prod.map id (Placement.renamed r))) (runFrom (r name) limit gap x cs') := by
  induction children generalizing x with
  | nil => exact .done _
  | @cons c c' _ _ child _ ih =>
    refine child.placed.bind fun placed => ?_
    cases placed with
    | none => exact ih x
    | some p =>
      refine .lift_bind fun reached => .lift_bind fun bound => ?_
      dsimp only
      have told : Defect.rowOverflow c'.id (r name) limit reached =
          (Defect.rowOverflow c.id name limit reached).renamed r := by
        rw [child.id]
        rfl
      exact .ite_note told (.lift_bind fun next => .bind (ih next) fun run => .done ((x, p) :: run))

omit children in
theorem Row.framesOf_renamed (height : α) (run : List (α × Placement α δ)) :
    framesOf align padding height (run.map (Prod.map id (Placement.renamed r))) =
      (framesOf align padding height run).map (List.map (Frame.renamed r)) := by
  induction run with
  | nil => rfl
  | cons first rest ih =>
    obtain ⟨x, p⟩ := first
    simp only [List.map_cons, Prod.map, framesOf, Placement.moved_renamed, ih]
    show (startOf align padding height p.h >>= _) = (startOf align padding height p.h >>= _).map _
    cases startOf align padding height p.h with
    | error e => rfl
    | ok y =>
      show ((p.moved x y).map _ >>= _) = (p.moved x y >>= _).map _
      cases p.moved x y with
      | error e => rfl
      | ok frames =>
        cases framesOf align padding height rest with
        | error e => rfl
        | ok more => exact congrArg Except.ok List.map_append.symm

theorem Row.arrange_renames : (arrange name align width padding gap cs).Renames r
    (Placement.renamed r) (arrange (r name) align width padding gap cs') := by
  refine (runFrom_renames children padding).bind fun run => ?_
  have height : (run.map (Prod.map id (Placement.renamed r))).map (·.2.h) = run.map (·.2.h) := by
    rw [List.map_map]
    rfl
  simp only [height]
  exact .bind (.lift (framesOf_renamed _ run)) fun frames => .lift_bind fun outer =>
    .ofExcept (Placement.of_renamed r ..)

/-! ## Rows that break -/

theorem Wrap.runFrom_renames (c : Cursor α) : (runFrom limit padding gap c cs).Renames r
    (Prod.map (List.map (Frame.renamed r)) id) (runFrom limit padding gap c cs') := by
  induction children generalizing c with
  | nil => exact .done _
  | cons child _ ih =>
    refine child.placed.bind fun placed => ?_
    cases placed with
    | none => exact ih c
    | some p =>
      refine .lift_bind fun at_ => .bind (.lift (Placement.moved_renamed r p at_.x at_.y)) fun here =>
        .lift_bind fun next => .bind (ih next) fun out => ⟨rfl, ?_⟩
      exact congrArg (fun fs => Except.ok (fs, out.2)) List.map_append.symm

theorem Wrap.arrange_renames : (arrange name width padding gap cs).Renames r
    (Placement.renamed r) (arrange (r name) width padding gap cs') :=
  (runFrom_renames children _).bind fun _ => .lift_bind fun _ =>
    .ofExcept (Placement.of_renamed r ..)

/-! ## Cells -/

theorem Cells.runFrom_renames (c : Cursor α) : (runFrom name columns cell gap c cs).Renames r
    (Prod.map (List.map (Frame.renamed r)) id) (runFrom (r name) columns cell gap c cs') := by
  induction children generalizing c with
  | nil => exact .done _
  | @cons first first' _ _ child _ ih =>
    refine child.placed.bind fun placed => ?_
    cases placed with
    | none => exact ih c
    | some p =>
      refine .lift_bind fun bound => ?_
      dsimp only
      have told : Defect.cellOverflow first'.id (r name) cell columns (p.renamed r).w =
          (Defect.cellOverflow first.id name cell columns p.w).renamed r := by
        rw [child.id]
        rfl
      refine .ite_note told (.lift_bind fun row => .lift_bind fun x =>
        .bind (.lift (Placement.moved_renamed r p x row.y)) fun here =>
          .bind (ih (after row p)) fun out => ⟨rfl, ?_⟩)
      exact congrArg (fun fs => Except.ok (fs, out.2)) List.map_append.symm

theorem Cells.arrange_renames : (arrange name columns width cell gap cs).Renames r
    (Placement.renamed r) (arrange (r name) columns width cell gap cs') :=
  (runFrom_renames children _).bind fun _ => .lift_bind fun _ =>
    .ofExcept (Placement.of_renamed r ..)

theorem arrangeStack_renames (c : StackContent) :
    (arrangeStack name c width padding gap content cs).Renames r (Placement.renamed r)
      (arrangeStack (r name) c width padding gap content cs') := by
  unfold arrangeStack
  split
  · exact Column.arrange_renames children
  · exact Wrap.arrange_renames children
  · exact Row.arrange_renames children

end

/-! ## Nodes -/

section

variable {r}

theorem insetAround_renames (name : String) (width padding : α) (placed : Option (Placement α δ)) :
    (insetAround name width padding placed).Renames r (Placement.renamed r)
      (insetAround (r name) width padding (placed.map (Placement.renamed r))) := by
  cases placed with
  | none => exact .ofExcept (Placement.of_renamed r name width _ [])
  | some p =>
    exact .lift_bind fun height => .bind (.lift (Placement.moved_renamed r p padding padding))
      fun frames => .ofExcept (Placement.of_renamed r ..)

omit [Scalar δ] in
theorem checkSpacing_renames (s : Surface α) (n : Node) (property : String) (value : Spacing α) :
    (checkSpacing s n property value).Renames r id (checkSpacing s (n.renamed r) property value) := by
  unfold checkSpacing
  refine .ite (.done ()) (.lift_bind fun _ => ?_)
  rw [Node.id_renamed, Node.typeName_renamed]
  exact .note _

omit [Scalar δ] in
theorem checkTarget_renames (s : Surface α) (n : Node) (e : Extent α) :
    (checkTarget s n e).Renames r id (checkTarget s (n.renamed r) e) := by
  unfold checkTarget
  refine .ite (.done ()) (.lift_bind fun _ => .lift_bind fun _ => ?_)
  rw [Node.id_renamed, Node.typeName_renamed]
  exact .note _

theorem Node.isTouched_renamed (n : Node) : (n.renamed r).isTouched = n.isTouched := by
  rw [isTouched, isButton_renamed, isField_renamed, header_renamed, isTouched]
  rfl

omit [Scalar δ] in
theorem placeLeaf_renames (s : Surface α) (n : Node) (size : Calculation (Extent α)) :
    (placeLeaf s n size : Laying α (Placement α δ)).Renames r (Placement.renamed r)
      (placeLeaf s (n.renamed r) size) := by
  have leaf : ∀ e : Extent α, Laying.Renames (α := α) r (Placement.renamed r)
      (Trail.ofExcept (Placement.of n.id e.w e.h []))
      (Trail.ofExcept (Placement.of (n.renamed r).id e.w e.h ([] : List (Frame α δ)))) := by
    intro e
    rw [Node.id_renamed]
    exact .ofExcept (Placement.of_renamed r n.id e.w e.h [])
  refine .lift_bind fun e => ?_
  dsimp only
  rw [n.isTouched_renamed]
  exact .ite ((checkTarget_renames s n e).bind fun _ => leaf e) (leaf e)

namespace Node

/-- The renamed tree is laid out like the tree, in any width. -/
theorem place_renames (s : Surface α) (n : Node) : ∀ width : α,
    (n.place s width : Laying α (Option (Placement α δ))).Renames r
      (Option.map (Placement.renamed r)) ((n.renamed r).place s width) := by
  induction n using byChildren with
  | step n ih =>
    intro width
    have each : ∀ (content : α) (ns : List Node), ns ⊆ n.children →
        List.Forall₂ (Child.Renames r) (placeAll (δ := δ) s content ns)
          (placeAll s content (renamedAll r ns)) := by
      intro content ns below
      rw [placeAll_eq_map, placeAll_eq_map, renamedAll_eq, List.forall₂_map_left_iff,
        List.forall₂_map_right_iff, List.forall₂_map_right_iff, List.forall₂_same]
      intro c hc
      refine ⟨c.id_renamed r, ?_, ih c (below hc) content⟩
      simp only [asChild, header_renamed]
      rfl
    unfold place
    rw [visible_renamed]
    refine .ite ?_ (.done none)
    cases n with
    | stack h c cs =>
      exact (checkSpacing_renames s (stack h c cs) ..).bind fun _ =>
        (checkSpacing_renames s (stack h c cs) ..).bind fun _ => .lift_bind fun content =>
          .bind (arrangeStack_renames (each content cs (List.Subset.refl _)) c) fun p => .done (some p)
    | grid h c cs =>
      exact (checkSpacing_renames s (grid h c cs) ..).bind fun _ => .lift_bind fun columns =>
        .lift_bind fun cell =>
          .bind (Cells.arrange_renames (each cell cs (List.Subset.refl _))) fun p => .done (some p)
    | box h p child =>
      cases child with
      | none =>
        exact (checkSpacing_renames s (box h p none) ..).bind fun _ =>
          .bind (insetAround_renames h.id width _ none) fun p => .done (some p)
      | some c =>
        exact (checkSpacing_renames s (box h p none) ..).bind fun _ => .lift_bind fun content =>
          .bind (ih c (List.mem_singleton_self c) content) fun placed =>
            .bind (insetAround_renames h.id width _ placed) fun p => .done (some p)
    | form h c fs as =>
      exact .lift_bind fun content => .bind (Column.arrange_renames
        (List.rel_append (each content fs (List.subset_append_left fs as))
          (each content as (List.subset_append_right fs as)))) fun p => .done (some p)
    | text h t => exact .bind (placeLeaf_renames s (text h t) _) fun p => .done (some p)
    | button h b => exact .bind (placeLeaf_renames s (button h b) _) fun p => .done (some p)
    | field h f => exact .bind (placeLeaf_renames s (field h f) _) fun p => .done (some p)
    | table h t => exact .bind (placeLeaf_renames s (table h t) _) fun p => .done (some p)

end Node

end

end Wireframe
