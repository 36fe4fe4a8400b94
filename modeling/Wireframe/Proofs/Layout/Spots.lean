import Wireframe.Proofs.Layout.FrameOrder
import Mathlib.Data.List.ReduceOption

/-
  Wireframe.Proofs.Layout.Spots — where a container puts its children.

  However children are arranged, they are put one after the other: a step puts one child in its
  spot and says where the arrangement stands after it. A hidden child takes no step. So what a
  container comes to is told by the spots of its visible children, by the step of its arrangement,
  and by its height.

  Proved:
  - `Course.keeps`: what every step keeps holds after all of them.
  - `Column.arrange_eq_ok`, `Row.arrange_eq_ok`, `Wrap.arrange_eq_ok`, `Cells.arrange_eq_ok`: the
    spots of each arrangement, in its own arithmetic, and the height that comes of them.
  - `arrangeStack_eq_ok`, `insetAround_eq_ok`: the same for stacks, whatever their direction, and
    for boxes.
-/

namespace Wireframe

open Quantity

variable {α δ : Type} [Quantity α δ] [Scalar δ]

omit [Scalar δ] in
theorem Placement.of_eq {id : String} {w h : α} {below : List (Frame α δ)} {p : Placement α δ}
    (hp : Placement.of id w h below = .ok p) : p = ⟨id, w, h, rounded w, below⟩ := by
  unfold Placement.of at hp
  split at hp <;> cases hp
  rfl

/-! ## Spots -/

/-- A child that is put somewhere, and its frames there. -/
structure Spot (α δ : Type) [Quantity α δ] [Scalar δ] where
  placed : Placement α δ
  x : α
  y : α
  frames : List (Frame α δ)
  moved : placed.moved x y = .ok frames

/-- The frames in a spot, none without one. -/
def Spot.shown (spot : Option (Spot α δ)) : List (Frame α δ) := spot.elim [] (·.frames)

/-- A run of steps, each of which puts one child. -/
inductive Course {σ : Type} (step : σ → Placement α δ → Calculation (α × α × σ)) :
    σ → List (Spot α δ) → σ → Prop
  | done (at_ : σ) : Course step at_ [] at_
  | next {at_ then_ last : σ} {spot : Spot α δ} {rest : List (Spot α δ)} :
      step at_ spot.placed = .ok (spot.x, spot.y, then_) → Course step then_ rest last →
        Course step at_ (spot :: rest) last

/-- What holds before anything is put, and is kept by every step, holds after a run of them. -/
theorem Course.keeps {σ : Type} {step : σ → Placement α δ → Calculation (α × α × σ)}
    (Inv : List (Spot α δ) → σ → Prop)
    (kept : ∀ {before at_ then_ spot}, Inv before at_ →
      step at_ spot.placed = .ok (spot.x, spot.y, then_) → Inv (before ++ [spot]) then_)
    {start last : σ} {spots : List (Spot α δ)} (course : Course step start spots last)
    (first : Inv [] start) : Inv spots last := by
  suffices ∀ {before}, Inv before start → Inv (before ++ spots) last from this first
  clear first
  induction course with
  | done => intro before h; rwa [List.append_nil]
  | next put _ ih =>
    intro before h
    rw [List.append_cons]
    exact ih (kept h put)

/-- The height of the tallest of some spots, and none where there are none that are higher. -/
def Spot.tallest (spots : List (Spot α δ)) : α :=
  spots.foldl (fun height spot => larger height spot.placed.h) noLength

theorem Spot.tallest_snoc (spots : List (Spot α δ)) (spot : Spot α δ) :
    tallest (spots ++ [spot]) = larger (tallest spots) spot.placed.h := by
  rw [tallest, List.foldl_append]
  rfl

/-- What is put for a child: its placement as the container fits it, nothing when it is hidden. -/
def Child.Puts (fit : Child α δ → Placement α δ → Placement α δ) (c : Child α δ)
    (spot : Option (Spot α δ)) : Prop :=
  ∃ placed, c.placed.result = .ok placed ∧ spot.map (·.placed) = placed.map (fit c)

/-- What is told of some children that are put in these spots: of each what laying it out tells, and
then what the container itself tells of it. -/
def Child.told (tells : Child α δ → Option (Spot α δ) → List (Defect α)) (children : List (Child α δ))
    (spots : List (Option (Spot α δ))) : List (Defect α) :=
  (children.zip spots).flatMap fun q => q.1.placed.notes ++ tells q.1 q.2

/-- The spots make no difference where nothing is told of them. -/
theorem Child.told_of_children {tells : Child α δ → List (Defect α)} {children : List (Child α δ)}
    {spots : List (Option (Spot α δ))} (long : children.length = spots.length) :
    Child.told (fun c _ => tells c) children spots =
      children.flatMap fun c => c.placed.notes ++ tells c := by
  conv_rhs => rw [← List.map_fst_zip (Nat.le_of_eq long), List.flatMap_map]
  rfl

/-- Some children are put in these spots by the steps of an arrangement, which tells of them as it
puts them. -/
structure Laid {σ : Type} (fit : Child α δ → Placement α δ → Placement α δ)
    (step : σ → Placement α δ → Calculation (α × α × σ))
    (tells : Child α δ → Option (Spot α δ) → List (Defect α)) (start : σ) (children : List (Child α δ))
    (spots : List (Option (Spot α δ))) (last : σ) (notes : List (Defect α)) : Prop where
  puts : List.Forall₂ (Child.Puts fit) children spots
  course : Course step start spots.reduceOption last
  noted : notes = Child.told tells children spots

namespace Laid

variable {σ : Type} {fit : Child α δ → Placement α δ → Placement α δ}
  {step : σ → Placement α δ → Calculation (α × α × σ)}
  {tells : Child α δ → Option (Spot α δ) → List (Defect α)} {start next last : σ} {c : Child α δ}
  {children : List (Child α δ)} {spots : List (Option (Spot α δ))} {notes : List (Defect α)}

theorem nil : Laid fit step tells start [] [] start [] := ⟨.nil, .done start, rfl⟩

theorem hidden (h : Laid fit step tells start children spots last notes)
    (hc : c.placed.result = .ok none) (silent : tells c none = []) :
    Laid fit step tells start (c :: children) (none :: spots) last (c.placed.notes ++ notes) := by
  refine ⟨.cons ⟨none, hc, rfl⟩ h.puts, h.course, ?_⟩
  rw [h.noted, Child.told, Child.told, List.zip_cons_cons, List.flatMap_cons, silent, List.append_nil]

theorem shown {p : Placement α δ} {spot : Spot α δ}
    (h : Laid fit step tells next children spots last notes) (hc : c.placed.result = .ok (some p))
    (fits : spot.placed = fit c p) (put : step start spot.placed = .ok (spot.x, spot.y, next)) :
    Laid fit step tells start (c :: children) (some spot :: spots) last
      (c.placed.notes ++ (tells c (some spot) ++ notes)) := by
  refine ⟨.cons ⟨some p, hc, congrArg some fits⟩ h.puts, ?_, ?_⟩
  · rw [List.reduceOption_cons_of_some]
    exact .next put h.course
  · rw [h.noted, Child.told, Child.told, List.zip_cons_cons, List.flatMap_cons, List.append_assoc]

end Laid

/-- What a container comes to that holds some children in these spots. -/
structure Held (fit : Child α δ → Placement α δ → Placement α δ)
    (tells : Child α δ → Option (Spot α δ) → List (Defect α)) (id : String) (width : α)
    (children : List (Child α δ)) (spots : List (Option (Spot α δ))) (made : Laying α (Placement α δ))
    (p : Placement α δ) : Prop where
  puts : List.Forall₂ (Child.Puts fit) children spots
  placed : p = ⟨id, width, p.h, rounded width, spots.flatMap Spot.shown⟩
  noted : made.notes = Child.told tells children spots

/-! ## Columns -/

section

variable {id : String} {align : Align} {width padding gap content cell limit height : α}
  {columns : Nat} {children : List (Child α δ)} {p : Placement α δ}

namespace Column

def step (align : Align) (padding gap content : α) (y : α) (p : Placement α δ) :
    Calculation (α × α × α) := do
  let x ← startOf align padding content p.w
  let next ← (y + (p.h + gap) : Calculation α)
  return (x, y, next)

/-- Spots in a column of some height. -/
def Arranged (align : Align) (padding gap content : α) (spots : List (Spot α δ)) (height : α) : Prop :=
  ∃ last, Course (step align padding gap content) padding spots last ∧
    (if spots = [] then twice padding else last - gap + padding : Calculation α) = .ok height

theorem runFrom_eq_ok : ∀ {y : α} {run : Run α δ},
    (runFrom align padding gap content y children).result = .ok run →
      ∃ spots, Laid (fit align content) (step align padding gap content) (fun _ _ => []) y children spots
          run.next (runFrom align padding gap content y children).notes ∧
        run.frames = spots.flatMap Spot.shown ∧ (run.any = true ↔ spots.reduceOption ≠ []) := by
  induction children with
  | nil => intro y run h; cases h; exact ⟨[], .nil, rfl, by simp⟩
  | cons c rest ih =>
    intro y run h
    rw [runFrom] at h ⊢
    obtain ⟨placed, hc, h⟩ := Trail.result_bind_eq_ok.mp h
    rw [Trail.notes_bind hc]
    cases placed with
    | none =>
      obtain ⟨spots, laid, frames, any⟩ := ih h
      exact ⟨none :: spots, laid.hidden hc rfl, frames, any⟩
    | some p =>
      simp only [Trail.result_bind_eq_ok, Laying.result_lift] at h
      obtain ⟨x, hx, frames, hm, next, hn, run, hr, e⟩ := h
      cases e
      obtain ⟨spots, laid, below, -⟩ := ih hr
      let spot : Spot α δ := ⟨fit align content c p, x, y, frames, hm⟩
      have put : step align padding gap content y spot.placed = .ok (x, y, next) :=
        Result.bind_eq_ok.mpr ⟨x, hx, Result.bind_eq_ok.mpr ⟨next, hn, rfl⟩⟩
      simp only [Laying.bind_lift hx, Laying.bind_lift hm, Laying.bind_lift hn, Trail.notes_bind_pure]
      exact ⟨some spot :: spots, laid.shown hc rfl put, by rw [below]; rfl, by simp⟩

/-- A column is as high as its children and the gaps between them, with padding on both sides. -/
theorem arrange_eq_ok (h : (arrange id align width padding gap content children).result = .ok p) :
    ∃ spots, Held (fit align content) (fun _ _ => []) id width children spots
        (arrange id align width padding gap content children) p ∧
      Arranged align padding gap content spots.reduceOption p.h := by
  obtain ⟨run, hr, h⟩ := Trail.result_bind_eq_ok.mp h
  obtain ⟨height, hh, h⟩ := Trail.result_bind_eq_ok.mp h
  obtain ⟨spots, laid, frames, any⟩ := runFrom_eq_ok hr
  obtain rfl := Placement.of_eq h
  have hh := Laying.result_lift.mp hh
  refine ⟨spots, ⟨laid.puts, by rw [frames], ?_⟩, run.next, laid.course, ?_⟩
  · rw [arrange, Trail.notes_bind hr, Laying.bind_lift hh, ← laid.noted]
    exact List.append_nil _
  rw [← hh]
  by_cases none : spots.reduceOption = []
  · rw [if_pos none, if_neg fun a => any.mp a none]
  · rw [if_neg none, if_pos (any.mpr none)]

end Column

/-! ## Rows -/

namespace Row

def step (align : Align) (padding gap height : α) (x : α) (p : Placement α δ) :
    Calculation (α × α × α) := do
  let y ← startOf align padding height p.h
  let next ← (x + (p.w + gap) : Calculation α)
  return (x, y, next)

/-- What a row itself tells of a child: that it ends beyond the limit, by more than is forgiven. -/
def told (id : String) (limit : α) (child : Child α δ) : Option (Spot α δ) → List (Defect α)
  | none => []
  | some spot =>
    match (spot.x + spot.placed.w : Calculation α), (limit + (tolerance : α) : Calculation α) with
    | .ok reached, .ok bound => if lt bound reached then [.rowOverflow child.id id limit reached] else []
    | _, _ => []

/-- A child of a row ends somewhere, and it can be told whether this is beyond the limit. -/
structure Ends (limit : α) (spot : Spot α δ) (reached bound : α) : Prop where
  reached : (spot.x + spot.placed.w : Calculation α) = .ok reached
  bound : (limit + (tolerance : α) : Calculation α) = .ok bound

theorem Ends.told {spot : Spot α δ} {reached bound : α} (h : Ends limit spot reached bound)
    (child : Child α δ) : told id limit child (some spot) =
      if lt bound reached then [.rowOverflow child.id id limit reached] else [] := by
  simp only [Row.told, h.reached, h.bound]

/-- Spots in a row of some height. -/
def Arranged (align : Align) (padding gap : α) (spots : List (Spot α δ)) (height : α) : Prop :=
  ∃ last, Course (step align padding gap (largest (spots.map (·.placed.h)))) padding spots last ∧
    (largest (spots.map (·.placed.h)) + twice padding : Calculation α) = .ok height

theorem runFrom_eq_ok : ∀ {x : α} {run : List (α × Placement α δ)} {frames : List (Frame α δ)},
    (runFrom id limit gap x children).result = .ok run →
      framesOf align padding height run = .ok frames →
        ∃ spots last, Laid (fun _ p => p) (step align padding gap height) (told id limit) x children
            spots last (runFrom id limit gap x children).notes ∧
          frames = spots.flatMap Spot.shown ∧ run.map (·.2) = spots.reduceOption.map (·.placed) ∧
          ∀ spot ∈ spots.reduceOption, ∃ reached bound, Ends limit spot reached bound := by
  induction children with
  | nil => intro x run frames h hf; cases h; cases hf; exact ⟨[], x, .nil, rfl, rfl, nofun⟩
  | cons c rest ih =>
    intro x run frames h hf
    rw [runFrom] at h ⊢
    obtain ⟨placed, hc, h⟩ := Trail.result_bind_eq_ok.mp h
    rw [Trail.notes_bind hc]
    cases placed with
    | none =>
      obtain ⟨spots, last, laid, below⟩ := ih h hf
      exact ⟨none :: spots, last, laid.hidden hc rfl, below⟩
    | some p =>
      simp only [Trail.result_bind_eq_ok, Laying.result_lift, Trail.result_ite_note] at h
      obtain ⟨reached, hreached, bound, hbound, next, hn, run, hr, e⟩ := h
      cases e
      simp only [framesOf, Result.bind_eq_ok] at hf
      obtain ⟨y, hy, here, hm, others, ho, e⟩ := hf
      cases e
      obtain ⟨spots, last, laid, below, same, ends⟩ := ih hr ho
      let spot : Spot α δ := ⟨p, x, y, here, hm⟩
      have put : step align padding gap height x spot.placed = .ok (x, y, next) :=
        Result.bind_eq_ok.mpr ⟨y, hy, Result.bind_eq_ok.mpr ⟨next, hn, rfl⟩⟩
      have own : Ends limit spot reached bound := ⟨hreached, hbound⟩
      simp only [Laying.bind_lift hreached, Laying.bind_lift hbound, Laying.bind_lift hn,
        Trail.notes_ite_note, Trail.notes_bind_pure, ← own.told c]
      refine ⟨some spot :: spots, last, laid.shown hc rfl put, by rw [below]; rfl, by simp [same, spot], ?_⟩
      rw [List.reduceOption_cons_of_some]
      exact List.forall_mem_cons.mpr ⟨⟨reached, bound, own⟩, ends⟩

/-- A row is as high as its tallest child, with padding above and below. -/
theorem arrange_eq_ok (h : (arrange id align width padding gap children).result = .ok p) :
    ∃ spots, Held (fun _ p => p) (told id width) id width children spots
        (arrange id align width padding gap children) p ∧
      Arranged align padding gap spots.reduceOption p.h ∧
      ∀ spot ∈ spots.reduceOption, ∃ reached bound, Ends width spot reached bound := by
  obtain ⟨run, hr, h⟩ := Trail.result_bind_eq_ok.mp h
  obtain ⟨frames, hf, h⟩ := Trail.result_bind_eq_ok.mp h
  obtain ⟨outer, ho, h⟩ := Trail.result_bind_eq_ok.mp h
  have hf := Laying.result_lift.mp hf
  have ho := Laying.result_lift.mp ho
  obtain ⟨spots, last, laid, rfl, same, ends⟩ := runFrom_eq_ok hr hf
  obtain rfl := Placement.of_eq h
  have heights : run.map (·.2.h) = spots.reduceOption.map (·.placed.h) := by
    have := congrArg (List.map (·.h)) same
    rwa [List.map_map, List.map_map] at this
  refine ⟨spots, ⟨laid.puts, rfl, ?_⟩, ⟨last, heights ▸ laid.course, heights ▸ ho⟩, ends⟩
  rw [arrange, Trail.notes_bind hr, Laying.bind_lift hf, Laying.bind_lift ho, ← laid.noted]
  exact List.append_nil _

end Row

/-! ## Rows that break -/

namespace Wrap

def step (limit padding gap : α) (c : Cursor α) (p : Placement α δ) :
    Calculation (α × α × Cursor α) := do
  let c ← advance limit padding gap c p.w
  let next ← after gap c p
  return (c.x, c.y, next)

/-- Spots in rows that break, of some height together. -/
def Arranged (limit padding gap : α) (spots : List (Spot α δ)) (height : α) : Prop :=
  ∃ last, Course (step limit padding gap) ⟨padding, padding, noLength, false⟩ spots last ∧
    (if spots = [] then twice padding else last.y + last.rowHeight + padding : Calculation α) =
      .ok height

theorem runFrom_eq_ok : ∀ {c : Cursor α} {out : List (Frame α δ) × Cursor α},
    (runFrom limit padding gap c children).result = .ok out →
      ∃ spots, Laid (fun _ p => p) (step limit padding gap) (fun _ _ => []) c children spots out.2
          (runFrom limit padding gap c children).notes ∧
        out.1 = spots.flatMap Spot.shown ∧
          (out.2.any = true ↔ c.any = true ∨ spots.reduceOption ≠ []) := by
  induction children with
  | nil => intro c out h; cases h; exact ⟨[], .nil, rfl, by simp⟩
  | cons child rest ih =>
    intro c out h
    rw [runFrom] at h ⊢
    obtain ⟨placed, hc, h⟩ := Trail.result_bind_eq_ok.mp h
    rw [Trail.notes_bind hc]
    cases placed with
    | none =>
      obtain ⟨spots, laid, below⟩ := ih h
      exact ⟨none :: spots, laid.hidden hc rfl, below⟩
    | some p =>
      simp only [Trail.result_bind_eq_ok, Laying.result_lift] at h
      obtain ⟨d, hd, here, hm, next, hn, others, hr, e⟩ := h
      cases e
      obtain ⟨spots, laid, below, any⟩ := ih hr
      let spot : Spot α δ := ⟨p, d.x, d.y, here, hm⟩
      have put : step limit padding gap c spot.placed = .ok (d.x, d.y, next) :=
        Result.bind_eq_ok.mpr ⟨d, hd, Result.bind_eq_ok.mpr ⟨next, hn, rfl⟩⟩
      have started : next.any = true := by
        obtain ⟨x, -, e⟩ := Result.bind_eq_ok.mp hn
        cases e; rfl
      simp only [Laying.bind_lift hd, Laying.bind_lift hm, Laying.bind_lift hn, Trail.notes_bind_pure]
      exact ⟨some spot :: spots, laid.shown hc rfl put, by rw [below]; rfl,
        by simp [any.mpr (.inl started)]⟩

/-- Rows that break end below the last of them, with padding on both sides. -/
theorem arrange_eq_ok (h : (arrange id width padding gap children).result = .ok p) :
    ∃ spots, Held (fun _ p => p) (fun _ _ => []) id width children spots
        (arrange id width padding gap children) p ∧
      Arranged width padding gap spots.reduceOption p.h := by
  obtain ⟨run, hr, h⟩ := Trail.result_bind_eq_ok.mp h
  obtain ⟨height, hh, h⟩ := Trail.result_bind_eq_ok.mp h
  obtain ⟨spots, laid, frames, any⟩ := runFrom_eq_ok hr
  obtain rfl := Placement.of_eq h
  have hh := Laying.result_lift.mp hh
  refine ⟨spots, ⟨laid.puts, by rw [frames], ?_⟩, run.2, laid.course, ?_⟩
  · rw [arrange, Trail.notes_bind hr]
    dsimp only
    rw [Laying.bind_lift hh, ← laid.noted]
    exact List.append_nil _
  rw [← hh]
  by_cases none : spots.reduceOption = []
  · rw [if_pos none, if_neg fun a => by simpa [none] using any.mp a]
  · rw [if_neg none, if_pos (any.mpr (.inr none))]

end Wrap

/-! ## Cells -/

namespace Cells

/-- The next child begins a row when the rows so far are full, and there is one. -/
theorem row_eq (columns placed : ℕ) : placed / columns =
    if placed % columns = 0 ∧ 0 < placed then (placed - 1) / columns + 1 else (placed - 1) / columns := by
  cases placed with
  | zero => rfl
  | succ k =>
    rw [Nat.succ_div, Nat.add_sub_cancel]
    by_cases full : columns ∣ k + 1
    · rw [if_pos full, if_pos ⟨Nat.mod_eq_zero_of_dvd full, Nat.succ_pos k⟩]
    · rw [if_neg full, if_neg fun h => full (Nat.dvd_of_mod_eq_zero h.1), Nat.add_zero]

def step (columns : Nat) (cell gap : α) (c : Cursor α) (p : Placement α δ) :
    Calculation (α × α × Cursor α) := do
  let c ← advance columns gap c
  let x ← ((ofInt (c.placed % columns : Nat) : α) * (cell + gap) : Calculation α)
  return (x, c.y, after c p)

/-- Is a width beyond the width of a cell, by more than is forgiven? -/
def exceeds (cell width : α) : Bool :=
  match (cell + (tolerance : α) : Calculation α) with
  | .ok bound => lt bound width
  | .error _ => false

/-- What a grid itself tells of a child: that it is wider than its cell, if it is. -/
def told (id : String) (columns : ℕ) (cell : α) (child : Child α δ) : List (Defect α) :=
  match child.placed.result with
  | .ok (some p) => if exceeds cell p.w then [.cellOverflow child.id id cell columns p.w] else []
  | _ => []

/-- Spots in the cells of a grid of some height. -/
def Arranged (columns : Nat) (cell gap : α) (spots : List (Spot α δ)) (height : α) : Prop :=
  ∃ last, Course (step columns cell gap) ⟨noLength, noLength, 0⟩ spots last ∧
    (if spots = [] then .ok zero else last.y + last.rowHeight : Calculation α) = .ok height

theorem runFrom_eq_ok : ∀ {c : Cursor α} {out : List (Frame α δ) × Cursor α},
    (runFrom id columns cell gap c children).result = .ok out →
      ∃ spots, Laid (fun _ p => p) (step columns cell gap) (fun child _ => told id columns cell child) c
          children spots out.2 (runFrom id columns cell gap c children).notes ∧
        out.1 = spots.flatMap Spot.shown ∧
          out.2.placed = c.placed + spots.reduceOption.length := by
  induction children with
  | nil => intro c out h; cases h; exact ⟨[], .nil, rfl, by simp⟩
  | cons child rest ih =>
    intro c out h
    rw [runFrom] at h ⊢
    obtain ⟨placed, hc, h⟩ := Trail.result_bind_eq_ok.mp h
    rw [Trail.notes_bind hc]
    cases placed with
    | none =>
      obtain ⟨spots, laid, below⟩ := ih h
      exact ⟨none :: spots, laid.hidden hc (by rw [told, hc]), below⟩
    | some p =>
      simp only [Trail.result_bind_eq_ok, Laying.result_lift, Trail.result_ite_note] at h
      obtain ⟨bound, hb, d, hd, x, hx, here, hm, others, hr, e⟩ := h
      cases e
      obtain ⟨spots, laid, below, count⟩ := ih hr
      let spot : Spot α δ := ⟨p, x, d.y, here, hm⟩
      have put : step columns cell gap c spot.placed = .ok (x, d.y, after d p) :=
        Result.bind_eq_ok.mpr ⟨d, hd, Result.bind_eq_ok.mpr ⟨x, hx, rfl⟩⟩
      have counted : d.placed = c.placed := by
        unfold advance at hd
        split at hd
        · obtain ⟨y, -, e⟩ := Result.bind_eq_ok.mp hd
          cases e; rfl
        · cases hd; rfl
      have tells : told id columns cell child =
          if lt bound p.w then [.cellOverflow child.id id cell columns p.w] else [] := by
        simp only [told, hc, exceeds, hb]
      simp only [Laying.bind_lift hb, Laying.bind_lift hd, Laying.bind_lift hx, Laying.bind_lift hm,
        Trail.notes_ite_note, Trail.notes_bind_pure, ← tells]
      refine ⟨some spot :: spots, laid.shown hc rfl put, by rw [below]; rfl, ?_⟩
      · simp only [count, after, counted, List.reduceOption_cons_of_some, List.length_cons]
        omega

/-- A grid ends with its last row. -/
theorem arrange_eq_ok (h : (arrange id columns width cell gap children).result = .ok p) :
    ∃ spots, Held (fun _ p => p) (fun child _ => told id columns cell child) id width children spots
        (arrange id columns width cell gap children) p ∧
      Arranged columns cell gap spots.reduceOption p.h := by
  obtain ⟨run, hr, h⟩ := Trail.result_bind_eq_ok.mp h
  obtain ⟨height, hh, h⟩ := Trail.result_bind_eq_ok.mp h
  obtain ⟨spots, laid, frames, count⟩ := runFrom_eq_ok hr
  obtain rfl := Placement.of_eq h
  have hh := Laying.result_lift.mp hh
  refine ⟨spots, ⟨laid.puts, by rw [frames], ?_⟩, run.2, laid.course, ?_⟩
  · rw [arrange, Trail.notes_bind hr]
    dsimp only
    rw [Laying.bind_lift hh, ← laid.noted]
    exact List.append_nil _
  rw [← hh]
  have placed : run.2.placed = 0 ↔ spots.reduceOption = [] := by
    rw [count, Nat.zero_add, List.length_eq_zero_iff]
  by_cases none : spots.reduceOption = []
  · rw [if_pos none, if_pos (placed.mpr none)]
  · rw [if_neg none, if_neg fun a => none (placed.mp a)]

end Cells

/-! ## Stacks and boxes -/

/-- Spots in a stack of some height. -/
def StackContent.Arranged (c : StackContent) (width padding gap content : α) (spots : List (Spot α δ))
    (height : α) : Prop :=
  match c.direction, c.wrap with
  | .vertical, _ => Column.Arranged c.align padding gap content spots height
  | .horizontal, true => Wrap.Arranged width padding gap spots height
  | .horizontal, false => Row.Arranged c.align padding gap spots height

/-- Does a stack give a child with this policy the whole width? -/
def StackContent.stretches (c : StackContent) (policy : SizePolicy) : Bool :=
  c.direction = .vertical ∧ c.align = .stretch ∧ policy ≠ .fixed

/-- What a stack itself tells of a child. Only a row does that does not break. -/
def StackContent.told (c : StackContent) (id : String) (width : α) :
    Child α δ → Option (Spot α δ) → List (Defect α) :=
  match c.direction, c.wrap with
  | .horizontal, false => Row.told id width
  | _, _ => fun _ _ => []

theorem arrangeStack_eq_ok {c : StackContent}
    (h : (arrangeStack id c width padding gap content children).result = .ok p) :
    ∃ spots, Held (fun child q => if c.stretches child.widthPolicy then q.resized content else q)
        (c.told id width) id width children spots
        (arrangeStack id c width padding gap content children) p ∧
      c.Arranged width padding gap content spots.reduceOption p.h := by
  unfold arrangeStack at h ⊢
  unfold StackContent.Arranged StackContent.stretches StackContent.told
  cases hd : c.direction with
  | vertical =>
    rw [hd] at h
    obtain ⟨spots, held, arranged⟩ := Column.arrange_eq_ok h
    refine ⟨spots, ?_, arranged⟩
    have fit : (fun (child : Child α δ) q => if decide (Direction.vertical = .vertical ∧
        c.align = .stretch ∧ child.widthPolicy ≠ .fixed) = true then q.resized content else q) =
        Column.fit c.align content := by
      funext child q
      simp only [Column.fit, true_and, decide_eq_true_eq]
    rw [fit]
    exact held
  | horizontal =>
    have fit : (fun (child : Child α δ) (q : Placement α δ) => if decide (Direction.horizontal =
        .vertical ∧ c.align = .stretch ∧ child.widthPolicy ≠ .fixed) = true then q.resized content
          else q) = fun _ q => q := by
      funext child q
      simp
    rw [fit]
    rw [hd] at h
    cases hw : c.wrap with
    | true => rw [hw] at h; exact Wrap.arrange_eq_ok h
    | false =>
      rw [hw] at h
      obtain ⟨spots, held, arranged, -⟩ := Row.arrange_eq_ok h
      exact ⟨spots, held, arranged⟩

/-- What a box of some height holds: nothing, or one child inside the padding. -/
def Inset.Arranged (padding : α) (spots : List (Spot α δ)) (height : α) : Prop :=
  match spots with
  | [] => height = zero
  | [spot] => spot.x = padding ∧ spot.y = padding ∧
      (spot.placed.h + twice padding : Calculation α) = .ok height
  | _ => False

theorem insetAround_eq_ok {placed : Option (Placement α δ)}
    (h : (insetAround id width padding placed).result = .ok p) :
    ∃ spot : Option (Spot α δ), spot.map (·.placed) = placed ∧
      p = ⟨id, width, p.h, rounded width, Spot.shown spot⟩ ∧ Inset.Arranged padding spot.toList p.h := by
  cases placed with
  | none =>
    obtain rfl := Placement.of_eq h
    exact ⟨none, rfl, rfl, rfl⟩
  | some q =>
    simp only [insetAround, Trail.result_bind_eq_ok, Laying.result_lift] at h
    obtain ⟨height, hh, frames, hm, h⟩ := h
    obtain rfl := Placement.of_eq h
    exact ⟨some ⟨q, padding, padding, frames, hm⟩, rfl, rfl, rfl, rfl, hh⟩

/-- A box itself tells nothing of its child. -/
theorem insetAround_notes {placed : Option (Placement α δ)}
    (h : (insetAround id width padding placed).result = .ok p) :
    (insetAround id width padding placed).notes = [] := by
  cases placed with
  | none => rfl
  | some q =>
    simp only [insetAround, Trail.result_bind_eq_ok, Laying.result_lift] at h ⊢
    obtain ⟨height, hh, frames, hm, -⟩ := h
    rw [Laying.bind_lift hh, Laying.bind_lift hm]
    rfl

end

end Wireframe
