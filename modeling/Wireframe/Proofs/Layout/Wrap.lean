import Wireframe.Proofs.Layout.Offers
import Mathlib.Data.List.Chain

/-
  Wireframe.Proofs.Layout.Wrap — how a stack that breaks fills its lines.

  A horizontal stack that may break puts a child beside the one before it as long as the child ends
  inside the stack's width, and at the start of a new line where it does not. Only the very first
  child is put without a test. A child that is wider than the whole stack begins a line as any other
  does that does not fit; at the start of the line it is not tested again, so that no line is left
  empty.

  The arrangement keeps the place for the next child and the height of the line in progress, and not
  the lines. They are recovered from the run: a child either is the next one of the last line or
  begins a line after it.

  Proved:
  - `Wrap.Greedy.snoc`, `Wrap.Greedy.grow`: a line more, and a child more in the last line.
  - `Wrap.step_standing`: what one child changes.
  - `Wrap.Arranged.greedy`: the lines of all children, and the height.
  - `Node.wrap_greedy`: all of this for a stack that is laid out.
-/

namespace Wireframe

open Quantity

variable {α δ : Type} [Quantity α δ] [Scalar δ]

namespace Wrap

section

variable {limit padding gap : α}

/-! ## Lines -/

/-- Does what is so wide end beyond the limit, by more than is forgiven, when it begins at `x`? -/
def passes (limit x width : α) : Calculation Bool := do
  let reached ← (x + width : Calculation α)
  let bound ← (limit + (tolerance : α) : Calculation α)
  return lt bound reached

/-- The spots of a line, of which there is a first one. -/
structure Line (α δ : Type) [Quantity α δ] [Scalar δ] where
  first : Spot α δ
  rest : List (Spot α δ)

namespace Line

variable {line : Line α δ} {spot : Spot α δ}

def spots (line : Line α δ) : List (Spot α δ) := line.first :: line.rest

def last (line : Line α δ) : Spot α δ := line.rest.getLastD line.first

def snoc (line : Line α δ) (spot : Spot α δ) : Line α δ := { line with rest := line.rest ++ [spot] }

/-- The children of a line stand beside each other at one height, from the padding on, and none but
the first one ends beyond the limit. -/
structure Packed (limit padding gap : α) (line : Line α δ) : Prop where
  starts : line.first.x = padding
  level : ∀ spot ∈ line.rest, spot.y = line.first.y
  beside : line.spots.IsChain fun a b => (a.x + (a.placed.w + gap) : Calculation α) = .ok b.x
  fits : ∀ spot ∈ line.rest, passes limit spot.x spot.placed.w = .ok false

/-- The place after the last child of a line, with the gap. -/
def Ends (gap : α) (line : Line α δ) (x : α) : Prop :=
  (line.last.x + (line.last.placed.w + gap) : Calculation α) = .ok x

/-- A line follows another because its first child did not fit in it, below its tallest child. -/
structure Breaks (limit gap : α) (line next : Line α δ) : Prop where
  full : ∃ x, line.Ends gap x ∧ passes limit x next.first.placed.w = .ok true
  beneath : (line.first.y + (Spot.tallest line.spots + gap) : Calculation α) = .ok next.first.y

theorem spots_snoc (line : Line α δ) (spot : Spot α δ) : (line.snoc spot).spots = line.spots ++ [spot] :=
  rfl

theorem spots_single (spot : Spot α δ) : (⟨spot, []⟩ : Line α δ).spots = [] ++ [spot] := rfl

theorem getLast?_spots (line : Line α δ) : line.spots.getLast? = some line.last := by
  rw [spots, List.getLast?_cons, last, List.getLastD_eq_getLast?]

theorem packed_single (starts : spot.x = padding) : (⟨spot, []⟩ : Line α δ).Packed limit padding gap :=
  ⟨starts, nofun, List.isChain_singleton spot, nofun⟩

theorem Packed.snoc (h : line.Packed limit padding gap) (level : spot.y = line.first.y)
    (beside : line.Ends gap spot.x) (fits : passes limit spot.x spot.placed.w = .ok false) :
    (line.snoc spot).Packed limit padding gap where
  starts := h.starts
  level := List.forall_mem_append.mpr ⟨h.level, List.forall_mem_singleton.mpr level⟩
  beside := by
    refine h.beside.append (List.isChain_singleton spot) fun a ha b hb => ?_
    obtain rfl : line.last = a := Option.some.inj (line.getLast?_spots.symm.trans ha)
    obtain rfl : spot = b := Option.some.inj hb
    exact beside
  fits := List.forall_mem_append.mpr ⟨h.fits, List.forall_mem_singleton.mpr fits⟩

end Line

/-- Lines that are filled one after the other from the top, each as far as it goes. -/
structure Greedy (limit padding gap : α) (lines : List (Line α δ)) : Prop where
  packed : ∀ line ∈ lines, line.Packed limit padding gap
  top : ∀ line ∈ lines.head?, line.first.y = padding
  breaks : lines.IsChain (Line.Breaks limit gap)

namespace Greedy

variable {lines : List (Line α δ)} {line new : Line α δ} {spot : Spot α δ}

theorem nil : Greedy limit padding gap ([] : List (Line α δ)) := ⟨nofun, nofun, .nil⟩

theorem snoc_iff : Greedy limit padding gap (lines ++ [new]) ↔ Greedy limit padding gap lines ∧
    new.Packed limit padding gap ∧ (lines = [] → new.first.y = padding) ∧
    ∀ line ∈ lines.getLast?, line.Breaks limit gap new := by
  have first : (∀ line ∈ (lines ++ [new]).head?, line.first.y = padding) ↔
      (∀ line ∈ lines.head?, line.first.y = padding) ∧ (lines = [] → new.first.y = padding) := by
    cases lines <;> simp
  constructor
  · rintro ⟨packed, top, breaks⟩
    obtain ⟨packed, own⟩ := List.forall_mem_append.mp packed
    obtain ⟨top, alone⟩ := first.mp top
    obtain ⟨breaks, -, last⟩ := List.isChain_append.mp breaks
    exact ⟨⟨packed, top, breaks⟩, own new (List.mem_singleton_self new), alone,
      fun line h => last line h new rfl⟩
  · rintro ⟨⟨packed, top, breaks⟩, own, alone, last⟩
    refine ⟨List.forall_mem_append.mpr ⟨packed, List.forall_mem_singleton.mpr own⟩,
      first.mpr ⟨top, alone⟩, breaks.append (List.isChain_singleton new) fun line h b hb => ?_⟩
    exact Option.some.inj hb ▸ last line h

/-- A line more. -/
theorem snoc (h : Greedy limit padding gap (lines ++ [line])) (packed : new.Packed limit padding gap)
    (breaks : line.Breaks limit gap new) : Greedy limit padding gap (lines ++ [line] ++ [new]) := by
  refine snoc_iff.mpr ⟨h, packed, fun e => absurd e (List.concat_ne_nil _ _), fun a ha => ?_⟩
  rw [List.getLast?_concat] at ha
  exact Option.some.inj ha ▸ breaks

/-- A child more in the last line. A line breaks for the first child of the next one, and this is the
same as before. -/
theorem grow (h : Greedy limit padding gap (lines ++ [line])) (level : spot.y = line.first.y)
    (beside : line.Ends gap spot.x) (fits : passes limit spot.x spot.placed.w = .ok false) :
    Greedy limit padding gap (lines ++ [line.snoc spot]) := by
  obtain ⟨before, packed, alone, last⟩ := snoc_iff.mp h
  exact snoc_iff.mpr ⟨before, packed.snoc level beside fits, alone,
    fun a ha => ⟨(last a ha).full, (last a ha).beneath⟩⟩

end Greedy

/-! ## The run -/

/-- Where the arrangement stands after some lines: at the start, or behind the last child of the last
of them. -/
inductive Standing (limit padding gap : α) : List (Line α δ) → Cursor α → Prop
  | start : Standing limit padding gap [] ⟨padding, padding, noLength, false⟩
  | behind {lines : List (Line α δ)} {line : Line α δ} {c : Cursor α} :
      Greedy limit padding gap (lines ++ [line]) → c.any = true → c.y = line.first.y →
        c.rowHeight = Spot.tallest line.spots → line.Ends gap c.x →
          Standing limit padding gap (lines ++ [line]) c

variable {lines : List (Line α δ)} {line : Line α δ} {spot : Spot α δ} {before : List (Spot α δ)}
  {c d next : Cursor α}

/-- Once a child is put, the arrangement stands behind it. -/
theorem after_standing (greedy : Greedy limit padding gap (lines ++ [line]))
    (spots : line.spots = before ++ [spot]) (hx : d.x = spot.x) (hy : d.y = line.first.y)
    (height : d.rowHeight = Spot.tallest before) (h : after gap d spot.placed = .ok next) :
    Standing limit padding gap (lines ++ [line]) next := by
  obtain ⟨x, hnext, e⟩ := Result.bind_eq_ok.mp h
  cases e
  have last : line.last = spot := by
    have := line.getLast?_spots
    rw [spots, List.getLast?_concat] at this
    exact (Option.some.inj this).symm
  refine .behind greedy rfl hy ?_ ?_
  · rw [spots, Spot.tallest_snoc, ← height]
  · rw [Line.Ends, last, ← hx]
    exact hnext

/-- A child is the next one of the last line, or it begins one. -/
theorem step_standing (h : Standing limit padding gap lines c)
    (put : step limit padding gap c spot.placed = .ok (spot.x, spot.y, next)) :
    ∃ more, more.flatMap (·.spots) = lines.flatMap (·.spots) ++ [spot] ∧
      Standing limit padding gap more next := by
  obtain ⟨d, hd, put⟩ := Result.bind_eq_ok.mp put
  obtain ⟨_, hnext, e⟩ := Result.bind_eq_ok.mp put
  simp only [pure, Except.pure, Except.ok.injEq, Prod.mk.injEq] at e
  obtain ⟨hx, hy, rfl⟩ := e
  cases h with
  | start =>
    cases hd
    have greedy : Greedy limit padding gap ([] ++ [(⟨spot, []⟩ : Line α δ)]) :=
      Greedy.snoc_iff.mpr ⟨.nil, Line.packed_single hx.symm, fun _ => hy.symm, nofun⟩
    exact ⟨_, rfl, after_standing greedy (Line.spots_single spot) hx hy rfl hnext⟩
  | @behind lines line _ greedy any level height ends =>
    obtain ⟨beyond, passed, hd⟩ := Result.bind_eq_ok.mp hd
    rw [overflows, if_pos any] at passed
    have passed : passes limit c.x spot.placed.w = .ok beyond := passed
    cases beyond with
    | false =>
      cases hd
      rw [hx] at ends passed
      have greedy := greedy.grow (hy.symm.trans level) ends passed
      refine ⟨_, ?_, after_standing greedy (line.spots_snoc spot) hx level height hnext⟩
      rw [List.flatMap_append, List.flatMap_append, List.append_assoc, List.flatMap_singleton,
        List.flatMap_singleton, line.spots_snoc]
    | true =>
      obtain ⟨y, beneath, e⟩ := Result.bind_eq_ok.mp hd
      cases e
      rw [level, height] at beneath
      have breaks : line.Breaks limit gap ⟨spot, []⟩ := ⟨⟨c.x, ends, passed⟩, hy ▸ beneath⟩
      have greedy := greedy.snoc (Line.packed_single hx.symm) breaks
      exact ⟨_, List.flatMap_append, after_standing greedy (Line.spots_single spot) hx hy rfl hnext⟩

/-- The spots of a stack that breaks are line by line, and the stack ends below the tallest spot of
the last line. -/
theorem Arranged.greedy {spots : List (Spot α δ)} {height : α}
    (h : Arranged limit padding gap spots height) :
    ∃ lines : List (Line α δ), lines.flatMap (·.spots) = spots ∧ Greedy limit padding gap lines ∧
      (match lines.getLast? with
        | none => twice padding
        | some line => line.first.y + Spot.tallest line.spots + padding : Calculation α) = .ok height := by
  obtain ⟨last, course, ends⟩ := h
  obtain ⟨lines, rfl, standing⟩ := course.keeps
    (fun spots c => ∃ lines : List (Line α δ), lines.flatMap (·.spots) = spots ∧
      Standing limit padding gap lines c)
    (fun ⟨lines, same, standing⟩ put => same ▸ step_standing standing put) ⟨[], rfl, .start⟩
  cases standing with
  | start => exact ⟨[], rfl, .nil, ends⟩
  | @behind lines line _ greedy any level height _ =>
    refine ⟨_, rfl, greedy, ?_⟩
    rw [if_neg (by simp [Line.spots])] at ends
    rw [List.getLast?_concat]
    dsimp only
    rw [← level, ← height]
    exact ends

end

end Wrap

/-! ## Stacks -/

/-- A stack that breaks and is laid out in a width with some padding and gap: the lines of its visible
children. -/
structure Node.InLines (s : Surface α) (hd : Header) (cs : List Node) (width padding gap : α)
    (p : Placement α δ) (content : α) (lines : List (Wrap.Line α δ)) : Prop where
  offered : contentWidth width padding = .ok content
  /-- The visible children are put in the lines in order, each as it comes out in the width inside the
  padding. -/
  placed : List.Forall₂ (fun n spot => (n.place s content).result = .ok (some spot.placed))
    (cs.filter (·.visible)) (lines.flatMap (·.spots))
  greedy : Wrap.Greedy width padding gap lines
  /-- The stack ends below the tallest child of its last line. -/
  height : (match lines.getLast? with
    | none => twice padding
    | some line => line.first.y + Spot.tallest line.spots + padding : Calculation α) = .ok p.h
  frames : p = ⟨hd.id, width, p.h, rounded width, (lines.flatMap (·.spots)).flatMap (·.frames)⟩

/-- A horizontal stack that breaks packs its visible children greedily. -/
theorem Node.wrap_greedy {s : Surface α} {hd : Header} {c : StackContent} {cs : List Node} {width : α}
    {p : Placement α δ} (direction : c.direction = .horizontal) (wrap : c.wrap = true)
    (laid : ((stack hd c cs).place s width).result = .ok (some p)) :
    ∃ content lines, Node.InLines s hd cs width (Spacing.orZero c.padding).quantity
      (Spacing.orZero c.gap).quantity p content lines := by
  obtain ⟨content, offered, made, -⟩ := place_stack_eq_ok laid
  rw [arrangeStack, direction, wrap] at made
  obtain ⟨spots, held, arranged⟩ := Wrap.arrange_eq_ok made
  obtain ⟨lines, same, greedy, height⟩ := arranged.greedy
  refine ⟨content, lines, offered, ?_, greedy, height, ?_⟩
  · rw [same]
    exact placed_of_puts held.puts
  · rw [same, ← Spot.flatMap_shown]
    exact held.placed

/-- A stack with a hidden child and one that is wider than the stack. -/
def Node.brokenBar : Node :=
  .stack (.plain "bar") ⟨.horizontal, some (.length 8), some (.length 16), .start, true⟩
    [.plainButton "go" "Go", .text (.hidden "note") ⟨"", none, none, none⟩,
      .field { Header.plain "code" with
        widthPolicy := .fixed, minSize := some ⟨some 400, none, ["w"]⟩ } ⟨"Code", none, none, none, none⟩,
      .plainButton "undo" "Undo", .plainButton "redo" "Redo"]

/-- Its visible children stand in three lines, and the wide one has a line of its own. -/
theorem Node.brokenBar_greedy : ∃ (p : Placement Number Float) (content : Number)
    (lines : List (Wrap.Line Number Float)),
    (brokenBar.place Settings.standard.surface (.int 300)).result = .ok (some p) ∧
    (p.below.map fun f => (f.id, f.x == 16)) =
      [("go", true), ("code", true), ("undo", true), ("redo", false)] ∧
    Node.InLines Settings.standard.surface (.plain "bar") brokenBar.children (.int 300)
      (Spacing.orZero (some (.length 16))).quantity (Spacing.orZero (some (.length 8))).quantity p content
      lines := by
  have computed : ((brokenBar.place Settings.standard.surface (.int 300) :
      Laying Number (Option (Placement Number Float))).result.map
        fun placed => placed.map fun p => p.below.map fun f => (f.id, f.x == 16)).toOption =
      some (some [("go", true), ("code", true), ("undo", true), ("redo", false)]) := by
    decide +kernel
  obtain ⟨placed, laid, shown⟩ := Result.map_toOption_eq_some.mp computed
  obtain ⟨p, rfl, told⟩ := Option.map_eq_some_iff.mp shown
  obtain ⟨content, lines, inLines⟩ := wrap_greedy rfl rfl laid
  exact ⟨p, content, lines, laid, told, inLines⟩

end Wireframe
