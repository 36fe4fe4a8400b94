import Wireframe.Proofs.Layout.Exact
import Mathlib.Algebra.Order.Floor.Semiring
import Mathlib.Order.Bounds.Basic

/-
  Wireframe.Proofs.Layout.TextLines — how many lines a text takes.

  A text that fits in the width it is offered takes one line, and has the width that it has on it. One
  that does not fit takes the whole width, and as many lines as the quotient of the two widths rounded
  up. Both are the least number of lines, at least one, that are together as wide as the text. Read over
  exact numbers this has no exception, not even where the text fits exactly.

  Proved:
  - `Measure.linesIn_isLeast`: the number of lines is the least one that is enough.
  - `Measure.text_of_room`: what a text measures.
  - `text_lines`: so it is in every width, and no more of it makes a text higher.
-/

namespace Wireframe

open Quantity

/-! ## Lines -/

namespace Measure

/-- The lines that a text of some width takes in the width that it is offered. -/
def linesIn (single offered : ℚ) : ℕ := max 1 ⌈single / offered⌉₊

variable (single : ℚ) {offered : ℚ}

/-- They are the least number of lines that are as wide as the text. -/
theorem linesIn_isLeast (room : 0 < offered) :
    IsLeast {lines : ℕ | 1 ≤ lines ∧ single ≤ lines * offered} (linesIn single offered) := by
  constructor
  · refine ⟨le_max_left _ _, (div_le_iff₀ room).mp ?_⟩
    exact (Nat.le_ceil _).trans (Nat.cast_le.mpr (le_max_right _ _))
  · rintro lines ⟨positive, enough⟩
    exact max_le positive (Nat.ceil_le.mpr ((div_le_iff₀ room).mpr enough))

/-- What is enough in a width is enough in a larger one. -/
theorem linesIn_antitone {more : ℚ} (room : 0 < offered) (h : offered ≤ more) :
    linesIn single more ≤ linesIn single offered := by
  obtain ⟨positive, enough⟩ := (linesIn_isLeast single room).1
  refine (linesIn_isLeast single (room.trans_le h)).2 ⟨positive, enough.trans ?_⟩
  exact mul_le_mul_of_nonneg_left h (Nat.cast_nonneg _)

variable {single}

/-- A text that fits takes one line. -/
theorem linesIn_of_fits (room : 0 < offered) (fits : single ≤ offered) : linesIn single offered = 1 := by
  refine max_eq_left (Nat.ceil_le.mpr ((div_le_iff₀ room).mpr ?_))
  rwa [Nat.cast_one, one_mul]

/-- One that does not fit takes as many as the quotient of the widths, rounded up. -/
theorem linesIn_of_overflows (room : 0 < offered) (broken : offered < single) :
    ((single / offered).ceil : ℚ) = linesIn single offered := by
  have quotient : 0 < single / offered := div_pos (room.trans broken) room
  have whole : (single / offered).ceil = ⌈single / offered⌉ := by
    rw [Rat.ceil_eq_neg_floor_neg, neg_eq_iff_eq_neg]
    exact Int.floor_neg (R := ℚ)
  rw [linesIn, max_eq_right (Nat.ceil_pos.mpr quotient), whole, ← Int.natCast_ceil_eq_ceil quotient.le]
  rfl

end Measure

/-! ## Texts -/

theorem TextContent.exactLine_nonneg {t : TextContent} (font : ∀ x ∈ t.fontSize, 0 ≤ Exact.ofFloat x) :
    0 ≤ t.exactLine := by
  refine mul_nonneg ?_ (by norm_num)
  unfold TextContent.exactFont
  cases size : t.fontSize with
  | none => exact (by norm_num : (0 : ℚ) ≤ 16)
  | some x => exact font x size

namespace Measure

variable {t : TextContent} {offered : ℚ}

/-- Where there is room for a line, a text is as wide as it is on one, up to the width that is offered,
and as high as the lines that it takes. -/
theorem text_of_room (room : 0 < offered) :
    text t offered =
      .ok ⟨min t.exactWidth offered, linesIn t.exactWidth offered * t.exactLine⟩ := by
  rw [text_exact, if_neg fun none => room.not_ge ((Exact.le_iff offered 0).mp none)]
  by_cases broken : offered < t.exactWidth
  · rw [if_pos ((Exact.lt_iff _ _).mpr broken), Exact.div_eq _ _ room.ne', Exact.smaller_eq]
    show Except.ok _ = _
    rw [linesIn_of_overflows room broken]
  · rw [if_neg fun h => broken ((Exact.lt_iff _ _).mp h), linesIn_of_fits room (not_lt.mp broken), Nat.cast_one,
      one_mul, min_eq_left (not_lt.mp broken)]

end Measure

/-- In every width above zero, a text with letters of a size that is not negative has the width that it
has on one line, up to the width that it is offered. It is as high as the least number of lines, at least
one, that are together as wide as the text, and no higher in any larger width. -/
theorem text_lines {t : TextContent} (font : ∀ x ∈ t.fontSize, 0 ≤ Exact.ofFloat x) {offered : ℚ}
    (room : 0 < offered) :
    ∃ (e : Extent ℚ) (lines : ℕ), Measure.text t offered = .ok e ∧ e.w = min t.exactWidth offered ∧
      e.h = lines * t.exactLine ∧ IsLeast {n : ℕ | 1 ≤ n ∧ t.exactWidth ≤ n * offered} lines ∧
      ∀ more, offered ≤ more → ∃ e', Measure.text t more = .ok e' ∧ e'.h ≤ e.h := by
  refine ⟨_, _, Measure.text_of_room room, rfl, rfl, Measure.linesIn_isLeast _ room, fun more wider => ?_⟩
  refine ⟨_, Measure.text_of_room (room.trans_le wider), ?_⟩
  have fewer := Measure.linesIn_antitone t.exactWidth room wider
  exact mul_le_mul_of_nonneg_right (Nat.cast_le.mpr fewer) (TextContent.exactLine_nonneg font)

/-- Forty letters of size ten, 220 wide on one line, take three lines in a width of 100. -/
theorem forty_letters_in_three_lines :
    let t : TextContent := ⟨String.ofList (List.replicate 40 'a'), some 10.0, none, none⟩
    (∀ x ∈ t.fontSize, 0 ≤ Exact.ofFloat x) ∧ (0 : ℚ) < 100 ∧ t.exactWidth = 220 ∧
      ∃ e, Measure.text t (100 : ℚ) = .ok e ∧ e.w = 100 ∧ e.h = 3 * t.exactLine ∧
        IsLeast {n : ℕ | 1 ≤ n ∧ t.exactWidth ≤ n * 100} 3 := by
  intro t
  have font : ∀ x ∈ t.fontSize, 0 ≤ Exact.ofFloat x := by
    rintro x ⟨⟩
    decide +kernel
  have wide : t.exactWidth = 220 := by decide +kernel
  obtain ⟨e, lines, measured, w, h, least, -⟩ := text_lines font (show (0 : ℚ) < 100 by norm_num)
  have three : IsLeast {n : ℕ | 1 ≤ n ∧ t.exactWidth ≤ n * 100} 3 := by
    rw [wide]
    refine ⟨⟨by norm_num, by norm_num⟩, fun n ⟨_, enough⟩ => ?_⟩
    by_contra few
    have : (n : ℚ) ≤ 2 := by exact_mod_cast Nat.le_of_lt_succ (not_le.mp few)
    linarith
  obtain rfl := least.unique three
  refine ⟨font, by norm_num, wide, e, measured, ?_, h, three⟩
  rw [w, wide]
  norm_num

end Wireframe
