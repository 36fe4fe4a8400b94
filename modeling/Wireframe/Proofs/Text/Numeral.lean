import Wireframe.Text.Numeral
import Mathlib.Algebra.Order.Ring.Nat

/-
  Wireframe.Proofs.Text.Numeral — whole numbers that are written plainly are read back.

  Proved:
  - `integer?_decimal`, `integer?_negative`: the decimal digits of a number are read as the number,
    with a minus sign in front as that below zero, when there are no more of them than the limit.
  - `readDigits_toDigits`: so are the digits alone, wherever they stand.
-/

namespace Wireframe.Text

theorem isDigit_toNat {c : Char} (h : c.isDigit = true) : 48 ≤ c.toNat ∧ c.toNat ≤ 57 := by
  simp only [Char.isDigit, Bool.and_eq_true, decide_eq_true_eq] at h
  exact ⟨h.1, h.2⟩

theorem digit?_of_isDigit {c : Char} (h : c.isDigit = true) : digit? c = some (c.toNat - 48) := by
  have := isDigit_toNat h
  rw [digit?, if_pos (by omega), if_pos h]

theorem isDigit_of_isDigit {c : Char} (h : c.isDigit = true) : isDigit c = true := by
  rw [isDigit, digit?_of_isDigit h]; rfl

theorem not_isWhite_of_isDigit {c : Char} (h : c.isDigit = true) : isWhite c = false := by
  have := isDigit_toNat h
  simp [isWhite]
  omega

/-! ## Runs of digits -/

theorem dropWhile_eq_self {p : Char → Bool} {cs : List Char} (h : ∀ c ∈ cs, p c = false) :
    cs.dropWhile p = cs := by
  cases cs with
  | nil => rfl
  | cons c cs => rw [List.dropWhile_cons_of_neg (by simp [h c List.mem_cons_self])]

/-- What has no character of a class is not trimmed. -/
theorem trimBy_eq_self {p : Char → Bool} {cs : List Char} (h : ∀ c ∈ cs, p c = false) :
    trimBy p cs = cs := by
  rw [trimBy, dropWhile_eq_self h, dropWhile_eq_self fun c hc => h c (List.mem_reverse.mp hc),
    List.reverse_reverse]

theorem splitSign_of_digits {cs : List Char} (h : ∀ c ∈ cs, c.isDigit = true) :
    splitSign cs = (false, cs) := by
  unfold splitSign
  split
  · exact absurd (h '-' List.mem_cons_self) (by decide)
  · exact absurd (h '+' List.mem_cons_self) (by decide)
  · rfl

theorem joinDigits?_of_digits {cs : List Char} (h : ∀ c ∈ cs, c.isDigit = true) (some_digit : cs ≠ []) :
    joinDigits? isDigit cs = some cs := by
  induction cs with
  | nil => exact absurd rfl some_digit
  | cons c cs ih =>
    have hc := isDigit_of_isDigit (h c List.mem_cons_self)
    have rest : ∀ d ∈ cs, d.isDigit = true := fun d hd => h d (List.mem_cons_of_mem c hd)
    unfold joinDigits?
    split
    · rename_i e; cases e
    · rename_i e; cases e; rw [if_pos hc]
    · rename_i e; cases e; exact absurd (rest '_' List.mem_cons_self) (by decide)
    · rename_i more _ e
      cases e
      rw [if_pos hc, ih rest more]
      rfl

theorem isDigit_toDigits {n : Nat} {c : Char} (h : c ∈ Nat.toDigits 10 n) : c.isDigit = true :=
  Nat.isDigit_of_mem_toDigits (by decide) (by decide) h

theorem digitsValue_toDigits (n : Nat) : digitsValue (Nat.toDigits 10 n) = n := by
  have same : ∀ cs : List Char, (∀ c ∈ cs, c.isDigit = true) → ∀ m,
      digitsFrom m cs = Nat.ofDigitChars 10 cs m := by
    intro cs
    induction cs with
    | nil => intro _ m; rfl
    | cons c cs ih =>
      intro h m
      have hc := digit?_of_isDigit (h c List.mem_cons_self)
      rw [Nat.ofDigitChars_cons, ← ih fun d hd => h d (List.mem_cons_of_mem c hd)]
      simp only [digitsFrom, List.foldl_cons, hc, Option.getD_some]
      rfl
  rw [digitsValue, same _ fun c hc => isDigit_toDigits hc]
  exact Nat.ofDigitChars_ten_toDigits

/-- The digits of a number are too many exactly when the number is too large. -/
theorem digitLimit_lt_length_iff {n : Nat} :
    digitLimit < (Nat.toDigits 10 n).length ↔ 10 ^ digitLimit ≤ n := by
  rw [← not_le, Nat.length_toDigits_le_iff (by decide) (by decide), not_lt]

theorem readDigits_toDigits {n : Nat} (h : n < 10 ^ digitLimit) :
    readDigits (Nat.toDigits 10 n) = .ok n := by
  rw [readDigits, if_neg fun long => absurd (digitLimit_lt_length_iff.mp long) (not_le.mpr h),
    digitsValue_toDigits]

theorem integer?_decimal {n : Nat} (h : n < 10 ^ digitLimit) : integer? (toString n) = some (n : Int) := by
  have digits : (toString n).toList = Nat.toDigits 10 n := Nat.toList_repr
  have trimmed : trimBy isWhite (Nat.toDigits 10 n) = Nat.toDigits 10 n :=
    trimBy_eq_self fun c hc => not_isWhite_of_isDigit (isDigit_toDigits hc)
  simp only [integer?, digits, trimmed, splitSign_of_digits fun c => isDigit_toDigits,
    Option.bind_eq_bind, joinDigits?_of_digits (fun c => isDigit_toDigits) Nat.toDigits_ne_nil,
    Option.bind_some, readDigits_toDigits h, Except.toOption]
  rfl

theorem integer?_negative {n : Nat} (h : n + 1 < 10 ^ digitLimit) :
    integer? (toString (Int.negSucc n)) = some (Int.negSucc n) := by
  have digits : (toString (Int.negSucc n)).toList = '-' :: Nat.toDigits 10 (n + 1) := by
    rw [← Nat.toList_repr]
    exact String.toList_append
  have trimmed : trimBy isWhite ('-' :: Nat.toDigits 10 (n + 1)) = '-' :: Nat.toDigits 10 (n + 1) := by
    refine trimBy_eq_self fun c hc => ?_
    rcases List.mem_cons.mp hc with rfl | hc
    · decide
    · exact not_isWhite_of_isDigit (isDigit_toDigits hc)
  simp only [integer?, digits, trimmed, splitSign, Option.bind_eq_bind,
    joinDigits?_of_digits (fun c => isDigit_toDigits) Nat.toDigits_ne_nil, Option.bind_some,
    readDigits_toDigits h, Except.toOption]
  rfl

end Wireframe.Text
