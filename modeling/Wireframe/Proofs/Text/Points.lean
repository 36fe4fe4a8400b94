import Mathlib.Data.List.Induction
import Mathlib.Data.List.TakeWhile
import Wireframe.Text.Blank
import Wireframe.Text.Case
import Wireframe.Text.Point

/-
  Wireframe.Proofs.Text.Points — texts as lists of points, and their order.

  A string holds a text when it is made of the characters that points are held as. Not every string
  is: a mark at the end, or one before a letter, holds no point. Of such strings two may compare as
  equal and differ; of two that hold texts none do. To trim a text and to put it in small letters
  works on characters, and would tear a point apart if the mark, or what follows it, were a blank or
  a capital letter.

  Proved:
  - `points_held`: the points of a text are those that it holds.
  - `notAfter_total`, `notAfter_trans`, `Proper.antisymm`: texts are in one order.
  - `isVoid_iff`: a text with nothing but blanks is nothing when it is trimmed.
  - `Proper.strip`, `Proper.lower`: a text that is trimmed, or in small letters, is a text.
-/

namespace Wireframe.Text

/-! ## Points -/

namespace Point

/-- The point is a character, or the number of a half. -/
def Proper : Point → Prop
  | char _ => True
  | half n => 0xD800 ≤ n ∧ n < 0xE000

section

variable {n : Nat} (proper : (half n).Proper)
include proper

theorem toNat_half : (Char.ofNat (halfPlane + n)).toNat = halfPlane + n := by
  obtain ⟨low, high⟩ := proper
  have valid : (halfPlane + n).isValidChar := by
    unfold halfPlane
    exact .inr ⟨by omega, by omega⟩
  rw [Char.ofNat, dif_pos valid]
  rfl

theorem half_ne_mark : Char.ofNat (halfPlane + n) ≠ mark := by
  intro same
  have place := congrArg Char.toNat same
  have last : mark.toNat = 0x10FFFF := by decide
  obtain ⟨low, high⟩ := proper
  rw [toNat_half ⟨low, high⟩, last, halfPlane] at place
  omega

end

/-- The characters that a point is held as begin with it, whatever comes next. -/
theorem points_append {p : Point} (proper : p.Proper) (rest : List Char) :
    points (p.held ++ rest) = p :: points rest := by
  cases p with
  | char c =>
    by_cases here : c = mark
    · subst here
      rfl
    · rw [held, if_neg (by simpa using here), List.singleton_append]
      cases rest with
      | nil => rfl
      | cons d rest => rw [points, if_neg (by simpa using here)]
  | half n =>
    have own : marked (Char.ofNat (halfPlane + n)) = half n := by
      rw [marked, if_neg (by simpa using half_ne_mark proper), toNat_half proper,
        Nat.add_sub_cancel_left]
    rw [held, List.cons_append, List.singleton_append, points, if_pos (beq_self_eq_true _), own]

/-- A point is held as a character that is not the mark, or as the mark and one that is far beyond
    all letters and blanks. -/
theorem held_cases {p : Point} (proper : p.Proper) :
    (∃ c, c ≠ mark ∧ p.held = [c]) ∨ ∃ c : Char, halfPlane ≤ c.toNat ∧ p.held = [mark, c] := by
  cases p with
  | char c =>
    by_cases here : c = mark
    · subst here
      exact .inr ⟨mark, by decide, rfl⟩
    · exact .inl ⟨c, here, if_neg (by simpa using here)⟩
  | half n => exact .inr ⟨_, by rw [toNat_half proper]; exact Nat.le_add_right _ _, rfl⟩

/-- No two points stand in one place among all points. -/
theorem code_injective {p q : Point} (hp : p.Proper) (hq : q.Proper) (same : p.code = q.code) :
    p = q := by
  have apart : ∀ (c : Char) (n : Nat), (half n).Proper → c.toNat ≠ n := by
    rintro c n ⟨low, high⟩ rfl
    have valid : c.toNat < 0xD800 ∨ 0xDFFF < c.toNat ∧ c.toNat < 0x110000 := c.valid
    omega
  cases p with
  | char c =>
    cases q with
    | char d => exact congrArg char (Char.toNat_inj.mp same)
    | half n => exact absurd same (apart c n hq)
  | half n =>
    cases q with
    | char d => exact absurd same.symm (apart d n hp)
    | half m => exact congrArg half same

end Point

/-- The characters are those that some points are held as. -/
def Held (cs : List Char) : Prop :=
  ∃ ps : List Point, (∀ p ∈ ps, p.Proper) ∧ cs = ps.flatMap Point.held

/-- The string holds a text. -/
def Proper (s : String) : Prop := Held s.toList

theorem points_held {ps : List Point} (proper : ∀ p ∈ ps, p.Proper) :
    points (ps.flatMap Point.held) = ps := by
  induction ps with
  | nil => rfl
  | cons p rest ih =>
    rw [List.flatMap_cons, Point.points_append (proper p List.mem_cons_self),
      ih fun q hq => proper q (List.mem_cons_of_mem p hq)]

/-! ## The order of texts -/

theorem pointsNotAfter_cons {p q : Point} {ps qs : List Point} :
    pointsNotAfter (p :: ps) (q :: qs) = true ↔
      p.code < q.code ∨ p.code = q.code ∧ pointsNotAfter ps qs = true := by
  rw [pointsNotAfter, Bool.or_eq_true, Bool.and_eq_true, decide_eq_true_eq, beq_iff_eq]

theorem pointsNotAfter_total (ps qs : List Point) :
    pointsNotAfter ps qs = true ∨ pointsNotAfter qs ps = true := by
  induction ps generalizing qs with
  | nil => exact .inl (by cases qs <;> rfl)
  | cons p ps ih =>
    cases qs with
    | nil => exact .inr rfl
    | cons q qs =>
      rw [pointsNotAfter_cons, pointsNotAfter_cons]
      rcases Nat.lt_trichotomy p.code q.code with lt | same | lt
      · exact .inl (.inl lt)
      · exact (ih qs).imp (fun h => .inr ⟨same, h⟩) fun h => .inr ⟨same.symm, h⟩
      · exact .inr (.inl lt)

theorem pointsNotAfter_trans {ps qs rs : List Point} (pq : pointsNotAfter ps qs = true)
    (qr : pointsNotAfter qs rs = true) : pointsNotAfter ps rs = true := by
  induction ps generalizing qs rs with
  | nil => cases rs <;> rfl
  | cons p ps ih =>
    cases qs with
    | nil => cases pq
    | cons q qs =>
      cases rs with
      | nil => cases qr
      | cons r rs =>
        rw [pointsNotAfter_cons] at pq qr ⊢
        rcases pq with lt | ⟨same, pq⟩
        · rcases qr with lt' | ⟨same', -⟩
          · exact .inl (Nat.lt_trans lt lt')
          · exact .inl (same' ▸ lt)
        · rcases qr with lt' | ⟨same', qr⟩
          · exact .inl (same ▸ lt')
          · exact .inr ⟨same.trans same', ih pq qr⟩

theorem pointsNotAfter_antisymm {ps qs : List Point} (hp : ∀ p ∈ ps, p.Proper)
    (hq : ∀ q ∈ qs, q.Proper) (pq : pointsNotAfter ps qs = true) (qp : pointsNotAfter qs ps = true) :
    ps = qs := by
  induction ps generalizing qs with
  | nil =>
    cases qs with
    | nil => rfl
    | cons q qs => cases qp
  | cons p ps ih =>
    cases qs with
    | nil => cases pq
    | cons q qs =>
      obtain ⟨own, hp⟩ := List.forall_mem_cons.mp hp
      obtain ⟨own', hq⟩ := List.forall_mem_cons.mp hq
      rw [pointsNotAfter_cons] at pq qp
      have codes : p.code = q.code := by omega
      have rest : pointsNotAfter ps qs = true ∧ pointsNotAfter qs ps = true := by
        constructor
        · exact (pq.resolve_left (by omega)).2
        · exact (qp.resolve_left (by omega)).2
      rw [Point.code_injective own own' codes, ih hp hq rest.1 rest.2]

theorem notAfter_total (s t : String) : (notAfter s t || notAfter t s) = true :=
  Bool.or_eq_true_iff.mpr (pointsNotAfter_total _ _)

theorem notAfter_trans (s t u : String) (st : notAfter s t = true) (tu : notAfter t u = true) :
    notAfter s u = true :=
  pointsNotAfter_trans st tu

/-- Of two texts that differ one comes before the other. -/
theorem Proper.antisymm {s t : String} (hs : Proper s) (ht : Proper t)
    (st : notAfter s t = true) (ts : notAfter t s = true) : s = t := by
  obtain ⟨ps, hp, hps⟩ := hs
  obtain ⟨qs, hq, hqs⟩ := ht
  rw [notAfter, hps, hqs, points_held hp, points_held hq] at st ts
  rw [← String.toList_inj, hps, hqs, pointsNotAfter_antisymm hp hq st ts]

/-! ## Texts made of others -/

theorem Held.append {cs ds : List Char} (hc : Held cs) (hd : Held ds) : Held (cs ++ ds) := by
  obtain ⟨ps, hp, rfl⟩ := hc
  obtain ⟨qs, hq, rfl⟩ := hd
  exact ⟨ps ++ qs, List.forall_mem_append.mpr ⟨hp, hq⟩, List.flatMap_append.symm⟩

theorem Held.point {p : Point} (proper : p.Proper) : Held p.held :=
  ⟨[p], List.forall_mem_singleton.mpr proper, (List.flatMap_singleton _ _).symm⟩

/-- What has no marks is a text. -/
theorem Held.of_unmarked {cs : List Char} (h : mark ∉ cs) : Held cs := by
  induction cs with
  | nil => exact ⟨[], List.forall_mem_nil _, rfl⟩
  | cons c rest ih =>
    have other : c ≠ mark := fun same => h (List.mem_cons.mpr (.inl same.symm))
    have own : (Point.char c).held = [c] := if_neg (by simpa using other)
    have first : Held [c] := own ▸ Held.point (p := .char c) trivial
    exact first.append (ih fun hm => h (List.mem_cons_of_mem c hm))

/-! ### Trimmed texts -/

theorem trimBy_eq_nil {p : Char → Bool} {cs : List Char} :
    trimBy p cs = [] ↔ ∀ c ∈ cs, p c = true := by
  rw [trimBy, List.reverse_eq_nil_iff, List.dropWhile_eq_nil_iff]
  simp only [List.mem_reverse]
  refine ⟨fun all => ?_, fun all c hc => all c ((List.dropWhile_suffix p).subset hc)⟩
  rw [← List.dropWhile_eq_nil_iff]
  -- What is left begins with a character outside of the class, unless it is nothing.
  by_contra left
  have first := List.head_dropWhile_not p left
  rw [all _ (List.head_mem left)] at first
  cases first

theorem isVoid_iff {s : String} : isVoid s = true ↔ Text.strip s = "" := by
  rw [isVoid, List.all_eq_true, ← trimBy_eq_nil, Text.strip, String.ofList_eq_empty_iff]

theorem blank_small {c : Char} (h : isBlank c = true) : c.toNat ≤ 12288 := by
  simp only [isBlank, isWhite, Bool.or_eq_true, Bool.and_eq_true, decide_eq_true_eq, beq_iff_eq] at h
  omega

theorem not_blank {c : Char} (h : halfPlane ≤ c.toNat) : ¬isBlank c = true := fun blank => by
  have := blank_small blank
  unfold halfPlane at h
  omega

theorem Held.dropWhile {cs : List Char} (h : Held cs) : Held (cs.dropWhile isBlank) := by
  obtain ⟨ps, proper, rfl⟩ := h
  induction ps with
  | nil => exact ⟨[], proper, rfl⟩
  | cons p ps ih =>
    have whole : Held ((p :: ps).flatMap Point.held) := ⟨p :: ps, proper, rfl⟩
    obtain ⟨own, rest⟩ := List.forall_mem_cons.mp proper
    rw [List.flatMap_cons] at whole ⊢
    rcases Point.held_cases own with ⟨c, -, held⟩ | ⟨c, -, held⟩
    · rw [held, List.singleton_append] at whole ⊢
      rw [List.dropWhile_cons]
      split
      · exact ih rest
      · exact whole
    · rw [held, List.cons_append] at whole ⊢
      rwa [List.dropWhile_cons, if_neg (not_blank (by decide))]

theorem Held.dropWhile_reverse {cs : List Char} (h : Held cs) :
    Held (cs.reverse.dropWhile isBlank).reverse := by
  obtain ⟨ps, proper, rfl⟩ := h
  induction ps using List.reverseRecOn with
  | nil => exact ⟨[], proper, rfl⟩
  | append_singleton ps p ih =>
    have whole : Held ((ps ++ [p]).flatMap Point.held) := ⟨ps ++ [p], proper, rfl⟩
    obtain ⟨rest, own⟩ := List.forall_mem_append.mp proper
    rw [List.flatMap_append, List.flatMap_singleton] at whole ⊢
    rcases Point.held_cases (own p List.mem_cons_self) with ⟨c, -, held⟩ | ⟨c, far, held⟩
    · rw [held] at whole ⊢
      rw [List.reverse_append, List.reverse_singleton, List.singleton_append, List.dropWhile_cons]
      split
      · exact ih rest
      · rwa [List.reverse_cons, List.reverse_reverse]
    · rw [held] at whole ⊢
      have order : (ps.flatMap Point.held ++ [mark, c]).reverse =
          c :: mark :: (ps.flatMap Point.held).reverse := by simp
      rw [order, List.dropWhile_cons, if_neg (not_blank far), ← order, List.reverse_reverse]
      exact whole

theorem Proper.strip {s : String} (h : Proper s) : Proper (strip s) := by
  rw [Proper, Text.strip, String.toList_ofList]
  exact (Held.dropWhile h).dropWhile_reverse

/-! ### Small letters -/

theorem lowerRows_near : ∀ row ∈ lowerRows,
    row.2.1 < halfPlane ∧ (row.2.1 : Int) + row.2.2.2 < halfPlane := by decide +kernel

theorem lowerChar_far {c : Char} (far : halfPlane ≤ c.toNat) : lowerChar c = [c] := by
  have beyond : 0x10000 ≤ c.toNat := by
    unfold halfPlane at far
    omega
  rw [lowerChar, if_neg (by omega), if_neg (by omega), shiftBy]
  split
  · rename_i low high step shift found
    have near : high < halfPlane := (lowerRows_near _ (List.mem_of_find?_eq_some found)).1
    have within := List.find?_some found
    simp only [Bool.and_eq_true, decide_eq_true_eq] at within
    omega
  · rfl

theorem toNat_ofNat_le (n : Nat) : (Char.ofNat n).toNat ≤ n := by
  by_cases valid : n.isValidChar
  · rw [Char.ofNat, dif_pos valid]
    exact Nat.le_refl n
  · rw [Char.ofNat, dif_neg valid]
    exact Nat.zero_le n

/-- The mark is the small form of no other character. -/
theorem mark_not_mem_lowerChar {c : Char} (other : c ≠ mark) : mark ∉ lowerChar c := by
  by_cases far : halfPlane ≤ c.toNat
  · rw [lowerChar_far far]
    simpa using other.symm
  have ascii : ∀ n < 128, (Char.ofNat n).toLower ≠ mark := by decide +kernel
  rw [lowerChar]
  split
  · rename_i small
    have := ascii c.toNat small
    rw [Char.ofNat_toNat] at this
    simpa using this.symm
  split
  · decide
  rw [List.mem_singleton, shiftBy]
  split
  · rename_i low high step shift found
    have near : (high : Int) + shift < halfPlane :=
      (lowerRows_near _ (List.mem_of_find?_eq_some found)).2
    have within := List.find?_some found
    simp only [Bool.and_eq_true, decide_eq_true_eq] at within
    intro same
    have place := congrArg Char.toNat same
    have last : mark.toNat = 0x10FFFF := by decide
    have small := toNat_ofNat_le ((c.toNat : Int) + shift).toNat
    unfold halfPlane at near
    omega
  · exact other.symm

theorem Held.lowerFrom {cs : List Char} (h : Held cs) (before : List Char) :
    Held (lowerFrom before cs) := by
  obtain ⟨ps, proper, rfl⟩ := h
  induction ps generalizing before with
  | nil => exact ⟨[], proper, rfl⟩
  | cons p ps ih =>
    obtain ⟨own, rest⟩ := List.forall_mem_cons.mp proper
    rw [List.flatMap_cons]
    rcases Point.held_cases own with ⟨c, other, held⟩ | ⟨c, far, held⟩
    · rw [held, List.singleton_append, Text.lowerFrom]
      refine Held.append (.of_unmarked ?_) (ih _ rest)
      split
      · split
        · decide
        · decide
      · exact mark_not_mem_lowerChar other
    · have not_sigma : ∀ d : Char, halfPlane ≤ d.toNat → ¬d.toNat = 931 := by
        intro d far
        unfold halfPlane at far
        omega
      have mark_far : halfPlane ≤ mark.toNat := by decide
      have point : Held [mark, c] := held ▸ Held.point own
      have pair := point.append (ih (c :: mark :: before) rest)
      rw [held, List.cons_append, List.singleton_append, Text.lowerFrom, Text.lowerFrom,
        if_neg (not_sigma _ mark_far), if_neg (not_sigma _ far), lowerChar_far mark_far,
        lowerChar_far far]
      exact pair

theorem Proper.lower {s : String} (h : Proper s) : Proper (lower s) := by
  rw [Proper, Text.lower, String.toList_ofList]
  exact Held.lowerFrom h []

end Wireframe.Text
