import Wireframe.Viewport
import Wireframe.Proofs.Result
import Wireframe.Proofs.Text.Numeral
import Mathlib.Data.List.TakeWhile

/-
  Wireframe.Proofs.Text.Viewport — viewports are read from the texts that spell one, and from no
  others.

  A text spells a viewport when it is two runs of digits, of any scripts, with an `x` between them
  and blanks where they please. The scan for a run takes all blanks and all digits that it meets,
  and would lose a spelling if one of them were another; no character is both a digit and a blank,
  and an `x` is neither.

  How many digits are read is limited. The limit is no matter of spelling, so the reading is stated
  without it first.

  Proved:
  - `digits?_eq_some_iff`: two runs of digits are found in a text exactly when it spells them.
  - `unlimited_eq_ok_iff`, `unlimited_eq_error_iff`: without the limit a text is read exactly when
    both numbers that it spells are positive.
  - `parse_of_overlong`, `parse_of_not_overlong`: with the limit it is read in the same way, unless
    a run is too long.
  - `parse_label_iff`: the label of a viewport is read as that viewport.
-/

namespace Wireframe

/-! ## Digits and blanks -/

namespace Text

theorem digit?_eq_some {c : Char} {n : Nat} (h : digit? c = some n) :
    n ≤ 9 ∧ ∃ z ∈ zeros, c.toNat = z + n := by
  unfold digit? at h
  split at h
  · rw [Option.ite_none_right_eq_some, Option.some.injEq] at h
    have bounds := isDigit_toNat h.1
    exact ⟨by omega, 48, by decide, by omega⟩
  · obtain ⟨z, found, rfl⟩ := Option.map_eq_some_iff.mp h
    have bounds := List.find?_some found
    simp only [Bool.and_eq_true, decide_eq_true_eq] at bounds
    exact ⟨by omega, z, List.mem_of_find?_eq_some found, by omega⟩

theorem not_isBlank_of_digit {c : Char} (h : isDigit c = true) : isBlank c = false := by
  have none_blank : ∀ z ∈ zeros, ∀ n ≤ 9, isBlank (Char.ofNat (z + n)) = false := by decide +kernel
  obtain ⟨n, hn⟩ := Option.isSome_iff_exists.mp h
  obtain ⟨small, z, hz, place⟩ := digit?_eq_some hn
  rw [← Char.ofNat_toNat c, place]
  exact none_blank z hz n small

theorem not_isDigit_of_blank {c : Char} (h : isBlank c = true) : isDigit c = false := by
  by_contra digit
  rw [not_isBlank_of_digit (by simpa using digit)] at h
  cases h

/-- A run of digits writes a number that has no more digits. -/
theorem digitsValue_lt {cs : List Char} (h : ∀ c ∈ cs, isDigit c = true) :
    digitsValue cs < 10 ^ cs.length := by
  have after : ∀ value, digitsFrom value cs < (value + 1) * 10 ^ cs.length := by
    induction cs with
    | nil => intro value; simp [digitsFrom]
    | cons c cs ih =>
      intro value
      obtain ⟨n, hn⟩ := Option.isSome_iff_exists.mp (h c List.mem_cons_self)
      have small := (digit?_eq_some hn).1
      calc digitsFrom value (c :: cs)
          = digitsFrom (10 * value + n) cs := by simp [digitsFrom, hn]
        _ < (10 * value + n + 1) * 10 ^ cs.length :=
            ih (fun d hd => h d (List.mem_cons_of_mem c hd)) _
        _ ≤ (10 * (value + 1)) * 10 ^ cs.length := Nat.mul_le_mul_right _ (by omega)
        _ = (value + 1) * 10 ^ (c :: cs).length := by
            rw [List.length_cons, pow_succ, Nat.mul_comm 10, Nat.mul_assoc, Nat.mul_comm 10]
  simpa [digitsValue] using after 0

end Text

namespace Viewport

open Text (isBlank isDigit digitsValue digitLimit)

/-! ## Spellings -/

/-- A run of digits, with blanks before and after it, and more text. -/
def Padded (cs digits rest : List Char) : Prop :=
  ∃ before after, cs = before ++ (digits ++ (after ++ rest)) ∧ (∀ c ∈ before, isBlank c = true) ∧
    (digits ≠ [] ∧ ∀ c ∈ digits, isDigit c = true) ∧ ∀ c ∈ after, isBlank c = true

/-- A text spells two runs of digits when they are all of it but blanks and an `x` between them. -/
def Spelled (s : String) (width height : List Char) : Prop :=
  ∃ x rest, (x = 'x' ∨ x = 'X') ∧ Padded s.toList width (x :: rest) ∧ Padded rest height []

/-- The text goes on with neither a digit nor a blank. -/
def Stops (rest : List Char) : Prop := ∀ c ∈ rest.head?, isDigit c = false ∧ isBlank c = false

theorem stops_nil : Stops [] := fun _ h => nomatch h

theorem stops_separator {x : Char} (h : x = 'x' ∨ x = 'X') (rest : List Char) : Stops (x :: rest) := by
  intro c hc
  obtain rfl := Option.some.inj hc
  rcases h with rfl | rfl
  · exact ⟨by decide, by decide⟩
  · exact ⟨by decide, by decide⟩

theorem Padded.digit {cs digits rest : List Char} (h : Padded cs digits rest) :
    ∀ c ∈ digits, isDigit c = true := by
  obtain ⟨_, _, _, _, ⟨_, digit⟩, _⟩ := h
  exact digit

/-- What a class takes of a text that starts with no character of it is nothing. -/
theorem scan_stopped {p : Char → Bool} {cs : List Char} (h : ∀ c ∈ cs.head?, p c = false) :
    cs.takeWhile p = [] ∧ cs.dropWhile p = cs := by
  cases cs with
  | nil => exact ⟨rfl, rfl⟩
  | cons c cs =>
    have stop : ¬p c = true := by simp [h c rfl]
    exact ⟨List.takeWhile_cons_of_neg stop, List.dropWhile_cons_of_neg stop⟩

/-- A class takes a run of its characters from a text, and goes on behind it. -/
theorem scan_append {p : Char → Bool} {cs : List Char} (h : ∀ c ∈ cs, p c = true) (rest : List Char) :
    (cs ++ rest).takeWhile p = cs ++ rest.takeWhile p ∧ (cs ++ rest).dropWhile p = rest.dropWhile p :=
  ⟨List.takeWhile_append_of_pos h, List.dropWhile_append_of_pos h⟩

/-- A run that the scan finds is there. -/
theorem padded_of_paddedDigits? {cs digits rest : List Char}
    (h : paddedDigits? cs = some (digits, rest)) : Padded cs digits rest := by
  unfold paddedDigits? at h
  simp only [Option.ite_none_left_eq_some, Option.some.injEq, Prod.mk.injEq, List.isEmpty_iff] at h
  obtain ⟨some_digit, rfl, rfl⟩ := h
  have all {p : Char → Bool} (ds : List Char) : ∀ c ∈ ds.takeWhile p, p c = true := fun c hc =>
    List.all_eq_true.mp List.all_takeWhile c hc
  refine ⟨cs.takeWhile isBlank, ((cs.dropWhile isBlank).dropWhile isDigit).takeWhile isBlank, ?_,
    all _, ⟨some_digit, all _⟩, all _⟩
  simp only [List.takeWhile_append_dropWhile]

/-- A run that is there is found, if the text after it does not go on with it. -/
theorem paddedDigits?_of_padded {cs digits rest : List Char} (h : Padded cs digits rest)
    (stops : Stops rest) : paddedDigits? cs = some (digits, rest) := by
  obtain ⟨before, after, rfl, blank, ⟨some_digit, digit⟩, blank'⟩ := h
  -- the blanks before the run end at its first digit
  have first : ∀ c ∈ (digits ++ (after ++ rest)).head?, isBlank c = false := by
    intro c hc
    obtain ⟨d, ds, rfl⟩ := List.exists_cons_of_ne_nil some_digit
    obtain rfl := Option.some.inj hc
    exact Text.not_isBlank_of_digit (digit d List.mem_cons_self)
  have body : (before ++ (digits ++ (after ++ rest))).dropWhile isBlank = digits ++ (after ++ rest) := by
    rw [(scan_append blank _).2, (scan_stopped first).2]
  -- and the run ends at a blank or at what follows
  have last : ∀ c ∈ (after ++ rest).head?, isDigit c = false := by
    intro c hc
    cases after with
    | nil => exact (stops c hc).1
    | cons b bs =>
      obtain rfl := Option.some.inj hc
      exact Text.not_isDigit_of_blank (blank' b List.mem_cons_self)
  have behind : (after ++ rest).dropWhile isBlank = rest := by
    rw [(scan_append blank' rest).2, (scan_stopped fun c hc => (stops c hc).2).2]
  have run := scan_append digit (after ++ rest)
  rw [(scan_stopped last).1, (scan_stopped last).2, List.append_nil] at run
  simp only [paddedDigits?, body, run.1, run.2, behind]
  rw [if_neg (by simpa using some_digit)]

/-- Two runs of digits are found in a text exactly when it spells them. -/
theorem digits?_eq_some_iff {s : String} {width height : List Char} :
    digits? s = some (width, height) ↔ Spelled s width height := by
  constructor
  · intro h
    unfold digits? at h
    split at h
    · rename_i w x rest found
      simp only [Option.ite_none_right_eq_some, Bool.or_eq_true, beq_iff_eq] at h
      obtain ⟨separator, h⟩ := h
      split at h
      · rename_i found'
        cases h
        exact ⟨x, rest, separator, padded_of_paddedDigits? found, padded_of_paddedDigits? found'⟩
      · cases h
    · cases h
  · intro ⟨x, rest, separator, first, second⟩
    have is_separator : (x == 'x' || x == 'X') = true := by simpa using separator
    unfold digits?
    rw [paddedDigits?_of_padded first (stops_separator separator rest)]
    simp only [if_pos is_separator, paddedDigits?_of_padded second stops_nil]

/-- A text spells at most one pair of runs. -/
theorem Spelled.unique {s : String} {w h w' h' : List Char} (first : Spelled s w h)
    (second : Spelled s w' h') : w = w' ∧ h = h' := by
  have same := (digits?_eq_some_iff.mpr first).symm.trans (digits?_eq_some_iff.mpr second)
  exact Prod.mk.inj (Option.some.inj same)

theorem Spelled.digit {s : String} {w h : List Char} (spelled : Spelled s w h) :
    (∀ c ∈ w, isDigit c = true) ∧ ∀ c ∈ h, isDigit c = true := by
  obtain ⟨_, _, _, first, second⟩ := spelled
  exact ⟨first.digit, second.digit⟩

theorem spelled_label (v : Viewport) :
    Spelled v.label (Nat.toDigits 10 v.width) (Nat.toDigits 10 v.height) := by
  have run (n : Nat) (rest : List Char) :
      Padded (Nat.toDigits 10 n ++ rest) (Nat.toDigits 10 n) rest :=
    ⟨[], [], rfl, fun _ h => (nomatch h),
      ⟨Nat.toDigits_ne_nil, fun c hc => Text.isDigit_of_isDigit (Text.isDigit_toDigits hc)⟩,
      fun _ h => (nomatch h)⟩
  have written : v.label.toList = Nat.toDigits 10 v.width ++ 'x' :: Nat.toDigits 10 v.height := by
    rw [label, String.toList_append, String.toList_append, List.append_assoc]
    exact congrArg₂ (fun w h => w ++ 'x' :: h) Nat.toList_repr Nat.toList_repr
  refine ⟨'x', Nat.toDigits 10 v.height, .inl rfl, ?_, ?_⟩
  · rw [written]
    exact run v.width _
  · have := run v.height []
    rwa [List.append_nil] at this

/-! ## Readings -/

/-- The viewport of two numbers, if both are positive. -/
def ofNumbers (s : String) (w h : Nat) : Except ViewportFault Viewport :=
  if wide : 0 < w then
    if high : 0 < h then .ok ⟨w, h, wide, high⟩ else .error (.notPositive s)
  else .error (.notPositive s)

theorem ofNumbers_eq_ok {s : String} {w h : Nat} {v : Viewport} :
    ofNumbers s w h = .ok v ↔ w = v.width ∧ h = v.height := by
  constructor
  · intro made
    unfold ofNumbers at made
    split at made
    · split at made
      · cases made
        exact ⟨rfl, rfl⟩
      · cases made
    · cases made
  · intro ⟨hw, hh⟩
    subst hw hh
    rw [ofNumbers, dif_pos v.width_pos, dif_pos v.height_pos]

theorem ofNumbers_eq_error {s : String} {w h : Nat} {e : ViewportFault} :
    ofNumbers s w h = .error e ↔ e = .notPositive s ∧ (w = 0 ∨ h = 0) := by
  by_cases positive : 0 < w ∧ 0 < h
  · have made : ofNumbers s w h = .ok ⟨w, h, positive.1, positive.2⟩ := ofNumbers_eq_ok.mpr ⟨rfl, rfl⟩
    rw [made]
    refine iff_of_false (fun refused => nomatch refused) ?_
    omega
  · have refused : ofNumbers s w h = .error (.notPositive s) := by
      unfold ofNumbers
      split
      · rw [dif_neg (by omega)]
      · rfl
    rw [refused, Except.error.injEq, eq_comm]
    exact ⟨fun same => ⟨same, by omega⟩, And.left⟩

/-- The viewport of a text, with a reading of runs of digits. -/
def readBy (read : List Char → Except Text.TooManyDigits Nat) (s : String) :
    Except ViewportFault Viewport :=
  (digits? s).elim (.error (.malformed s)) fun runs => do
    let w ← (read runs.1).mapError .tooManyDigits
    let h ← (read runs.2).mapError .tooManyDigits
    ofNumbers s w h

/-- The viewport of a text, however many digits it is written with. -/
def unlimited : String → Except ViewportFault Viewport := readBy fun digits => .ok (digitsValue digits)

theorem parse_eq_readBy (s : String) : parse s = readBy Text.readDigits s := by
  have numbers (w h : Nat) : (if positive : 0 < w ∧ 0 < h then
      Except.ok (⟨w, h, positive.1, positive.2⟩ : Viewport) else .error (.notPositive s)) =
        ofNumbers s w h := by
    split
    · rename_i positive
      exact (ofNumbers_eq_ok.mpr ⟨rfl, rfl⟩).symm
    · exact (ofNumbers_eq_error.mpr ⟨rfl, by omega⟩).symm
  unfold parse readBy
  simp only [numbers]
  cases digits? s with
  | none => rfl
  | some runs => rfl

theorem unlimited_of_spelled {s : String} {w h : List Char} (spelled : Spelled s w h) :
    unlimited s = ofNumbers s (digitsValue w) (digitsValue h) := by
  rw [unlimited, readBy, digits?_eq_some_iff.mpr spelled]
  rfl

theorem unlimited_of_unspelled {s : String} (h : ∀ w h, ¬Spelled s w h) :
    unlimited s = .error (.malformed s) := by
  rw [unlimited, readBy]
  cases found : digits? s with
  | none => rfl
  | some runs => exact absurd (digits?_eq_some_iff.mp found) (h runs.1 runs.2)

/-- Without the limit a text is read as the two numbers that it spells. -/
theorem unlimited_eq_ok_iff {s : String} {v : Viewport} :
    unlimited s = .ok v ↔
      ∃ w h, Spelled s w h ∧ digitsValue w = v.width ∧ digitsValue h = v.height := by
  constructor
  · intro read
    by_cases some_spelling : ∃ w h, Spelled s w h
    · obtain ⟨w, h, spelled⟩ := some_spelling
      rw [unlimited_of_spelled spelled] at read
      exact ⟨w, h, spelled, ofNumbers_eq_ok.mp read⟩
    · rw [unlimited_of_unspelled fun w h spelled => some_spelling ⟨w, h, spelled⟩] at read
      cases read
  · intro ⟨w, h, spelled, numbers⟩
    rw [unlimited_of_spelled spelled]
    exact ofNumbers_eq_ok.mpr numbers

/-- Without the limit a text is refused because it spells no two numbers, or one of them is
    zero. -/
theorem unlimited_eq_error_iff {s : String} {e : ViewportFault} :
    unlimited s = .error e ↔ (e = .malformed s ∧ ∀ w h, ¬Spelled s w h) ∨
      e = .notPositive s ∧ ∃ w h, Spelled s w h ∧ (digitsValue w = 0 ∨ digitsValue h = 0) := by
  by_cases some_spelling : ∃ w h, Spelled s w h
  · obtain ⟨w, h, spelled⟩ := some_spelling
    rw [unlimited_of_spelled spelled, ofNumbers_eq_error]
    constructor
    · intro ⟨same, zero⟩
      exact .inr ⟨same, w, h, spelled, zero⟩
    · intro refused
      rcases refused with ⟨-, none⟩ | ⟨same, w', h', spelled', zero⟩
      · exact absurd spelled (none w h)
      · obtain ⟨rfl, rfl⟩ := spelled.unique spelled'
        exact ⟨same, zero⟩
  · have none (w h) : ¬Spelled s w h := fun spelled => some_spelling ⟨w, h, spelled⟩
    rw [unlimited_of_unspelled none, Except.error.injEq]
    constructor
    · intro same
      exact .inl ⟨same.symm, none⟩
    · intro refused
      rcases refused with ⟨same, -⟩ | ⟨-, w, h, spelled, -⟩
      · exact same.symm
      · exact absurd spelled (none w h)

theorem unlimited_succeeds_iff {s : String} :
    (∃ v, unlimited s = .ok v) ↔
      ∃ w h, Spelled s w h ∧ 0 < digitsValue w ∧ 0 < digitsValue h := by
  constructor
  · intro ⟨v, read⟩
    obtain ⟨w, h, spelled, hw, hh⟩ := unlimited_eq_ok_iff.mp read
    exact ⟨w, h, spelled, hw ▸ v.width_pos, hh ▸ v.height_pos⟩
  · intro ⟨w, h, spelled, hw, hh⟩
    exact ⟨⟨_, _, hw, hh⟩, unlimited_eq_ok_iff.mpr ⟨w, h, spelled, rfl, rfl⟩⟩

theorem unlimited_label (v : Viewport) : unlimited v.label = .ok v :=
  unlimited_eq_ok_iff.mpr
    ⟨_, _, spelled_label v, Text.digitsValue_toDigits v.width, Text.digitsValue_toDigits v.height⟩

/-! ## The limit -/

/-- The text spells a number with more digits than a number is read from. -/
def Overlong (s : String) : Prop :=
  ∃ w h, Spelled s w h ∧ (digitLimit < w.length ∨ digitLimit < h.length)

theorem parse_of_overlong {s : String} (long : Overlong s) :
    ∃ t, parse s = .error (.tooManyDigits t) := by
  obtain ⟨w, h, spelled, long⟩ := long
  rw [parse_eq_readBy, readBy, digits?_eq_some_iff.mpr spelled]
  by_cases wide : digitLimit < w.length
  · refine ⟨⟨w.length⟩, ?_⟩
    simp only [Option.elim_some, Text.readDigits, if_pos wide]
    rfl
  · have high : digitLimit < h.length := long.resolve_left wide
    refine ⟨⟨h.length⟩, ?_⟩
    simp only [Option.elim_some, Text.readDigits, if_neg wide, if_pos high]
    rfl

/-- Of the other texts the limit changes nothing. -/
theorem parse_of_not_overlong {s : String} (short : ¬Overlong s) : parse s = unlimited s := by
  rw [parse_eq_readBy, unlimited, readBy, readBy]
  cases found : digits? s with
  | none => rfl
  | some runs =>
    have spelled := digits?_eq_some_iff.mp found
    have wide : ¬digitLimit < runs.1.length := fun long => short ⟨_, _, spelled, .inl long⟩
    have high : ¬digitLimit < runs.2.length := fun long => short ⟨_, _, spelled, .inr long⟩
    simp only [Option.elim_some, Text.readDigits, if_neg wide, if_neg high]

theorem overlong_label_iff {v : Viewport} :
    Overlong v.label ↔ 10 ^ digitLimit ≤ v.width ∨ 10 ^ digitLimit ≤ v.height := by
  rw [← Text.digitLimit_lt_length_iff, ← Text.digitLimit_lt_length_iff]
  constructor
  · intro ⟨w, h, spelled, long⟩
    obtain ⟨rfl, rfl⟩ := spelled.unique (spelled_label v)
    exact long
  · intro long
    exact ⟨_, _, spelled_label v, long⟩

/-- The label of a viewport is read as that viewport, unless it has too many digits. -/
theorem parse_label_iff {v : Viewport} :
    parse v.label = .ok v ↔ v.width < 10 ^ digitLimit ∧ v.height < 10 ^ digitLimit := by
  by_cases long : Overlong v.label
  · obtain ⟨t, refused⟩ := parse_of_overlong long
    rw [refused]
    refine ⟨fun read => (nomatch read), ?_⟩
    intro small
    have := overlong_label_iff.mp long
    omega
  · rw [parse_of_not_overlong long]
    refine ⟨fun _ => ?_, fun _ => unlimited_label v⟩
    rw [overlong_label_iff] at long
    omega

/-- A viewport that was read is read again from its label. -/
theorem parse_label_of_parse {s : String} {v : Viewport} (read : parse s = .ok v) :
    parse v.label = .ok v := by
  by_cases long : Overlong s
  · obtain ⟨t, refused⟩ := parse_of_overlong long
    rw [refused] at read
    cases read
  · rw [parse_of_not_overlong long] at read
    obtain ⟨w, h, spelled, hw, hh⟩ := unlimited_eq_ok_iff.mp read
    have small {cs : List Char} (digit : ∀ c ∈ cs, isDigit c = true) (short : cs.length ≤ digitLimit) :
        digitsValue cs < 10 ^ digitLimit :=
      (Text.digitsValue_lt digit).trans_le (Nat.pow_le_pow_right (by decide) short)
    have wide : w.length ≤ digitLimit := Nat.not_lt.mp fun h => long ⟨_, _, spelled, .inl h⟩
    have high : h.length ≤ digitLimit := Nat.not_lt.mp fun h => long ⟨_, _, spelled, .inr h⟩
    exact parse_label_iff.mpr ⟨hw ▸ small spelled.digit.1 wide, hh ▸ small spelled.digit.2 high⟩

/-! ## There and back -/

/-- A text is read exactly when it spells two positive numbers, and what is read from it is read
    again from its label; all other texts are refused. The limit only refuses texts that spell a
    number with too many digits. -/
theorem viewports_round_trip :
    ((∀ s, (∃ v, unlimited s = .ok v) ↔
        ∃ w h, Spelled s w h ∧ 0 < digitsValue w ∧ 0 < digitsValue h) ∧
      (∀ s v, unlimited s = .ok v ↔
        ∃ w h, Spelled s w h ∧ digitsValue w = v.width ∧ digitsValue h = v.height) ∧
      (∀ s e, unlimited s = .error e ↔ (e = .malformed s ∧ ∀ w h, ¬Spelled s w h) ∨
        e = .notPositive s ∧ ∃ w h, Spelled s w h ∧ (digitsValue w = 0 ∨ digitsValue h = 0)) ∧
      ∀ v : Viewport, unlimited v.label = .ok v) ∧
    (∀ s, (Overlong s → ∃ t, parse s = .error (.tooManyDigits t)) ∧
      (¬Overlong s → parse s = unlimited s)) ∧
    (∀ s v, parse s = .ok v → parse v.label = .ok v) ∧
    ∀ v : Viewport,
      parse v.label = .ok v ↔ v.width < 10 ^ digitLimit ∧ v.height < 10 ^ digitLimit :=
  ⟨⟨fun _ => unlimited_succeeds_iff, fun _ _ => unlimited_eq_ok_iff,
      fun _ _ => unlimited_eq_error_iff, unlimited_label⟩,
    fun _ => ⟨parse_of_overlong, parse_of_not_overlong⟩,
    fun _ _ => parse_label_of_parse, fun _ => parse_label_iff⟩

/-- Digits of two scripts, a leading zero, and a line end behind. -/
theorem viewports_round_trip_two_scripts :
    (∃ w h, Spelled " \u0663X\t040\n" w h ∧ 0 < digitsValue w ∧ 0 < digitsValue h) ∧
      ∃ v, parse " \u0663X\t040\n" = .ok v ∧ v.label = "3x40" ∧ parse "3x40" = .ok v := by
  obtain ⟨⟨succeeds, -⟩, limited, again, -⟩ := viewports_round_trip
  have spelled : Spelled " \u0663X\t040\n" ['\u0663'] ['0', '4', '0'] :=
    digits?_eq_some_iff.mp (by decide +kernel)
  have short : ¬Overlong " \u0663X\t040\n" := by
    intro ⟨w, h, spelled', long⟩
    obtain ⟨rfl, rfl⟩ := spelled.unique spelled'
    revert long
    decide
  have positive : 0 < digitsValue ['\u0663'] ∧ 0 < digitsValue ['0', '4', '0'] := by decide +kernel
  obtain ⟨v, read⟩ := (succeeds _).mpr ⟨_, _, spelled, positive⟩
  rw [← (limited _).2 short] at read
  have shown : (parse " \u0663X\t040\n").map (·.label) = .ok "3x40" := by decide +kernel
  rw [read] at shown
  have shown : v.label = "3x40" := Except.ok.inj shown
  exact ⟨⟨_, _, spelled, positive⟩, v, read, shown, shown ▸ again _ _ read⟩

end Viewport

end Wireframe
