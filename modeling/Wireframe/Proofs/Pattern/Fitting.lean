import Wireframe.Proofs.Layout.Hidden
import Wireframe.Proofs.Pattern.Hidden
import Wireframe.Proofs.Result
import Wireframe.Proofs.Value.Order
import Wireframe.Proofs.Viewports

/-
  Wireframe.Proofs.Pattern.Fitting — tables that do not fit, at the smallest viewport and at others.

  The rule is run once, at the width of the smallest viewport. The strategy of a table decides
  before widths are compared, and what needs more than a width needs more than a smaller one, so no
  other viewport has a table to report that this one has not.

  A message tells the width as a double. A whole number that is beyond the doubles is exceeded only
  by a table that is infinitely wide, and then the rule comes to nothing, also about the tables that
  have no strategy. This happens at the smallest viewport only if it does at all of them.

  Proved:
  - `mem_unfitTables`: what the rule looks for.
  - `unfitTables_sublist`: at a smaller width it finds the same tables and more.
  - `fitOutcome_fails_iff`: when it comes to nothing.
  - `smallest_width_suffices`: one run at the smallest viewport is enough.
-/

namespace Wireframe.Tables

open Node hiding id

variable {root : Node}

/-! ## What the rule looks for -/

theorem tableWith_iff {problem : TableContent → Bool} {n : Node} :
    tableWith problem n = true ↔ ∃ h t, n = .table h t ∧ problem t = true := by
  cases n with
  | table h t => exact ⟨fun found => ⟨h, t, rfl, found⟩, fun ⟨_, _, rfl, found⟩ => found⟩
  | stack | grid | box | text | button | field | form =>
    exact iff_of_false Bool.false_ne_true fun ⟨_, _, same, _⟩ => nomatch same

/-- The table needs more than a width for its columns, and its strategy is not a safe one. -/
def Crowded (width : Number) (t : TableContent) : Prop :=
  ∃ s m, strategy? t = some s ∧ s ∉ safeStrategies ∧ t.columns ≠ [] ∧
    t.responsive.bind (·.minColumnWidth) = some m ∧
    width.lt (.float (m * Float.ofNat t.columns.length)) = true

theorem crowded_iff {width : Number} {t : TableContent} :
    ((strategy? t).isSome && (overrun? (some width) t).isSome) = true ↔ Crowded width t := by
  unfold Crowded overrun? requiredWidth?
  cases strategy? t with
  | none => simp
  | some s =>
    by_cases safe : s ∈ safeStrategies
    · simp [safe]
    · by_cases none : t.columns = []
      · simp [none]
      · cases t.responsive.bind (·.minColumnWidth) with
        | none => simp
        | some m =>
          simp [safe, none, apply_ite Option.isSome]

instance (width : Number) (t : TableContent) : Decidable (Crowded width t) :=
  decidable_of_iff _ crowded_iff

theorem overrun?_unknown (t : TableContent) : overrun? none t = none := by
  unfold overrun?
  split
  · rfl
  · rfl

/-- A table does not fit when it has no strategy, or when the width is known and it is crowded. -/
theorem unfit_iff {width : Option Number} {t : TableContent} :
    unfit width t = true ↔ strategy? t = none ∨ ∃ v, width = some v ∧ Crowded v t := by
  cases width with
  | none =>
    simp [unfit, overrun?_unknown]
  | some v =>
    rw [unfit, Bool.or_eq_true, Option.isNone_iff_eq_none]
    simp only [Option.some.injEq, exists_eq_left', ← crowded_iff, Bool.and_eq_true]
    cases strategy? t with
    | none => simp
    | some s => simp

/-- The visible tables that do not fit, in document order. -/
def unfitTables (width : Option Number) (root : Node) : List Located :=
  root.walk.filter fun l => tableWith (unfit width) l.node

theorem mem_unfitTables {width : Option Number} {l : Located} : l ∈ unfitTables width root ↔
    l ∈ root.walk ∧ ∃ h t, l.node = .table h t ∧
      (strategy? t = none ∨ ∃ v, width = some v ∧ Crowded v t) := by
  rw [unfitTables, List.mem_filter, tableWith_iff]
  simp only [unfit_iff]

/-- The issue that tells of a table. -/
structure FitTold (l : Located) (i : Issue) : Prop where
  id : i.id = "min-width-fit-or-scroll"
  severity : i.severity = .error
  about : i.At l

theorem fitTold_of_fitFinding? {width : Option Number} {l : Located} {t : TableContent} {i : Issue}
    (h : fitFinding? width l t = some i) : FitTold l i := by
  unfold fitFinding? at h
  split at h
  · cases h
    exact ⟨rfl, rfl, rfl, rfl⟩
  · obtain ⟨⟨v, m, required⟩, -, told⟩ := Option.map_eq_some_iff.mp h
    cases told
    exact ⟨rfl, rfl, rfl, rfl⟩

/-- What is found tells of the tables that do not fit, one by one. -/
theorem forall₂_fitFindings (width : Option Number) (root : Node) :
    List.Forall₂ FitTold (unfitTables width root) (fitFindings width root) := by
  refine forall₂_filterMap (fun l _ => ?_) fun l _ i found => ?_
  · cases l.node with
    | table h t => exact fitFinding?_eq_none
    | stack | grid | box | text | button | field | form => simp [tableWith]
  · split at found
    · exact fitTold_of_fitFinding? found
    · cases found

/-! ## When the rule comes to nothing -/

/-- What the rule comes to: its findings, if every width in them can be told. -/
def fitOutcome (width : Option Number) (root : Node) : Calculation (List Issue) :=
  (checkWidth width root).map fun _ => fitFindings width root

/-- The width that is told is the one that the rule was run at. -/
theorem overrun?_width {v : Number} {t : TableContent} {widths : Number × Float × Float}
    (h : overrun? (some v) t = some widths) : v = widths.1 := by
  unfold overrun? at h
  obtain ⟨-, h⟩ := Option.ite_none_left_eq_some.mp h
  split at h
  · rename_i same _
    obtain ⟨-, told⟩ := Option.ite_none_right_eq_some.mp h
    cases told
    exact Option.some.inj same
  · cases h

theorem widthTold_eq_ok {v : Number} {n : Node} :
    widthTold (some v) n = .ok () ↔ (tableWith (fun t => Crowded v t) n = true → v.InRange) := by
  cases n with
  | table h t =>
    rw [tableWith, decide_eq_true_iff, ← crowded_iff, widthTold]
    cases strategy? t with
    | none => simp
    | some s =>
      cases found : overrun? (some v) t with
      | none => simp
      | some widths =>
        obtain rfl : v = widths.1 := overrun?_width found
        simp only [Result.map_eq_ok, Number.InRange]
        simp
  | stack | grid | box | text | button | field | form => simp [tableWith, widthTold]

/-- The rule comes to nothing when a visible table is crowded at a width beyond the doubles. -/
theorem fitOutcome_fails_iff {width : Option Number} : (∃ e, fitOutcome width root = .error e) ↔
    ∃ v, width = some v ∧ ¬v.InRange ∧ ∃ h t, .table h t ∈ root.visibleNodes ∧ Crowded v t := by
  have fails : (∃ e, fitOutcome width root = .error e) ↔ ¬checkWidth width root = .ok () := by
    rw [fitOutcome, Result.map_fails_iff]
    cases checkWidth width root <;> simp
  have all : checkWidth width root = .ok () ↔ ∀ n ∈ root.visibleNodes, widthTold width n = .ok () := by
    rw [checkWidth_eq]
    exact Result.forM_eq_ok
  rw [fails, all]
  cases width with
  | none =>
    have told : ∀ n, widthTold none n = .ok () := by
      intro n
      cases n with
      | table h t => cases strategy? t <;> simp [widthTold, overrun?_unknown]
      | stack | grid | box | text | button | field | form => rfl
    simp [told]
  | some v =>
    simp only [widthTold_eq_ok, tableWith_iff, decide_eq_true_iff, Option.some.injEq,
      exists_eq_left']
    push Not
    constructor
    · intro ⟨n, hn, ⟨h, t, here, crowded⟩, beyond⟩
      exact ⟨beyond, h, t, here ▸ hn, crowded⟩
    · intro ⟨beyond, h, t, hn, crowded⟩
      exact ⟨_, hn, ⟨h, t, rfl, crowded⟩, beyond⟩

/-! ## Smaller and larger widths -/

/-- What needs more than a width needs more than a smaller one. -/
theorem Crowded.of_le {v u : Number} {t : TableContent} (le : v.le u = true) (h : Crowded u t) :
    Crowded v t := by
  obtain ⟨s, m, planned, exposed, some_column, least, exceeded⟩ := h
  refine ⟨s, m, planned, exposed, some_column, least, ?_⟩
  obtain ⟨p, q, hp, hq, below⟩ := Number.le_iff.mp le
  obtain ⟨q', r, hq', hr, above⟩ := Number.lt_iff.mp exceeded
  obtain rfl : q = q' := Option.some.inj (hq.symm.trans hq')
  exact Number.lt_iff.mpr ⟨p, r, hp, hr, below.trans_lt above⟩

theorem unfitTables_sublist {v u : Number} (le : v.le u = true) :
    (unfitTables (some u) root).Sublist (unfitTables (some v) root) := by
  refine List.monotone_filter_right _ fun l found => ?_
  obtain ⟨h, t, here, unfit⟩ := tableWith_iff.mp found
  refine tableWith_iff.mpr ⟨h, t, here, unfit_iff.mpr ?_⟩
  rcases unfit_iff.mp unfit with unplanned | ⟨w, same, crowded⟩
  · exact .inl unplanned
  · cases same
    exact .inr ⟨v, rfl, crowded.of_le le⟩

/-- What is found without a width is found at every width. -/
theorem unfitTables_unknown (width : Option Number) :
    (unfitTables none root).Sublist (unfitTables width root) := by
  refine List.monotone_filter_right _ fun l found => ?_
  obtain ⟨h, t, here, unfit⟩ := tableWith_iff.mp found
  refine tableWith_iff.mpr ⟨h, t, here, unfit_iff.mpr (.inl ?_)⟩
  exact (unfit_iff.mp unfit).resolve_right fun ⟨_, unknown, _⟩ => nomatch unknown

/-- A whole number that is not negative has a double when it is in their range. -/
theorem inRange_ofNat_iff {n : Nat} : (Number.int n).InRange ↔ Double.InRange n := by
  constructor
  · intro ⟨x, hx⟩
    have zero : Double.StandsFor 0.0 0 := ⟨by decide +kernel, by decide +kernel⟩
    exact_mod_cast Number.inRange_of_toDouble hx zero (by exact_mod_cast Nat.zero_le n)
  · intro range
    have range : Double.InRange ((n : Int) : ℚ) := by exact_mod_cast range
    exact Number.inRange_int (Double.standsFor_ofInt range).finite

/-- A whole number beyond the doubles is exceeded only by what is infinitely wide. -/
theorem Crowded.beyond {n : Nat} {t : TableContent} (h : Crowded (.int n) t)
    (beyond : ¬(Number.int n).InRange) (k : Int) : Crowded (.int k) t := by
  obtain ⟨s, m, planned, exposed, some_column, least, exceeded⟩ := h
  refine ⟨s, m, planned, exposed, some_column, least, ?_⟩
  obtain ⟨p, q, hp, hq, above⟩ := Number.lt_iff.mp exceeded
  obtain rfl : ((((n : Int) : ℚ) : WithTop ℚ) : Double.Line) = p := Option.some.inj hp
  have required := Double.kind (m * Float.ofNat t.columns.length)
  rw [show Double.place? (m * Float.ofNat t.columns.length) = some q from hq] at required
  cases required with
  | below _ => exact absurd above (not_lt.mpr bot_le)
  | above _ => exact Number.lt_iff.mpr ⟨_, _, rfl, hq, Double.coe_lt_top _⟩
  | number r stands =>
    have above : ((n : Int) : ℚ) < r := Double.coe_lt_coe.mp above
    have nonneg : (0 : ℚ) ≤ ((n : Int) : ℚ) := by exact_mod_cast Nat.zero_le n
    refine absurd (inRange_ofNat_iff.mpr ?_) beyond
    have range := stands.inRange.of_abs_le (p := ((n : Int) : ℚ)) (by
      rw [abs_of_nonneg nonneg, abs_of_nonneg (nonneg.trans above.le)]
      exact above.le)
    exact_mod_cast range

/-- Where the rule comes to nothing, it comes to nothing at larger widths too. -/
theorem fitOutcome_fails_of_le {v u : Nat} (le : v ≤ u)
    (fails : ∃ e, fitOutcome (some (.int v)) root = .error e) :
    ∃ e, fitOutcome (some (.int u)) root = .error e := by
  obtain ⟨w, same, beyond, h, t, visible, crowded⟩ := fitOutcome_fails_iff.mp fails
  cases same
  refine fitOutcome_fails_iff.mpr ⟨_, rfl, ?_, h, t, visible, crowded.beyond beyond u⟩
  intro range
  refine beyond (inRange_ofNat_iff.mpr ((inRange_ofNat_iff.mp range).of_abs_le ?_))
  rw [Nat.abs_cast, Nat.abs_cast]
  exact_mod_cast le

/-! ## One run -/

/-- The width that the rule is run at for a viewport. -/
def widthOf (v : Viewport) : Option Number := some (.int v.width)

/-- One run of the rule, at the smallest viewport, is enough for all viewports. -/
structure OneRunSuffices (root : Node) : Prop where
  /-- Of some viewports one is the smallest, and that is the one whose width the rules know. -/
  smallest : ∀ vs : List Viewport, vs ≠ [] → ∃ v, Viewport.smallest? vs = some v ∧ v ∈ vs ∧
    ∀ u ∈ vs, v.width < u.width ∨ v.width = u.width ∧ v.height ≤ u.height
  run : ∀ layouts v, Viewport.smallest? (layouts.map (·.1)) = some v →
    (Surroundings.of layouts).width = widthOf v
  /-- Issues are told of the tables that have no strategy or are crowded at the width, one each. -/
  told : ∀ width issues, fitOutcome width root = .ok issues →
    List.Forall₂ FitTold (unfitTables width root) issues
  /-- At no viewport there are more tables to tell of than at the smallest one. -/
  fewer : ∀ vs v, Viewport.smallest? vs = some v → ∀ u ∈ vs,
    (unfitTables (widthOf u) root).Sublist (unfitTables (widthOf v) root)
  /-- When there is an answer at any viewport, there is one at the smallest. -/
  answered : ∀ vs v, Viewport.smallest? vs = some v → ∀ u ∈ vs, ∀ issues,
    fitOutcome (widthOf u) root = .ok issues → ∃ more, fitOutcome (widthOf v) root = .ok more
  /-- What is told without a width is told at every width at which there is an answer. -/
  unknown : ∀ width, (unfitTables none root).Sublist (unfitTables width root)
  /-- There is none when a table is crowded at a width beyond the doubles. -/
  unanswered : ∀ width, (∃ e, fitOutcome width root = .error e) ↔ ∃ v, width = some v ∧
    ¬v.InRange ∧ ∃ h t, .table h t ∈ root.visibleNodes ∧ Crowded v t
  /-- The other rules do not look at the width. -/
  others : ∀ width, (pattern width).rules.filter (·.id != "min-width-fit-or-scroll") =
    (pattern none).rules.filter (·.id != "min-width-fit-or-scroll")

theorem smallest_first {vs : List Viewport} {v u : Viewport} (h : Viewport.smallest? vs = some v)
    (hu : u ∈ vs) : v.width < u.width ∨ v.width = u.width ∧ v.height ≤ u.height := by
  have not_before := (Viewport.smallest?_eq_some.mp h).2 u hu
  rw [← Bool.not_eq_true, Viewport.before_iff] at not_before
  omega

theorem smallest_le {vs : List Viewport} {v u : Viewport} (h : Viewport.smallest? vs = some v)
    (hu : u ∈ vs) : v.width ≤ u.width := by
  have := smallest_first h hu
  omega

theorem smallest_width_suffices (root : Node) : OneRunSuffices root where
  smallest := by
    intro vs some_viewport
    obtain ⟨first, rest, rfl⟩ := List.exists_cons_of_ne_nil some_viewport
    obtain ⟨v, found⟩ : ∃ v, Viewport.smallest? (first :: rest) = some v := ⟨_, rfl⟩
    exact ⟨v, found, (Viewport.smallest?_eq_some.mp found).1, fun u hu => smallest_first found hu⟩
  run := by
    intro layouts v found
    rw [Surroundings.of, found]
    rfl
  told := by
    intro width issues answer
    obtain ⟨-, -, rfl⟩ := Result.map_eq_ok.mp answer
    exact forall₂_fitFindings width root
  fewer := by
    intro vs v found u hu
    have le := smallest_le found hu
    exact unfitTables_sublist (Number.le_int.mpr (by omega))
  answered := by
    intro vs v found u hu issues answer
    cases outcome : fitOutcome (widthOf v) root with
    | ok more => exact ⟨more, rfl⟩
    | error e =>
      obtain ⟨e', fails⟩ := fitOutcome_fails_of_le (smallest_le found hu) ⟨e, outcome⟩
      cases answer.symm.trans fails
  unknown := unfitTables_unknown
  unanswered := fun _ => fitOutcome_fails_iff
  others := fun width => rfl

def plainTable : Node := .table (.plain "plain") ⟨some "Plain", ["item"], none, none, none⟩

/-- A table whose only column is infinitely wide, and wrapped. -/
def endlessTable : Node :=
  .table (.plain "endless") ⟨some "Endless", ["item"], none,
    some ⟨some "wrap", some (1.0 / 0.0), ["strategy", "minColumnWidth"]⟩, none⟩

/-- A viewport that is wider than all doubles. -/
def widest : Viewport := ⟨10 ^ 400, 640, Nat.pow_pos (by decide), by decide⟩

/-- Without a width a table without a strategy is told of, and at a width beyond the doubles it is
    not, because nothing is. -/
theorem plainTable_untold :
    let root := Node.plainStack "page" .vertical [plainTable, endlessTable]
    (unfitTables none root).map (·.node.id) = ["plain"] ∧
    (∃ issues, fitOutcome none root = .ok issues ∧ issues.length = 1) ∧
    (unfitTables (some (.int 320)) root).map (·.node.id) = ["plain", "endless"] ∧
    ¬∃ issues, fitOutcome (widthOf widest) root = .ok issues := by
  intro root
  refine ⟨by decide +kernel, ⟨_, rfl, rfl⟩, by decide +kernel, ?_⟩
  have fails : Result.failure? (fitOutcome (widthOf widest) root) = some .tooLarge := by
    decide +kernel
  intro ⟨issues, answer⟩
  rw [Result.failure?_eq_some, answer] at fails
  cases fails

end Wireframe.Tables
