import Wireframe.Report
import Wireframe.Proofs.Focus.Order
import Wireframe.Proofs.Layout.FrameOrder
import Wireframe.Proofs.Pattern.Verdicts
import Wireframe.Proofs.Plain
import Wireframe.Proofs.Record.Reading
import Wireframe.Proofs.Result
import Wireframe.Proofs.Trail

/-
  Wireframe.Proofs.Score.Gate — a screen is failed by what its report shows, and by nothing else.

  A score is judged by numbers: how many musts failed, how many nodes the keyboard does not reach,
  and the overall score. The report shows issues. Every must that fails has an issue of severity
  error, and no should has one; every node that is not reached has a critical issue, and nothing
  else is critical. So each gate can be told from the issues of the report.

  Proved:
  - `Verdicts.mustFailed_pos`: musts fail exactly when a pattern has an error.
  - `Report.critical_iff`: nodes are not reached exactly when something in the report is critical.
  - `Report.mem_reasons_iff`: there is a reason for every gate that is violated, and no other.
  - `Report.compute_without`: without a gate only its own reason is gone.
  - `passed_iff_gates_clear`: all of this for the reports on a screen.
-/

namespace Wireframe

/-! ## Gates -/

/-- What a screen can be failed by. -/
inductive Gate where
  | musts
  | reachability
  | minimum
  deriving DecidableEq

def Gate.all : List Gate := [.musts, .reachability, .minimum]

/-- The gate that a reason is about. -/
def FailReason.gate : FailReason → Gate
  | mustFailures _ => .musts
  | unreachable _ => .reachability
  | belowMinimum .. => .minimum

/-- Criteria with a gate switched off. -/
def Criteria.without (c : Criteria) : Gate → Criteria
  | .musts => { c with noMustFailures := false }
  | .reachability => { c with noCriticalFlowErrors := false }
  | .minimum => { c with minOverallScore := none }

namespace Report

/-- Every issue of a report, whoever found it. -/
def issues (r : Report) : List Issue :=
  r.layouts.flatMap (·.issues) ++ r.focus.issues ++ r.verdicts.issues

/-- Some criteria have a gate that is violated by what a report shows. -/
def Violates (r : Report) (c : Criteria) : Gate → Prop
  | .musts => c.noMustFailures = true ∧ ∃ i ∈ r.verdicts.issues, i.severity = .error
  | .reachability => c.noCriticalFlowErrors = true ∧ ∃ i ∈ r.issues, i.severity = .critical
  | .minimum => ∃ minimum, c.minOverallScore = some minimum ∧ r.score.overall < minimum

/-- The report when a gate is switched off: only the criteria and the reason of this gate differ. -/
def without (r : Report) (g : Gate) : Report :=
  { r with score := { r.score with
      criteria := r.score.criteria.without g
      failReasons := r.score.failReasons.filter (·.gate ≠ g) } }

end Report

/-! ## Errors of patterns -/

theorem Number.lt_int {a b : Int} : Number.lt (.int a) (.int b) = true ↔ a < b := by
  rw [Number.lt, Number.compare?, beq_iff_eq, Option.some.injEq, Int.compare_eq_lt]

theorem Number.le_int {a b : Int} : Number.le (.int a) (.int b) = true ↔ a ≤ b := by
  simp only [Number.le, Number.compare?, Bool.or_eq_true, beq_iff_eq, Option.some.injEq,
    Int.compare_eq_lt, Int.compare_eq_eq]
  omega

theorem Topic.judge_eq_ok {room : Int} {around : Surroundings} {topics : List Topic} {root : Node}
    {vs : Verdicts} (h : Topic.judge room around topics root = .ok vs) :
    vs = Verdicts.compute (topics.map (Topic.pattern around)) root := by
  simp only [Topic.judge, Result.bind_eq_ok] at h
  obtain ⟨_, -, h⟩ := h
  cases h
  rfl

theorem Topic.patterns_coherent (around : Surroundings) (topics : List Topic) :
    ∀ p ∈ topics.map (Topic.pattern around), p.Coherent := by
  intro p hp
  obtain ⟨t, -, rfl⟩ := List.mem_map.mp hp
  exact t.pattern_coherent around

theorem sumOf_nonneg {α : Type} {count : α → Int} {as : List α} (h : ∀ a ∈ as, 0 ≤ count a) :
    0 ≤ sumOf count as := by
  induction as with
  | nil => exact Int.le_refl 0
  | cons a rest ih =>
    have := ih fun b hb => h b (List.mem_cons_of_mem a hb)
    have := h a List.mem_cons_self
    simp only [sumOf]; omega

theorem sumOf_pos {α : Type} {count : α → Int} {as : List α} (h : ∀ a ∈ as, 0 ≤ count a) :
    0 < sumOf count as ↔ ∃ a ∈ as, 0 < count a := by
  induction as with
  | nil => simp [sumOf]
  | cons a rest ih =>
    have below := fun b hb => h b (List.mem_cons_of_mem a hb)
    have own := h a List.mem_cons_self
    have others := sumOf_nonneg below
    simp only [List.mem_cons, exists_eq_or_imp, ← ih below, sumOf]
    omega

/-- Musts fail exactly when there is an error. -/
theorem Verdicts.mustFailed_pos (patterns : List Pattern) (coherent : ∀ p ∈ patterns, p.Coherent)
    (root : Node) : 0 < sumOf (·.mustFailed) (Verdicts.compute patterns root).patterns ↔
      ∃ i ∈ (Verdicts.compute patterns root).issues, i.severity = .error := by
  have agrees : ∀ v ∈ patterns.map (·.validate root), ∃ p, v.Agrees p := by
    intro v hv
    obtain ⟨p, hp, rfl⟩ := List.mem_map.mp hv
    exact ⟨p, (coherent p hp).agrees root⟩
  have nonneg : ∀ v ∈ patterns.map (·.validate root), 0 ≤ v.mustFailed := by
    intro v hv
    obtain ⟨p, hp⟩ := agrees v hv
    rw [hp.mustFailed]
    exact Int.natCast_nonneg _
  rw [Verdicts.compute, Verdicts.of, sumOf_pos nonneg]
  simp only [Verdicts.issues, List.mem_flatMap]
  constructor
  · rintro ⟨v, hv, failed⟩
    obtain ⟨p, hp⟩ := agrees v hv
    obtain ⟨i, hi, severe⟩ := hp.mustFailed_pos.mp failed
    exact ⟨i, ⟨v, hv, hi⟩, severe⟩
  · rintro ⟨i, ⟨v, hv, hi⟩, severe⟩
    obtain ⟨p, hp⟩ := agrees v hv
    exact ⟨v, hv, hp.mustFailed_pos.mpr ⟨i, hi, severe⟩⟩

/-- No rule of a coherent pattern finds anything critical. -/
theorem Verdicts.not_critical {patterns : List Pattern} (coherent : ∀ p ∈ patterns, p.Coherent)
    {root : Node} {i : Issue} (hi : i ∈ (Verdicts.compute patterns root).issues) :
    i.severity ≠ .critical := by
  obtain ⟨v, hv, hi⟩ := List.mem_flatMap.mp hi
  obtain ⟨p, hp, rfl⟩ := List.mem_map.mp hv
  obtain ⟨r, hr, hi⟩ := List.mem_flatMap.mp hi
  rw [((coherent p hp).signs r hr root i hi).severity]
  cases r.level <;> decide

/-! ## Critical issues -/

theorem Defect.not_critical (v : Viewport) (pointers : List (String × String)) (d : Defect Number) :
    (d.toIssue v pointers).severity ≠ .critical := by
  cases d <;> simp [toIssue, severity]

theorem Layout.not_critical {s : Scaffold} {detection : PrimaryDetection} {v : Viewport}
    {l : Layout} (h : (Layout.compute s detection v).result = .ok l) {i : Issue}
    (hi : i ∈ l.issues) : i.severity ≠ .critical := by
  obtain ⟨root, -, hl⟩ := Layout.resolved_of_compute h
  obtain ⟨frames, -, rfl⟩ := Result.map_eq_ok.mp hl
  obtain ⟨d, -, rfl⟩ := List.mem_map.mp hi
  exact d.not_critical v root.pointers

theorem FormFlow.not_critical {root : Node} {i : Issue} (hi : i ∈ FormFlow.issues root) :
    i.severity ≠ .critical := by
  rcases FormFlow.issues_named hi with ⟨-, severity⟩ | ⟨-, severity⟩
  · exact severity ▸ nofun
  · exact severity ▸ nofun

/-- The keyboard finds something critical exactly when it does not reach a node. -/
theorem Focus.critical_iff (root : Node) :
    (∃ i ∈ (Focus.ofTree root).issues, i.severity = .critical) ↔
      (Focus.ofTree root).unreachable ≠ [] := by
  simp only [Focus.ofTree, List.mem_append]
  constructor
  · rintro ⟨i, hi | hi, severe⟩
    · obtain ⟨id, hid, -⟩ := List.mem_map.mp hi
      exact List.ne_nil_of_mem hid
    · exact absurd severe (FormFlow.not_critical hi)
  · intro some_id
    obtain ⟨id, hid⟩ := List.exists_mem_of_ne_nil _ some_id
    exact ⟨_, .inl (List.mem_map_of_mem hid), rfl⟩

theorem Focus.compute_unresolved {s : Scaffold} {f : Focus}
    (h : (Focus.compute s none).result = .ok f) : f = Focus.ofTree s.screen.root :=
  Except.ok.inj (h.symm.trans (Focus.compute_result s none))

/-! ## Scores -/

namespace Criteria

variable {c : Criteria} {overall : Number} {vs : List Verdict} {unreached : Number}

theorem judge_eq_ok {reasons : List FailReason} :
    c.judge overall vs unreached = .ok reasons ↔
      reasons = c.violations overall vs unreached ∧
        ∀ r ∈ reasons, r.numbers.all (·.hasText) = true := by
  simp only [judge]
  split
  case isTrue told =>
    rw [List.all_eq_true] at told
    constructor
    · intro h
      cases h
      exact ⟨rfl, told⟩
    · rintro ⟨rfl, -⟩
      rfl
  case isFalse untold =>
    constructor
    · intro h
      cases h
    · rintro ⟨rfl, told⟩
      exact absurd (List.all_eq_true.mpr told) untold

/-- The reason for a gate, when it is violated. -/
def reason? (c : Criteria) (overall : Number) (vs : List Verdict) (unreached : Number) :
    Gate → Option FailReason
  | .musts =>
    if c.noMustFailures ∧ 0 < sumOf (·.mustFailed) vs then
      some (.mustFailures (sumOf (·.mustFailed) vs))
    else none
  | .reachability =>
    if c.noCriticalFlowErrors && Number.lt .zero unreached then some (.unreachable unreached) else none
  | .minimum => c.minOverallScore.bind fun minimum =>
    if Number.lt overall (.int minimum) then some (.belowMinimum overall minimum) else none

theorem violations_eq (c : Criteria) (overall : Number) (vs : List Verdict) (unreached : Number) :
    c.violations overall vs unreached = Gate.all.filterMap (c.reason? overall vs unreached) := by
  have one : ∀ (p : Prop) [Decidable p] (r : FailReason),
      (if p then some r else none).toList = if p then [r] else [] := by
    intro p _ r; split <;> rfl
  rw [List.filterMap_eq_flatMap_toList]
  simp only [violations, Gate.all, List.flatMap_cons, List.flatMap_nil, List.append_nil, reason?, one,
    List.append_assoc]
  cases c.minOverallScore with
  | none => rfl
  | some minimum => rw [Option.bind_some, one]

/-- The reason for a gate is about this gate. -/
theorem gate_of_reason {g : Gate} {r : FailReason} (h : c.reason? overall vs unreached g = some r) :
    r.gate = g := by
  cases g with
  | musts =>
    obtain ⟨-, h⟩ := Option.ite_none_right_eq_some.mp h
    cases h; rfl
  | reachability =>
    obtain ⟨-, h⟩ := Option.ite_none_right_eq_some.mp h
    cases h; rfl
  | minimum =>
    obtain ⟨minimum, -, h⟩ := Option.bind_eq_some_iff.mp h
    obtain ⟨-, h⟩ := Option.ite_none_right_eq_some.mp h
    cases h; rfl

/-- There are reasons for the gates that are violated, one for each. -/
theorem gates_eq (c : Criteria) (overall : Number) (vs : List Verdict) (unreached : Number) :
    (c.violations overall vs unreached).map (·.gate) =
      Gate.all.filter fun g => (c.reason? overall vs unreached g).isSome := by
  rw [violations_eq, List.map_filterMap, ← List.filterMap_eq_filter]
  refine List.filterMap_congr fun g _ => ?_
  cases h : c.reason? overall vs unreached g with
  | none => simp [Option.guard, h]
  | some r => simp [Option.guard, h, gate_of_reason h]

theorem gates_nodup : ((c.violations overall vs unreached).map (·.gate)).Nodup := by
  rw [gates_eq]
  exact List.Nodup.filter _ (by decide)

theorem mem_gates {g : Gate} : g ∈ (c.violations overall vs unreached).map (·.gate) ↔
    (c.reason? overall vs unreached g).isSome = true := by
  rw [gates_eq, List.mem_filter, and_iff_right]
  cases g <;> decide

/-- Without a gate there is no reason for it, and for the other gates as before. -/
theorem reason_without (c : Criteria) (g k : Gate) :
    (c.without g).reason? overall vs unreached k =
      if k = g then none else c.reason? overall vs unreached k := by
  cases g <;> cases k <;> rfl

theorem violations_without (c : Criteria) (g : Gate) :
    (c.without g).violations overall vs unreached =
      (c.violations overall vs unreached).filter (·.gate ≠ g) := by
  rw [violations_eq, violations_eq, List.filter_filterMap]
  refine List.filterMap_congr fun k _ => ?_
  rw [reason_without]
  cases h : c.reason? overall vs unreached k with
  | none => simp
  | some r =>
    have gate := gate_of_reason h
    by_cases same : k = g <;> simp [same, gate, Option.filter]

/-- What can be told of all reasons can be told when a gate is switched off. -/
theorem judge_without {reasons : List FailReason} (h : c.judge overall vs unreached = .ok reasons)
    (g : Gate) :
    (c.without g).judge overall vs unreached = .ok (reasons.filter (·.gate ≠ g)) := by
  obtain ⟨rfl, told⟩ := judge_eq_ok.mp h
  exact judge_eq_ok.mpr ⟨(violations_without c g).symm, fun r hr => told r (List.mem_of_mem_filter hr)⟩

end Criteria

namespace Score

variable {weights : Categories Float} {criteria : Criteria} {vs : List Verdict} {f : Focus}
  {layouts : List Layout} {s : Score}

theorem compute_eq_ok : (compute weights criteria vs f layouts).result = .ok s ↔
    ∃ categories overall reasons,
      (Categories.scores vs f layouts).check = .ok categories ∧
      weights.overall categories = .ok overall ∧
      criteria.judge (.int overall) vs (.int f.unreachable.length) = .ok reasons ∧
      s = ⟨categories, weights, overall, criteria, reasons⟩ := by
  simp only [compute, Trail.result_bind_eq_ok, Trail.result_ofExcept, Result.mapError_eq_ok]
  constructor
  · rintro ⟨categories, hc, overall, ho, reasons, hr, _, -, e⟩
    cases e
    exact ⟨categories, overall, reasons, hc, ho, hr, rfl⟩
  · rintro ⟨categories, overall, reasons, hc, ho, hr, rfl⟩
    exact ⟨categories, hc, overall, ho, reasons, hr, (), rfl, rfl⟩

/-- Without a gate the score is the same but for the criteria and the reason of this gate. -/
theorem compute_without (h : (compute weights criteria vs f layouts).result = .ok s) (g : Gate) :
    (compute weights (criteria.without g) vs f layouts).result =
      .ok { s with criteria := criteria.without g, failReasons := s.failReasons.filter (·.gate ≠ g) } := by
  obtain ⟨categories, overall, reasons, hc, ho, hr, rfl⟩ := compute_eq_ok.mp h
  exact compute_eq_ok.mpr ⟨categories, overall, _, hc, ho, Criteria.judge_without hr g, rfl⟩

end Score

/-! ## Reports -/

namespace Report

variable {env : Environment} {q : Inquiry} {s : Scaffold} {r : Report}

/-- What a report is made of. -/
theorem compute_eq_ok : (compute env q s).result = .ok r ↔
    ∃ viewports layouts focus topics vs score,
      parseViewports (Layout.viewportTexts env s q.viewports) = .ok viewports ∧
      q.unsizedViewport = false ∧
      (Trail.each (Layout.compute s q.detection) viewports).result = .ok layouts ∧
      (Focus.compute s none).result = .ok focus ∧
      (Suggestion.select s.screen.root q.patterns true).result = .ok topics ∧
      q.unnamedPattern = false ∧
      Topic.judge q.room (.of (viewports.zip layouts)) topics s.screen.root = .ok vs ∧
      (Score.compute q.weights q.criteria vs.patterns focus layouts).result = .ok score ∧
      r = ⟨layouts, focus, vs, score, Suggestion.compute s.screen.root,
        Coverage.compute (Suggestion.compute s.screen.root)
          ((topics.map (Topic.pattern (.of (viewports.zip layouts)))).map (·.name))⟩ := by
  have passes : ∀ {p : Bool} {e : Failure} {β γ : Type} {f : β → Trail Entry Failure γ}
      {t : Trail Entry Failure γ} {c : γ},
      (if p = true then Trail.fail e >>= f else t).result = .ok c ↔ p = false ∧ t.result = .ok c := by
    intro p e β γ f t c
    cases p
    · simp
    · simp only [if_true, Trail.result_bind_eq_ok]
      simp [Trail.fail]
  simp only [compute, Trail.result_bind_eq_ok, Trail.result_ofExcept, Result.mapError_eq_ok, passes]
  constructor
  · rintro ⟨viewports, hv, sized, _, -, layouts, hl, focus, hf, topics, ht, named, vs, hvs, _, -, _, -,
      score, hs, _, -, e⟩
    cases e
    exact ⟨viewports, layouts, focus, topics, vs, score, hv, sized, hl, hf, ht, named, hvs, hs, rfl⟩
  · rintro ⟨viewports, layouts, focus, topics, vs, score, hv, sized, hl, hf, ht, named, hvs, hs, rfl⟩
    exact ⟨viewports, hv, sized, (), rfl, layouts, hl, focus, hf, topics, ht, named, vs, hvs, (), rfl,
      (), rfl, score, hs, (), rfl, rfl⟩

/-- Without a gate the report is the same but for the criteria and the reason of this gate. -/
theorem compute_without (h : (compute env q s).result = .ok r) (g : Gate) :
    (compute env { q with criteria := q.criteria.without g } s).result = .ok (r.without g) := by
  obtain ⟨viewports, layouts, focus, topics, vs, score, hv, sized, hl, hf, ht, named, hvs, hs, rfl⟩ :=
    compute_eq_ok.mp h
  have criteria : score.criteria = q.criteria := by
    obtain ⟨_, _, _, -, -, -, rfl⟩ := Score.compute_eq_ok.mp hs
    rfl
  refine compute_eq_ok.mpr ⟨viewports, layouts, focus, topics, vs, _, hv, sized, hl, hf, ht, named, hvs,
    Score.compute_without hs g, ?_⟩
  rw [without, criteria]

/-- Something in a report is critical exactly when the keyboard does not reach a node. -/
theorem critical_iff (h : (compute env q s).result = .ok r) :
    (∃ i ∈ r.issues, i.severity = .critical) ↔ r.focus.unreachable ≠ [] := by
  obtain ⟨viewports, layouts, focus, topics, vs, score, -, -, hl, hf, -, -, hvs, -, rfl⟩ :=
    compute_eq_ok.mp h
  obtain rfl := Focus.compute_unresolved hf
  obtain rfl := Topic.judge_eq_ok hvs
  rw [← Focus.critical_iff]
  constructor
  · rintro ⟨i, hi, severe⟩
    rcases List.mem_append.mp hi with hi | hi
    · rcases List.mem_append.mp hi with hi | hi
      · obtain ⟨l, hl', hi⟩ := List.mem_flatMap.mp hi
        obtain ⟨v, -, hv⟩ := exists_of_forall₂ (Trail.each_eq_ok hl) hl'
        exact absurd severe (Layout.not_critical hv hi)
      · exact ⟨i, hi, severe⟩
    · exact absurd severe (Verdicts.not_critical (Topic.patterns_coherent _ topics) hi)
  · rintro ⟨i, hi, severe⟩
    exact ⟨i, List.mem_append_left _ (List.mem_append_right _ hi), severe⟩

/-- There is a reason for every gate that is violated, and no other. -/
theorem mem_reasons_iff (h : (compute env q s).result = .ok r) (g : Gate) :
    g ∈ r.score.failReasons.map (·.gate) ↔ r.Violates q.criteria g := by
  have critical := critical_iff h
  obtain ⟨viewports, layouts, focus, topics, vs, score, -, -, -, -, -, -, hvs, hs, rfl⟩ :=
    compute_eq_ok.mp h
  obtain ⟨_, overall, reasons, -, -, hr, rfl⟩ := Score.compute_eq_ok.mp hs
  obtain ⟨rfl, -⟩ := Criteria.judge_eq_ok.mp hr
  rw [Criteria.mem_gates]
  cases g with
  | musts =>
    obtain rfl := Topic.judge_eq_ok hvs
    simp only [Criteria.reason?, Option.isSome_ite, Violates,
      Verdicts.mustFailed_pos _ (Topic.patterns_coherent _ topics)]
  | reachability =>
    simp only [Criteria.reason?, Option.isSome_ite, Violates, critical, Bool.and_eq_true, Number.zero,
      Number.lt_int, Int.natCast_pos, List.length_pos_iff]
  | minimum =>
    simp only [Criteria.reason?, Violates, Option.isSome_bind, Option.any_eq_true, Option.isSome_ite,
      Number.lt_int]

theorem reasons_nodup (h : (compute env q s).result = .ok r) :
    (r.score.failReasons.map (·.gate)).Nodup := by
  obtain ⟨_, _, _, _, _, _, -, -, -, -, -, -, -, hs, rfl⟩ := compute_eq_ok.mp h
  obtain ⟨_, _, _, -, -, hr, rfl⟩ := Score.compute_eq_ok.mp hs
  obtain ⟨rfl, -⟩ := Criteria.judge_eq_ok.mp hr
  exact Criteria.gates_nodup

/-- A screen passes exactly when no gate is violated. -/
theorem passed_iff (h : (compute env q s).result = .ok r) :
    r.score.passed = true ↔ ∀ g, ¬ r.Violates q.criteria g := by
  rw [Score.passed, List.isEmpty_iff, List.eq_nil_iff_forall_not_mem]
  constructor
  · intro none g violated
    obtain ⟨reason, hreason, -⟩ := List.mem_map.mp ((mem_reasons_iff h g).mpr violated)
    exact none reason hreason
  · intro clear reason hreason
    exact clear reason.gate ((mem_reasons_iff h _).mp (List.mem_map_of_mem hreason))

end Report

/-- A screen passes exactly when nothing in its report violates the criteria: no error of a
pattern, nothing critical, and no overall score below the minimum. There is one reason for each
criterion that is violated, and without a criterion the rest of the report is the same. -/
theorem passed_iff_gates_clear (env : Environment) (q : Inquiry) (s : Scaffold) (r : Report)
    (h : (Report.compute env q s).result = .ok r) :
    (r.score.passed = true ↔
      (q.criteria.noMustFailures = true → ∀ i ∈ r.verdicts.issues, i.severity ≠ .error) ∧
      (q.criteria.noCriticalFlowErrors = true → ∀ i ∈ r.issues, i.severity ≠ .critical) ∧
      ∀ minimum, q.criteria.minOverallScore = some minimum → minimum ≤ r.score.overall) ∧
    ((r.score.failReasons.map (·.gate)).Nodup ∧
      ∀ g, g ∈ r.score.failReasons.map (·.gate) ↔ r.Violates q.criteria g) ∧
    ∀ g, (Report.compute env { q with criteria := q.criteria.without g } s).result = .ok (r.without g) := by
  refine ⟨?_, ⟨Report.reasons_nodup h, Report.mem_reasons_iff h⟩, Report.compute_without h⟩
  rw [Report.passed_iff h]
  constructor
  · intro clear
    refine ⟨fun on i hi severe => clear .musts ⟨on, i, hi, severe⟩,
      fun on i hi severe => clear .reachability ⟨on, i, hi, severe⟩, fun minimum hm => ?_⟩
    by_contra below
    exact clear .minimum ⟨minimum, hm, Int.not_le.mp below⟩
  · rintro ⟨musts, reachability, lowest⟩ g violated
    cases g with
    | musts =>
      obtain ⟨on, i, hi, severe⟩ := violated
      exact musts on i hi severe
    | reachability =>
      obtain ⟨on, i, hi, severe⟩ := violated
      exact reachability on i hi severe
    | minimum =>
      obtain ⟨minimum, hm, below⟩ := violated
      exact Int.not_le.mpr below (lowest minimum hm)

/-- A form without an action, and two buttons of which one takes the focus in no order. -/
def strandedRoot : Node :=
  .plainStack "page" .vertical
    [.form (.plain "form") ⟨none, none⟩ [.field (.plain "name") ⟨"Name", none, none, none, none⟩] [],
      .plainButton "next" "Next",
      .button { Header.plain "skip" with focusable := some true, tabIndex := some (-1) } ⟨"Skip", none⟩]

/-- Both gates are on, and the minimum is below the score. -/
def strandedInquiry : Inquiry where
  patterns := ["Form.Basic"]
  viewports := some ["320x640"]
  weights := Categories.standardWeights
  criteria := ⟨true, true, some 60⟩
  detection := .role
  room := 1000

theorem strandedRoot_failed : ∃ r,
    (Report.compute [] strandedInquiry (.around strandedRoot)).result = .ok r ∧
    r.score.passed = false ∧ r.score.overall = 75 ∧
    (∀ g, r.Violates strandedInquiry.criteria g ↔ g ≠ .minimum) ∧
    (Report.compute [] { strandedInquiry with criteria := ⟨true, false, some 60⟩ }
      (.around strandedRoot)).result = .ok (r.without .reachability) := by
  have computed : ((Report.compute [] strandedInquiry (.around strandedRoot)).result.map
      fun r => (r.score.failReasons.map (·.gate), r.score.overall)).toOption =
        some ([.musts, .reachability], 75) := by
    decide +kernel
  obtain ⟨r, hr, told⟩ := Result.map_toOption_eq_some.mp computed
  obtain ⟨passed, ⟨-, reasons⟩, without⟩ := passed_iff_gates_clear [] strandedInquiry _ r hr
  obtain ⟨gates, overall⟩ := Prod.mk.inj told
  have violated : ∀ g, r.Violates strandedInquiry.criteria g ↔ g ≠ .minimum := by
    intro g
    rw [← reasons g, gates]
    cases g <;> decide
  refine ⟨r, hr, ?_, overall, violated, without .reachability⟩
  obtain ⟨on, i, hi, severe⟩ := (violated .musts).mpr (by decide)
  exact Bool.eq_false_iff.mpr fun p => (passed.mp p).1 on i hi severe

end Wireframe
