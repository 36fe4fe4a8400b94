import Mathlib.Algebra.Order.BigOperators.Group.List
import Mathlib.Algebra.Order.Ring.Nat
import Mathlib.Data.Finset.Card
import Wireframe.Pattern.Catalog
import Wireframe.Proofs.Pattern.Rule

/-
  Wireframe.Proofs.Pattern.Verdicts — the counts of a verdict and its issues tell the same.

  Every check writes the id, the severity and the source of its issues by itself, in every branch.
  A pattern is coherent when these are those of the rule that the check stands in, and its rules
  have ids of their own. The counts come from the rules that report something, so in a coherent
  pattern they can be told from the ids and severities of the issues alone.

  Proved:
  - `Topic.pattern_coherent`: every pattern of the catalog is coherent, whatever is known of layouts.
  - `Pattern.Coherent.agrees`: the counts of a verdict are those of its rules and of its issues.
  - `Verdicts.of_agree`: so is what is told about several verdicts together.
  - `Topic.verdicts_agree`: all of this for the catalog.
-/

namespace Wireframe

/-! ## What an issue tells of its rule -/

/-- The severity of what a rule of this level reports. -/
def RuleLevel.severity : RuleLevel → Severity
  | .must => .error
  | .should => .warn

theorem RuleLevel.severity_injective : Function.Injective RuleLevel.severity := by
  intro l m same
  cases l <;> cases m <;> first | rfl | cases same

/-- The issue is told under this rule, at this severity, and for this pattern. -/
structure Issue.Signed (i : Issue) (pattern rule : String) (severity : Severity) : Prop where
  id : i.id = rule
  severity : i.severity = severity
  source : ∃ p : Provenance, i.source = some (some p) ∧ p.pattern = pattern

/-- A check signs whatever it reports. -/
def Signs (check : Node → List Issue) (pattern rule : String) (severity : Severity) : Prop :=
  ∀ root, ∀ i ∈ check root, i.Signed pattern rule severity

theorem Finding.toIssue_signed (rule : String) (severity : Severity) (f : Finding) :
    (f.toIssue rule severity).Signed f.source.pattern rule severity :=
  ⟨rfl, rfl, f.source, rfl, rfl⟩

/-- The checks of a pattern sign with its name and with the ids and levels of their rules, and no
    two rules have one id. -/
structure Pattern.Coherent (p : Pattern) : Prop where
  signs : ∀ r ∈ p.rules, Signs r.check p.name r.id r.level.severity
  musts : ∀ r ∈ p.must, r.level = .must
  shoulds : ∀ r ∈ p.should, r.level = .should
  distinct : (p.rules.map (·.id)).Nodup

/-! ## Forms -/

namespace Forms

theorem labelFindings_sign : Signs labelFindings patternName "field-has-label" .error := by
  intro root i hi
  obtain ⟨l, -, found⟩ := List.mem_filterMap.mp hi
  split at found
  · split at found
    · cases found; exact Finding.toIssue_signed ..
    · cases found
  · cases found

theorem actionFindings_sign : Signs actionFindings patternName "actions-exist" .error := by
  intro root i hi
  obtain ⟨l, -, found⟩ := List.mem_filterMap.mp hi
  split at found
  · cases found; exact Finding.toIssue_signed ..
  · cases found

theorem orderFindings_sign : Signs orderFindings patternName "actions-after-fields" .error := by
  intro root i hi
  obtain ⟨l, -, found⟩ := List.mem_filterMap.mp hi
  split at found
  · cases found; exact Finding.toIssue_signed ..
  · cases found

theorem errorStateFindings_sign :
    Signs errorStateFindings patternName "has-error-state" .error := by
  intro root i hi
  obtain ⟨l, -, found⟩ := List.mem_filterMap.mp hi
  split at found
  · dsimp only at found
    split at found
    · cases found; exact Finding.toIssue_signed ..
    · cases found
  · cases found

theorem helpFindings_sign : Signs helpFindings patternName "help-text" .warn := by
  intro root i hi
  obtain ⟨l, -, found⟩ := List.mem_filterMap.mp hi
  split at found
  · split at found
    · cases found; exact Finding.toIssue_signed ..
    · cases found
  · cases found

theorem pattern_coherent : pattern.Coherent where
  signs := by
    simp only [Pattern.rules, pattern, List.cons_append, List.nil_append, List.forall_mem_cons]
    exact ⟨labelFindings_sign, actionFindings_sign, orderFindings_sign, errorStateFindings_sign,
      helpFindings_sign, fun _ h => absurd h List.not_mem_nil⟩
  musts := by simp [pattern]
  shoulds := by simp [pattern]
  distinct := by simp [pattern, Pattern.rules]

end Forms

/-! ## Tables -/

namespace Tables

theorem titleFindings_sign : Signs titleFindings patternName "title-exists" .error := by
  intro root i hi
  obtain ⟨l, -, found⟩ := List.mem_filterMap.mp hi
  split at found
  · split at found
    · cases found; exact Finding.toIssue_signed ..
    · cases found
  · cases found

theorem strategyFindings_sign :
    Signs strategyFindings patternName "responsive-strategy" .error := by
  intro root i hi
  obtain ⟨l, -, found⟩ := List.mem_filterMap.mp hi
  split at found
  · obtain ⟨_, -, rfl⟩ := Option.map_eq_some_iff.mp found
    exact Finding.toIssue_signed ..
  · cases found

theorem fitFindings_sign (viewport : Option Number) :
    Signs (fitFindings viewport) patternName "min-width-fit-or-scroll" .error := by
  intro root i hi
  obtain ⟨l, -, found⟩ := List.mem_filterMap.mp hi
  split at found
  · unfold fitFinding? at found
    split at found
    · cases found; exact Finding.toIssue_signed ..
    · obtain ⟨_, -, rfl⟩ := Option.map_eq_some_iff.mp found
      exact Finding.toIssue_signed ..
  · cases found

theorem adjacencyFindings_sign :
    Signs adjacencyFindings patternName "controls-adjacent" .warn := by
  intro root i hi
  obtain ⟨parent, -, hi⟩ := List.mem_flatMap.mp hi
  obtain ⟨_, -, found⟩ := List.mem_filterMap.mp hi
  unfold adjacencyFinding? at found
  simp only [Option.ite_none_left_eq_some, Option.some.injEq] at found
  obtain ⟨-, rfl⟩ := found
  exact Finding.toIssue_signed ..

theorem pattern_coherent (viewport : Option Number) : (pattern viewport).Coherent where
  signs := by
    simp only [Pattern.rules, pattern, List.cons_append, List.nil_append, List.forall_mem_cons]
    exact ⟨titleFindings_sign, strategyFindings_sign, fitFindings_sign viewport,
      adjacencyFindings_sign, fun _ h => absurd h List.not_mem_nil⟩
  musts := by simp [pattern]
  shoulds := by simp [pattern]
  distinct := by simp [pattern, Pattern.rules]

end Tables

/-! ## Collapsible sections -/

namespace Collapsibles

theorem controlFindings_sign :
    Signs controlFindings patternName "disclosure-no-control" .error := by
  intro root i hi
  obtain ⟨l, -, found⟩ := List.mem_filterMap.mp hi
  split at found
  · cases found
  · cases found; exact Finding.toIssue_signed ..

theorem primaryFindings_sign :
    Signs primaryFindings patternName "disclosure-hides-primary" .error := by
  intro root i hi
  obtain ⟨l, -, rfl⟩ := List.mem_map.mp hi
  exact Finding.toIssue_signed ..

theorem labelFindings_sign :
    Signs labelFindings patternName "disclosure-missing-label" .error := by
  intro root i hi
  obtain ⟨l, -, found⟩ := List.mem_filterMap.mp hi
  simp only [Option.ite_none_left_eq_some, Option.some.injEq] at found
  obtain ⟨-, rfl⟩ := found
  exact Finding.toIssue_signed ..

theorem distanceFindings_sign :
    Signs distanceFindings patternName "disclosure-control-far" .warn := by
  intro root i hi
  obtain ⟨l, -, found⟩ := List.mem_filterMap.mp hi
  simp only [Option.bind_eq_some_iff, Option.ite_none_left_eq_some, Option.some.injEq] at found
  obtain ⟨_, -, _, -, -, rfl⟩ := found
  exact Finding.toIssue_signed ..

theorem affordanceFindings_sign :
    Signs affordanceFindings patternName "disclosure-inconsistent-affordance" .warn := by
  intro root i hi
  obtain ⟨⟨_, members⟩, -, found⟩ := List.mem_filterMap.mp hi
  cases members with
  | nil => cases found
  | cons first rest =>
    simp only [familyFinding?, Option.ite_none_right_eq_some, Option.some.injEq] at found
    obtain ⟨-, rfl⟩ := found
    exact Finding.toIssue_signed ..

theorem earlyFindings_sign :
    Signs earlyFindings patternName "disclosure-early-section" .warn := by
  intro root i hi
  unfold earlyFindings at hi
  split at hi
  · cases hi
  · obtain ⟨l, -, rfl⟩ := Option.map_eq_some_iff.mp (Option.mem_toList.mp hi)
    exact Finding.toIssue_signed ..

theorem pattern_coherent : pattern.Coherent where
  signs := by
    simp only [Pattern.rules, pattern, List.cons_append, List.nil_append, List.forall_mem_cons]
    exact ⟨controlFindings_sign, primaryFindings_sign, labelFindings_sign, distanceFindings_sign,
      affordanceFindings_sign, earlyFindings_sign, fun _ h => absurd h List.not_mem_nil⟩
  musts := by simp [pattern]
  shoulds := by simp [pattern]
  distinct := by simp [pattern, Pattern.rules]

end Collapsibles

/-! ## Guided flows -/

namespace Wizards

theorem stepFindings_sign {rule : String} {severity : Severity} {suggestion : String}
    {problem? : Scope → Step → Option (String × Object)} :
    Signs (stepFindings rule severity suggestion problem?) patternName rule severity := by
  intro root i hi
  obtain ⟨scope, -, hi⟩ := List.mem_flatMap.mp hi
  obtain ⟨s, -, found⟩ := List.mem_filterMap.mp hi
  obtain ⟨_, -, rfl⟩ := Option.map_eq_some_iff.mp found
  exact Finding.toIssue_signed ..

theorem numberingFindings_sign :
    Signs numberingFindings patternName "wizard-steps-missing" .error := by
  intro root i hi
  obtain ⟨scope, -, found⟩ := List.mem_filterMap.mp hi
  unfold numberingFinding? at found
  split at found
  · cases found
  · simp only [Option.ite_none_left_eq_some, Option.some.injEq] at found
    obtain ⟨-, rfl⟩ := found
    exact Finding.toIssue_signed ..

theorem illegalBackFindings_sign :
    Signs illegalBackFindings patternName "wizard-back-illegal" .error := by
  intro root i hi
  obtain ⟨scope, -, found⟩ := List.mem_filterMap.mp hi
  obtain ⟨s, -, found⟩ := Option.bind_eq_some_iff.mp found
  simp only [Option.ite_none_right_eq_some, Option.some.injEq] at found
  obtain ⟨-, rfl⟩ := found
  exact Finding.toIssue_signed ..

theorem progressFindings_sign :
    Signs progressFindings patternName "wizard-progress-missing" .warn := by
  intro root i hi
  obtain ⟨scope, -, found⟩ := List.mem_filterMap.mp hi
  obtain ⟨w, -, found⟩ := Option.bind_eq_some_iff.mp found
  split at found
  · cases found
  · cases found; exact Finding.toIssue_signed ..

theorem foldFindings_sign (sight : Option Sight) :
    Signs (foldFindings sight) patternName "wizard-primary-below-fold" .warn := by
  cases sight with
  | none => intro root i hi; cases hi
  | some v => exact stepFindings_sign

theorem pattern_coherent (sight : Option Sight) : (pattern sight).Coherent where
  signs := by
    simp only [Pattern.rules, pattern, List.cons_append, List.nil_append, List.forall_mem_cons]
    exact ⟨numberingFindings_sign, stepFindings_sign, illegalBackFindings_sign, stepFindings_sign,
      stepFindings_sign, stepFindings_sign, stepFindings_sign, progressFindings_sign,
      stepFindings_sign, stepFindings_sign, foldFindings_sign sight,
      fun _ h => absurd h List.not_mem_nil⟩
  musts := by simp [pattern]
  shoulds := by simp [pattern]
  distinct := by simp [pattern, Pattern.rules]

end Wizards

theorem Topic.pattern_coherent (around : Surroundings) (t : Topic) :
    (t.pattern around).Coherent := by
  cases t with
  | forms => exact Forms.pattern_coherent
  | tables => exact Tables.pattern_coherent around.width
  | collapsibles => exact Collapsibles.pattern_coherent
  | wizards => exact Wizards.pattern_coherent around.sight

/-! ## The counts of a verdict -/

/-- The ids among the issues of a severity. -/
def reportedIds (severity : Severity) (issues : List Issue) : Finset String :=
  ((issues.filter fun i => i.severity = severity).map (·.id)).toFinset

theorem mem_reportedIds {severity : Severity} {issues : List Issue} {id : String} :
    id ∈ reportedIds severity issues ↔ ∃ i ∈ issues, i.severity = severity ∧ i.id = id := by
  simp [reportedIds, and_assoc]

/-- The counts of a verdict are those of the rules of its pattern and those of its issues. -/
structure Verdict.Agrees (v : Verdict) (p : Pattern) : Prop where
  musts : v.mustPassed + v.mustFailed = p.must.length
  shoulds : v.shouldPassed + v.shouldFailed = p.should.length
  mustFailed : v.mustFailed = (reportedIds .error v.issues).card
  shouldFailed : v.shouldFailed = (reportedIds .warn v.issues).card

theorem passedCount_add_failedCount (rules : List Rule) (root : Node) :
    passedCount rules root + failedCount rules root = rules.length := by
  simpa only [passedCount, failedCount, Bool.not_eq_true, Bool.decide_eq_false] using
    (List.length_eq_countP_add_countP (fun r : Rule => (r.evaluate root).isEmpty)).symm

namespace Pattern.Coherent

variable {p : Pattern}

/-- The ids among the issues of a severity are those of the rules of its level that fail. -/
theorem mem_reportedIds_iff (h : p.Coherent) (root : Node) (l : RuleLevel) (id : String) :
    id ∈ reportedIds l.severity (p.validate root).issues ↔
      ∃ r ∈ p.rules, (r.level = l ∧ r.evaluate root ≠ []) ∧ r.id = id := by
  rw [mem_reportedIds]
  constructor
  · rintro ⟨i, hi, severe, named⟩
    obtain ⟨r, hr, hi⟩ := List.mem_flatMap.mp hi
    have signed := h.signs r hr root i hi
    exact ⟨r, hr, ⟨RuleLevel.severity_injective (signed.severity.symm.trans severe),
      List.ne_nil_of_mem hi⟩, signed.id.symm.trans named⟩
  · rintro ⟨r, hr, ⟨level, fails⟩, named⟩
    obtain ⟨i, hi⟩ := List.exists_mem_of_ne_nil _ fails
    have signed := h.signs r hr root i hi
    exact ⟨i, List.mem_flatMap.mpr ⟨r, hr, hi⟩, level ▸ signed.severity, signed.id.trans named⟩

/-- No id is counted twice, as no two rules have one. -/
theorem card_reportedIds (h : p.Coherent) (root : Node) (l : RuleLevel) :
    (reportedIds l.severity (p.validate root).issues).card =
      p.rules.countP fun r => r.level = l ∧ r.evaluate root ≠ [] := by
  let failing := p.rules.filter fun r => r.level = l ∧ r.evaluate root ≠ []
  have ids : reportedIds l.severity (p.validate root).issues = (failing.map (·.id)).toFinset := by
    ext id
    rw [h.mem_reportedIds_iff root l id, List.mem_toFinset, List.mem_map]
    simp only [failing, List.mem_filter, decide_eq_true_eq, and_assoc]
  have nodup : (failing.map (·.id)).Nodup := h.distinct.sublist (List.filter_sublist.map _)
  calc (reportedIds l.severity (p.validate root).issues).card
      = (failing.map (·.id)).toFinset.card := by rw [ids]
    _ = failing.length := by rw [List.toFinset_card_of_nodup nodup, List.length_map]
    _ = _ := List.countP_eq_length_filter.symm

/-- Of some rules those of a level that fail are all that fail, when all are of this level. -/
theorem countP_level {rules : List Rule} {l : RuleLevel} (same : ∀ r ∈ rules, r.level = l)
    (root : Node) (m : RuleLevel) :
    (rules.countP fun r => r.level = m ∧ r.evaluate root ≠ []) =
      if l = m then failedCount rules root else 0 := by
  split
  case isTrue lm =>
    refine List.countP_congr fun r hr => ?_
    simp [same r hr, lm]
  case isFalse lm =>
    refine List.countP_eq_zero.mpr fun r hr => ?_
    simp [same r hr, lm]

theorem agrees (h : p.Coherent) (root : Node) : (p.validate root).Agrees p where
  musts := by
    show (passedCount p.must root : Int) + failedCount p.must root = _
    exact_mod_cast passedCount_add_failedCount p.must root
  shoulds := by
    show (passedCount p.should root : Int) + failedCount p.should root = _
    exact_mod_cast passedCount_add_failedCount p.should root
  mustFailed := by
    show (failedCount p.must root : Int) = _
    have count := h.card_reportedIds root .must
    simp only [Pattern.rules, List.countP_append, countP_level h.musts, countP_level h.shoulds,
      if_true, reduceCtorEq, if_false, Nat.add_zero] at count
    exact congrArg _ count.symm
  shouldFailed := by
    show (failedCount p.should root : Int) = _
    have count := h.card_reportedIds root .should
    simp only [Pattern.rules, List.countP_append, countP_level h.musts, countP_level h.shoulds,
      if_true, reduceCtorEq, if_false, Nat.zero_add] at count
    exact congrArg _ count.symm

end Pattern.Coherent

/-! ## Several verdicts -/

/-- What is told about several verdicts together is what their issues tell. -/
structure Verdicts.Agree (vs : Verdicts) : Prop where
  hasMustFailures : vs.hasMustFailures = true ↔ ∃ i ∈ vs.issues, i.severity = .error
  totalIssues : vs.totalIssues = (vs.patterns.map (·.issues.length)).sum

/-- Musts fail in a verdict exactly when it has an error. -/
theorem Verdict.Agrees.mustFailed_pos {v : Verdict} {p : Pattern} (h : v.Agrees p) :
    0 < v.mustFailed ↔ ∃ i ∈ v.issues, i.severity = .error := by
  rw [h.mustFailed, Int.natCast_pos, Finset.card_pos]
  constructor
  · rintro ⟨id, hid⟩
    obtain ⟨i, hi, severe, -⟩ := mem_reportedIds.mp hid
    exact ⟨i, hi, severe⟩
  · rintro ⟨i, hi, severe⟩
    exact ⟨i.id, mem_reportedIds.mpr ⟨i, hi, severe, rfl⟩⟩

theorem Verdicts.of_agree {results : List Verdict} (h : ∀ v ∈ results, ∃ p, v.Agrees p) :
    (Verdicts.of results).Agree where
  hasMustFailures := by
    simp only [Verdicts.of, Verdicts.issues, List.any_eq_true, decide_eq_true_eq, List.mem_flatMap]
    constructor
    · rintro ⟨v, hv, failed⟩
      obtain ⟨p, agrees⟩ := h v hv
      obtain ⟨i, hi, severe⟩ := agrees.mustFailed_pos.mp failed
      exact ⟨i, ⟨v, hv, hi⟩, severe⟩
    · rintro ⟨i, ⟨v, hv, hi⟩, severe⟩
      obtain ⟨p, agrees⟩ := h v hv
      exact ⟨v, hv, agrees.mustFailed_pos.mpr ⟨i, hi, severe⟩⟩
  totalIssues := List.length_flatMap

/-- Whatever is known of layouts, the issues of every pattern of the catalog tell their rule, its
    level and the pattern; and what a verdict, or several, tell about how many rules fail and how
    much was found is what their issues tell. -/
theorem Topic.verdicts_agree (root : Node) :
    (∀ (around : Surroundings) (t : Topic),
      (∀ r ∈ (t.pattern around).must, ∀ i ∈ r.evaluate root, i.Signed t.name r.id .error) ∧
      (∀ r ∈ (t.pattern around).should, ∀ i ∈ r.evaluate root, i.Signed t.name r.id .warn) ∧
      ((t.pattern around).validate root).Agrees (t.pattern around)) ∧
    ∀ asked : List (Surroundings × Topic),
      (Verdicts.compute (asked.map fun (around, t) => t.pattern around) root).Agree := by
  refine ⟨fun around t => ?_, fun asked => Verdicts.of_agree fun v hv => ?_⟩
  · have h := pattern_coherent around t
    have name : (t.pattern around).name = t.name := by cases t <;> rfl
    refine ⟨fun r hr i hi => ?_, fun r hr i hi => ?_, h.agrees root⟩
    · have signed := h.signs r (List.mem_append_left _ hr) root i hi
      rwa [h.musts r hr, name] at signed
    · have signed := h.signs r (List.mem_append_right _ hr) root i hi
      rwa [h.shoulds r hr, name] at signed
  · obtain ⟨p, hp, rfl⟩ := List.mem_map.mp hv
    obtain ⟨⟨around, t⟩, -, rfl⟩ := List.mem_map.mp hp
    exact ⟨_, (pattern_coherent around t).agrees root⟩

end Wireframe
