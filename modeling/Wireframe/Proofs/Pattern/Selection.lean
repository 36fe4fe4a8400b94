import Wireframe.Proofs.Address
import Wireframe.Proofs.Keyed
import Wireframe.Proofs.Order
import Wireframe.Proofs.Score.Gate
import Wireframe.Proofs.Value.Nearest

/-
  Wireframe.Proofs.Pattern.Selection — which patterns are selected, and what the coverage tells of
  them.

  What is selected rests on the score of a suggestion, what is a gap on its label. Both thresholds
  are 80, so without names no suggestion is left out and none counts twice: it is active, or a gap,
  or too weak. A label that began below the threshold would show a gap that no selection can close,
  and two suggestions of one pattern would make a gap of a pattern that is active.

  Proved:
  - `Topic.find?_iff`: a name is looked up as a topic exactly when it names it.
  - `select_known`: what is selected are the topics that are named, in the order of their first
    mentions, then those that the tree asks for; without names the suggestions of high confidence.
  - `select_unknown`: a name that is unknown is told, whatever the tree.
  - `compute_covered`: the coverage of a report counts the patterns that were checked, and its gaps
    are the other suggestions that are not weak.
-/

namespace Wireframe

/-! ## Names of topics -/

namespace Topic

/-- In small letters and without the blanks around it the text is the name of the topic or an alias
    of it. -/
def Names (s : String) (t : Topic) : Prop :=
  ∃ n ∈ t.name :: t.aliasesOf, Text.lower n = normal s

/-- Every one of the texts names some topic. -/
def Known (names : List String) : Prop := ∀ s ∈ names, ∃ t, Names s t

theorem mem_all (t : Topic) : t ∈ all := by
  cases t <;> decide

theorem name_injective {t u : Topic} (h : t.name = u.name) : t = u := by
  cases t <;> cases u <;> first | rfl | exact absurd h (by decide)

@[simp] theorem pattern_name (around : Surroundings) (t : Topic) : (t.pattern around).name = t.name := by
  cases t <;> rfl

theorem mem_aliasesOf {n : String} {t : Topic} : n ∈ t.aliasesOf ↔ (n, t) ∈ aliases := by
  simp only [aliasesOf, List.mem_map, List.mem_filter, beq_iff_eq]
  constructor
  · rintro ⟨⟨_, _⟩, ⟨found, rfl⟩, rfl⟩
    exact found
  · intro found
    exact ⟨(n, t), ⟨found, rfl⟩, rfl⟩

/-- The names and the aliases in small letters, with their topics. -/
def entries : List (String × Topic) :=
  (all.map fun t => (Text.lower t.name, t)) ++ aliases.map fun (s, t) => (Text.lower s, t)

/-- No two names and aliases are the same but for their case. -/
theorem entries_nodup : (entries.map (·.1)).Nodup := by
  decide +kernel

theorem index_eq : index = entries := Keyed.ofList_of_nodup entries_nodup

/-- A name is looked up as a topic exactly when it names it. -/
theorem find?_iff {s : String} {t : Topic} : find? s = some t ↔ Names s t := by
  rw [find?, index_eq, Keyed.get?_eq_some_of_nodup entries_nodup, entries, List.mem_append,
    List.mem_map, List.mem_map]
  simp only [Names, List.mem_cons, exists_eq_or_imp, mem_aliasesOf, Prod.mk.injEq]
  refine or_congr ⟨?_, fun same => ⟨t, mem_all t, same, rfl⟩⟩ ⟨?_, ?_⟩
  · rintro ⟨_, -, same, rfl⟩
    exact same
  · rintro ⟨⟨n, _⟩, found, same, rfl⟩
    exact ⟨n, found, same⟩
  · rintro ⟨n, found, same⟩
    exact ⟨(n, t), found, same, rfl⟩

theorem find?_eq_none {s : String} : find? s = none ↔ ∀ t, ¬Names s t := by
  rw [Option.eq_none_iff_forall_ne_some]
  exact forall_congr' fun t => not_congr find?_iff

theorem get_eq_ok {s : String} {t : Topic} : get s = .ok t ↔ Names s t := by
  rw [← find?_iff, get]
  cases find? s with
  | none => exact ⟨nofun, nofun⟩
  | some u => simp only [Except.ok.injEq, Option.some.injEq]

theorem get_eq_error {s : String} {e : Failure} :
    get s = .error e ↔ (∀ t, ¬Names s t) ∧ e = .unknownPattern s (near s) allNames := by
  rw [← find?_eq_none, get]
  cases find? s with
  | none => simp only [Except.error.injEq, true_and, eq_comm]
  | some u => simp only [reduceCtorEq, false_and]

theorem known_iff {names : List String} :
    Known names ↔ ∀ s ∈ names, (find? s).isSome = true := by
  refine forall₂_congr fun s _ => ?_
  rw [Option.isSome_iff_exists]
  exact exists_congr fun t => find?_iff.symm

instance (names : List String) : Decidable (Known names) := decidable_of_iff _ known_iff.symm

/-- Names that are known are looked up one by one. -/
theorem Known.mapM_get {names : List String} (known : Known names) :
    ∃ meant, names.mapM get = .ok meant ∧ List.Forall₂ Names names meant := by
  cases looked : names.mapM get with
  | ok meant =>
    have each := Result.mapM_eq_ok.mp looked
    exact ⟨meant, rfl, each.imp fun _ _ => get_eq_ok.mp⟩
  | error e =>
    obtain ⟨before, s, after, rfl, -, failed⟩ := Result.mapM_eq_error.mp looked
    obtain ⟨t, named⟩ := known s (by simp)
    exact absurd named ((get_eq_error.mp failed).1 t)

/-- Of names that are not all known the first unknown one is told. -/
theorem mapM_get_of_not_known {names : List String} (unknown : ¬Known names) :
    ∃ s, FirstWith (fun s => ∀ t, ¬Names s t) names s ∧
      names.mapM get = .error (.unknownPattern s (near s) allNames) := by
  cases looked : names.mapM get with
  | ok meant =>
    refine absurd (fun s hs => ?_) unknown
    obtain ⟨i, hi, rfl⟩ := List.mem_iff_getElem.mp hs
    have each := Result.mapM_eq_ok.mp looked
    exact ⟨_, get_eq_ok.mp (each.get hi (each.length_eq ▸ hi))⟩
  | error e =>
    obtain ⟨before, s, after, rfl, ok, failed⟩ := Result.mapM_eq_error.mp looked
    obtain ⟨nothing, rfl⟩ := get_eq_error.mp failed
    refine ⟨s, ⟨before, after, rfl, nothing, fun b hb none => ?_⟩, rfl⟩
    obtain ⟨t, found⟩ := ok b hb
    exact none t (get_eq_ok.mp found)

end Topic

/-! ## Suggestions -/

theorem Confidence.ofScore_int (score : Int) : Confidence.ofScore (.int score) =
    if highScore ≤ score then .high else if mediumScore ≤ score then .medium else .low := by
  simp only [ofScore, Number.le_int]

namespace Suggestion

variable {root : Node}

/-- The label is high exactly where the score reaches the threshold of the selection. -/
theorem confidence_high {s : Suggestion} : s.confidence = .high ↔ highScore ≤ s.score := by
  rw [confidence, Confidence.ofScore_int]
  split
  case isTrue high => exact iff_of_true rfl high
  case isFalse low =>
    refine iff_of_false ?_ low
    split <;> decide

theorem topic_of_toList {o : Option Suggestion} {t : Topic} (h : ∀ s ∈ o, s.topic = t) :
    (o.toList.map (·.topic)).Sublist [t] := by
  cases o with
  | none => exact List.nil_sublist _
  | some s =>
    rw [Option.toList_some, List.map_singleton, h s rfl]

/-- There is one suggestion for a topic at most, and they are in the order of the catalog. -/
theorem topics_sublist (root : Node) : ((compute root).map (·.topic)).Sublist Topic.all := by
  have forms : ∀ fs, ∀ s ∈ ofForms fs, s.topic = .forms := by
    intro fs s hs
    cases fs with
    | nil => cases hs
    | cons => cases hs; rfl
  have tables : ∀ ts, ∀ s ∈ ofTables ts, s.topic = .tables := by
    intro ts s hs
    cases ts with
    | nil => cases hs
    | cons => cases hs; rfl
  have folding : ∀ found, ∀ s ∈ ofFolding found, s.topic = .collapsibles := by
    intro found s hs
    cases found with
    | false => cases hs
    | true => cases hs; rfl
  have hints : ∀ hs, ∀ s ∈ ofHints hs, s.topic = .wizards := by
    intro hs s h
    unfold ofHints at h
    split at h <;> cases h <;> rfl
  simp only [compute, List.map_append]
  exact (((topic_of_toList (forms _)).append (topic_of_toList (tables _))).append
    (topic_of_toList (folding _))).append (topic_of_toList (hints _))

theorem eq_of_topic {s s' : Suggestion} (hs : s ∈ compute root) (hs' : s' ∈ compute root)
    (same : s.topic = s'.topic) : s = s' :=
  List.inj_on_of_nodup_map ((topics_sublist root).nodup (by decide)) hs hs' same

/-! ## Selection -/

/-- A node of the tree, visible or not, asks for a topic by how it behaves. -/
inductive Hinted (root : Node) : Topic → Prop
  | folding {tokens : List String} {n : Node} {d : Disclosure} : root.Reaches tokens n →
      n.disclosure? = some d → d.collapsible = true → Hinted root .collapsibles
  | flow {tokens : List String} {n : Node} {f : GuidedFlow} : root.Reaches tokens n →
      n.guidedFlow? = some f → Hinted root .wizards

/-- What is to be selected for a tree and some names that are known. -/
structure Chosen (root : Node) (names : List String) (topics : List Topic) : Prop where
  distinct : (topics.map Topic.name).Nodup
  /-- First those that are named, as they are first mentioned, then those that are asked for. -/
  named : names ≠ [] → ∃ meant first later, List.Forall₂ Topic.Names names meant ∧
    FirstMentions meant first ∧ topics = first ++ later ∧
    later.Sublist [.collapsibles, .wizards] ∧ ∀ t, t ∈ later ↔ Hinted root t ∧ t ∉ first
  /-- Without names the suggestions of high confidence, in the order of the catalog. -/
  suggested : names = [] →
    topics = ((compute root).filter (·.confidence = .high)).map (·.topic) ∧ topics.Sublist Topic.all

theorem hinted_sublist (root : Node) : (hinted root).Sublist [.collapsibles, .wizards] := by
  unfold hinted
  cases hasDisclosureHints root <;> cases hasFlowHints root <;> decide

theorem hasDisclosureHints_iff : hasDisclosureHints root = true ↔ Hinted root .collapsibles := by
  rw [hasDisclosureHints, List.any_eq_true]
  constructor
  · rintro ⟨n, hn, folds⟩
    obtain ⟨tokens, way⟩ := Node.reaches_of_mem_allNodes hn
    obtain ⟨d, own, collapsible⟩ := (Option.any_eq_true _ _).mp folds
    exact .folding way own collapsible
  · rintro ⟨way, own, collapsible⟩
    exact ⟨_, way.mem_allNodes, (Option.any_eq_true _ _).mpr ⟨_, own, collapsible⟩⟩

theorem hasFlowHints_iff : hasFlowHints root = true ↔ Hinted root .wizards := by
  rw [hasFlowHints, List.any_eq_true]
  constructor
  · rintro ⟨n, hn, part⟩
    obtain ⟨tokens, way⟩ := Node.reaches_of_mem_allNodes hn
    obtain ⟨f, own⟩ := Option.isSome_iff_exists.mp part
    exact .flow way own
  · rintro (_ | ⟨way, own⟩)
    exact ⟨_, way.mem_allNodes, Option.isSome_iff_exists.mpr ⟨_, own⟩⟩

theorem mem_hinted {t : Topic} : t ∈ hinted root ↔ Hinted root t := by
  unfold hinted
  rw [List.mem_append]
  cases t with
  | collapsibles => simp [← hasDisclosureHints_iff]
  | wizards => simp [← hasFlowHints_iff]
  | forms | tables =>
    refine iff_of_false ?_ nofun
    split <;> split <;> decide

/-- What is selected when there are names is each of them once, then what else is asked for. -/
theorem eraseDups_named (meant : List Topic) (root : Node) : (meant ++ hinted root).eraseDups =
    meant.eraseDups ++ (hinted root).filter fun t => !meant.contains t := by
  have once : (hinted root).Nodup := (hinted_sublist root).nodup (by decide)
  rw [List.eraseDups_append, List.removeAll, eraseDups_of_nodup (once.sublist List.filter_sublist)]

theorem chosen_of_named {names : List String} {meant : List Topic} (some_name : names ≠ [])
    (each : List.Forall₂ Topic.Names names meant) :
    Chosen root names (meant ++ hinted root).eraseDups where
  distinct := (nodup_eraseDups _).map_on fun _ _ _ _ => Topic.name_injective
  suggested none := absurd none some_name
  named _ := by
    refine ⟨meant, meant.eraseDups, _, each, firstMentions_eraseDups meant,
      eraseDups_named meant root, List.filter_sublist.trans (hinted_sublist root), fun t => ?_⟩
    simp [mem_hinted]

theorem confident_eq (ss : List Suggestion) :
    confident ss = (ss.filter (·.confidence = .high)).map (·.topic) := by
  simp only [confident, confidence_high]

theorem chosen_of_suggested (root : Node) : Chosen root [] (confident (compute root)) := by
  have ordered : (confident (compute root)).Sublist Topic.all :=
    (List.filter_sublist.map _).trans (topics_sublist root)
  refine ⟨?_, fun some_name => absurd rfl some_name, fun _ => ⟨confident_eq _, ordered⟩⟩
  exact (ordered.nodup (by decide)).map_on fun _ _ _ _ => Topic.name_injective

/-- Names that are all known are selected, and what the tree asks for besides. -/
theorem select_known {names : List String} (root : Node) (known : Topic.Known names) :
    ∃ topics, (select root names true).result = .ok topics ∧ Chosen root names topics := by
  obtain ⟨meant, looked, each⟩ := known.mapM_get
  cases names with
  | nil =>
    cases each
    exact ⟨_, rfl, chosen_of_suggested root⟩
  | cons s rest =>
    refine ⟨(meant ++ hinted root).eraseDups, ?_, chosen_of_named (by simp) each⟩
    rw [select, Trail.result_bind, Trail.result_ofExcept, looked]
    rfl

/-- Of names that are not all known the first unknown one is told, whatever the tree. -/
theorem select_unknown {names : List String} (unknown : ¬Topic.Known names) :
    ∃ s, FirstWith (fun s => ∀ t, ¬Topic.Names s t) names s ∧ ∀ root auto,
      (select root names auto).result =
        .error (.unknownPattern s (Topic.near s) Topic.allNames) := by
  obtain ⟨s, first, failed⟩ := Topic.mapM_get_of_not_known unknown
  refine ⟨s, first, fun root auto => ?_⟩
  rw [select, Trail.result_bind, Trail.result_ofExcept, failed]
  rfl

/-- Whatever is selected by names was selected by names that are known. -/
theorem known_of_select {names topics} (h : (select root names true).result = .ok topics) :
    Topic.Known names := by
  by_contra unknown
  obtain ⟨_, -, failed⟩ := select_unknown unknown
  rw [failed root true] at h
  cases h

theorem chosen_of_select {names topics} (h : (select root names true).result = .ok topics) :
    Chosen root names topics := by
  obtain ⟨topics', selected, chosen⟩ := select_known root (known_of_select h)
  cases Except.ok.inj (selected.symm.trans h)
  exact chosen

end Suggestion

/-! ## Coverage -/

namespace Coverage

variable {ss : List Suggestion} {active : List String}

/-- What a coverage tells of some suggestions and the names of the patterns that are active. -/
structure Agrees (ss : List Suggestion) (active : List String) (c : Coverage) : Prop where
  total : c.total = Topic.all.length
  activated : c.activated = active.length
  some_of : c.activated ≤ c.total
  percent : Double.StandsFor c.percent (100 * c.activated / c.total)
  low : 0.0 ≤ c.percent
  high : c.percent ≤ 100.0
  gaps : c.gaps.Sublist ss
  /-- No gap names a pattern that is active. -/
  inactive : ∀ gap ∈ c.gaps, gap.topic.name ∉ active
  /-- A suggestion that is not weak is active or a gap. -/
  followed : ∀ s ∈ ss, s.confidence ≠ .low → s.topic.name ∈ active ∨ s ∈ c.gaps

/-- The part of the catalog that some of its topics are, in percent, is told without rounding. -/
theorem standsFor_percent {count : Nat} (few : count ≤ Topic.all.length) :
    Double.StandsFor
      (Decimal.roundTo 2 (Float.ofNat count / Float.ofNat Topic.all.length * 100.0))
      (100 * count / Topic.all.length) := by
  have told : ∀ n : Fin (Topic.all.length + 1),
      Number.isFinite (.float
        (Decimal.roundTo 2 (Float.ofNat n / Float.ofNat Topic.all.length * 100.0))) = true ∧
      Exact.ofFloat (Decimal.roundTo 2 (Float.ofNat n / Float.ofNat Topic.all.length * 100.0)) =
        100 * n.val / Topic.all.length := by
    decide +kernel
  have here := told ⟨count, Nat.lt_succ_of_le few⟩
  exact ⟨here.1, here.2⟩

theorem standsFor_none : Double.StandsFor 0.0 0 := ⟨by decide +kernel, by decide +kernel⟩

theorem standsFor_whole : Double.StandsFor 100.0 100 := ⟨by decide +kernel, by decide +kernel⟩

theorem percent_le {count total : Nat} (few : count ≤ total) : (100 * count / total : ℚ) ≤ 100 := by
  rcases Nat.eq_zero_or_pos total with rfl | positive
  · simp
  · have positive : (0 : ℚ) < total := by exact_mod_cast positive
    have few : (count : ℚ) ≤ total := by exact_mod_cast few
    rw [div_le_iff₀ positive]
    exact mul_le_mul_of_nonneg_left few (by norm_num)

theorem mem_gaps {s : Suggestion} :
    s ∈ (compute ss active).gaps ↔ s ∈ ss ∧ s.confidence ≠ .low ∧ s.topic.name ∉ active := by
  simp [compute]

/-- The coverage agrees with whatever topics are active, when each of them is active once. -/
theorem compute_agrees {topics : List Topic} (distinct : (topics.map Topic.name).Nodup) :
    (compute ss (topics.map Topic.name)).Agrees ss (topics.map Topic.name) := by
  have count : (topics.map Topic.name).eraseDups.length = topics.length := by
    rw [eraseDups_of_nodup distinct, List.length_map]
  have few : topics.length ≤ Topic.all.length :=
    (distinct.of_map _).length_le_of_subset fun t _ => t.mem_all
  have percent := standsFor_percent few
  rw [← count] at percent few
  exact
    { total := rfl
      activated := count.trans (List.length_map _).symm
      some_of := few
      percent := percent
      low := (standsFor_none.le_iff percent).mpr (by positivity)
      high := (percent.le_iff standsFor_whole).mpr (percent_le few)
      gaps := List.filter_sublist
      inactive := fun gap h => (mem_gaps.mp h).2.2
      followed := fun s hs strong => or_iff_not_imp_left.mpr fun no => mem_gaps.mpr ⟨hs, strong, no⟩ }

/-- When the suggestions of high confidence are active, those of medium confidence are the gaps. -/
theorem gaps_of_suggested (root : Node) :
    (compute (Suggestion.compute root)
      ((Suggestion.confident (Suggestion.compute root)).map Topic.name)).gaps =
        (Suggestion.compute root).filter (·.confidence = .medium) := by
  refine List.filter_congr fun s hs => ?_
  have active : s.topic.name ∈ (Suggestion.confident (Suggestion.compute root)).map Topic.name ↔
      s.confidence = .high := by
    rw [Suggestion.confident_eq, List.map_map, List.mem_map]
    constructor
    · rintro ⟨s', hs', same⟩
      obtain ⟨found, high⟩ := List.mem_filter.mp hs'
      cases Suggestion.eq_of_topic found hs (Topic.name_injective same)
      exact of_decide_eq_true high
    · intro high
      exact ⟨s, List.mem_filter.mpr ⟨hs, decide_eq_true high⟩, rfl⟩
  rw [Bool.eq_iff_iff, Bool.and_eq_true, bne_iff_ne, Bool.not_eq_true', ← Bool.not_eq_true,
    List.contains_iff_mem, active, decide_eq_true_eq]
  cases s.confidence <;> decide

end Coverage

namespace Report

variable {env : Environment} {q : Inquiry} {s : Scaffold} {r : Report}

/-- The coverage of a report agrees with what is suggested, selected and checked. -/
structure Covered (q : Inquiry) (root : Node) (r : Report) : Prop where
  /-- The patterns that are checked are those that are selected. -/
  checked : ∃ topics, (Suggestion.select root q.patterns true).result = .ok topics ∧
    r.verdicts.patterns.map (·.pattern) = topics.map Topic.name
  suggestions : r.suggestions = Suggestion.compute root
  coverage : r.coverage.Agrees r.suggestions (r.verdicts.patterns.map (·.pattern))
  /-- Without names the gaps are the suggestions of medium confidence. -/
  unnamed : q.patterns = [] → r.coverage.gaps = r.suggestions.filter (·.confidence = .medium)

theorem compute_covered (h : (compute env q s).result = .ok r) : r.Covered q s.screen.root := by
  obtain ⟨viewports, layouts, focus, topics, vs, score, -, -, -, -, selected, -, judged, -, rfl⟩ :=
    compute_eq_ok.mp h
  obtain rfl := Topic.judge_eq_ok judged
  have chosen := Suggestion.chosen_of_select selected
  -- What is known of the narrowest viewport changes rules, and no name.
  have active : (topics.map (Topic.pattern (.of (viewports.zip layouts)))).map (·.name) =
      topics.map Topic.name := by
    rw [List.map_map]
    exact List.map_congr_left fun t _ => t.pattern_name _
  have checked : (Verdicts.compute (topics.map (Topic.pattern (.of (viewports.zip layouts))))
      s.screen.root).patterns.map (·.pattern) = topics.map Topic.name := by
    rw [← active]
    exact List.map_map
  refine ⟨⟨topics, selected, checked⟩, rfl, ?_, fun none => ?_⟩
  · show (Coverage.compute _ _).Agrees _ _
    rw [active, checked]
    exact Coverage.compute_agrees chosen.distinct
  · show (Coverage.compute _ _).gaps = _
    obtain ⟨suggested, -⟩ := chosen.suggested none
    rw [active, suggested, ← Suggestion.confident_eq]
    exact Coverage.gaps_of_suggested s.screen.root

end Report

/-- For every tree and all names that are known the selection is made as it should be, a name that
    is unknown is told whatever the tree, and the coverage of every report agrees. -/
theorem selection_covered :
    (∀ root names, Topic.Known names →
      ∃ topics, (Suggestion.select root names true).result = .ok topics ∧
        Suggestion.Chosen root names topics) ∧
    (∀ names, ¬Topic.Known names →
      ∃ s, FirstWith (fun s => ∀ t, ¬Topic.Names s t) names s ∧ ∀ root auto,
        (Suggestion.select root names auto).result =
          .error (.unknownPattern s (Topic.near s) Topic.allNames)) ∧
    ∀ env q s r, (Report.compute env q s).result = .ok r → r.Covered q s.screen.root := by
  refine ⟨?_, ?_, ?_⟩
  · intro root names known
    exact Suggestion.select_known root known
  · intro names unknown
    exact Suggestion.select_unknown unknown
  · intro env q s r computed
    exact Report.compute_covered computed

/-- Two buttons that hint at steps, and a section to fold in a part that is not shown. -/
def stepButtons : Node :=
  .plainStack "page" .vertical
    [.plainButton "next" "Next", .plainButton "back" "Back",
      .stack { Header.plain "later" with visible := false } ⟨.vertical, none, none, .start, false⟩
        [.foldable "details" none []]]

/-- Nothing is selected by name. -/
def stepButtonsInquiry : Inquiry where
  patterns := []
  viewports := some ["320x640"]
  weights := Categories.standardWeights
  criteria := ⟨true, true, none⟩
  detection := .role
  room := 1000

theorem stepButtons_covered :
    (∃ topics,
      (Suggestion.select stepButtons [" Wizard ", "TABLE-simple", "guided-flow"] true).result =
        .ok topics ∧
      topics = [.wizards, .tables, .collapsibles] ∧
      Suggestion.Chosen stepButtons [" Wizard ", "TABLE-simple", "guided-flow"] topics) ∧
    (¬Topic.Known ["table", "tabel"] ∧
      ∃ s, FirstWith (fun s => ∀ t, ¬Topic.Names s t) ["table", "tabel"] s ∧ ∀ root auto,
        (Suggestion.select root ["table", "tabel"] auto).result =
          .error (.unknownPattern s (Topic.near s) Topic.allNames)) ∧
    ∃ r, (Report.compute [] stepButtonsInquiry (.around stepButtons)).result = .ok r ∧
      (r.coverage.activated = 1 ∧ r.coverage.gaps.map (·.topic) = [.wizards]) ∧
      r.Covered stepButtonsInquiry stepButtons := by
  have unknown : ¬Topic.Known ["table", "tabel"] := by decide +kernel
  have told : ((Suggestion.select stepButtons [" Wizard ", "TABLE-simple", "guided-flow"] true).result).toOption
      = some [.wizards, .tables, .collapsibles] := by
    decide +kernel
  have computed : ((Report.compute [] stepButtonsInquiry (.around stepButtons)).result.map
      fun r => (r.coverage.activated, r.coverage.gaps.map (·.topic))).toOption =
        some (1, [.wizards]) := by
    decide +kernel
  obtain ⟨select_known, select_unknown, covered⟩ := selection_covered
  obtain ⟨topics, selected, chosen⟩ := select_known stepButtons
    [" Wizard ", "TABLE-simple", "guided-flow"] (by decide +kernel)
  obtain ⟨r, hr, counted⟩ := Result.map_toOption_eq_some.mp computed
  refine ⟨⟨topics, selected, ?_, chosen⟩, ⟨unknown, select_unknown _ unknown⟩,
    r, hr, Prod.mk.inj counted, covered _ _ _ _ hr⟩
  exact Except.ok.inj (selected.symm.trans (Result.toOption_eq_some.mp told))

end Wireframe
