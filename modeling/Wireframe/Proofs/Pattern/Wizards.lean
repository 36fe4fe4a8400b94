import Wireframe.Pattern.Wizards
import Wireframe.Proofs.Address
import Wireframe.Proofs.Mentions
import Wireframe.Proofs.Pattern.Rule
import Mathlib.Data.List.Perm.Subperm
import Mathlib.Data.List.TakeDrop
import Mathlib.Data.List.TakeWhile

/-
  Wireframe.Proofs.Pattern.Wizards — what the musts of guided flows ask for, all together.

  Every rule looks at the steps of a scope from its own side: some compare an index with one, some
  with the number of steps, and only the first rule looks at all indices. The rules of the other
  steps mean what they should only where the indices are numbered through, and there no index is
  left out between two rules.

  Proved:
  - `isComplete_iff`: the indices of a scope pass exactly when they are 1..N, each once.
  - `buttons_in_subtree`: the actions of a step are nodes of the step.
  - `musts_pass_iff`: no must fails exactly when every scope with a step is sound.
-/

namespace Wireframe.Wizards

/-! ## Sound scopes -/

/-- Has the step a button of this move? -/
def Step.Has (s : Step) (m : Move) : Prop := ∃ b ∈ s.actions.buttons, moveOf b = m

/-- Has the step a button that leads on, by its label or by its weight? -/
def Step.LeadsOn (s : Step) : Prop :=
  ∃ b ∈ s.actions.buttons, moveOf b = .next ∨ b.node.isPrimaryButton = true ∧ moveOf b ≠ .back

/-- No field of the step comes after its first button. -/
def Step.FieldsFirst (s : Step) : Prop :=
  ∀ first ∈ s.actions.buttons.head?, ∃ before after,
    s.place.subtree = before ++ first :: after ∧ ∀ l ∈ after, l.node.isField = false

/-- No two buttons of the step are primary. -/
def Step.OnePrimary (s : Step) : Prop :=
  s.actions.buttons.Pairwise fun b c =>
    ¬(b.node.isPrimaryButton = true ∧ c.node.isPrimaryButton = true)

/-- The indices are 1..N, each once. -/
structure Scope.Numbered (scope : Scope) : Prop where
  nodup : scope.indices.Nodup
  mem_iff : ∀ i, i ∈ scope.indices ↔ 1 ≤ i ∧ i ≤ scope.totalSteps

/-- What a guided flow has to be like. -/
structure Scope.Sound (scope : Scope) : Prop where
  numbered : scope.Numbered
  leadsOn : ∀ s ∈ scope.steps, s.index < scope.totalSteps → s.LeadsOn
  noBackFirst : ∀ s ∈ scope.steps, s.index = 1 → ¬s.Has .back
  backBetween : ∀ s ∈ scope.steps, 1 < s.index → s.index < scope.totalSteps → s.Has .back
  finishLast : ∀ s ∈ scope.steps, s.index = scope.totalSteps → s.Has .finish
  onePrimary : ∀ s ∈ scope.steps, s.OnePrimary
  fieldsFirst : ∀ s ∈ scope.steps, s.FieldsFirst

/-! ## Buttons -/

theorem Step.has_iff {s : Step} {m : Move} : s.has m = true ↔ s.Has m := by
  simp only [has, Has, List.any_eq_true, beq_iff_eq]

theorem Step.leadsOn_iff {s : Step} : s.leadsOn = true ↔ s.LeadsOn := by
  simp only [leadsOn, LeadsOn, List.any_eq_true, Bool.or_eq_true, Bool.and_eq_true, beq_iff_eq,
    bne_iff_ne]

/-- At most one of a list is marked exactly when no two of it are. -/
theorem filter_length_le_one {α : Type} {p : α → Bool} {l : List α} :
    (l.filter p).length ≤ 1 ↔ l.Pairwise fun a b => ¬(p a = true ∧ p b = true) := by
  induction l with
  | nil => simp
  | cons a l ih =>
    cases ha : p a with
    | false => simp [ha, ih]
    | true =>
      have none_left : (l.filter p).length = 0 ↔ ∀ b ∈ l, p b = false := by
        simp [List.length_eq_zero_iff, List.filter_eq_nil_iff]
      rw [List.filter_cons_of_pos ha, List.length_cons, List.pairwise_cons]
      constructor
      · intro h
        have := none_left.mp (by omega)
        exact ⟨fun b hb => by simp [this b hb], ih.mp (by omega)⟩
      · rintro ⟨h, -⟩
        have := none_left.mpr fun b hb => by simpa [ha] using h b hb
        omega

theorem Step.onePrimary_iff {s : Step} : s.primaries.length ≤ 1 ↔ s.OnePrimary :=
  filter_length_le_one

/-! ## Numbering -/

theorem mem_expectedIndices {scope : Scope} {i : Int} :
    i ∈ expectedIndices scope ↔ 1 ≤ i ∧ i ≤ scope.totalSteps := by
  simp only [expectedIndices, List.mem_map, List.mem_range]
  constructor
  · rintro ⟨n, hn, rfl⟩; omega
  · rintro ⟨h1, h2⟩; exact ⟨(i - 1).toNat, by omega, by omega⟩

theorem nodup_expectedIndices (scope : Scope) : (expectedIndices scope).Nodup := by
  refine List.Nodup.map (fun m n h => ?_) List.nodup_range
  omega

theorem isComplete_iff {scope : Scope} : isComplete scope = true ↔ scope.Numbered := by
  simp only [isComplete, Bool.and_eq_true, beq_iff_eq, List.all_eq_true, List.contains_eq_mem,
    decide_eq_true_eq]
  constructor
  · -- So many distinct indices among as many leave no room for another one or a second one.
    rintro ⟨⟨len, sub⟩, -⟩
    have perm : (expectedIndices scope).Perm scope.indices :=
      ((nodup_expectedIndices scope).subperm sub).perm_of_length_le (Nat.le_of_eq len)
    exact ⟨perm.nodup_iff.mp (nodup_expectedIndices scope),
      fun i => perm.mem_iff.symm.trans mem_expectedIndices⟩
  · intro h
    have perm : scope.indices.Perm (expectedIndices scope) :=
      (List.perm_ext_iff_of_nodup h.nodup (nodup_expectedIndices scope)).mpr fun i =>
        (h.mem_iff i).trans mem_expectedIndices.symm
    exact ⟨⟨perm.length_eq, fun i hi => perm.mem_iff.mpr hi⟩, by rw [eraseDups_of_nodup h.nodup]⟩

theorem Scope.Numbered.bounds {scope : Scope} (h : scope.Numbered) {s : Step}
    (hs : s ∈ scope.steps) : 1 ≤ s.index ∧ s.index ≤ scope.totalSteps :=
  (h.mem_iff s.index).mp (List.mem_map_of_mem hs)

/-- An index belongs to one step only. -/
theorem Scope.Numbered.unique {scope : Scope} (h : scope.Numbered) {s t : Step}
    (hs : s ∈ scope.steps) (ht : t ∈ scope.steps) (same : s.index = t.index) : s = t :=
  List.inj_on_of_nodup_map h.nodup hs ht same

/-! ## Where the actions of a step stand -/

theorem shownButtons_in_subtree {l m : Located} (hl : l.node.visible = true)
    (h : m ∈ shownButtons l) : m ∈ l.subtree := by
  obtain ⟨shown, -⟩ := List.mem_filter.mp h
  obtain ⟨slot, visible⟩ := List.mem_filter.mp shown
  obtain ⟨s, hs, rfl⟩ := List.mem_map.mp slot
  exact Node.under_mem_walkFrom (Node.mem_walkFrom_self fun _ => hl) hs fun _ => visible

theorem rowOf?_in_subtree {step row : Located} (h : rowOf? step = some row) : row ∈ step.subtree := by
  simp only [rowOf?, Option.orElse_eq_or, Option.or_eq_some_iff] at h
  have found : row ∈ step.subtree.filter isRow := by
    rcases h with (h | ⟨-, h⟩) | ⟨-, h⟩
    · exact List.mem_of_mem_filter (List.mem_of_mem_filter (List.mem_of_getLast? h))
    · exact List.mem_of_mem_filter (List.mem_of_getLast? h)
    · exact List.mem_of_mem_filter (List.mem_of_getLast? h)
  exact List.mem_of_mem_filter found

/-- The actions of a step are nodes of the step. -/
theorem buttons_in_subtree {step b : Located} (hv : step.node.visible = true)
    (h : b ∈ (actionsOf step).buttons) : b ∈ step.subtree := by
  unfold actionsOf at h
  split at h
  · rename_i hd f fs as hform
    obtain ⟨slot, shown⟩ := List.mem_filter.mp h
    obtain ⟨s, hs, rfl⟩ := List.mem_map.mp slot
    have : s ∈ step.node.slots := by rw [hform]; exact List.mem_append_right _ hs
    exact Node.under_mem_walkFrom (Node.mem_walkFrom_self fun _ => hv) this fun _ =>
      (Bool.and_eq_true_iff.mp shown).2
  · split at h
    · rename_i row hrow
      have hr := rowOf?_in_subtree hrow
      exact Node.mem_walkFrom_trans hr (shownButtons_in_subtree (Node.visible_of_mem hr) h)
    · cases h

/-! ## Fields and actions -/

/-- A walk that is divided at a pointer is divided where the node of that pointer stands. -/
theorem span_at_pointer {walk before after : List Located} {l : Located}
    (nodup : (walk.map (·.pointer)).Nodup) (halves : walk = before ++ l :: after) :
    walk.span (fun m => !m.isAt l) = (before, l :: after) := by
  have ahead : ∀ m ∈ before, (!m.isAt l) = true := by
    intro m hm
    rw [halves, List.map_append, List.map_cons] at nodup
    have apart := (List.nodup_append.mp nodup).2.2 m.pointer (List.mem_map_of_mem hm) l.pointer
      List.mem_cons_self
    simpa [Located.isAt] using apart
  have stop : (!l.isAt l) = false := by simp [Located.isAt]
  rw [halves, List.span_eq_takeWhile_dropWhile, List.takeWhile_append_of_pos ahead,
    List.dropWhile_append_of_pos ahead]
  simp [stop]

theorem Step.fieldsFirst_iff {s : Step} (hv : s.place.node.visible = true)
    (own : s.actions = actionsOf s.place) : s.misplacedFields = [] ↔ s.FieldsFirst := by
  unfold misplacedFields aroundActions FieldsFirst
  cases hb : s.actions.buttons.head? with
  | none =>
    have nothing : s.place.subtree.dropWhile (fun _ => true) = [] :=
      List.dropWhile_eq_nil_iff.mpr fun _ _ => rfl
    simp [List.span_eq_takeWhile_dropWhile, nothing]
  | some first =>
    have inside : first ∈ s.place.subtree :=
      buttons_in_subtree hv (own ▸ List.mem_of_mem_head? hb)
    obtain ⟨before, after, halves⟩ := List.append_of_mem inside
    have nodup : (s.place.subtree.map (·.pointer)).Nodup := Node.pointers_nodup _ _ _
    have span := span_at_pointer nodup halves
    simp only [Option.any_some, Option.mem_some_iff, forall_eq', span, List.drop_succ_cons,
      List.drop_zero, List.filter_eq_nil_iff, Bool.not_eq_true]
    constructor
    · intro h
      exact ⟨before, after, halves, h⟩
    · rintro ⟨before', after', halves', h⟩
      have := congrArg Prod.snd ((span_at_pointer nodup halves').symm.trans span)
      cases this
      exact h

/-! ## The steps of a screen -/

theorem Scope.of_steps {wizard : Option Located} {places : List Located} {s : Step}
    (hs : s ∈ (Scope.of wizard places).steps) : s.place ∈ places ∧ s.actions = actionsOf s.place := by
  obtain ⟨t, ht, rfl⟩ := List.mem_map.mp ((List.mergeSort_perm _ _).mem_iff.mp hs)
  obtain ⟨⟨l, position⟩, hl, kept⟩ := List.mem_filterMap.mp ht
  simp only [Option.ite_none_left_eq_some, Option.some.injEq] at kept
  obtain ⟨-, rfl⟩ := kept
  have hp : l ∈ places := List.fst_mem_of_mem_zipIdx hl
  unfold Step.within
  split
  · exact ⟨hp, rfl⟩
  · exact ⟨hp, rfl⟩

/-- A step is a visible node of the screen, with the actions of its own. -/
theorem steps_in_walk {root : Node} {scope : Scope} (hscope : scope ∈ scopes root) {s : Step}
    (hs : s ∈ scope.steps) : s.place ∈ root.walk ∧ s.actions = actionsOf s.place := by
  have chosen : ∀ wizards owner, ∀ l ∈ (((root.walk.filter (plays .step)).map fun l =>
      (owner? wizards l, l)).filter (·.1 == owner)).map (·.2), l ∈ root.walk := by
    intro wizards owner l hl
    obtain ⟨_, kept, rfl⟩ := List.mem_map.mp hl
    obtain ⟨m, hm, rfl⟩ := List.mem_map.mp (List.mem_of_mem_filter kept)
    exact List.mem_of_mem_filter hm
  rcases List.mem_append.mp hscope with h | h
  · obtain ⟨_, -, rfl⟩ := List.mem_map.mp h
    exact (Scope.of_steps hs).imp_left (chosen _ _ _)
  · split at h
    · obtain rfl := List.mem_singleton.mp h
      exact (Scope.of_steps hs).imp_left (chosen _ _ _)
    · cases h

/-- The wizard of a scope is a visible node of the screen. -/
theorem wizard_in_walk {root : Node} {scope : Scope} (hscope : scope ∈ scopes root) {w : Located}
    (hw : scope.wizard = some w) : w ∈ root.walk := by
  rcases List.mem_append.mp hscope with h | h
  · obtain ⟨⟨w', i⟩, hi, rfl⟩ := List.mem_map.mp h
    cases hw
    exact List.mem_of_mem_filter (List.fst_mem_of_mem_zipIdx hi)
  · split at h
    · obtain rfl := List.mem_singleton.mp h
      cases hw
    · cases h

/-! ## The musts -/

theorem stepFindings_eq_nil {rule : String} {severity : Severity} {suggestion : String}
    {problem? : Scope → Step → Option (String × Object)} {root : Node} :
    stepFindings rule severity suggestion problem? root = [] ↔
      ∀ scope ∈ scopes root, ∀ s ∈ scope.steps, problem? scope s = none := by
  simp only [stepFindings, List.flatMap_eq_nil_iff, List.filterMap_eq_nil_iff, Option.map_eq_none_iff]

theorem numberingFindings_eq_nil {root : Node} :
    numberingFindings root = [] ↔
      ∀ scope ∈ scopes root, scope.steps ≠ [] → scope.Numbered := by
  simp only [numberingFindings, List.filterMap_eq_nil_iff]
  refine forall₂_congr fun scope _ => ?_
  unfold numberingFinding?
  cases hs : scope.steps with
  | nil => simp
  | cons first rest =>
    simp only [ite_eq_left_iff, reduceCtorEq, imp_false, not_not, isComplete_iff, ne_eq,
      not_false_eq_true, forall_const]

theorem nextFindings_eq_nil {root : Node} :
    nextFindings root = [] ↔
      ∀ scope ∈ scopes root, ∀ s ∈ scope.steps, scope.isLast s = true ∨ s.LeadsOn := by
  simp only [nextFindings, stepFindings_eq_nil, ite_eq_left_iff, reduceCtorEq, imp_false,
    Bool.or_eq_true, Step.leadsOn_iff, not_not]

theorem missingBackFindings_eq_nil {root : Node} :
    missingBackFindings root = [] ↔
      ∀ scope ∈ scopes root, ∀ s ∈ scope.steps,
        s.index ≤ 1 ∨ scope.totalSteps ≤ s.index ∨ s.Has .back := by
  simp only [missingBackFindings, stepFindings_eq_nil, ite_eq_left_iff, reduceCtorEq, imp_false,
    Bool.or_eq_true, decide_eq_true_eq, Step.has_iff, not_not, or_assoc]

theorem finishFindings_eq_nil {root : Node} :
    finishFindings root = [] ↔
      ∀ scope ∈ scopes root, ∀ s ∈ scope.steps, scope.isLast s = false ∨ s.Has .finish := by
  simp only [finishFindings, stepFindings_eq_nil, ite_eq_left_iff, reduceCtorEq, imp_false,
    Bool.or_eq_true, Bool.not_eq_true', Step.has_iff, not_not]

theorem illegalBackFindings_eq_nil {root : Node} :
    illegalBackFindings root = [] ↔
      ∀ scope ∈ scopes root, ∀ s, scope.steps.find? (·.index == 1) = some s → ¬s.Has .back := by
  simp only [illegalBackFindings, List.filterMap_eq_nil_iff, Option.bind_eq_none_iff,
    ite_eq_right_iff, reduceCtorEq, imp_false, Step.has_iff]

theorem fieldFindings_eq_nil {root : Node} :
    fieldFindings root = [] ↔ ∀ scope ∈ scopes root, ∀ s ∈ scope.steps, s.FieldsFirst := by
  simp only [fieldFindings, stepFindings_eq_nil, ite_eq_left_iff, reduceCtorEq, imp_false, not_not,
    List.isEmpty_iff]
  refine forall₂_congr fun scope hscope => forall₂_congr fun s hs => ?_
  obtain ⟨hwalk, own⟩ := steps_in_walk hscope hs
  exact s.fieldsFirst_iff (Node.visible_of_mem hwalk) own

theorem primaryFindings_eq_nil {root : Node} :
    primaryFindings root = [] ↔ ∀ scope ∈ scopes root, ∀ s ∈ scope.steps, s.OnePrimary := by
  simp only [primaryFindings, stepFindings_eq_nil, ite_eq_left_iff, reduceCtorEq, imp_false,
    not_not, Step.onePrimary_iff]

theorem Scope.isLast_iff {scope : Scope} {s : Step} :
    scope.isLast s = true ↔ 0 < scope.totalSteps ∧ s.index = scope.totalSteps := by
  simp only [isLast, Bool.and_eq_true, decide_eq_true_eq, beq_iff_eq]

/-- No must of guided flows fails on a screen exactly when all its scopes with a step are sound. -/
theorem musts_pass_iff (sight : Option Sight) (root : Node) :
    ((pattern sight).validate root).mustFailed = 0 ↔
      ∀ scope ∈ scopes root, scope.steps ≠ [] → scope.Sound := by
  simp only [Pattern.mustFailed_eq_zero, pattern, List.forall_mem_cons, List.not_mem_nil,
    false_implies, implies_true, and_true, numberingFindings_eq_nil, nextFindings_eq_nil,
    illegalBackFindings_eq_nil, missingBackFindings_eq_nil, finishFindings_eq_nil,
    fieldFindings_eq_nil, primaryFindings_eq_nil]
  constructor
  · rintro ⟨numbered, next, noBack, back, finish, fields, primary⟩ scope hscope some_step
    have h := numbered scope hscope some_step
    refine ⟨h, fun s hs below => ?_, fun s hs one => ?_, fun s hs above below => ?_,
      fun s hs last => ?_, primary scope hscope, fields scope hscope⟩
    · refine (next scope hscope s hs).resolve_left fun last => ?_
      have := Scope.isLast_iff.mp last
      omega
    · -- The first step with the index one is the only one.
      obtain ⟨t, ht⟩ : ∃ t, scope.steps.find? (·.index == 1) = some t :=
        Option.isSome_iff_exists.mp (List.find?_isSome.mpr ⟨s, hs, beq_of_eq one⟩)
      have same : t.index = s.index := (eq_of_beq (List.find?_some ht :)).trans one.symm
      exact h.unique (List.mem_of_find?_eq_some ht) hs same ▸ noBack scope hscope t ht
    · rcases back scope hscope s hs with low | high | has
      · omega
      · omega
      · exact has
    · have := h.bounds hs
      refine (finish scope hscope s hs).resolve_left fun other => ?_
      exact absurd (Scope.isLast_iff.mpr ⟨by omega, last⟩) (Bool.eq_false_iff.mp other)
  · intro sound
    have of_step : ∀ scope ∈ scopes root, ∀ s ∈ scope.steps, scope.Sound := fun scope hscope s hs =>
      sound scope hscope (List.ne_nil_of_mem hs)
    refine ⟨fun scope hscope some_step => (sound scope hscope some_step).numbered,
      fun scope hscope s hs => ?_, fun scope hscope s found => ?_, fun scope hscope s hs => ?_,
      fun scope hscope s hs => ?_, fun scope hscope s hs => (of_step scope hscope s hs).fieldsFirst s hs,
      fun scope hscope s hs => (of_step scope hscope s hs).onePrimary s hs⟩
    · have h := of_step scope hscope s hs
      have := h.numbered.bounds hs
      rcases Int.lt_or_eq_of_le this.2 with below | last
      · exact .inr (h.leadsOn s hs below)
      · exact .inl (Scope.isLast_iff.mpr ⟨by omega, last⟩)
    · have hs := List.mem_of_find?_eq_some found
      exact (of_step scope hscope s hs).noBackFirst s hs (eq_of_beq (List.find?_some found :))
    · by_cases low : s.index ≤ 1
      · exact .inl low
      by_cases high : scope.totalSteps ≤ s.index
      · exact .inr (.inl high)
      · exact .inr (.inr ((of_step scope hscope s hs).backBetween s hs (by omega) (by omega)))
    · cases last : scope.isLast s with
      | false => exact .inl rfl
      | true =>
        exact .inr ((of_step scope hscope s hs).finishLast s hs (Scope.isLast_iff.mp last).2)

end Wireframe.Wizards
