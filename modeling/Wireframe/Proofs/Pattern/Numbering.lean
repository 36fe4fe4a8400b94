import Wireframe.Pattern.Catalog
import Wireframe.Proofs.Pattern.Scopes

/-
  Wireframe.Proofs.Pattern.Numbering — when the steps of a scope are numbered as they should be.

  The rule counts the indices, looks each expected one up among them, and counts again without
  repetitions. The steps are in the order of their indices, so all this comes to one question: are
  the indices the list 1..N? How many steps there should be is what the wizard says, or the first
  step that says something, in document order and not in the order of the indices; only when nobody
  says a positive number it is the largest index. Then steps that name no index are always numbered
  well, as their positions are 1..N.

  To compare, the rule writes the list 1..N out. A tree may say any number, and for a number beyond
  what a list can hold there is no answer about any scope.

  Proved:
  - `numbered_iff`: indices that pass are the list 1..N.
  - `totalOf_eq`: how many steps a scope should have.
  - `checkNumbering_eq`: there is no answer exactly when a scope with steps says too many.
  - `numbering_exact`: one finding for each scope with other indices, in the order of the scopes.
-/

namespace Wireframe.Wizards

open Located

variable {root : Node} {scope : Scope}

/-! ## How many steps there should be -/

/-- The number of steps that a node says there are, when it is positive. -/
def positiveTotal? (l : Located) : Option Int := (statedTotal l).filter (0 < ·)

/-- The places of the steps that a scope has kept, in document order. -/
def Scope.places (scope : Scope) (root : Node) : List Located :=
  root.walk.filter fun l => scope.steps.any (·.place.isAt l)

theorem kept_places_sublist (places : List Located) (k : Nat) :
    (((places.zipIdx k).filterMap kept?).map (·.place)).Sublist places := by
  induction places generalizing k with
  | nil => exact .slnil
  | cons l rest ih =>
    rw [List.zipIdx_cons]
    cases h : kept? (l, k) with
    | none =>
      rw [List.filterMap_cons_none h]
      exact (ih (k + 1)).cons l
    | some s =>
      rw [List.filterMap_cons_some h, List.map_cons, (kept?_eq_some h).1]
      exact (ih (k + 1)).cons_cons l

theorem Scope.of_steps_perm (owner : Option Located) (places : List Located) :
    (Scope.of owner places).steps.Perm
      ((keptSteps places).map (·.within (Scope.of owner places).totalSteps)) :=
  List.mergeSort_perm _ _

theorem Scope.of_indices_perm (owner : Option Located) (places : List Located) :
    (Scope.of owner places).indices.Perm ((keptSteps places).map (·.index)) := by
  refine ((Scope.of_steps_perm owner places).map (·.index)).trans (.of_eq ?_)
  rw [List.map_map]
  exact List.map_congr_left fun s _ => s.within_index _

/-- The kept steps of an owner are those of its scope. -/
theorem Scope.places_of (root : Node) (owner : Option Located) :
    (Scope.of owner (members root owner)).places root =
      (keptSteps (members root owner)).map (·.place) := by
  have nodup := Node.pointers_nodup true rootPointer root
  have within : ((keptSteps (members root owner)).map (·.place)).Sublist root.walk :=
    (kept_places_sublist (members root owner) 1).trans (members_sublist root owner)
  have own : (Scope.of owner (members root owner)).steps.map (·.place) |>.Perm
      ((keptSteps (members root owner)).map (·.place)) := by
    refine ((Scope.of_steps_perm owner _).map (·.place)).trans (.of_eq ?_)
    rw [List.map_map]
    exact List.map_congr_left fun s _ => s.within_place _
  refine filter_eq_of_sublist within (List.Nodup.of_map _ nodup) fun l hl => ?_
  rw [← own.mem_iff, List.any_eq_true, List.mem_map]
  refine exists_congr fun s => and_congr_right fun hs => ?_
  have hs : s.place ∈ root.walk :=
    within.subset (own.mem_iff.mp (List.mem_map_of_mem hs))
  rw [isAt_iff]
  exact ⟨fun same => List.inj_on_of_nodup_map nodup hs hl same, congrArg _⟩

/-- The first positive number that the kept steps say is found by what their nodes say. -/
theorem find?_stated (places : List Located) :
    (places.map fun l => (statedTotal l).getD 0).find? (0 < ·) =
      places.findSome? positiveTotal? := by
  induction places with
  | nil => rfl
  | cons l rest ih =>
    rw [List.map_cons, List.find?_cons, List.findSome?_cons, positiveTotal?]
    cases h : statedTotal l with
    | none => simpa using ih
    | some n =>
      by_cases positive : 0 < n
      · simp [Option.filter, positive]
      · simpa [Option.filter, positive] using ih

theorem kept?_total {l : Located} {position : Nat} {s : Step} (h : kept? (l, position) = some s) :
    s.total = (statedTotal s.place).getD 0 := by
  simp only [kept?, Option.ite_none_left_eq_some, Option.some.injEq] at h
  obtain ⟨-, rfl⟩ := h
  rfl

theorem mem_keptSteps {places : List Located} {s : Step} (h : s ∈ keptSteps places) :
    1 ≤ s.index ∧ s.total = (statedTotal s.place).getD 0 := by
  obtain ⟨⟨l, position⟩, -, kept⟩ := List.mem_filterMap.mp h
  exact ⟨(kept?_eq_some kept).2.2, kept?_total kept⟩

theorem foldl_max_eq {indices : List Int} (nonneg : ∀ i ∈ indices, 0 ≤ i) :
    indices.foldl max 0 = indices.max?.getD 0 := by
  cases indices with
  | nil => rfl
  | cons i rest =>
    have := nonneg i List.mem_cons_self
    rw [List.max?_cons', List.foldl_cons, Int.max_eq_right this]
    rfl

theorem totalOf_eq (owner : Option Located) (places : List Located) :
    totalOf owner (keptSteps places) =
      ((owner.toList ++ (keptSteps places).map (·.place)).findSome? positiveTotal?).getD
        (((keptSteps places).map (·.index)).max?.getD 0) := by
  have totals : (keptSteps places).map (·.total) =
      ((keptSteps places).map (·.place)).map fun l => (statedTotal l).getD 0 := by
    rw [List.map_map]
    exact List.map_congr_left fun s hs => (mem_keptSteps hs).2
  have wizard : (owner.bind statedTotal).toList.find? (0 < ·) =
      owner.toList.findSome? positiveTotal? := by
    cases owner with
    | none => rfl
    | some w =>
      rw [Option.bind_some, Option.toList_some, List.findSome?_singleton, positiveTotal?]
      cases statedTotal w with
      | none => rfl
      | some n => simp [Option.filter]
  have nonneg : ∀ i ∈ (keptSteps places).map (·.index), 0 ≤ i := by
    intro i hi
    obtain ⟨s, hs, rfl⟩ := List.mem_map.mp hi
    have := (mem_keptSteps hs).1
    omega
  rw [totalOf, List.find?_append, totals, find?_stated, wizard, ← List.findSome?_append, foldl_max_eq nonneg]
  cases List.findSome? positiveTotal? _ with
  | none => rfl
  | some n => rfl

/-! ## The list 1..N -/

theorem expectedIndices_sorted (scope : Scope) : (expectedIndices scope).Pairwise (· < ·) := by
  refine List.pairwise_map.mpr (List.pairwise_lt_range.imp fun h => ?_)
  omega

/-- The indices of a scope come in order, so they are numbered through exactly when they are the
    list 1..N. -/
theorem numbered_iff (unique : root.UniqueShown) (hscope : scope ∈ scopes root) :
    scope.Numbered ↔ scope.indices = expectedIndices scope := by
  constructor
  · intro numbered
    have perm : scope.indices.Perm (expectedIndices scope) :=
      (List.perm_ext_iff_of_nodup numbered.nodup (nodup_expectedIndices scope)).mpr fun i =>
        (numbered.mem_iff i).trans mem_expectedIndices.symm
    have sorted : scope.indices.Pairwise (· ≤ ·) :=
      List.pairwise_map.mpr (((scopes_partitioned unique).ordered scope hscope).imp fun h => by
        omega)
    refine perm.eq_of_pairwise (fun a b _ _ => Int.le_antisymm) sorted ?_
    exact (expectedIndices_sorted scope).imp Int.le_of_lt
  · intro same
    exact ⟨same ▸ nodup_expectedIndices scope, fun i => same ▸ mem_expectedIndices⟩

theorem max?_of_perm {indices indices' : List Int} (h : indices.Perm indices') :
    indices.max? = indices'.max? := by
  refine Option.ext fun n => ?_
  rw [List.max?_eq_some_iff, List.max?_eq_some_iff]
  simp only [h.mem_iff]

/-- How many steps a scope should have: what its wizard says, else what the first of its kept steps
    in document order says that says a positive number, else the largest index. -/
theorem totalSteps_eq (unique : root.UniqueShown) (hscope : scope ∈ scopes root) :
    scope.totalSteps =
      ((scope.wizard.toList ++ scope.places root).findSome? positiveTotal?).getD
        (scope.indices.max?.getD 0) := by
  rw [scopes_eq_map unique] at hscope
  obtain ⟨owner, -, rfl⟩ := List.mem_map.mp hscope
  rw [Scope.places_of, max?_of_perm (Scope.of_indices_perm owner (members root owner))]
  exact totalOf_eq owner (members root owner)

/-- Steps that name no index have their positions for indices. -/
theorem positions_indices {places : List Located}
    (unnamed : ∀ l ∈ places, l.node.guidedFlow?.bind (·.stepIndex) = none) :
    (keptSteps places).map (·.index) = (List.range places.length).map fun (i : Nat) => (i : Int) + 1 := by
  have positions : ∀ k, 1 ≤ k → ((places.zipIdx k).filterMap kept?).map (·.index) =
      (List.range' k places.length).map fun (i : Nat) => (i : Int) := by
    induction places with
    | nil => exact fun _ _ => rfl
    | cons l rest ih =>
      intro k positive
      have own : indexOr k l = k := by rw [indexOr, unnamed l List.mem_cons_self]; rfl
      have kept : kept? (l, k) = some ⟨l, k, (statedTotal l).getD 0, actionsOf l⟩ := by
        rw [kept?, own, if_neg (by omega)]
      rw [List.zipIdx_cons, List.filterMap_cons_some kept, List.map_cons,
        ih (fun m hm => unnamed m (List.mem_cons_of_mem l hm)) (k + 1) (by omega)]
      rfl
  rw [keptSteps_eq, positions 1 (Nat.le_refl 1), List.range'_eq_map_range, List.map_map]
  exact List.map_congr_left fun i _ => by simp [Int.add_comm]

theorem max?_positions (n : Nat) :
    ((List.range n).map fun (i : Nat) => (i : Int) + 1).max?.getD 0 = n := by
  cases n with
  | zero => rfl
  | succ n =>
    have largest : ((List.range (n + 1)).map fun (i : Nat) => (i : Int) + 1).max? =
        some ((n : Int) + 1) := by
      rw [List.max?_eq_some_iff]
      simp only [List.mem_map, List.mem_range]
      refine ⟨⟨n, by omega, rfl⟩, ?_⟩
      rintro _ ⟨i, hi, rfl⟩
      omega
    rw [largest]
    rfl

/-- Where no step names an index and nobody says how many steps there are, the indices are 1..N. -/
theorem positions_numbered (unique : root.UniqueShown) (hscope : scope ∈ scopes root)
    (unnamed : ∀ l ∈ members root scope.wizard, l.node.guidedFlow?.bind (·.stepIndex) = none)
    (unsaid : ∀ l ∈ scope.wizard.toList ++ members root scope.wizard, positiveTotal? l = none) :
    scope.indices = expectedIndices scope := by
  refine (numbered_iff unique hscope).mp ?_
  have total := totalSteps_eq unique hscope
  rw [scopes_eq_map unique] at hscope
  obtain ⟨owner, -, rfl⟩ := List.mem_map.mp hscope
  have perm : (Scope.of owner (members root owner)).indices.Perm
      ((List.range (members root owner).length).map fun (i : Nat) => (i : Int) + 1) :=
    positions_indices unnamed ▸ Scope.of_indices_perm owner (members root owner)
  have nobody : ((Scope.of owner (members root owner)).wizard.toList ++
      (Scope.of owner (members root owner)).places root).findSome? positiveTotal? = none := by
    refine List.findSome?_eq_none_iff.mpr fun l hl => unsaid l ?_
    rw [Scope.places_of] at hl
    exact ((kept_places_sublist (members root owner) 1).append_left _).subset hl
  rw [nobody, Option.getD_none, max?_of_perm perm, max?_positions] at total
  have expected : (List.range (members root owner).length).map (fun (i : Nat) => (i : Int) + 1) =
      expectedIndices (Scope.of owner (members root owner)) := by
    rw [expectedIndices, total, Int.toNat_natCast]
  rw [expected] at perm
  exact ⟨perm.nodup_iff.mpr (nodup_expectedIndices _), fun i =>
    perm.mem_iff.trans mem_expectedIndices⟩

/-! ## Whether there is an answer -/

/-- Has the scope steps, and should it have more of them than there is room for, or than a list can
    hold? -/
def Scope.isCrowded (room : Int) (scope : Scope) : Bool :=
  !scope.steps.isEmpty &&
    (decide (lengthBound ≤ scope.totalSteps) || decide (room < max 0 scope.totalSteps))

/-- How the list of the indices that there should be fails. -/
def Scope.crowding (scope : Scope) : CalculationFault :=
  if lengthBound ≤ scope.totalSteps then .tooLarge else .noRoom

theorem forM_refused {α ε : Type} {f : α → Except ε Unit} {refuses : α → Bool} {error : α → ε}
    (step : ∀ a, f a = if refuses a then .error (error a) else .ok ()) (items : List α) :
    items.forM f = (items.find? refuses).elim (.ok ()) fun a => .error (error a) := by
  induction items with
  | nil => rfl
  | cons a rest ih =>
    show f a >>= (fun _ => rest.forM f) = _
    rw [step, List.find?_cons]
    cases refuses a with
    | true => rfl
    | false => exact ih

/-- There is no answer when some scope is crowded, and what is told is about the first one. -/
theorem checkNumbering_eq (room : Int) (root : Node) : checkNumbering room root =
    ((scopes root).find? (·.isCrowded room)).elim (.ok ()) fun scope => .error scope.crowding := by
  have step : ∀ scope : Scope,
      (if scope.steps.isEmpty then .ok () else checkRoom room (max 0 scope.totalSteps)) =
        if scope.isCrowded room then .error scope.crowding else (.ok () : Calculation Unit) := by
    intro scope
    unfold Scope.isCrowded Scope.crowding checkRoom
    have long : (max 0 scope.totalSteps < -lengthBound ∨ lengthBound ≤ max 0 scope.totalSteps) ↔
        lengthBound ≤ scope.totalSteps := by
      unfold lengthBound; omega
    simp only [long]
    cases scope.steps.isEmpty with
    | true => rfl
    | false =>
      by_cases beyond : lengthBound ≤ scope.totalSteps
      · simp [beyond]
      · simp [beyond]
  exact forM_refused step (scopes root)

/-! ## Findings -/

/-- The issue that tells that a scope is not numbered through: about its wizard, or about its first
    step when it is the screen's. -/
structure Scope.Misnumbered (scope : Scope) (issue : Issue) : Prop where
  id : issue.id = "wizard-steps-missing"
  severity : issue.severity = .error
  node : issue.nodeId =
    (scope.wizard.or (scope.steps.head?.map (·.place))).map fun l => some l.node.id

theorem numberingFinding?_eq (pointers : List (String × String)) (scope : Scope)
    (numbered : scope.Numbered ↔ scope.indices = expectedIndices scope) :
    (numberingFinding? pointers scope = none ↔
      scope.steps = [] ∨ scope.indices = expectedIndices scope) ∧
    ∀ issue, numberingFinding? pointers scope = some issue → scope.Misnumbered issue := by
  unfold numberingFinding?
  cases hs : scope.steps with
  | nil => simp
  | cons first rest =>
    simp only [ite_eq_left_iff, reduceCtorEq, imp_false, not_not, isComplete_iff, numbered,
      false_or, Option.ite_none_left_eq_some, Option.some.injEq, true_and]
    rintro issue ⟨-, rfl⟩
    refine ⟨rfl, rfl, ?_⟩
    rw [hs]
    cases scope.wizard with
    | none => rfl
    | some w => rfl

/-- Has the scope a step, and are its indices not 1..N? -/
def Scope.isMisnumbered (scope : Scope) : Bool :=
  !scope.steps.isEmpty && scope.indices != expectedIndices scope

/-- What the rule on the numbering of steps comes to on a tree. -/
structure NumberingExact (root : Node) : Prop where
  /-- There is an answer, unless a scope with steps should have more of them than a list can hold,
      or than there is room for. -/
  answered : ∀ room, checkNumbering room root =
    ((scopes root).find? (·.isCrowded room)).elim (.ok ()) fun scope => .error scope.crowding
  /-- One finding for every scope with a step whose indices are not the list 1..N, in the order of
      the scopes, and no other. -/
  findings : List.Forall₂ Scope.Misnumbered ((scopes root).filter Scope.isMisnumbered)
    (numberingFindings root)
  /-- What N is: what the wizard says, else what the first of the kept steps says in document order,
      else the largest index. Only positive numbers count. -/
  total : ∀ scope ∈ scopes root, scope.totalSteps =
    ((scope.wizard.toList ++ scope.places root).findSome? positiveTotal?).getD
      (scope.indices.max?.getD 0)
  /-- Where no step names an index and nobody says a positive number of steps, the indices are
      1..N. -/
  positions : ∀ scope ∈ scopes root,
    (∀ l ∈ members root scope.wizard, l.node.guidedFlow?.bind (·.stepIndex) = none) →
    (∀ l ∈ scope.wizard.toList ++ members root scope.wizard, positiveTotal? l = none) →
    scope.indices = expectedIndices scope

theorem numbering_exact (unique : root.UniqueShown) : NumberingExact root where
  answered := fun room => checkNumbering_eq room root
  findings := by
    have finding := fun (scope : Scope) (h : scope ∈ scopes root) =>
      numberingFinding?_eq root.pointers scope (numbered_iff unique h)
    refine forall₂_filterMap (fun scope h => ?_) fun scope h => (finding scope h).2
    rw [(finding scope h).1, Scope.isMisnumbered, Bool.and_eq_false_iff, Bool.not_eq_false',
      List.isEmpty_iff, bne_eq_false_iff_eq]
  total := fun _ => totalSteps_eq unique
  positions := fun _ => positions_numbered unique

/-- A wizard with two steps of three, of which the later one says how many there are, and two steps
    outside of it that say nothing. -/
def gappedRoot : Node :=
  .plainStack "page" .vertical
    [.inFlow "order" .wizard none (some 0)
        [.inFlow "address" .step none (some (-4)) [], .inFlow "payment" .step (some 3) (some 3) []],
      .inFlow "survey" .step none none [], .inFlow "thanks" .step none none []]

theorem gappedRoot_exact : gappedRoot.UniqueIds ∧ NumberingExact gappedRoot := by
  have unique : gappedRoot.UniqueIds := by decide +kernel
  exact ⟨unique, numbering_exact unique.shown⟩

example : (numberingFindings gappedRoot).map (·.nodeId) = [some (some "order")] := by cbv

/-- A step that says that it is the first of more than a list can hold. -/
def endlessDocument : Value :=
  .object [("type", .text "Stack"), ("id", .text "details"), ("direction", .text "vertical"),
    ("behaviors", .object [("guidedFlow", .object [("role", .text "step"), ("stepIndex", .int 1),
      ("totalSteps", .int lengthBound)])]),
    ("children", .list
      [.object [("type", .text "Text"), ("id", .text "title"), ("text", .text "Your details")],
        .object [("type", .text "Stack"), ("id", .text "row"), ("direction", .text "horizontal"),
          ("children", .list [.object [("type", .text "Button"), ("id", .text "next"),
            ("text", .text "Next"), ("roleHint", .text "primary")]])]])]

/-- Its only scope has a step, and its indices are not 1..N, but there is no finding: no answer. -/
theorem endlessDocument_unanswered : ∃ root scope, Node.read endlessDocument = .ok root ∧
    root.UniqueIds ∧ scopes root = [scope] ∧ scope.steps ≠ [] ∧
    scope.indices ≠ expectedIndices scope ∧
    ∀ room, Topic.judge room .unknown [.wizards] root = .error .tooLarge := by
  have told : ((Node.read endlessDocument).map fun root =>
      (decide root.UniqueIds, (wizardsOf root).isEmpty,
        (keptSteps (stepsOf root none)).map (·.index),
        totalOf none (keptSteps (stepsOf root none)))).toOption =
      some (true, true, [1], lengthBound) := by decide +kernel
  obtain ⟨root, read, told⟩ := Result.map_toOption_eq_some.mp told
  simp only [Prod.mk.injEq, decide_eq_true_eq, List.isEmpty_iff] at told
  obtain ⟨unique, no_wizard, kept, total⟩ := told
  have indices := Scope.of_indices_perm none (stepsOf root none)
  have only := scopes_eq root
  rw [kept, List.perm_singleton] at indices
  rw [no_wizard, List.isEmpty_nil, Bool.true_or, if_pos rfl] at only
  replace total : (Scope.of none (stepsOf root none)).totalSteps = lengthBound := total
  replace only : scopes root = [Scope.of none (stepsOf root none)] := only
  generalize Scope.of none (stepsOf root none) = scope at indices only total
  have some_step : scope.steps ≠ [] := by
    rintro none
    rw [Scope.indices, none] at indices
    cases indices
  have other : scope.indices ≠ expectedIndices scope := by
    intro same
    have second : (2 : Int) ∈ expectedIndices scope :=
      mem_expectedIndices.mpr ⟨by decide, by rw [total]; decide⟩
    rw [← same, indices] at second
    exact absurd second (by decide)
  have refused : ∀ room, checkNumbering room root = .error .tooLarge := by
    intro room
    have crowded : scope.isCrowded room = true := by
      rw [Scope.isCrowded, total, Bool.and_eq_true, Bool.not_eq_true', List.isEmpty_eq_false_iff]
      exact ⟨some_step, Bool.or_eq_true_iff.mpr (.inl (by decide))⟩
    rw [checkNumbering_eq, only, List.find?_cons_of_pos crowded, Option.elim_some, Scope.crowding,
      total]
    rfl
  refine ⟨root, scope, read, unique, only, some_step, other, fun room => ?_⟩
  show (Except.bind (Except.bind (checkNumbering room root) _) _) = _
  rw [refused]
  rfl

end Wireframe.Wizards
