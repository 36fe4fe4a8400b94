import Wireframe.Focus.Order
import Wireframe.Pattern.Catalog
import Wireframe.Proofs.Keyed
import Wireframe.Proofs.Node.Writing
import Wireframe.Proofs.Pattern.Wizards
import Wireframe.Proofs.Plain
import Wireframe.Proofs.Trail

/-
  Wireframe.Proofs.Locations — issues tell the node they are about and where it stands.

  A finding comes by its pointer in one of three ways: from the walk that it was found on, from the
  slot of a node of the walk, or from the pointers by id. In the last way the pointer may be that of
  another node with the same id, which is as good.

  Proved:
  - `finding_located`: a pointer that is looked up by the id of a visible node is there.
  - `Topic.pattern_locates`: every rule of the catalog locates what it finds.
  - `issues_resolve`: the pointer of every issue addresses, in the document of the screen, an object
    with the id that the issue tells.
-/

namespace Wireframe

/-! ## Located issues -/

/-- The issue is about this node where it stands. -/
def Issue.At (i : Issue) (l : Located) : Prop :=
  i.nodeId = some (some l.node.id) ∧ i.jsonPointer = some (some l.pointer)

/-- The issue tells a visible node of the tree and where it stands. -/
def Issue.PointsInto (root : Node) (i : Issue) : Prop := ∃ l ∈ root.walk, i.At l

/-- What is found on a tree is about its visible nodes. -/
def Locates (check : Node → List Issue) : Prop := ∀ root, ∀ i ∈ check root, i.PointsInto root

/-- At most one finding for every visible node of some, each about that node. -/
theorem located_of_filterMap {root : Node} {among : List Located} {find? : Located → Option Issue}
    {i : Issue} (hi : i ∈ among.filterMap find?) (visible : among ⊆ root.walk)
    (about : ∀ l, find? l = some i → i.At l) : i.PointsInto root := by
  obtain ⟨l, hl, found⟩ := List.mem_filterMap.mp hi
  exact ⟨l, visible hl, about l found⟩

theorem Pattern.issues_point {p : Pattern} (h : ∀ r ∈ p.rules, Locates r.check) {root : Node}
    {i : Issue} (hi : i ∈ (p.validate root).issues) : i.PointsInto root := by
  obtain ⟨r, hr, hi⟩ := List.mem_flatMap.mp hi
  exact h r hr root i hi

/-! ## Forms -/

namespace Forms

theorem labelFindings_locate : Locates labelFindings := by
  intro root f hf
  refine located_of_filterMap hf (List.Subset.refl _) fun l found => ?_
  split at found
  · split at found
    · cases found; exact ⟨rfl, rfl⟩
    · cases found
  · cases found

theorem actionFindings_locate : Locates actionFindings := by
  intro root f hf
  refine located_of_filterMap hf (List.Subset.refl _) fun l found => ?_
  split at found
  · cases found; exact ⟨rfl, rfl⟩
  · cases found

theorem orderFindings_locate : Locates orderFindings := by
  intro root f hf
  refine located_of_filterMap hf (List.filter_subset_self _) fun l found => ?_
  split at found
  · cases found; exact ⟨rfl, rfl⟩
  · cases found

theorem errorStateFindings_locate : Locates errorStateFindings := by
  intro root f hf
  refine located_of_filterMap hf (List.Subset.refl _) fun l found => ?_
  split at found
  · dsimp only at found
    split at found
    · cases found; exact ⟨rfl, rfl⟩
    · cases found
  · cases found

theorem helpFindings_locate : Locates helpFindings := by
  intro root f hf
  refine located_of_filterMap hf (List.Subset.refl _) fun l found => ?_
  split at found
  · split at found
    · cases found; exact ⟨rfl, rfl⟩
    · cases found
  · cases found

theorem pattern_locates : ∀ r ∈ pattern.rules, Locates r.check := by
  simp only [Pattern.rules, pattern, List.cons_append, List.nil_append, List.forall_mem_cons]
  exact ⟨labelFindings_locate, actionFindings_locate, orderFindings_locate,
    errorStateFindings_locate, helpFindings_locate, fun _ h => absurd h List.not_mem_nil⟩

end Forms

/-! ## Tables -/

namespace Tables

theorem titleFindings_locate : Locates titleFindings := by
  intro root f hf
  refine located_of_filterMap hf (List.Subset.refl _) fun l found => ?_
  split at found
  · split at found
    · cases found; exact ⟨rfl, rfl⟩
    · cases found
  · cases found

theorem strategyFindings_locate : Locates strategyFindings := by
  intro root f hf
  refine located_of_filterMap hf (List.Subset.refl _) fun l found => ?_
  split at found
  · obtain ⟨_, -, rfl⟩ := Option.map_eq_some_iff.mp found
    exact ⟨rfl, rfl⟩
  · cases found

theorem fitFindings_locate (viewport : Option Number) : Locates (fitFindings viewport) := by
  intro root f hf
  refine located_of_filterMap hf (List.Subset.refl _) fun l found => ?_
  split at found
  · unfold fitFinding? at found
    split at found
    · cases found; exact ⟨rfl, rfl⟩
    · obtain ⟨_, -, rfl⟩ := Option.map_eq_some_iff.mp found
      exact ⟨rfl, rfl⟩
  · cases found

/-- A table is found from the slot of its parent; it is visible, and so a node of the walk. -/
theorem adjacencyFindings_locate : Locates adjacencyFindings := by
  intro root f hf
  obtain ⟨parent, hparent, hf⟩ := List.mem_flatMap.mp hf
  obtain ⟨⟨s, i⟩, hs, found⟩ := List.mem_filterMap.mp hf
  unfold adjacencyFinding? at found
  simp only [Option.ite_none_left_eq_some, not_or, Option.some.injEq] at found
  obtain ⟨⟨-, visible, -⟩, rfl⟩ := found
  refine ⟨parent.under s, Node.under_mem_walkFrom hparent (List.fst_mem_of_mem_zipIdx hs)
    fun _ => ?_, rfl, rfl⟩
  simpa using visible

theorem pattern_locates (viewport : Option Number) :
    ∀ r ∈ (pattern viewport).rules, Locates r.check := by
  simp only [Pattern.rules, pattern, List.cons_append, List.nil_append, List.forall_mem_cons]
  exact ⟨titleFindings_locate, strategyFindings_locate, fitFindings_locate viewport,
    adjacencyFindings_locate, fun _ h => absurd h List.not_mem_nil⟩

end Tables

/-! ## Collapsible sections -/

namespace Collapsibles

theorem sections_visible (root : Node) : sections root ⊆ root.walk := List.filter_subset_self _

theorem controlFindings_locate : Locates controlFindings := by
  intro root f hf
  refine located_of_filterMap hf (sections_visible root) fun l found => ?_
  split at found
  · cases found
  · cases found; exact ⟨rfl, rfl⟩

theorem primaryFindings_locate : Locates primaryFindings := by
  intro root f hf
  obtain ⟨l, hl, rfl⟩ := List.mem_map.mp hf
  exact ⟨l, sections_visible root (List.mem_of_mem_filter hl), rfl, rfl⟩

theorem labelFindings_locate : Locates labelFindings := by
  intro root f hf
  refine located_of_filterMap hf (sections_visible root) fun l found => ?_
  simp only [Option.ite_none_left_eq_some, Option.some.injEq] at found
  obtain ⟨-, rfl⟩ := found
  exact ⟨rfl, rfl⟩

theorem distanceFindings_locate : Locates distanceFindings := by
  intro root f hf
  refine located_of_filterMap hf (sections_visible root) fun l found => ?_
  simp only [Option.bind_eq_some_iff, Option.ite_none_left_eq_some, Option.some.injEq] at found
  obtain ⟨_, -, _, -, -, rfl⟩ := found
  exact ⟨rfl, rfl⟩

/-- The sections of a family are sections of the tree. -/
theorem family_visible {root : Node} {g : Option String × List Located} (hg : g ∈ families root) :
    g.2 ⊆ root.walk := by
  intro l hl
  obtain ⟨_, he, rfl⟩ := List.mem_map.mp (Keyed.mem_group hg l hl)
  obtain ⟨m, hm, rfl⟩ := List.mem_map.mp he
  exact sections_visible root hm

theorem affordanceFindings_locate : Locates affordanceFindings := by
  intro root f hf
  obtain ⟨⟨parent, members⟩, hg, found⟩ := List.mem_filterMap.mp hf
  have visible := family_visible hg
  cases members with
  | nil => cases found
  | cons first rest =>
    refine ⟨first, visible List.mem_cons_self, ?_⟩
    simp only [familyFinding?, Option.ite_none_right_eq_some, Option.some.injEq] at found
    obtain ⟨-, rfl⟩ := found
    exact ⟨rfl, rfl⟩

theorem earlyFindings_locate : Locates earlyFindings := by
  intro root f hf
  unfold earlyFindings at hf
  split at hf
  · cases hf
  · obtain ⟨l, found, rfl⟩ := Option.map_eq_some_iff.mp (Option.mem_toList.mp hf)
    have hl := List.mem_of_find?_eq_some found
    exact ⟨l, (List.takeWhile_sublist _).subset hl, rfl, rfl⟩

theorem pattern_locates : ∀ r ∈ pattern.rules, Locates r.check := by
  simp only [Pattern.rules, pattern, List.cons_append, List.nil_append, List.forall_mem_cons]
  exact ⟨controlFindings_locate, primaryFindings_locate, labelFindings_locate,
    distanceFindings_locate, affordanceFindings_locate, earlyFindings_locate,
    fun _ h => absurd h List.not_mem_nil⟩

end Collapsibles

/-! ## Pointers by id -/

/-- Every visible node has its id among the pointers; what stands there is the pointer of a visible
    node with this id. -/
theorem Node.pointers_get? {root : Node} {l : Located} (hl : l ∈ root.walk) :
    ∃ m ∈ root.walk, m.node.id = l.node.id ∧ Keyed.get? root.pointers l.node.id = some m.pointer := by
  obtain ⟨p, hp, he⟩ := Keyed.exists_get?_ofList
    (List.mem_map_of_mem (f := fun l : Located => (l.node.id, l.pointer)) hl)
  obtain ⟨m, hm, same⟩ := List.mem_map.mp he
  obtain ⟨same_id, rfl⟩ := Prod.mk.inj same
  exact ⟨m, hm, same_id, hp⟩

/-! ## Guided flows -/

namespace Wizards

theorem finding_located {root : Node} {l : Located} (hl : l ∈ root.walk) (rule : String)
    (severity : Severity) (message suggestion : String) (details : Object) :
    (finding rule severity root.pointers l message suggestion details).PointsInto root := by
  obtain ⟨m, hm, same, hp⟩ := Node.pointers_get? hl
  exact ⟨m, hm, congrArg (fun id => some (some id)) same.symm, congrArg (Option.map some) hp⟩

theorem stepFindings_locate {rule : String} {severity : Severity} {suggestion : String}
    {problem? : Scope → Step → Option (String × Object)} :
    Locates (stepFindings rule severity suggestion problem?) := by
  intro root f hf
  obtain ⟨scope, hscope, hf⟩ := List.mem_flatMap.mp hf
  obtain ⟨s, hs, found⟩ := List.mem_filterMap.mp hf
  obtain ⟨⟨message, details⟩, -, rfl⟩ := Option.map_eq_some_iff.mp found
  exact finding_located (steps_in_walk hscope hs).1 ..

theorem numberingFindings_locate : Locates numberingFindings := by
  intro root f hf
  obtain ⟨scope, hscope, found⟩ := List.mem_filterMap.mp hf
  unfold numberingFinding? at found
  split at found
  · cases found
  · rename_i first rest hsteps
    simp only [Option.ite_none_left_eq_some, Option.some.injEq] at found
    obtain ⟨-, rfl⟩ := found
    refine finding_located ?_ ..
    cases hw : scope.wizard with
    | none => exact (steps_in_walk hscope (hsteps ▸ List.mem_cons_self)).1
    | some w => exact wizard_in_walk hscope hw

theorem illegalBackFindings_locate : Locates illegalBackFindings := by
  intro root f hf
  obtain ⟨scope, hscope, found⟩ := List.mem_filterMap.mp hf
  obtain ⟨s, first, found⟩ := Option.bind_eq_some_iff.mp found
  simp only [Option.ite_none_right_eq_some, Option.some.injEq] at found
  obtain ⟨-, rfl⟩ := found
  exact finding_located (steps_in_walk hscope (List.mem_of_find?_eq_some first)).1 ..

theorem progressFindings_locate : Locates progressFindings := by
  intro root f hf
  obtain ⟨scope, hscope, found⟩ := List.mem_filterMap.mp hf
  obtain ⟨w, hw, found⟩ := Option.bind_eq_some_iff.mp found
  split at found
  · cases found
  · cases found
    exact finding_located (wizard_in_walk hscope (Option.filter_eq_some_iff.mp hw).1) ..

theorem foldFindings_locate (sight : Option Sight) : Locates (foldFindings sight) := by
  cases sight with
  | none => intro root f hf; cases hf
  | some v => exact stepFindings_locate

theorem pattern_locates (sight : Option Sight) : ∀ r ∈ (pattern sight).rules, Locates r.check := by
  simp only [Pattern.rules, pattern, List.cons_append, List.nil_append, List.forall_mem_cons]
  exact ⟨numberingFindings_locate, stepFindings_locate, illegalBackFindings_locate,
    stepFindings_locate, stepFindings_locate, stepFindings_locate,
    stepFindings_locate, progressFindings_locate, stepFindings_locate,
    stepFindings_locate, foldFindings_locate sight, fun _ h => absurd h List.not_mem_nil⟩

end Wizards

theorem Topic.pattern_locates (around : Surroundings) (t : Topic) :
    ∀ r ∈ (t.pattern around).rules, Locates r.check := by
  cases t with
  | forms => exact Forms.pattern_locates
  | tables => exact Tables.pattern_locates around.width
  | collapsibles => exact Collapsibles.pattern_locates
  | wizards => exact Wizards.pattern_locates around.sight

/-! ## The keyboard -/

namespace FormFlow

theorem issues_point {root : Node} {i : Issue} (hi : i ∈ issues root) : i.PointsInto root := by
  obtain ⟨form, hform, hi⟩ := List.mem_flatMap.mp hi
  have visible : form ∈ root.walk := List.mem_of_mem_filter hform
  rcases List.mem_append.mp hi with hi | hi
  · obtain ⟨_, -, rfl⟩ := Option.map_eq_some_iff.mp (Option.mem_toList.mp hi)
    exact ⟨form, visible, rfl, rfl⟩
  · obtain ⟨field, late, rfl⟩ := Option.map_eq_some_iff.mp (Option.mem_toList.mp hi)
    have below : field ∈ form.subtree :=
      (List.dropWhile_sublist _).subset (List.mem_of_mem_filter (List.mem_of_getLast? late))
    exact ⟨field, Node.mem_walkFrom_trans visible below, rfl, rfl⟩

end FormFlow

namespace Focus

theorem unreachableIssue_points {root : Node} {id : String} (h : id ∈ root.unreachable) :
    (unreachableIssue root.pointers id).PointsInto root := by
  obtain ⟨n, hn, rfl⟩ := List.mem_map.mp (List.mem_of_mem_filter h)
  obtain ⟨l, hl, rfl⟩ := List.mem_map.mp (List.mem_of_mem_filter hn)
  obtain ⟨m, hm, same, hp⟩ := Node.pointers_get? hl
  exact ⟨m, hm, congrArg (fun id => some (some id)) same.symm, congrArg (Option.map some) hp⟩

theorem issues_point {root : Node} {i : Issue} (hi : i ∈ (ofTree root).issues) :
    i.PointsInto root := by
  rcases List.mem_append.mp hi with hi | hi
  · obtain ⟨id, hid, rfl⟩ := List.mem_map.mp hi
    exact unreachableIssue_points hid
  · exact FormFlow.issues_point hi

end Focus

/-! ## Documents -/

/-- The issue tells an id and a pointer, and the pointer addresses an object with this id. -/
def Issue.Resolves (document : Value) (i : Issue) : Prop :=
  ∃ id pointer members, i.nodeId = some (some id) ∧ i.jsonPointer = some (some pointer) ∧
    Pointer.resolve document pointer = .ok (.object members) ∧
    Keyed.get? members "id" = some (.text id)

theorem Issue.PointsInto.resolves {s : Scaffold} (h : s.screen.root.Fits) {i : Issue}
    (hi : i.PointsInto s.screen.root) : i.Resolves (s.write .full) := by
  obtain ⟨l, hl, hid, hp⟩ := hi
  obtain ⟨members, written, id⟩ := l.node.write_id
  exact ⟨l.node.id, l.pointer, members, hid, hp, written ▸ Scaffold.resolve_walk h hl, id⟩

/-- What the keyboard and any patterns of the catalog find on a screen as it is written, every
    issue tells by an id and a pointer, and in the whole document of the scaffold the pointer
    addresses an object with this id. -/
theorem issues_resolve (s : Scaffold) (fits : s.screen.root.Fits) :
    (∃ f, (Focus.compute s none).result = .ok f ∧ ∀ i ∈ f.issues, i.Resolves (s.write .full)) ∧
    ∀ patterns : List Pattern,
      (∀ p ∈ patterns, ∃ (around : Surroundings) (t : Topic), p = t.pattern around) →
      ∀ i ∈ (Verdicts.compute patterns s.screen.root).issues, i.Resolves (s.write .full) := by
  refine ⟨⟨Focus.ofTree s.screen.root, ?_, fun i hi => ?_⟩, fun patterns known i hi => ?_⟩
  · simp [Focus.compute]
  · exact (Focus.issues_point hi).resolves fits
  · obtain ⟨v, hv, hi⟩ := List.mem_flatMap.mp hi
    obtain ⟨p, hp, rfl⟩ := List.mem_map.mp hv
    obtain ⟨around, t, rfl⟩ := known p hp
    exact (Pattern.issues_point (Topic.pattern_locates around t) hi).resolves fits

/-- A button that no key reaches, a hidden one, and a table of the button's id without a title. -/
def twinRoot : Node :=
  .plainStack "page" .vertical
    [.button { Header.plain "twin" with tabIndex := some (-1) } ⟨"Go", none⟩,
      .button (.hidden "off") ⟨"Off", none⟩,
      .table (.plain "twin") ⟨none, ["a"], none, none, none⟩]

theorem twinRoot_issues_resolve : twinRoot.Fits ∧
    (∃ f, (Focus.compute (.around twinRoot) none).result = .ok f ∧
      ∀ i ∈ f.issues, i.Resolves ((Scaffold.around twinRoot).write .full)) ∧
    ∀ i ∈ (Verdicts.compute [Tables.pattern none] twinRoot).issues,
      i.Resolves ((Scaffold.around twinRoot).write .full) := by
  have fits : twinRoot.Fits := by unfold Node.Fits; decide +kernel
  obtain ⟨focus, verdicts⟩ := issues_resolve (.around twinRoot) fits
  refine ⟨fits, focus, verdicts [Tables.pattern none] fun p hp => ?_⟩
  exact ⟨.unknown, .tables, List.mem_singleton.mp hp⟩

example : (Focus.ofTree twinRoot).issues.map (·.jsonPointer) =
    [some (some "/screen/root/children/2")] := by decide +kernel

end Wireframe
