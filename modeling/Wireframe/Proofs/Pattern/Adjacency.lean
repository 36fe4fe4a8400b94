import Mathlib.Data.List.Forall2
import Wireframe.Proofs.Pattern.Controls
import Wireframe.Proofs.Pattern.Hidden
import Wireframe.Proofs.Text.Words

/-
  Wireframe.Proofs.Pattern.Adjacency — tables whose controls are away from them.

  The rule goes over the parents, and over the slots of each. A position is one in all the slots of
  the parent, so the last field of a form stands next to its first action, and hidden children take
  positions too. The distances are kept by id, and a sibling with the id of a control would replace
  its distance; where ids are unique, there is one for each control.

  A table that is the root is in no slot, so nothing is found about it whatever it has next to it.

  Proved:
  - `isControl_iff`: a control is a button or a field seen from a node down whose text begins a word
    with one of the words for controls.
  - `controlIds_eq`: the ids with distances are those of all controls, in document order.
  - `adjacency_exact`: the tables that are reported, each once, and what is told of them.
-/

namespace Wireframe.Tables

open Node hiding id
open Located

/-! ## Controls -/

/-- A word of the label begins with one of the words for controls, in any case. -/
def NamesControl (label : String) : Prop :=
  ∃ word, Text.IsWordOf word label.toList ∧
    ∃ keyword ∈ ["filter", "search", "sort"], keyword.toList <+: word.map Text.foldLetter

/-- A button or a field that says that it filters, searches or sorts. -/
inductive ControlLeaf : Node → Prop
  | button {h : Header} {b : ButtonContent} : NamesControl b.text → ControlLeaf (.button h b)
  | field {h : Header} {f : FieldContent} : NamesControl f.label → ControlLeaf (.field h f)

/-- The node is such a button or field, or holds one, and all nodes from it down to that are
    visible. -/
def Control (n : Node) : Prop := ∃ m, n.Shows m ∧ ControlLeaf m

theorem isControlLeaf_iff {n : Node} : isControlLeaf n = true ↔ ControlLeaf n := by
  cases n with
  | button h b =>
    exact Text.beginsWord_iff.trans ⟨.button, fun leaf => by cases leaf; assumption⟩
  | field h f =>
    exact Text.beginsWord_iff.trans ⟨.field, fun leaf => by cases leaf; assumption⟩
  | stack | grid | box | text | form | table => exact iff_of_false Bool.false_ne_true nofun

theorem isControl_iff {n : Node} : isControl n = true ↔ Control n := by
  simp only [isControl, List.any_eq_true, mem_visibleNodes, isControlLeaf_iff]
  exact Iff.rfl

instance (n : Node) : Decidable (Control n) := decidable_of_iff _ isControl_iff

/-! ## Siblings -/

section

variable {slots : List Slot} {as bs : List Node} {t : Node}

/-- What passes at all positions but one, in order. -/
theorem filter_zipIdx_split {α : Type} {p : α → Bool} (as bs : List α) (a : α) :
    ((as ++ a :: bs).zipIdx.filter fun (b, i) => i ≠ as.length ∧ p b).map Prod.fst =
      (as ++ bs).filter p := by
  have apart {bs : List α} {k : Nat} (other : ∀ b i, (b, i) ∈ bs.zipIdx k → i ≠ as.length) :
      ((bs.zipIdx k).filter fun (b, i) => i ≠ as.length ∧ p b).map Prod.fst = bs.filter p := by
    have same : ((bs.zipIdx k).filter fun (b, i) => i ≠ as.length ∧ p b) =
        (bs.zipIdx k).filter (p ∘ Prod.fst) :=
      List.filter_congr fun (b, i) hb => by simp [other b i hb]
    rw [same, ← List.filter_map, List.zipIdx_map_fst]
  rw [List.zipIdx_append, List.zipIdx_cons, List.filter_append,
    List.filter_cons_of_neg (by simp), List.map_append, List.filter_append, apart, apart]
  · intro b i hb
    have := List.le_snd_of_mem_zipIdx hb
    omega
  · intro b i hb
    have := List.snd_lt_of_mem_zipIdx hb
    omega

/-- The ids with distances are those of all controls, in document order. -/
theorem controlIds_eq (split : slots.map (·.node) = as ++ t :: bs)
    (nodup : ((as ++ t :: bs).map (·.id)).Nodup) :
    (controlDistances slots as.length).map (·.1) =
      ((as ++ bs).filter fun n => Control n).map (·.id) := by
  have ids : (slots.map (·.node.id)).Nodup := by rwa [← split, List.map_map] at nodup
  obtain ⟨before, rest, rfl, rfl, later⟩ := List.map_eq_append_iff.mp split
  obtain ⟨s, after, rfl, rfl, rfl⟩ := List.map_eq_cons_iff.mp later
  have others := filter_zipIdx_split (p := fun s : Slot => isControl s.node) before after s
  have chosen (s : Slot) : (s.node.visible = true ∧ isControl s.node = true) ↔
      isControl s.node = true := and_iff_right_of_imp (isControl_sees.shown s.node)
  have same : (fun n => decide (Control n)) = isControl :=
    funext fun n => by rw [Bool.eq_iff_iff, decide_eq_true_iff, isControl_iff]
  rw [controlDistances_eq ids, same, ← List.map_append, List.filter_map, List.map_map, List.map_map]
  simp only [chosen, List.length_map]
  have named := congrArg (List.map (·.node.id)) others
  rwa [List.map_map] at named

end

/-- A table in a slot of a node, with controls among its siblings and none of them next to it. The
    table and all that it stands inside of are visible. -/
structure ControlsAway (root : Node) (l p : Located) (before after : List Node) : Prop where
  child : ∃ s ∈ p.node.slots, l = p.under s
  split : p.node.children = before ++ l.node :: after
  kind : l.node.kind = .table
  shown : Shown ⟨root, rootPointer⟩ l
  controls : ∃ c ∈ before ++ after, Control c
  before : ∀ c ∈ before.getLast?, ¬Control c
  after : ∀ c ∈ after.head?, ¬Control c

/-- The issue that tells of a table: it is about the table, and tells the ids of all controls among
    its siblings in document order. -/
structure Told (l p : Located) (before after : List Node) (i : Issue) : Prop where
  id : i.id = "controls-adjacent"
  severity : i.severity = .warn
  message : i.message = "Table \"" ++ l.node.id ++ "\" controls are not adjacent to the table"
  about : i.At l
  details : i.details = some (some
    [("controlIds", .texts (((before ++ after).filter fun n => Control n).map (·.id))),
      ("parentId", .text p.node.id)])

theorem apart_iff {as bs : List Node} {t : Node} : Apart as t bs ↔
    t.kind = .table ∧ t.visible = true ∧ (∃ c ∈ as ++ bs, Control c) ∧
      (∀ c ∈ as.getLast?, ¬Control c) ∧ ∀ c ∈ bs.head?, ¬Control c := by
  have some_control : (as.any isControl = true ∨ bs.any isControl = true) ↔
      ∃ c ∈ as ++ bs, Control c := by
    rw [← Bool.or_eq_true, ← List.any_append, List.any_eq_true]
    simp only [isControl_iff]
  have no_control (c? : Option Node) : c?.any isControl = false ↔ ∀ c ∈ c?, ¬Control c := by
    cases c? with
    | none => simp
    | some c => simp [← isControl_iff]
  rw [← some_control, ← no_control, ← no_control]
  exact ⟨fun h => ⟨h.kind, h.shown, h.controls, h.before, h.after⟩,
    fun ⟨kind, shown, controls, before, after⟩ => ⟨kind, shown, controls, before, after⟩⟩

theorem told_of_adjacencyFinding? {p : Located} {slots : List Slot} {s : Slot} {as bs : List Node}
    {t : Node} (split : slots.map (·.node) = as ++ t :: bs)
    (nodup : ((as ++ t :: bs).map (·.id)).Nodup) {i : Issue}
    (h : adjacencyFinding? p slots s as.length = some i) : Told (p.under s) p as bs i := by
  unfold adjacencyFinding? at h
  obtain ⟨-, told⟩ := Option.ite_none_left_eq_some.mp h
  cases told
  refine ⟨rfl, rfl, rfl, ⟨rfl, rfl⟩, ?_⟩
  rw [← controlIds_eq split nodup]
  rfl

/-! ## One parent -/

variable {root : Node}

/-- The tables in the slots of a node about which something is found. -/
def reported (p : Located) : List Located :=
  (p.node.slots.zipIdx.filter fun si => (adjacencyFinding? p p.node.slots si.1 si.2).isSome).map
    fun si => p.under si.1

section

variable {p : Located} (nodup : (p.node.children.map (·.id)).Nodup)
include nodup

/-- Something is found about a slot when the table in it is apart from controls. -/
theorem found_iff {before after : List Node} {s : Slot}
    (split : p.node.children = before ++ s.node :: after) :
    (adjacencyFinding? p p.node.slots s before.length).isSome = true ↔
      Apart before s.node after := by
  have quiet := adjacencyFinding?_eq_none p rfl (p.node.slots_nodes.trans split) (split ▸ nodup)
  rw [Option.isSome_iff_ne_none, Ne, quiet, not_not]

theorem mem_reported {l : Located} : l ∈ reported p ↔ (∃ s ∈ p.node.slots, l = p.under s) ∧
    ∃ before after, p.node.children = before ++ l.node :: after ∧ Apart before l.node after := by
  constructor
  · intro h
    obtain ⟨⟨s, i⟩, chosen, rfl⟩ := List.mem_map.mp h
    obtain ⟨here, found⟩ := List.mem_filter.mp chosen
    have here : p.node.slots[i]? = some s := List.mk_mem_zipIdx_iff_getElem?.mp here
    obtain ⟨before, after, split, rfl⟩ := p.children_split here
    exact ⟨⟨s, List.mem_of_getElem? here, rfl⟩, before, after, split,
      (found_iff nodup split).mp found⟩
  · intro ⟨⟨s, hs, here⟩, before, after, split, apart⟩
    subst here
    obtain ⟨i, here⟩ := List.mem_iff_getElem?.mp hs
    -- where ids are unique the table is the child at one position only
    have position : before.length = i := by
      have first : p.node.children[before.length]? = some s.node := by
        rw [split, List.getElem?_append_right le_rfl, Nat.sub_self]
        rfl
      have second : p.node.children[i]? = some s.node := by
        rw [← p.node.slots_nodes, List.getElem?_map, here]
        rfl
      have inside : before.length < p.node.children.length := by simp [split]
      exact (List.getElem?_inj inside nodup.of_map).mp (first.trans second.symm)
    refine List.mem_map.mpr ⟨(s, i), List.mem_filter.mpr
      ⟨List.mk_mem_zipIdx_iff_getElem?.mpr here, ?_⟩, rfl⟩
    rw [← position]
    exact (found_iff nodup split).mpr apart

/-- What is found below a node tells of its tables, one by one. -/
theorem forall₂_reported : List.Forall₂
    (fun l i => ∃ before after, ((∃ s ∈ p.node.slots, l = p.under s) ∧
      p.node.children = before ++ l.node :: after ∧ Apart before l.node after) ∧
      Told l p before after i) (reported p)
    (p.node.slots.zipIdx.filterMap fun si => adjacencyFinding? p p.node.slots si.1 si.2) := by
  rw [reported, List.forall₂_map_left_iff]
  refine forall₂_filterMap (fun si _ => ?_) fun (s, i) here issue found => ?_
  · rw [Option.isSome_eq_false_iff, Option.isNone_iff_eq_none]
  · have here : p.node.slots[i]? = some s := List.mk_mem_zipIdx_iff_getElem?.mp here
    obtain ⟨before, after, split, rfl⟩ := p.children_split here
    have apart := (found_iff nodup split).mp (Option.isSome_of_eq_some found)
    exact ⟨before, after, ⟨⟨s, List.mem_of_getElem? here, rfl⟩, split, apart⟩,
      told_of_adjacencyFinding? (p.node.slots_nodes.trans split) (split ▸ nodup) found⟩

theorem reported_sublist : (reported p).Sublist p.shownChildren := by
  have kept : ∀ l ∈ reported p, l.node.visible = true := by
    intro l hl
    obtain ⟨-, before, after, -, apart⟩ := (mem_reported nodup).mp hl
    exact apart.shown
  have all : p.node.slots.zipIdx.map (fun si => p.under si.1) = p.node.slots.map p.under := by
    conv_rhs => rw [← List.zipIdx_map_fst 0 p.node.slots, List.map_map]
    rfl
  have within : (reported p).Sublist (p.node.slots.map p.under) := by
    rw [reported, ← all]
    exact List.filter_sublist.map _
  have shown := within.filter (·.node.visible)
  rwa [List.filter_eq_self.mpr kept] at shown

end

/-! ## All parents -/

/-- What holds something visible is visible. -/
theorem holder_mem_walk {p : Located} (hp : p ∈ root.walkFrom false rootPointer) {s : Slot}
    (hs : s ∈ p.node.slots) (shown : Shown ⟨root, rootPointer⟩ (p.under s)) : p ∈ root.walk := by
  have place := mem_walkFrom_all.mp hp
  have inside : (p.under s).Inside p := .slot hs
  refine mem_walkFrom_shown.mpr ⟨place, shown.2 p inside place, fun m hm above => ?_⟩
  exact shown.2 m (inside.trans hm) above

/-- The controls of a table are away exactly when it is apart from them below a visible node. -/
theorem controlsAway_iff {l p : Located} {before after : List Node} :
    p ∈ root.walkFrom false rootPointer ∧ ControlsAway root l p before after ↔
      p ∈ root.walk ∧ (∃ s ∈ p.node.slots, l = p.under s) ∧
        p.node.children = before ++ l.node :: after ∧ Apart before l.node after := by
  constructor
  · intro ⟨hp, away⟩
    obtain ⟨s, hs, here⟩ := away.child
    exact ⟨holder_mem_walk hp hs (here ▸ away.shown), away.child, away.split,
      apart_iff.mpr ⟨away.kind, away.shown.1, away.controls, away.before, away.after⟩⟩
  · intro ⟨hp, child, split, apart⟩
    obtain ⟨kind, visible, controls, not_before, not_after⟩ := apart_iff.mp apart
    have hl : l ∈ root.walk := by
      obtain ⟨s, hs, here⟩ := child
      subst here
      exact shownChildren_subset hp (mem_shownChildren hs visible)
    exact ⟨mem_walkFrom_all.mpr (mem_walkFrom_shown.mp hp).1, child, split, kind,
      (mem_walkFrom_shown.mp hl).2, controls, not_before, not_after⟩

/-- The tables of a tree about which something is found. -/
def reportedTables (root : Node) : List Located := root.walk.flatMap reported

section

variable (unique : root.UniqueIds)
include unique

theorem childIds_nodup_of_walk {p : Located} (hp : p ∈ root.walk) :
    (p.node.children.map (·.id)).Nodup := unique.children (node_mem_allNodes hp)

theorem mem_reportedTables {l : Located} : l ∈ reportedTables root ↔
    ∃ p ∈ root.walkFrom false rootPointer, ∃ before after, ControlsAway root l p before after := by
  rw [reportedTables, List.mem_flatMap]
  constructor
  · intro ⟨p, hp, hl⟩
    obtain ⟨child, before, after, split, apart⟩ :=
      (mem_reported (childIds_nodup_of_walk unique hp)).mp hl
    have away := controlsAway_iff.mpr ⟨hp, child, split, apart⟩
    exact ⟨p, away.1, before, after, away.2⟩
  · intro ⟨p, hp, before, after, away⟩
    obtain ⟨hp, child, split, apart⟩ := controlsAway_iff.mp ⟨hp, away⟩
    exact ⟨p, hp, (mem_reported (childIds_nodup_of_walk unique hp)).mpr
      ⟨child, before, after, split, apart⟩⟩

theorem reportedTables_subset : reportedTables root ⊆ root.walkFrom false rootPointer := by
  intro l hl
  obtain ⟨p, hp, below⟩ := List.mem_flatMap.mp hl
  have child := (reported_sublist (childIds_nodup_of_walk unique hp)).subset below
  exact mem_walkFrom_all.mpr (mem_walkFrom_shown.mp (shownChildren_subset hp child)).1

/-- No table is reported twice: it is a child of one node, and stands in one of its slots. -/
theorem nodup_reportedTables : (reportedTables root).Nodup := by
  have below {p : Located} (hp : p ∈ root.walk) := reported_sublist (childIds_nodup_of_walk unique hp)
  refine List.nodup_flatMap.mpr ⟨fun p hp => ?_, ?_⟩
  · exact root.walk_nodup.sublist ((below hp).trans (shownChildren_sublist hp))
  · refine root.walk_nodup.imp_of_mem fun {p q} hp hq other l hlp hlq => other ?_
    exact shownParent_unique unique hp hq ((below hp).subset hlp) ((below hq).subset hlq)

/-- The findings tell of the tables, one by one. -/
theorem forall₂_reportedTables : List.Forall₂
    (fun l i => ∃ p ∈ root.walkFrom false rootPointer, ∃ before after,
      ControlsAway root l p before after ∧ Told l p before after i)
    (reportedTables root) (adjacencyFindings root) := by
  rw [reportedTables, adjacencyFindings, List.flatMap_def, List.flatMap_def]
  refine List.rel_flatten ?_
  rw [List.forall₂_map_left_iff, List.forall₂_map_right_iff, List.forall₂_same]
  intro p hp
  refine (forall₂_reported (childIds_nodup_of_walk unique hp)).imp fun l i told => ?_
  obtain ⟨before, after, apart, told⟩ := told
  have away := controlsAway_iff.mpr ⟨hp, apart⟩
  exact ⟨p, away.1, before, after, away.2, told⟩

/-- The root is in no slot. -/
theorem root_not_reported : ⟨root, rootPointer⟩ ∉ reportedTables root := by
  intro top
  obtain ⟨p, hp, before, after, away⟩ := (mem_reportedTables unique).mp top
  obtain ⟨s, hs, here⟩ := away.child
  have child : root ∈ p.node.children := by
    rw [away.split]
    simp
  exact unique.child_ne_root (List.mem_map_of_mem hp) child rfl

/-- The rule reports each table that, with all that it stands inside of, is visible, that has a
    control among its visible siblings and none right before or right after it; each once, and with
    the ids of all these controls. The root is not reported. -/
theorem adjacency_exact : ∃ tables : List Located, tables.Nodup ∧
    (∀ l, l ∈ tables ↔ ∃ p ∈ root.walkFrom false rootPointer, ∃ before after,
      ControlsAway root l p before after) ∧
    List.Forall₂ (fun l i => ∃ p ∈ root.walkFrom false rootPointer, ∃ before after,
      ControlsAway root l p before after ∧ Told l p before after i) tables (adjacencyFindings root) ∧
    (∀ l ∈ root.walkFrom false rootPointer, (∃ i ∈ adjacencyFindings root, i.At l) ↔ l ∈ tables) ∧
    ∀ i ∈ adjacencyFindings root, ¬i.At ⟨root, rootPointer⟩ := by
  have each := forall₂_reportedTables unique
  have at_iff : ∀ l ∈ root.walkFrom false rootPointer,
      (∃ i ∈ adjacencyFindings root, i.At l) ↔ l ∈ reportedTables root := by
    intro l hl
    constructor
    · intro ⟨i, hi, own⟩
      obtain ⟨m, hm, p, -, before, after, away, told⟩ := exists_of_forall₂ each hi
      have place := reportedTables_subset unique hm
      have pointer : m.pointer = l.pointer := by simpa using told.about.2.symm.trans own.2
      have nodup := root.pointers_nodup false rootPointer
      rwa [← List.inj_on_of_nodup_map nodup place hl pointer]
    · intro listed
      obtain ⟨i, hi, p, -, before, after, -, told⟩ := exists_of_forall₂ each.flip listed
      exact ⟨i, hi, told.about⟩
  refine ⟨reportedTables root, nodup_reportedTables unique, fun l => mem_reportedTables unique, each,
    at_iff, fun i hi own => root_not_reported unique ?_⟩
  exact (at_iff _ (mem_walkFrom_self nofun)).mp ⟨i, hi, own⟩

end

def orders : Node := .table (.plain "orders") ⟨some "Orders", ["date", "total"], none, none, none⟩

/-- A form with a table as its last field and a field to search in it as its first one. -/
def ordersForm (actions : List Node) : Node :=
  .form (.plain "page") ⟨none, none⟩
    [.field (.plain "query") ⟨"Re-search all", none, none, none, none⟩,
      .text (.hidden "note") ⟨"Note", none, none, none⟩, orders]
    actions

/-- Two controls are away from the table, one in a box further on; the hidden note takes a
    position. -/
theorem orders_away :
    let root := ordersForm [.plainButton "close" "Close",
      .box (.plain "tray") none (some (.plainButton "newest" "SORTED by date"))]
    root.UniqueIds ∧ ∃ i ∈ adjacencyFindings root, i.At ⟨orders, "/screen/root/fields/2"⟩ := by
  intro root
  have unique : root.UniqueIds := by decide +kernel
  obtain ⟨tables, -, mem, -, at_iff, -⟩ := adjacency_exact unique
  have top : ⟨root, rootPointer⟩ ∈ root.walkFrom false rootPointer := mem_walkFrom_self nofun
  have third : root.walk[2]? = some ⟨orders, "/screen/root/fields/2"⟩ := rfl
  have walked := List.mem_of_getElem? third
  have away : ControlsAway root ⟨orders, "/screen/root/fields/2"⟩ ⟨root, rootPointer⟩
      (root.children.take 2) (root.children.drop 3) :=
    { child := ⟨⟨"fields", some 2, orders⟩, by simp [root, ordersForm, slots, listSlots], rfl⟩
      split := rfl
      kind := rfl
      shown := (mem_walkFrom_shown.mp walked).2
      controls := by decide +kernel
      before := by decide +kernel
      after := by decide +kernel }
  exact ⟨unique, (at_iff _ (mem_walkFrom_all.mpr (mem_walkFrom_shown.mp walked).1)).mpr
    ((mem _).mpr ⟨_, top, _, _, away⟩)⟩

/-- The first action stands right after the last field. -/
example : adjacencyFindings (ordersForm [.plainButton "newest" "Sort by date"]) = [] := rfl

end Wireframe.Tables
