import Wireframe.Issue
import Wireframe.Proofs.Keyed
import Wireframe.Proofs.Walk

/-
  Wireframe.Proofs.Renaming — trees with other ids.

  An id is there to tell nodes apart. Other names that tell the same nodes apart are as good, so
  every id of a tree may be exchanged for another one, and with it the references to it: the control
  of a section and the indicator of a wizard's progress. Only the empty text stays, because it
  stands for no reference. What is untyped, such as the blocks of a node, is not looked into.

  Proved:
  - `walkFrom_renamed`: the walks of a renamed tree are those of the tree, node by node at the same
    pointers.
  - `find?_renamed`, `pointers_renamed`, `parents_renamed`: what is found by an id of the tree is
    found by its other name.
-/

namespace Wireframe

/-! ## Renamings -/

/-- Another name for every id. -/
structure Renaming where
  toFun : String → String
  injective : Function.Injective toFun
  /-- The empty text is no reference, and becomes none. -/
  empty : toFun "" = ""

namespace Renaming

instance : CoeFun Renaming fun _ => String → String := ⟨toFun⟩

variable (r : Renaming)

@[simp] theorem beq (a b : String) : (r a == r b) = (a == b) := Keyed.beq_of_injective r.injective a b

@[simp] theorem bne (a b : String) : (r a != r b) = (a != b) := congrArg (!·) (r.beq a b)

@[simp] theorem bne_empty (a : String) : (r a != "") = (a != "") := by
  have h := r.bne a ""
  rwa [r.empty] at h

@[simp] theorem contains_map (ids : List String) (a : String) :
    (ids.map r).contains (r a) = ids.contains a := by
  rw [Bool.eq_iff_iff, List.contains_iff_mem, List.contains_iff_mem]
  exact List.mem_map_of_injective r.injective

/-- A reference that is not empty stays one. -/
theorem filter_map (id : Option String) :
    (id.map r).filter (· != "") = (id.filter (· != "")).map r := by
  cases id with
  | none => rfl
  | some a =>
    rw [Option.map_some, Option.filter_some, Option.filter_some, bne_empty]
    split
    · rfl
    · rfl

end Renaming

variable (r : Renaming)

/-! ## Nodes -/

def Disclosure.renamed (d : Disclosure) : Disclosure := { d with controlsId := d.controlsId.map r }

def GuidedFlow.renamed (g : GuidedFlow) : GuidedFlow :=
  { g with progressNodeId := g.progressNodeId.map r }

def Behaviors.renamed (b : Behaviors) : Behaviors :=
  { b with disclosure := b.disclosure.map (·.renamed r), guidedFlow := b.guidedFlow.map (·.renamed r) }

def Header.renamed (h : Header) : Header :=
  { h with id := r h.id, behaviors := h.behaviors.map (·.renamed r) }

namespace Node

mutual

/-- The tree with other ids, and the references to them. -/
def renamed : Node → Node
  | stack h c cs => stack (h.renamed r) c (renamedAll cs)
  | grid h c cs => grid (h.renamed r) c (renamedAll cs)
  | box h p c => box (h.renamed r) p (renamedChild c)
  | text h c => text (h.renamed r) c
  | button h c => button (h.renamed r) c
  | field h c => field (h.renamed r) c
  | form h c fs as => form (h.renamed r) c (renamedAll fs) (renamedAll as)
  | table h c => table (h.renamed r) c

def renamedAll : List Node → List Node
  | [] => []
  | n :: rest => renamed n :: renamedAll rest

def renamedChild : Option Node → Option Node
  | none => none
  | some c => some (renamed c)

end

@[simp] theorem renamedAll_eq (ns : List Node) : renamedAll r ns = ns.map (renamed r) := by
  induction ns with
  | nil => rfl
  | cons n rest ih => rw [renamedAll, ih, List.map_cons]

@[simp] theorem header_renamed (n : Node) : (n.renamed r).header = n.header.renamed r := by
  cases n <;> rfl

@[simp] theorem kind_renamed (n : Node) : (n.renamed r).kind = n.kind := by
  cases n <;> rfl

@[simp] theorem id_renamed (n : Node) : (n.renamed r).id = r n.id :=
  congrArg Header.id (n.header_renamed r)

@[simp] theorem visible_renamed (n : Node) : (n.renamed r).visible = n.visible := by
  rw [visible, header_renamed]
  rfl

@[simp] theorem typeName_renamed (n : Node) : (n.renamed r).typeName = n.typeName :=
  congrArg Kind.name (n.kind_renamed r)

@[simp] theorem isContainer_renamed (n : Node) : (n.renamed r).isContainer = n.isContainer :=
  congrArg Kind.isContainer (n.kind_renamed r)

@[simp] theorem isButton_renamed (n : Node) : (n.renamed r).isButton = n.isButton := by
  cases n <;> rfl

@[simp] theorem isField_renamed (n : Node) : (n.renamed r).isField = n.isField := by
  cases n <;> rfl

@[simp] theorem isPrimaryButton_renamed (n : Node) :
    (n.renamed r).isPrimaryButton = n.isPrimaryButton := by
  cases n <;> rfl

@[simp] theorem buttonText_renamed (n : Node) : (n.renamed r).buttonText = n.buttonText := by
  cases n <;> rfl

theorem disclosure?_renamed (n : Node) :
    (n.renamed r).disclosure? = n.disclosure?.map (Disclosure.renamed r) := by
  rw [disclosure?, header_renamed, disclosure?, Header.renamed, Option.bind_map, Option.map_bind]
  rfl

theorem guidedFlow?_renamed (n : Node) :
    (n.renamed r).guidedFlow? = n.guidedFlow?.map (GuidedFlow.renamed r) := by
  rw [guidedFlow?, header_renamed, guidedFlow?, Header.renamed, Option.bind_map, Option.map_bind]
  rfl

@[simp] theorem children_renamed (n : Node) : (n.renamed r).children = n.children.map (renamed r) := by
  cases n with
  | stack | grid => exact renamedAll_eq r _
  | box h p c => cases c <;> rfl
  | form h c fs as => simp only [renamed, renamedAll_eq, children, List.map_append]
  | text | button | field | table => rfl

end Node

/-! ## Places -/

def Slot.renamed (s : Slot) : Slot := { s with node := s.node.renamed r }

/-- The renamed node at the same place. -/
def Located.renamed (l : Located) : Located := ⟨l.node.renamed r, l.pointer⟩

@[simp] theorem Located.node_renamed (l : Located) : (l.renamed r).node = l.node.renamed r := rfl

@[simp] theorem Located.pointer_renamed (l : Located) : (l.renamed r).pointer = l.pointer := rfl

@[simp] theorem Located.under_renamed (l : Located) (s : Slot) :
    (l.renamed r).under (s.renamed r) = (l.under s).renamed r := rfl

theorem listSlots_renamed (name : String) (ns : List Node) :
    listSlots name (ns.map (Node.renamed r)) = (listSlots name ns).map (Slot.renamed r) := by
  rw [listSlots, listSlots, List.zipIdx_map, List.map_map, List.map_map]
  rfl

namespace Node

theorem slots_renamed (n : Node) : (n.renamed r).slots = n.slots.map (Slot.renamed r) := by
  cases n with
  | stack | grid => simp only [renamed, slots, renamedAll_eq, listSlots_renamed]
  | box h p c => cases c <;> rfl
  | form h c fs as =>
    simp only [renamed, slots, renamedAll_eq, listSlots_renamed, List.map_append]
  | text | button | field | table => rfl

theorem walkFrom_renamed (visibleOnly : Bool) (n : Node) (p : String) :
    (n.renamed r).walkFrom visibleOnly p = (n.walkFrom visibleOnly p).map (Located.renamed r) := by
  induction n using byChildren generalizing p with
  | step n ih =>
    rw [walkFrom_eq, walkFrom_eq visibleOnly p n, visible_renamed]
    split
    · rfl
    · rw [List.map_cons, slots_renamed, List.flatMap_map, List.map_flatMap]
      exact congrArg (_ :: ·) (List.flatMap_congr fun s hs => ih s.node (slot_mem_children hs) _)

theorem walk_renamed (root : Node) : (root.renamed r).walk = root.walk.map (Located.renamed r) :=
  walkFrom_renamed r true root rootPointer

theorem visibleNodes_renamed (n : Node) : (n.renamed r).visibleNodes = n.visibleNodes.map (renamed r) := by
  rw [visibleNodes, walk_renamed, visibleNodes, List.map_map, List.map_map]
  rfl

end Node

namespace Located

theorem subtree_renamed (l : Located) : (l.renamed r).subtree = l.subtree.map (renamed r) :=
  l.node.walkFrom_renamed r true l.pointer

theorem shownChildren_renamed (l : Located) :
    (l.renamed r).shownChildren = l.shownChildren.map (renamed r) := by
  simp only [shownChildren, node_renamed, Node.slots_renamed, List.map_map, List.filter_map,
    Function.comp_def, under_renamed, Node.visible_renamed]

end Located

/-! ## What is found by an id -/

namespace Node

theorem find?_renamed (root : Node) (id : String) (visibleOnly : Bool) :
    (root.renamed r).find? (r id) visibleOnly = (root.find? id visibleOnly).map (renamed r) := by
  simp only [find?, walkFrom_renamed, List.find?_map, Function.comp_def, Located.node_renamed,
    id_renamed, Renaming.beq, Option.map_map]

theorem pointers_renamed (root : Node) : (root.renamed r).pointers = Keyed.mapKeys r root.pointers := by
  rw [pointers, walk_renamed, pointers, ← Keyed.ofList_mapKeys r.injective, Keyed.mapKeys,
    List.map_map, List.map_map]
  simp only [Function.comp_def, Located.node_renamed, id_renamed, Located.pointer_renamed]

/-- A node is where it was, by its other name. -/
theorem pointer_renamed (root : Node) (id : String) :
    Keyed.get? (root.renamed r).pointers (r id) = Keyed.get? root.pointers id := by
  rw [pointers_renamed, Keyed.get?_mapKeys r.injective]

theorem parents_renamed (root : Node) :
    (root.renamed r).parents = Keyed.mapKeys r (Keyed.mapValues (renamed r) root.parents) := by
  rw [parents, parents, ← Keyed.ofList_mapValues, ← Keyed.ofList_mapKeys r.injective]
  refine congrArg Keyed.ofList ?_
  simp only [visibleNodes_renamed, List.flatMap_map, children_renamed, List.filter_map, List.map_map,
    Keyed.mapKeys, Keyed.mapValues, List.map_flatMap, Function.comp_def, visible_renamed, id_renamed]

end Node

/-! ## Issues -/

/-- What of an issue is there for others than readers of messages. -/
structure Outline where
  id : String
  severity : Severity
  nodeId : Option (Option String)
  jsonPointer : Option (Option String)

def Issue.outline (i : Issue) : Outline := ⟨i.id, i.severity, i.nodeId, i.jsonPointer⟩

/-- The same about the node by its other name. -/
def Outline.renamed (o : Outline) : Outline := { o with nodeId := o.nodeId.map (Option.map r) }

/-- Some issues are those of a renamed tree when the others are those of the tree. -/
def ToldAlike (is js : List Issue) : Prop :=
  js.map Issue.outline = (is.map Issue.outline).map (Outline.renamed r)

namespace ToldAlike

variable {r}

theorem append {is js is' js' : List Issue} (h : ToldAlike r is js) (h' : ToldAlike r is' js') :
    ToldAlike r (is ++ is') (js ++ js') := by
  rw [ToldAlike, List.map_append, List.map_append, List.map_append, h, h']

/-- Of no two items that correspond more is told than of the other. -/
theorem flatMap {β γ : Type} {as : List β} {g : β → γ} {f : β → List Issue} {f' : γ → List Issue}
    (h : ∀ a ∈ as, ToldAlike r (f a) (f' (g a))) : ToldAlike r (as.flatMap f) ((as.map g).flatMap f') := by
  induction as with
  | nil => rfl
  | cons a rest ih =>
    exact append (h a List.mem_cons_self) (ih fun b hb => h b (List.mem_cons_of_mem a hb))

theorem filterMap {β γ : Type} {as : List β} {g : β → γ} {f : β → Option Issue}
    {f' : γ → Option Issue} (h : ∀ a ∈ as, ToldAlike r (f a).toList (f' (g a)).toList) :
    ToldAlike r (as.filterMap f) ((as.map g).filterMap f') := by
  rw [List.filterMap_eq_flatMap_toList, List.filterMap_eq_flatMap_toList]
  exact flatMap h

theorem map {β γ : Type} {as : List β} {g : β → γ} {f : β → Issue} {f' : γ → Issue}
    (h : ∀ a ∈ as, ToldAlike r [f a] [f' (g a)]) : ToldAlike r (as.map f) ((as.map g).map f') := by
  rw [List.map_eq_flatMap, List.map_eq_flatMap]
  exact flatMap h

theorem isEmpty {is js : List Issue} (h : ToldAlike r is js) : js.isEmpty = is.isEmpty := by
  have same := congrArg List.isEmpty h
  simpa only [List.isEmpty_map] using same

end ToldAlike

end Wireframe
