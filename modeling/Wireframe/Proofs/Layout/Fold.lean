import Wireframe.Proofs.Hidden
import Wireframe.Proofs.Layout.Notes
import Wireframe.Proofs.Locations

/-
  Wireframe.Proofs.Layout.Fold — the primary action of a screen, and whether it is in sight.

  By its role the primary action is looked up in the tree, and then its frame by its id. By its id it
  is looked up among the frames, and then its node. Both ways lose an action whose frame or node is
  not there, without a word. None is lost: a layout has one frame for every visible node and in their
  order, and where ids are unique an id leads from the node to this frame and back.

  Proved:
  - `Text.contains_iff`: a text contains what stands in it in one piece.
  - `primaryFrame?_eq`: either way finds the frame beside the first visible node that is taken for
    the primary action.
  - `foldDefects_eq`: the only defect there may be, and when there is one.
  - `Node.place_belowFold`: nothing else is told by this name.
  - `below_fold_told`: what a layout tells of the fold.
-/

namespace Wireframe

/-! ## What is taken for the primary action -/

theorem Text.anyTail_iff {p : List Char → Bool} {cs : List Char} :
    anyTail p cs = true ↔ ∃ before rest, cs = before ++ rest ∧ p rest = true := by
  induction cs with
  | nil =>
    constructor
    · exact fun h => ⟨[], [], rfl, h⟩
    · rintro ⟨before, rest, whole, h⟩
      obtain ⟨rfl, rfl⟩ := List.append_eq_nil_iff.mp whole.symm
      exact h
  | cons c cs ih =>
    rw [anyTail, Bool.or_eq_true, ih]
    constructor
    · rintro (h | ⟨before, rest, rfl, h⟩)
      · exact ⟨[], c :: cs, rfl, h⟩
      · exact ⟨c :: before, rest, rfl, h⟩
    · rintro ⟨before, rest, whole, h⟩
      cases before with
      | nil => exact .inl (whole ▸ h)
      | cons _ before => exact .inr ⟨before, rest, (List.cons.inj whole).2, h⟩

/-- A text contains what stands in it in one piece. -/
theorem Text.contains_iff {part whole : String} :
    contains part whole = true ↔ part.toList <:+: whole.toList := by
  rw [contains, anyTail_iff]
  constructor
  · rintro ⟨before, rest, split, start⟩
    obtain ⟨after, rfl⟩ := List.isPrefixOf_iff_prefix.mp start
    exact ⟨before, after, by rw [split, List.append_assoc]⟩
  · rintro ⟨before, after, split⟩
    refine ⟨before, part.toList ++ after, by rw [← split, List.append_assoc], ?_⟩
    exact List.isPrefixOf_iff_prefix.mpr ⟨after, rfl⟩

/-- Is a node taken for the primary action, if it is the first one? -/
def PrimaryDetection.Takes : PrimaryDetection → Node → Prop
  | .role, n => n.isPrimaryButton = true
  | .id, n => "primary".toList <:+: n.id.toList

instance (d : PrimaryDetection) : DecidablePred d.Takes := fun n =>
  match d with
  | .role => inferInstanceAs (Decidable (n.isPrimaryButton = true))
  | .id => inferInstanceAs (Decidable ("primary".toList <:+: n.id.toList))

/-- The first visible node that is taken for the primary action. -/
def Node.primary? (root : Node) (d : PrimaryDetection) : Option Located :=
  root.walk.find? fun m => d.Takes m.node

/-! ## From nodes to frames and back -/

/-- Among distinct keys an item is found by its own. -/
theorem find?_own_key {β κ : Type} [DecidableEq κ] {key : β → κ} {bs : List β}
    (nodup : (bs.map key).Nodup) {b : β} (hb : b ∈ bs) : bs.find? (key · == key b) = some b := by
  obtain ⟨c, hc⟩ : ∃ c, bs.find? (key · == key b) = some c :=
    Option.isSome_iff_exists.mp (List.find?_isSome.mpr ⟨b, hb, beq_self_eq_true _⟩)
  have same : key c = key b := eq_of_beq (List.find?_some hc :)
  rw [hc, List.inj_on_of_nodup_map nodup (List.mem_of_find?_eq_some hc) hb same]

section

variable {α δ : Type} {root : Node} {frames : List (Frame α δ)} {d : PrimaryDetection} {m : Located}
  {f : Frame α δ} (ids : Frame.ids frames = root.shownIds)
include ids

/-- Every visible node has a frame beside it. -/
theorem Node.walk_beside : List.Forall₂ (fun m f => m.node.id = f.id) root.walk frames := by
  have nodes : root.walk.map (·.node.id) = root.shownIds := by
    rw [shownIds, visibleNodes, List.map_map]
    rfl
  refine List.forall₂_map_left_iff.mp (List.forall₂_map_right_iff.mp ?_)
  exact List.forall₂_eq_eq_eq ▸ nodes.trans ids.symm

theorem Node.id_beside (hf : (m, f) ∈ root.walk.zip frames) : m.node.id = f.id :=
  (List.forall₂_iff_zip.mp (walk_beside ids)).2 hf

theorem Frame.nodup_ids (unique : root.UniqueShown) : (Frame.ids frames).Nodup := by
  rw [ids]
  exact unique

/-- Where ids are unique, the frame beside a node is the only one with its id. -/
theorem Node.frame_unique (unique : root.UniqueShown) (hf : (m, f) ∈ root.walk.zip frames)
    {g : Frame α δ} (hg : g ∈ frames) : g.id = m.node.id ↔ g = f := by
  rw [id_beside ids hf]
  constructor
  · exact List.inj_on_of_nodup_map (Frame.nodup_ids ids unique) hg (List.of_mem_zip hf).2
  · rintro rfl
    rfl

namespace Layout

theorem lastFrame?_beside (unique : root.UniqueShown) (hf : (m, f) ∈ root.walk.zip frames) :
    lastFrame? frames m.node.id = some f := by
  have nodup : (frames.reverse.map (·.id)).Nodup := by
    rw [List.map_reverse, List.nodup_reverse]
    exact Frame.nodup_ids ids unique
  rw [lastFrame?, Node.id_beside ids hf]
  exact find?_own_key nodup (List.mem_reverse.mpr (List.of_mem_zip hf).2)

/-- In either way the frame of the primary action is the one beside the first visible node that is
taken for it. -/
theorem primaryFrame?_eq (unique : root.UniqueShown) : primaryFrame? root frames d =
    ((root.walk.zip frames).find? fun q => d.Takes q.1.node).map (·.2) := by
  have long := (Node.walk_beside ids).length_eq
  have walk : (root.walk.zip frames).map (·.1) = root.walk := List.map_fst_zip (Nat.le_of_eq long)
  have beside : (root.walk.zip frames).map (·.2) = frames :=
    List.map_snd_zip (Nat.le_of_eq long.symm)
  cases d with
  | role =>
    show ((root.walk.map (·.node)).find? (·.isPrimaryButton)).bind _ = _
    rw [← walk, List.map_map, List.find?_map, walk]
    have test : ((fun n : Node => n.isPrimaryButton) ∘ (·.node) ∘ (·.1) : Located × Frame α δ → Bool) =
        fun q => decide (PrimaryDetection.role.Takes q.1.node) :=
      funext fun q => Bool.decide_eq_true.symm
    rw [test]
    cases found : (root.walk.zip frames).find? fun q => PrimaryDetection.role.Takes q.1.node with
    | none => rfl
    | some q => exact lastFrame?_beside ids unique (List.mem_of_find?_eq_some found)
  | id =>
    show frames.find? (fun f => Text.contains "primary" f.id) = _
    conv_lhs => rw [← beside, List.find?_map]
    refine congrArg _ (List.find?_congr fun q hq => ?_)
    show Text.contains "primary" q.2.id = decide ("primary".toList <:+: q.1.node.id.toList)
    rw [Node.id_beside ids hq, Bool.eq_iff_iff, Text.contains_iff, decide_eq_true_iff]

theorem find?_walk : ((root.walk.zip frames).find? fun q => d.Takes q.1.node).map (·.1) =
    root.primary? d := by
  have walk := List.map_fst_zip (Nat.le_of_eq (Node.walk_beside ids).length_eq)
  conv_rhs => rw [Node.primary?, ← walk, List.find?_map]
  rfl

/-- Without a primary action no frame is found, and there is no defect. -/
theorem foldDefects_absent [Quantity α δ] [Scalar δ] (unique : root.UniqueShown)
    (height : Int) (absent : root.primary? d = none) : primaryFrame? root frames d = none ∧
      (foldDefects root frames height d : List (Defect α)) = [] := by
  have found : primaryFrame? root frames d = none := by
    rw [primaryFrame?_eq ids unique, Option.map_eq_none_iff]
    exact Option.map_eq_none_iff.mp ((find?_walk ids).trans absent)
  refine ⟨found, ?_⟩
  rw [foldDefects, found]

/-- The frame of the primary action is found and leads back to a visible node, so there is a defect
when it ends below the height. -/
theorem foldDefects_present [Quantity α δ] [Scalar δ] (unique : root.UniqueShown)
    (height : Int) (present : root.primary? d = some m) : ∃ f, (m, f) ∈ root.walk.zip frames ∧
      primaryFrame? root frames d = some f ∧ (root.visibleNodes.any (·.id == f.id)) = true ∧
      (foldDefects root frames height d : List (Defect α)) =
        if Quantity.le (Quantity.ofCoordinate f.bottom : α) (Quantity.ofInt height) then []
        else [.belowFold m.node.id (Quantity.ofCoordinate f.bottom)] := by
  obtain ⟨⟨m, f⟩, hq, rfl⟩ := Option.map_eq_some_iff.mp ((find?_walk ids).trans present)
  have beside := List.mem_of_find?_eq_some hq
  have found : primaryFrame? root frames d = some f := by
    rw [primaryFrame?_eq ids unique, hq]
    rfl
  have shown : (root.visibleNodes.any (·.id == f.id)) = true := by
    rw [← Node.id_beside ids beside]
    exact List.any_eq_true.mpr
      ⟨m.node, List.mem_map_of_mem (List.of_mem_zip beside).1, beq_self_eq_true _⟩
  refine ⟨f, beside, found, shown, ?_⟩
  simp only [foldDefects, found]
  rw [if_pos shown, Node.id_beside ids beside]

end Layout

end

/-! ## Nothing else is called so -/

/-- What is told in laying out a subtree goes by other names. -/
theorem Node.place_belowFold {α δ : Type} [Quantity α δ] [Scalar δ] {s : Surface α} {n : Node} :
    ∀ {width : α} {placed : Option (Placement α δ)}, (n.place s width).result = .ok placed →
      Defect.named "primary-below-fold"
        (n.place s width : Laying α (Option (Placement α δ))).notes = [] := by
  induction n using byChildren with
  | step n ih =>
    intro width placed h
    cases hv : n.visible with
    | false => rw [place_hidden s width hv]; rfl
    | true =>
      obtain ⟨p, rfl⟩ := exists_placement hv h
      obtain ⟨content, spots, out⟩ := laidOut_of_place h
      rw [out.named_notes (by decide),
        Defect.named_eq_nil fun d hd e => absurd ((spacingDefects_name d hd).symm.trans e) (by decide),
        Defect.named_eq_nil fun d hd e => absurd ((sizeDefects_name d hd).symm.trans e) (by decide),
        List.nil_append, List.nil_append, List.flatMap_eq_nil_iff]
      intro c hc
      obtain ⟨placed, laid⟩ := out.returns hc
      exact ih c hc laid

/-! ## Screens -/

/-- The issue about a primary action that ends below a viewport. -/
def Issue.belowFold (v : Viewport) (m : Located) (bottom : Float) : Issue :=
  { id := "primary-below-fold", severity := .warn
    message := "Primary action " ++ m.node.id ++ " is below the fold at viewport " ++ v.label
    nodeId := some (some m.node.id), jsonPointer := some (some m.pointer)
    viewport := some (some v.label), expected := some (.nat v.height), found := some (.real bottom) }

theorem Issue.belowFold_eq {root : Node} (unique : root.UniqueShown) {m : Located} (hm : m ∈ root.walk)
    (v : Viewport) (bottom : Float) :
    (Defect.belowFold m.node.id (.float bottom) : Defect Number).toIssue v root.pointers =
      Issue.belowFold v m bottom := by
  obtain ⟨k, hk, same, pointer⟩ := Node.pointers_get? hm
  obtain rfl := unique.located_eq hk hm same
  rw [Defect.toIssue, Defect.nodeId, pointer]
  rfl

/-- What a layout of a tree tells of the fold. -/
structure Layout.FoldTold (root : Node) (v : Viewport) (d : PrimaryDetection) (l : Layout)
    (told : Option Issue) : Prop where
  /-- It is told last, and nothing else goes by its name. -/
  last : ∃ others, l.issues = others ++ told.toList ∧ ∀ i ∈ others, i.id ≠ "primary-below-fold"
  /-- Without a primary action no frame is found, and nothing is told. -/
  absent : root.primary? d = none → primaryFrame? root l.frames d = none ∧ told = none
  /-- The primary action has a frame of its own, the only one with its id; this is the frame that is
  found, and it leads back to a visible node. The action is told of when the frame does not end within
  the height of the viewport. -/
  present : ∀ m, root.primary? d = some m → ∃ f, (m, f) ∈ root.walk.zip l.frames ∧
    (∀ g ∈ l.frames, g.id = m.node.id ↔ g = f) ∧ primaryFrame? root l.frames d = some f ∧
    (root.visibleNodes.any (·.id == f.id)) = true ∧
    told = if (Number.float (f.y + f.h)).le (.int v.height) then none
      else some (Issue.belowFold v m (f.y + f.h))

/-- Where the visible nodes have different ids, a layout tells of the fold at most once and last, and
exactly when the first visible node that is taken for the primary action has a frame that does not end
within the viewport. -/
theorem below_fold_told {s : Scaffold} {d : PrimaryDetection} {v : Viewport} {l : Layout} {root : Node}
    (h : (Layout.compute s d v).result = .ok l)
    (hroot : (s.screen.root.resolve (.int v.width)).result = .ok root) (unique : root.UniqueShown) :
    ∃ told, l.FoldTold root v d told := by
  obtain ⟨root', placed, hroot', hp, frames, issues⟩ := Layout.issues_of_compute h
  obtain rfl : root' = root := Except.ok.inj (hroot'.symm.trans hroot)
  have ids : Frame.ids l.frames = root'.shownIds := frames ▸ root'.place_ids _ _ placed hp
  rw [List.map_append] at issues
  have others : ∀ i ∈ (root'.place s.settings.surface (.int v.width) :
      Laying Number (Option (Placement Number Float))).notes.map (Defect.toIssue v root'.pointers),
      i.id ≠ "primary-below-fold" := by
    intro i hi named
    obtain ⟨e, he, rfl⟩ := List.mem_map.mp hi
    exact List.eq_nil_iff_forall_not_mem.mp (Node.place_belowFold hp) e
      (List.mem_filter.mpr ⟨he, beq_iff_eq.mpr named⟩)
  cases primary : root'.primary? d with
  | none =>
    obtain ⟨found, silent⟩ := Layout.foldDefects_absent ids unique v.height primary
    rw [silent] at issues
    exact ⟨none, ⟨_, issues, others⟩, fun _ => ⟨found, rfl⟩,
      fun m present => nomatch primary.symm.trans present⟩
  | some m =>
    obtain ⟨f, beside, found, shown, told⟩ := Layout.foldDefects_present ids unique v.height primary
    have only : ((Layout.foldDefects root' l.frames v.height d : List (Defect Number)).map
        (Defect.toIssue v root'.pointers)) =
        (if (Number.float (f.y + f.h)).le (.int v.height) then none
          else some (Issue.belowFold v m (f.y + f.h))).toList := by
      rw [told, ← Issue.belowFold_eq unique (List.of_mem_zip beside).1]
      show List.map _ (if (Number.float (f.y + f.h)).le (.int v.height) then _ else _) = _
      split <;> rfl
    refine ⟨_, ⟨_, issues.trans (congrArg _ only), others⟩, fun absent => ?_, fun k present => ?_⟩
    · rw [primary] at absent
      cases absent
    · obtain rfl : m = k := Option.some.inj (primary.symm.trans present)
      exact ⟨f, beside, fun g hg => Node.frame_unique ids unique beside hg, found, shown, rfl⟩

/-- A page with a hidden primary button, a text that is called primary, and a primary button below. -/
def Node.lowAction : Node :=
  .plainStack "page" .vertical
    [.button (.hidden "off") ⟨"Off", some .primary⟩,
      .text (.plain "primary-note") ⟨"Note", none, none, none⟩,
      .button (.plain "go") ⟨"Go", some .primary⟩]

theorem Node.lowAction_told : ∃ l root told,
    (Layout.compute (.around lowAction) .role ⟨320, 60, by decide, by decide⟩).result = .ok l ∧
    (lowAction.resolve (.int 320)).result = .ok root ∧ root.UniqueShown ∧
    l.issues.map (fun i => (i.id, i.nodeId)) = [("primary-below-fold", some (some "go"))] ∧
    l.FoldTold root ⟨320, 60, by decide, by decide⟩ .role told := by
  have computed : ((Layout.compute (.around lowAction) .role
      ⟨320, 60, by decide, by decide⟩).result.toOption.bind fun l =>
        (lowAction.resolve (.int 320)).result.toOption.map fun root =>
          (decide (root.visibleNodes.map (·.id)).Nodup, l.issues.map fun i => (i.id, i.nodeId))) =
      some (true, [("primary-below-fold", some (some "go"))]) := by
    decide +kernel
  obtain ⟨l, hl, computed⟩ := Option.bind_eq_some_iff.mp computed
  obtain ⟨root, hroot, computed⟩ := Option.map_eq_some_iff.mp computed
  obtain ⟨unique, issues⟩ := Prod.mk.inj computed
  have hl := Result.toOption_eq_some.mp hl
  have hroot := Result.toOption_eq_some.mp hroot
  have unique : (root.visibleNodes.map (·.id)).Nodup := of_decide_eq_true unique
  obtain ⟨told, exact⟩ := below_fold_told hl hroot unique
  exact ⟨l, root, told, hl, hroot, unique, issues, exact⟩

/-- By its id the text is the primary action, and it is in sight. -/
example : ((Layout.compute (.around .lowAction) .id ⟨320, 60, by decide, by decide⟩).result.map
    fun l => l.issues.length).toOption = some 0 := by decide +kernel

end Wireframe
