import Wireframe.Proofs.Record.Writing
import Wireframe.Proofs.Node.Reading

/-
  Wireframe.Proofs.Node.HeaderRoundTrip — the header of a node is read again as it was written.

  The records of a header keep the keys that were written for them. Written with these they are read
  the same; written with all fields, with the same values and all keys.

  Proved:
  - `bounds_again`, `disclosure_again` and the like: every record of a header, and of a table.
  - `overrides_again`: override blocks, which hold anything, are read as they are.
  - `header_again`: a header among the other fields of a node.
-/

namespace Wireframe

open Reading

namespace Shape

variable {α : Type}

/-- The word of a value is looked up as this value. -/
theorem lookUp_wordOf [BEq α] [LawfulBEq α] {words : List (String × α)} {a : α}
    (distinct : (words.map (·.1)).Nodup) (known : a ∈ words.map (·.2))
    (cause : List String → Cause) : lookUp words cause (.text (wordOf words a)) = .ok a := by
  have found : (words.find? (·.2 == a)).isSome := by
    obtain ⟨e, he, rfl⟩ := List.mem_map.mp known
    exact List.find?_isSome.mpr ⟨e, he, BEq.rfl⟩
  obtain ⟨⟨s, b⟩, hs⟩ := Option.isSome_iff_exists.mp found
  obtain rfl : b = a := eq_of_beq (List.find?_some hs :)
  have back : (words.find? (·.1 == s)).isSome :=
    List.find?_isSome.mpr ⟨(s, b), List.mem_of_find?_eq_some hs, BEq.rfl⟩
  obtain ⟨e, he⟩ := Option.isSome_iff_exists.mp back
  have same : e = (s, b) := List.inj_on_of_nodup_map distinct (List.mem_of_find?_eq_some he)
    (List.mem_of_find?_eq_some hs) (eq_of_beq (List.find?_some he :))
  have word : wordOf words b = s := by rw [wordOf, hs]; rfl
  simp only [lookUp, word, he, same]

theorem integerFrom_again {bound n : Int} {v : Value} (h : integerFrom bound v = .ok n) :
    integerFrom bound (.int n) = .ok n := by
  obtain ⟨m, -, hm⟩ := Result.bind_eq_ok.mp h
  split at hm
  · cases hm
    exact if_pos ‹_›
  · cases hm

end Shape

/-! ## Records of headers -/

def Bounds.keys : List Key := [Keys.width, Keys.height]

def Bounds.noting (f : Noting) (b : Bounds) : Bounds :=
  { b with given := f (keys.map (·.camel)) b.given }

def Disclosure.keys : List Key :=
  [Keys.collapsible, Keys.defaultState, Keys.controlsId, Keys.ariaSummaryText]

def Disclosure.noting (f : Noting) (d : Disclosure) : Disclosure :=
  { d with given := f (keys.map (·.camel)) d.given }

def GuidedFlow.keys : List Key :=
  [Keys.role, Keys.stepIndex, Keys.totalSteps, Keys.nextId, Keys.prevId, Keys.hasProgress,
    Keys.progressNodeId]

def GuidedFlow.noting (f : Noting) (g : GuidedFlow) : GuidedFlow :=
  { g with given := f (keys.map (·.camel)) g.given }

def Behaviors.keys : List Key := [Keys.disclosure, Keys.guidedFlow]

def Behaviors.noting (f : Noting) (b : Behaviors) : Behaviors :=
  { disclosure := b.disclosure.map (·.noting f), guidedFlow := b.guidedFlow.map (·.noting f)
    given := f (keys.map (·.camel)) b.given }

def Narrowing.keys : List Key := [Keys.strategy, Keys.minColumnWidth]

def Narrowing.noting (f : Noting) (n : Narrowing) : Narrowing :=
  { n with given := f (keys.map (·.camel)) n.given }

namespace Reading

theorem bounds_notes : bounds.Notes Bounds.keys := (Notes.nullable.map.seq Notes.nullable).noted

theorem disclosure_notes : disclosure.Notes Disclosure.keys :=
  (((Notes.optional.map.seq Notes.nullable).seq Notes.nullable).seq Notes.nullable).noted

theorem guidedFlow_notes : guidedFlow.Notes GuidedFlow.keys :=
  ((((((Notes.required.map.seq Notes.nullable).seq Notes.nullable).seq Notes.nullable).seq
    Notes.nullable).seq Notes.nullable).seq Notes.nullable).noted

theorem behaviors_notes : behaviors.Notes Behaviors.keys :=
  (Notes.nullable.map.seq Notes.nullable).noted

theorem narrowing_notes : narrowing.Notes Narrowing.keys :=
  (Notes.nullable.map.seq Notes.nullable).noted

variable (w : Writing) {v : Value}

theorem bounds_again {b : Bounds} (h : Shape.record "Size" bounds v = .ok b) :
    Shape.record "Size" bounds (Node.boundsValue w b) = .ok (b.noting w.noting) := by
  obtain ⟨o, rfl, reads⟩ := record_eq_ok h
  obtain ⟨f₀, h₀, rfl⟩ := (reads_noted_iff bounds_notes).mp reads
  obtain ⟨f₁, height, h₁, hheight, rfl⟩ := reads_seq.mp h₀
  obtain ⟨width, hwidth, rfl⟩ := reads_map.mp h₁
  have all : Rewritten Bounds.keys [("w", .orNull .real width), ("h", .orNull .real height)] :=
    ⟨by decide, rfl⟩
  have hwidth := all.nullable (w := w) (by decide) hwidth rfl nofun fun _ _ => rfl
  have hheight := all.nullable (w := w) (by decide) hheight rfl nofun fun _ _ => rfl
  refine Reads.record "Size" ((reads_noted_iff bounds_notes).mpr ⟨_, hwidth.map.seq hheight, ?_⟩)
  rw [all.noted (List.Subset.refl _)]
  rfl

theorem folding_again (s : Folding) :
    Shape.word Folding.words (.text (wordOf Folding.words s)) = .ok s :=
  Shape.lookUp_wordOf (by decide) (by cases s <;> decide) _

theorem flowRole_again (r : FlowRole) :
    Shape.choice FlowRole.words (.text (wordOf FlowRole.words r)) = .ok r :=
  Shape.lookUp_wordOf (by decide) (by cases r <;> decide) _

theorem disclosure_again {d : Disclosure}
    (h : Shape.record "DisclosureBehavior" disclosure v = .ok d) :
    Shape.record "DisclosureBehavior" disclosure (Node.disclosureValue w d) =
      .ok (d.noting w.noting) := by
  obtain ⟨o, rfl, reads⟩ := record_eq_ok h
  obtain ⟨f₀, h₀, rfl⟩ := (reads_noted_iff disclosure_notes).mp reads
  obtain ⟨f₁, summary, h₁, hsummary, rfl⟩ := reads_seq.mp h₀
  obtain ⟨f₂, controlsId, h₂, hcontrolsId, rfl⟩ := reads_seq.mp h₁
  obtain ⟨f₃, state, h₃, hstate, rfl⟩ := reads_seq.mp h₂
  obtain ⟨collapsible, hcollapsible, rfl⟩ := reads_map.mp h₃
  have all : Rewritten Disclosure.keys
      [("collapsible", .bool collapsible),
        ("defaultState", .orNull (fun s => .text (wordOf Folding.words s)) state),
        ("controlsId", .orNull .text controlsId), ("ariaSummaryText", .orNull .text summary)] :=
    ⟨by decide, rfl⟩
  have hcollapsible := all.same (w := w) (by decide) hcollapsible rfl rfl
  have hstate := all.nullable (w := w) (by decide) hstate rfl nofun fun s _ => folding_again s
  have hcontrolsId := all.nullable (w := w) (by decide) hcontrolsId rfl nofun fun _ _ => rfl
  have hsummary := all.nullable (w := w) (by decide) hsummary rfl nofun fun _ _ => rfl
  refine Reads.record _ ((reads_noted_iff disclosure_notes).mpr
    ⟨_, ((hcollapsible.map.seq hstate).seq hcontrolsId).seq hsummary, ?_⟩)
  rw [all.noted (List.Subset.refl _)]
  rfl

theorem guidedFlow_again {g : GuidedFlow}
    (h : Shape.record "GuidedFlowBehavior" guidedFlow v = .ok g) :
    Shape.record "GuidedFlowBehavior" guidedFlow (Node.guidedFlowValue w g) =
      .ok (g.noting w.noting) := by
  obtain ⟨o, rfl, reads⟩ := record_eq_ok h
  obtain ⟨f₀, h₀, rfl⟩ := (reads_noted_iff guidedFlow_notes).mp reads
  obtain ⟨f₁, progressId, h₁, hprogressId, rfl⟩ := reads_seq.mp h₀
  obtain ⟨f₂, hasProgress, h₂, hhasProgress, rfl⟩ := reads_seq.mp h₁
  obtain ⟨f₃, prevId, h₃, hprevId, rfl⟩ := reads_seq.mp h₂
  obtain ⟨f₄, nextId, h₄, hnextId, rfl⟩ := reads_seq.mp h₃
  obtain ⟨f₅, totalSteps, h₅, htotalSteps, rfl⟩ := reads_seq.mp h₄
  obtain ⟨f₆, stepIndex, h₆, hstepIndex, rfl⟩ := reads_seq.mp h₅
  obtain ⟨role, hrole, rfl⟩ := reads_map.mp h₆
  have all : Rewritten GuidedFlow.keys
      [("role", .text (wordOf FlowRole.words role)), ("stepIndex", .orNull .int stepIndex),
        ("totalSteps", .orNull .int totalSteps), ("nextId", .orNull .text nextId),
        ("prevId", .orNull .text prevId), ("hasProgress", .orNull .bool hasProgress),
        ("progressNodeId", .orNull .text progressId)] :=
    ⟨by decide, rfl⟩
  have hrole := all.required (w := w) (by decide) hrole rfl (flowRole_again role)
  have hstepIndex := all.nullable (w := w) (by decide) hstepIndex rfl nofun fun _ _ => rfl
  have htotalSteps := all.nullable (w := w) (by decide) htotalSteps rfl nofun fun _ _ => rfl
  have hnextId := all.nullable (w := w) (by decide) hnextId rfl nofun fun _ _ => rfl
  have hprevId := all.nullable (w := w) (by decide) hprevId rfl nofun fun _ _ => rfl
  have hhasProgress := all.nullable (w := w) (by decide) hhasProgress rfl nofun fun _ _ => rfl
  have hprogressId := all.nullable (w := w) (by decide) hprogressId rfl nofun fun _ _ => rfl
  refine Reads.record _ ((reads_noted_iff guidedFlow_notes).mpr
    ⟨_, (((((hrole.map.seq hstepIndex).seq htotalSteps).seq hnextId).seq hprevId).seq
      hhasProgress).seq hprogressId, ?_⟩)
  rw [all.noted (List.Subset.refl _)]
  rfl

theorem behaviors_again {b : Behaviors} (h : Shape.record "Behaviors" behaviors v = .ok b) :
    Shape.record "Behaviors" behaviors (Node.behaviorsValue w b) = .ok (b.noting w.noting) := by
  obtain ⟨o, rfl, reads⟩ := record_eq_ok h
  obtain ⟨f₀, h₀, rfl⟩ := (reads_noted_iff behaviors_notes).mp reads
  obtain ⟨f₁, flow, h₁, hflow, rfl⟩ := reads_seq.mp h₀
  obtain ⟨folding, hfolding, rfl⟩ := reads_map.mp h₁
  have all : Rewritten Behaviors.keys [("disclosure", .orNull (Node.disclosureValue w) folding),
      ("guidedFlow", .orNull (Node.guidedFlowValue w) flow)] :=
    ⟨by decide, rfl⟩
  have hfolding := all.nullable_record (w := w) (by decide) hfolding rfl (Disclosure.noting w.noting)
    fun _ _ h => disclosure_again w h
  have hflow := all.nullable_record (w := w) (by decide) hflow rfl (GuidedFlow.noting w.noting)
    fun _ _ h => guidedFlow_again w h
  refine Reads.record _ ((reads_noted_iff behaviors_notes).mpr ⟨_, hfolding.map.seq hflow, ?_⟩)
  rw [all.noted (List.Subset.refl _)]
  rfl

theorem narrowing_again {n : Narrowing} (h : Shape.record "TableResponsive" narrowing v = .ok n) :
    Shape.record "TableResponsive" narrowing (Node.narrowingValue w n) =
      .ok (n.noting w.noting) := by
  obtain ⟨o, rfl, reads⟩ := record_eq_ok h
  obtain ⟨f₀, h₀, rfl⟩ := (reads_noted_iff narrowing_notes).mp reads
  obtain ⟨f₁, width, h₁, hwidth, rfl⟩ := reads_seq.mp h₀
  obtain ⟨strategy, hstrategy, rfl⟩ := reads_map.mp h₁
  have all : Rewritten Narrowing.keys [("strategy", .orNull .text strategy),
      ("minColumnWidth", .orNull .real width)] :=
    ⟨by decide, rfl⟩
  have hstrategy := all.nullable (w := w) (by decide) hstrategy rfl nofun fun _ _ => rfl
  have hwidth := all.nullable (w := w) (by decide) hwidth rfl nofun fun _ _ => rfl
  refine Reads.record _ ((reads_noted_iff narrowing_notes).mpr ⟨_, hstrategy.map.seq hwidth, ?_⟩)
  rw [all.noted (List.Subset.refl _)]
  rfl

end Reading

/-! ## Headers -/

/-- What the keys of the fields become inside a header. -/
def Header.inside (f : Noting) (h : Header) : Header :=
  { h with
    minSize := h.minSize.map (·.noting f), maxSize := h.maxSize.map (·.noting f)
    behaviors := h.behaviors.map (·.noting f) }

/-- The same for a header that keeps keys of these names. -/
def Header.noting (f : Noting) (names : List String) (h : Header) : Header :=
  { h.inside f with given := f names h.given }

def Header.keys : List Key :=
  [Keys.id, Keys.visible, Keys.widthPolicy, Keys.heightPolicy, Keys.minSize, Keys.maxSize,
    Keys.overrides, Keys.pattern, Keys.behaviors, Keys.affordances, Keys.focusable, Keys.tabIndex]

namespace Reading

theorem header_notes : header.Notes Header.keys :=
  (((((((((((Notes.required.map.seq Notes.optional).seq Notes.optional).seq Notes.optional).seq
    Notes.nullable).seq Notes.nullable).seq Notes.nullable).seq Notes.nullable).seq
    Notes.nullable).seq Notes.nullable).seq Notes.nullable).seq Notes.nullable).noted

variable (w : Writing)

theorem sizePolicy_again (p : SizePolicy) :
    Shape.choice SizePolicy.words (.text (wordOf SizePolicy.words p)) = .ok p :=
  Shape.lookUp_wordOf (by decide) (by cases p <;> decide) _

/-- Blocks are read as they are. -/
theorem overrides_again (blocks : List (String × Option Object)) :
    Shape.dictionary (Shape.nullable block) (Node.overridesValue .exact blocks) = .ok blocks := by
  have plain : ∀ o : Object, Writing.exact.dictionary o = .object o := fun o => by
    simp [Writing.dictionary, Writing.keyed, Writing.untyped]
  have again : ∀ b ∈ blocks, Shape.nullable block (.orNull Writing.exact.dictionary b.2) =
      .ok (id b.2) := by
    intro b _
    cases b.2 with
    | none => rfl
    | some o =>
      refine Shape.nullable_of_ok (fun _ h => by cases h) ?_
      show block (Writing.exact.dictionary o) = .ok o
      rw [plain]
      exact Shape.dictionary_object o
  have read := Shape.dictionary_map again
  simpa [Node.overridesValue, Writing.keyed] using read

theorem HeaderFields.reads {o : Object} {h : Header} (f : HeaderFields o h) :
    header.Reads o { h with given := Key.noted Header.keys o } :=
  (reads_noted_iff header_notes).mpr ⟨_, ((((((((((f.id.map.seq f.visible).seq f.widthPolicy).seq
    f.heightPolicy).seq f.minSize).seq f.maxSize).seq f.overrides).seq f.pattern).seq
    f.behaviors).seq f.affordances).seq f.focusable).seq f.tabIndex, rfl⟩

/-- A header is read again among the fields of a node. -/
theorem header_again {o : Object} {h : Header} (f : HeaderFields o h) {keys : List Key}
    {rest : Object} (all : Rewritten keys (Node.headerFields w h ++ rest))
    (within : Header.keys ⊆ keys)
    (kept : ∀ b ∈ h.overrides, Node.overridesValue w b = Node.overridesValue .exact b) :
    HeaderFields (w.fields (Key.noted keys o) (Node.headerFields w h ++ rest))
      (h.inside w.noting) where
  id := all.required (within (by decide)) f.id rfl rfl
  visible := all.same (within (by decide)) f.visible rfl rfl
  widthPolicy := all.same (within (by decide)) f.widthPolicy rfl (sizePolicy_again _)
  heightPolicy := all.same (within (by decide)) f.heightPolicy rfl (sizePolicy_again _)
  minSize := all.nullable_record (within (by decide)) f.minSize rfl (Bounds.noting w.noting)
    fun _ _ h => bounds_again w h
  maxSize := all.nullable_record (within (by decide)) f.maxSize rfl (Bounds.noting w.noting)
    fun _ _ h => bounds_again w h
  overrides := all.nullable (within (by decide)) f.overrides rfl nofun fun b hb => by
    rw [kept b hb]
    exact overrides_again b
  pattern := all.nullable (within (by decide)) f.pattern rfl nofun fun _ _ => rfl
  behaviors := all.nullable_record (within (by decide)) f.behaviors rfl (Behaviors.noting w.noting)
    fun _ _ h => behaviors_again w h
  affordances := all.nullable (within (by decide)) f.affordances rfl nofun
    fun ss _ => Shape.list_texts ss
  focusable := all.nullable (within (by decide)) f.focusable rfl nofun fun _ _ => rfl
  tabIndex := all.nullable (within (by decide)) f.tabIndex rfl nofun fun _ _ => rfl

end Reading

/-! ## Kept keys -/

/-- One noting after the other. -/
def Noting.after (g f : Noting) : Noting := fun names given => g names (f names given)

theorem Behaviors.noting_noting (g f : Noting) (b : Behaviors) :
    (b.noting f).noting g = b.noting (g.after f) := by
  simp only [noting, Option.map_map]
  rfl

theorem Header.noting_noting (g f : Noting) (names : List String) (h : Header) :
    (h.noting f names).noting g names = h.noting (g.after f) names := by
  simp only [noting, inside, Option.map_map, Function.comp_def, Behaviors.noting_noting]
  rfl

/-- Records that keep their keys are the same. -/
theorem Header.noting_given (names : List String) (h : Header) :
    h.noting Writing.given.noting names = h := by
  have bounds : ∀ r : Option Bounds, r.map (·.noting Writing.given.noting) = r :=
    fun r => by cases r <;> rfl
  have behaviors : ∀ r : Option Behaviors, r.map (·.noting Writing.given.noting) = r := by
    intro r
    rcases r with _ | ⟨_ | d, _ | g, given⟩
    · rfl
    · rfl
    · rfl
    · rfl
    · rfl
  simp only [noting, inside, bounds, behaviors]
  rfl

end Wireframe
