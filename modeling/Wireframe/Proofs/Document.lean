import Wireframe.Proofs.Issue
import Wireframe.Proofs.Plain
import Wireframe.Proofs.Scaffold

/-
  Wireframe.Proofs.Document — what is handed out reads back.

  Nodes and scaffolds read back from their documents with the same values, and from what was given
  for them they read back as they were, so that they are handed out the same again. Issues read back
  as they were. The exception is what no document can hold: infinities and not-a-number in untyped
  values, and halves of surrogate pairs in keys. As they are, with every field and such things
  included, nodes and scaffolds always read back.

  Proved:
  - `documents_read_back`: nodes, scaffolds and issues.
  - `Node.half_key_replaced`: a half in a key does not come back.
-/

namespace Wireframe

/-- What is handed out reads back with the same values, and what was given reads back as it was. -/
theorem documents_read_back :
    (∀ v n, Node.read v = .ok n →
      (∃ m, Node.read (n.write .exact) = .ok m ∧ m.bare = n.bare) ∧
      (n.Unchanged → ∀ w, ∃ d m, n.document w = .ok d ∧ Node.read d = .ok m ∧ m.bare = n.bare ∧
        (w = .given → m = n ∧ m.document .given = .ok d))) ∧
    (∀ v s, Scaffold.read v = .ok s →
      (∃ t, Scaffold.read (s.write .exact) = .ok t ∧ t.SameValues s) ∧
      (s.Unchanged → ∀ w, ∃ d t, s.document w = .ok d ∧ Scaffold.read d = .ok t ∧ t.SameValues s ∧
        (w = .given → t = s ∧ t.document .given = .ok d))) ∧
    ∀ i : Issue, i.Unchanged → ∃ d, i.document = .ok d ∧ Issue.read d = .ok i := by
  refine ⟨fun v n h => ⟨?_, fun plain w => ?_⟩, fun v s h => ⟨?_, fun plain w => ?_⟩,
    fun i plain => ?_⟩
  · obtain ⟨m, again, same, -⟩ := Node.read_write .exact h (Node.kept_of (.inl rfl))
    exact ⟨m, again, same⟩
  · obtain ⟨m, again, same, own⟩ := Node.read_write w h (Node.kept_of (.inr plain))
    refine ⟨n.write w, m, plain.document w, again, same, fun given => ?_⟩
    rw [own given, given]
    exact ⟨rfl, plain.document .given⟩
  · obtain ⟨t, again, same, -⟩ := Scaffold.read_write .exact h (.inl rfl)
    exact ⟨t, again, same⟩
  · obtain ⟨t, again, same, own⟩ := Scaffold.read_write w h (.inr plain)
    refine ⟨s.write w, t, plain.document w, again, same, fun given => ?_⟩
    rw [own given, given]
    exact ⟨rfl, plain.document .given⟩
  · exact ⟨i.toValue, plain.document, Issue.read_toValue plain⟩

/-- A note that reads otherwise in some viewports. -/
def Node.noteAt (key : String) : Node :=
  .text (.cascading "note" [(key, some [("text", .text "Note")])]) ⟨"", none, none, none⟩

/-- The document that writes it. -/
def Node.noteAtDocument (key : String) : Value :=
  .object [("type", .text "Text"), ("id", .text "note"),
    ("at", .object [(key, .object [("text", .text "Note")])])]

theorem Node.read_noteAtDocument (key : String) : read (noteAtDocument key) = .ok (noteAt key) := rfl

def Scaffold.noteAtDocument (key : String) : Value :=
  .object [("screen", .object [("id", .text "screen"), ("root", Node.noteAtDocument key)])]

theorem Scaffold.read_noteAtDocument (key : String) :
    read (noteAtDocument key) = .ok (.around (.noteAt key)) := rfl

/-- An issue with a field that was set to null. -/
def Issue.nowhere : Issue :=
  { id := "MISSING_NODE", severity := .warn, message := "Not found", nodeId := some none
    details := some (some [("width", .int 320)]), found := some .null }

theorem Node.noteAt_unchanged : (noteAt ">=768").Unchanged := by
  refine List.forall_mem_singleton.mpr ⟨List.not_mem_nil, ?_⟩
  intro blocks hb
  cases hb
  refine List.forall_mem_singleton.mpr ⟨by decide +kernel, fun o ho => ?_⟩
  cases ho
  exact ⟨by decide +kernel, rfl⟩

theorem Issue.nowhere_unchanged : nowhere.Unchanged where
  details := by
    intro r hr o ho
    cases hr
    cases ho
    exact ⟨by decide +kernel, rfl⟩
  expected := nofun
  found := by
    intro v hv
    cases hv
    exact ⟨rfl, rfl⟩

/-- A note, a scaffold around it and an issue with a null are read back as they were. -/
theorem noteAt_reads_back :
    (∃ d, (Node.noteAt ">=768").document .given = .ok d ∧ Node.read d = .ok (.noteAt ">=768")) ∧
    (∃ d, (Scaffold.around (.noteAt ">=768")).document .given = .ok d ∧
      Scaffold.read d = .ok (.around (.noteAt ">=768"))) ∧
    ∃ d, Issue.nowhere.document = .ok d ∧ Issue.read d = .ok .nowhere := by
  obtain ⟨nodes, scaffolds, issues⟩ := documents_read_back
  refine ⟨?_, ?_, issues .nowhere Issue.nowhere_unchanged⟩
  · obtain ⟨d, m, written, again, -, own⟩ :=
      (nodes _ _ (Node.read_noteAtDocument ">=768")).2 Node.noteAt_unchanged .given
    rw [(own rfl).1] at again
    exact ⟨d, written, again⟩
  · obtain ⟨d, t, written, again, -, own⟩ :=
      (scaffolds _ _ (Scaffold.read_noteAtDocument ">=768")).2
        ⟨Node.noteAt_unchanged, by simp [Scaffold.around, Settings.standard, standardScale]⟩ .given
    rw [(own rfl).1] at again
    exact ⟨d, written, again⟩

/-- A half of a surrogate pair that stands alone. -/
def Text.loneHalf : String := String.ofList (Point.half 0xD800).held

/-- A half in the key of a block is replaced in the document, so the node that is read back has a
    block under another key. -/
theorem Node.half_key_replaced : ∃ d m,
    read (noteAtDocument Text.loneHalf) = .ok (noteAt Text.loneHalf) ∧
    (noteAt Text.loneHalf).document .given = .ok d ∧ read d = .ok m ∧
    m.bare ≠ (noteAt Text.loneHalf).bare := by
  refine ⟨_, noteAt (Text.withoutHalves Text.loneHalf), read_noteAtDocument _, rfl, rfl, ?_⟩
  intro same
  have keys : Text.withoutHalves Text.loneHalf = Text.loneHalf := by
    have blocks := congrArg (·.header.overrides.map (·.map (·.1))) same
    exact List.head_eq_of_cons_eq (Option.some.inj blocks)
  exact absurd keys (by decide +kernel)

end Wireframe
