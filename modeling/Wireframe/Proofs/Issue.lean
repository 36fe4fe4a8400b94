import Wireframe.Proofs.Node.Document

/-
  Wireframe.Proofs.Issue — issues that were written are read again.

  An issue is written with the fields that were set, some of them to null. A field that was not set
  is not there to be read, so an issue is read again as it was, nulls included.

  Proved:
  - `Keyed.get?_setFields`: what stands in an object of the fields that were set.
  - `Issue.read_toValue`: what is read of an issue as it is written.
  - `Issue.Unchanged.document`: an issue of which nothing has to be changed is handed out.
-/

namespace Wireframe

open Reading

variable {α : Type}

/-! ## Fields that were set -/

/-- The fields that have a value. -/
def setFields (entries : List (String × Option Value)) : Object :=
  entries.flatMap fun e => setField e.1 id e.2

theorem setField_some (key : String) (f : α → Value) (a : α) : setField key f (some a) = [(key, f a)] :=
  rfl

theorem setField_map (key : String) (f : α → Value) (r : Option α) :
    setField key id (r.map f) = setField key f r := by
  cases r <;> rfl

/-- Under distinct keys there stands what was set. -/
theorem Keyed.get?_setFields {entries : List (String × Option Value)}
    (distinct : (entries.map (·.1)).Nodup) (k : String) :
    get? (setFields entries) k = (get? entries k).join := by
  induction entries with
  | nil => rfl
  | cons e rest ih =>
    obtain ⟨k', r⟩ := e
    obtain ⟨fresh, others⟩ := List.nodup_cons.mp distinct
    show get? (setField k' id r ++ setFields rest) k =
      Option.join (if k' == k then some r else get? rest k)
    cases r with
    | some v =>
      show (if k' == k then some v else get? (setFields rest) k) = _
      rw [ih others]
      split <;> rfl
    | none =>
      show get? (setFields rest) k = _
      rw [ih others]
      split
      · rename_i same
        cases eq_of_beq same
        cases found : get? rest k with
        | none => rfl
        | some r => exact absurd (List.mem_map_of_mem (mem_of_get? found)) fresh
      · rfl

theorem Value.map_noHalf {f : α → Value} {r : Option α}
    (h : ∀ a ∈ r, (f a).hasHalfKey = false) : ∀ v ∈ r.map f, v.hasHalfKey = false := by
  intro v hv
  obtain ⟨a, ha, rfl⟩ := Option.mem_map.mp hv
  exact h a ha

theorem Value.some_noHalf {v : Value} (h : v.hasHalfKey = false) :
    ∀ u ∈ some v, u.hasHalfKey = false := by
  intro u hu
  cases hu
  exact h

theorem Value.setFields_noHalf {entries : List (String × Option Value)}
    (plain : ∀ s ∈ entries.map (·.1), Text.hasHalf s = false)
    (values : ∀ e ∈ entries, ∀ v ∈ e.2, v.hasHalfKey = false) :
    (object (setFields entries)).hasHalfKey = false := by
  have member : ∀ m ∈ setFields entries, ∃ e ∈ entries, m.1 = e.1 ∧ m.2 ∈ e.2 := by
    intro m hm
    obtain ⟨⟨k, r⟩, he, hm⟩ := List.mem_flatMap.mp hm
    cases r with
    | none => cases hm
    | some v =>
      obtain rfl : m = (k, v) := List.mem_singleton.mp hm
      exact ⟨_, he, rfl, rfl⟩
  refine object_noHalf _ rfl (fun s hs => ?_) fun m hm => ?_
  · obtain ⟨m, hm, rfl⟩ := List.mem_map.mp hs
    obtain ⟨e, he, same, -⟩ := member m hm
    rw [same]
    exact plain e.1 (List.mem_map_of_mem he)
  · obtain ⟨e, he, -, hv⟩ := member m hm
    exact values e he m.2 hv

namespace Reading

variable {entries : List (String × Option Value)} {key : Key} {shape : Shape α}

/-- A field that was set, or was not, is read as it was. -/
theorem written_again {r : Option α} {f : α → Value} (distinct : (entries.map (·.1)).Nodup)
    (stands : Keyed.get? entries key.camel = some (r.map f))
    (alone : key.snake = key.camel ∨ Keyed.get? entries key.snake = none)
    (again : ∀ a ∈ r, shape (f a) = .ok a) : (written key shape).Reads (setFields entries) r := by
  have camel : Keyed.get? (setFields entries) key.camel = r.map f := by
    rw [Keyed.get?_setFields distinct, stands, Option.join_some]
  cases r with
  | some a =>
    have found : key.find? (setFields entries) = some (key.camel, f a) := by
      rw [Key.find?, camel, Option.map_some]
    refine reads_optional_of_find? found ?_
    rw [again a rfl]
    rfl
  | none =>
    refine reads_optional_of_none ?_
    rw [Key.find?, camel, Option.map_none]
    rcases alone with same | alone
    · rw [same, camel]
      rfl
    · rw [Keyed.get?_setFields distinct, alone]
      rfl

theorem required_again {v : Value} {a : α} (distinct : (entries.map (·.1)).Nodup)
    (stands : Keyed.get? entries key.camel = some (some v)) (again : shape v = .ok a) :
    (required key shape).Reads (setFields entries) a := by
  refine reads_required.mpr ⟨key.camel, v, ?_, again⟩
  rw [Key.find?, Keyed.get?_setFields distinct, stands, Option.join_some]

theorem nullable_text_again (r : Option String) :
    Shape.nullable Shape.text (.orNull .text r) = .ok r := by
  cases r <;> rfl

end Reading

/-! ## Sources -/

namespace Provenance

def entries (p : Provenance) : List (String × Option Value) :=
  [("pattern", some (.text p.pattern)), ("name", p.name.map (.orNull .text)),
    ("url", p.url.map (.orNull .text))]

def names : List String := ["pattern", "name", "url"]

theorem toValue_eq (p : Provenance) : p.toValue = .object (setFields p.entries) := by
  simp only [toValue, entries, setFields, List.flatMap_cons, List.flatMap_nil, List.append_nil,
    setField_map, setField_some, List.cons_append, List.nil_append]
  rfl

theorem read_toValue (p : Provenance) : read p.toValue = .ok p := by
  rw [toValue_eq]
  have distinct : (p.entries.map (·.1)).Nodup := by
    show names.Nodup
    decide
  have pattern : (required (.plain "pattern") Shape.text).Reads (setFields p.entries) p.pattern :=
    required_again distinct rfl rfl
  have name : (written (.plain "name") (Shape.nullable Shape.text)).Reads (setFields p.entries)
      p.name := written_again distinct rfl (.inl rfl) fun a _ => nullable_text_again a
  have url : (written (.plain "url") (Shape.nullable Shape.text)).Reads (setFields p.entries)
      p.url := written_again distinct rfl (.inl rfl) fun a _ => nullable_text_again a
  exact Reads.record "IssueSource" ((pattern.map.seq name).seq url)

theorem toValue_noHalf (p : Provenance) : p.toValue.hasHalfKey = false := by
  have text : ∀ r : Option String, (Value.orNull .text r).hasHalfKey = false :=
    fun r => Value.orNull_noHalf fun _ _ => rfl
  rw [toValue_eq]
  refine Value.setFields_noHalf (by decide +kernel : ∀ s ∈ names, _) ?_
  simp only [entries, List.forall_mem_cons]
  exact ⟨Value.some_noHalf rfl, Value.map_noHalf fun r _ => text r,
    Value.map_noHalf fun r _ => text r, List.forall_mem_nil _⟩

end Provenance

/-! ## Issues -/

namespace Issue

/-- Nothing of the issue has to be changed in a document. -/
structure Unchanged (i : Issue) : Prop where
  details : ∀ r ∈ i.details, ∀ o ∈ r, (Value.object o).Unchanged
  expected : ∀ v ∈ i.expected, v.Unchanged
  found : ∀ v ∈ i.found, v.Unchanged

def entries (i : Issue) : List (String × Option Value) :=
  [("id", some (.text i.id)), ("severity", some (.text i.severity.name)),
    ("message", some (.text i.message)), ("nodeId", i.nodeId.map (.orNull .text)),
    ("jsonPointer", i.jsonPointer.map (.orNull .text)),
    ("viewport", i.viewport.map (.orNull .text)),
    ("details", i.details.map (.orNull Writing.full.dictionary)),
    ("source", i.source.map (.orNull Provenance.toValue)),
    ("suggestion", i.suggestion.map (.orNull .text)), ("expected", i.expected.map Value.finite),
    ("found", i.found.map Value.finite)]

def names : List String :=
  ["id", "severity", "message", "nodeId", "jsonPointer", "viewport", "details", "source",
    "suggestion", "expected", "found"]

theorem entries_distinct (i : Issue) : (i.entries.map (·.1)).Nodup := by
  show names.Nodup
  decide

theorem toValue_eq (i : Issue) : i.toValue = .object (setFields i.entries) := by
  simp only [toValue, entries, setFields, List.flatMap_cons, List.flatMap_nil, List.append_nil,
    setField_map, setField_some, List.cons_append, List.nil_append, List.append_assoc]
  rfl

theorem severity_again (s : Severity) :
    Shape.choice Severity.words (.text s.name) = .ok s := by
  cases s <;> rfl

/-- What is read of an issue as it is written is the issue, with the same fields set. -/
theorem read_toValue {i : Issue} (h : i.Unchanged) : read i.toValue = .ok i := by
  rw [toValue_eq]
  have distinct := i.entries_distinct
  have text : ∀ (key : Key) (r : Option (Option String)),
      Keyed.get? i.entries key.camel = some (r.map (.orNull .text)) →
      (key.snake = key.camel ∨ Keyed.get? i.entries key.snake = none) →
      (written key (Shape.nullable Shape.text)).Reads (setFields i.entries) r :=
    fun _ _ stands alone => written_again distinct stands alone fun a _ => nullable_text_again a
  have hid : (required Keys.id Shape.text).Reads (setFields i.entries) i.id :=
    required_again distinct rfl rfl
  have hseverity : (required (.plain "severity") (Shape.choice Severity.words)).Reads
      (setFields i.entries) i.severity := required_again distinct rfl (severity_again i.severity)
  have hmessage : (required (.plain "message") Shape.text).Reads (setFields i.entries) i.message :=
    required_again distinct rfl rfl
  have hnodeId := text ⟨"nodeId", "node_id"⟩ i.nodeId rfl (.inr rfl)
  have hpointer := text ⟨"jsonPointer", "json_pointer"⟩ i.jsonPointer rfl (.inr rfl)
  have hviewport := text (.plain "viewport") i.viewport rfl (.inl rfl)
  have hdetails : (written (.plain "details")
      (Shape.nullable (Shape.dictionary Shape.untyped))).Reads (setFields i.entries) i.details := by
    refine written_again distinct rfl (.inl rfl) fun r hr => Shape.nullable_again nofun fun o ho => ?_
    rw [Writing.full.dictionary_eq (h.details r hr o ho)]
    exact Shape.dictionary_object o
  have hsource : (written (.plain "source")
      (Shape.nullable (Shape.record "IssueSource" provenance))).Reads
      (setFields i.entries) i.source :=
    written_again distinct rfl (.inl rfl) fun r _ =>
      Shape.nullable_again (Shape.record_refuses_null _ _) fun p _ => p.read_toValue
  have hsuggestion := text (.plain "suggestion") i.suggestion rfl (.inl rfl)
  have hexpected : (written (.plain "expected") Shape.untyped).Reads (setFields i.entries)
      i.expected := written_again distinct rfl (.inl rfl) fun v hv =>
    congrArg Except.ok (h.expected v hv).finite
  have hfound : (written (.plain "found") Shape.untyped).Reads (setFields i.entries) i.found :=
    written_again distinct rfl (.inl rfl) fun v hv => congrArg Except.ok (h.found v hv).finite
  exact Reads.record "Issue" ((((((((((hid.map.seq hseverity).seq hmessage).seq hnodeId).seq
    hpointer).seq hviewport).seq hdetails).seq hsource).seq hsuggestion).seq hexpected).seq hfound)

theorem toValue_noHalf {i : Issue} (h : i.Unchanged) : i.toValue.hasHalfKey = false := by
  have text : ∀ r : Option String, (Value.orNull .text r).hasHalfKey = false :=
    fun r => Value.orNull_noHalf fun _ _ => rfl
  rw [toValue_eq]
  refine Value.setFields_noHalf (by decide +kernel : ∀ s ∈ names, _) ?_
  simp only [entries, List.forall_mem_cons]
  refine ⟨Value.some_noHalf rfl, Value.some_noHalf rfl, Value.some_noHalf rfl,
    Value.map_noHalf fun r _ => text r, Value.map_noHalf fun r _ => text r,
    Value.map_noHalf fun r _ => text r, Value.map_noHalf ?details,
    Value.map_noHalf fun r _ => Value.orNull_noHalf fun p _ => p.toValue_noHalf,
    Value.map_noHalf fun r _ => text r, Value.map_noHalf ?expected, Value.map_noHalf ?found,
    List.forall_mem_nil _⟩
  case details =>
    refine fun r hr => Value.orNull_noHalf fun o ho => ?_
    rw [Writing.full.dictionary_eq (h.details r hr o ho)]
    exact (h.details r hr o ho).keys
  case expected =>
    intro v hv
    rw [(h.expected v hv).finite]
    exact (h.expected v hv).keys
  case found =>
    intro v hv
    rw [(h.found v hv).finite]
    exact (h.found v hv).keys

/-- An issue of which nothing has to be changed is handed out. -/
theorem Unchanged.document {i : Issue} (h : i.Unchanged) : i.document = .ok i.toValue := by
  rw [Issue.document, Value.handedOut, toValue_noHalf h, if_neg Bool.false_ne_true]

end Issue

end Wireframe
