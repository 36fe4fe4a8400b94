import Wireframe.Proofs.Cascade.Overlay
import Wireframe.Proofs.Cascade.Resolve
import Wireframe.Proofs.Node.Fields

/-
  Wireframe.Proofs.Cascade.Law — which block decides on which field of a node.

  A node is written with all its fields, blocks are laid over it, and the outcome is read. That this
  decides field by field takes three things. Laying blocks treats every key on its own. Reading
  treats every field on its own; so what a block does to one field changes no other, and a field that
  no block touches is read as what it was. And a field that was written stands under its camel-case
  key, which is looked for first; so a block gives a field no value by the snake-case key.

  The exception is `type`: with another type the object is read as other fields.

  What is nested deeper is not cascaded: inside the parts of a record, in lists and in children the
  last value is the whole value.

  Proved:
  - `precedes_last`: the last value for a key is from the block that all others with one precede.
  - `resolved_field`: a field of what is read after blocks were laid over a node.
  - `resolveOwn_cascades`: the field as it was, or of the last block that sets it, or part by part.
-/

namespace Wireframe

namespace Blocks

/-- The last value under a key is from a block that is preceded by all others with a value. -/
theorem precedes_last {blocks applied : Blocks} {width : Number}
    (h : blocks.ordered width = .ok applied) {key : String} {v : Value}
    (last : (applied.values key).getLast? = some v) : ∃ b ∈ applied,
      v ∈ Object.values key (b.2.getD []) ∧
        ∀ a ∈ applied, Object.values key (a.2.getD []) ≠ [] → Precedes a b := by
  obtain ⟨before, b, after, rfl, hv, none⟩ := values_getLast? last
  have hb : b ∈ before ++ b :: after := List.mem_append_right _ List.mem_cons_self
  refine ⟨b, hb, hv, fun a ha has => ?_⟩
  rcases List.mem_append.mp ha with ha | ha
  · exact (List.pairwise_append.mp (ordered_pairwise h)).2.2 a ha b List.mem_cons_self
  · rcases List.mem_cons.mp ha with rfl | ha
    · obtain ⟨-, c, parsed, -⟩ := mem_ordered h hb
      exact ⟨c, c, parsed, parsed, by simpa using c.precedes_total c⟩
    · exact absurd (none a ha) has

end Blocks

namespace Node

variable {n m : Node} {width : Number} {applied : Blocks}

/-! ## One field -/

/-- A node keeps its kind unless a block sets its type. -/
theorem resolved_kind (h : read (.object (n.overlaid applied)) = .ok m)
    (untyped : applied.values "type" = []) : m.kind = n.kind := by
  have told := read_type h
  rw [overlaid_get? _ _ (by decide), untyped, List.foldl_nil, dumped_type] at told
  have same : n.kind.name = m.kind.name := Value.text.inj (Option.some.inj told)
  have both := find?_name n.kind
  rw [same, find?_name] at both
  exact congrArg Prod.snd (Option.some.inj both)

/-- A field of what is read after blocks were laid over a node, from what stands there then. -/
theorem resolved_field {v : Value} (parsed : read v = .ok n)
    (h : read (.object (n.overlaid applied)) = .ok m) (kind : m.kind = n.kind) {f : Field}
    (hf : f ∈ n.kind.schema) (other : f.key.camel ≠ "at") :
    ∃ own, n.dumped f.key.camel = some own ∧ f.parse own = .ok own ∧
      ∀ w, (applied.values f.key.camel).foldl Object.laid (some own) = some w →
        ∃ u, m.dumped f.key.camel = some u ∧ f.parse w = .ok u := by
  obtain ⟨own, stands, again⟩ := dumped_again parsed hf
  obtain ⟨u, hu, holds⟩ := read_dumped h (kind ▸ hf)
  refine ⟨own, stands, again, fun w hw => ⟨u, hu, holds.parse ?_⟩⟩
  rw [overlaid_get? _ _ other, stands, hw]

/-! ## The law -/

/-- An object that has each key once, and none of some parts under its snake-case key. -/
def InCamelCase (parts : List Field) (v : Value) : Prop :=
  ∃ o, v = .object o ∧ (o.map (·.1)).Nodup ∧
    ∀ p ∈ parts, p.key.snake ≠ p.key.camel → p.key.snake ∉ o.map (·.1)

/-- What a part of a record becomes: what the last of some objects has for it is read as, or what it
    was, or the default. -/
def BecomesPart (p : Field) (vs : List Value) (own u : Value) : Prop :=
  match Object.lastUnder p.key.camel vs with
  | some v => p.parse v = .ok u
  | none => match Keyed.get? own.members p.key.camel with
    | some w => u = w
    | none => p.default = some u

/-- What a node becomes with some blocks, field by field. -/
structure Cascades (n : Node) (width : Number) (applied : Blocks) (m : Node) : Prop where
  /-- The blocks are those whose conditions hold. -/
  applicable : applied.Perm (n.blocks.filter (Blocks.applies width))
  /-- Blocks from a width on come before those up to a width, and the tightest of each last. -/
  ordered : applied.Pairwise Blocks.Precedes
  /-- So the last value of a field is from the block that all others with one precede. -/
  last : ∀ key v, (applied.values key).getLast? = some v → ∃ b ∈ applied,
    v ∈ Object.values key (b.2.getD []) ∧
      ∀ a ∈ applied, Object.values key (a.2.getD []) ≠ [] → Blocks.Precedes a b
  kind : m.kind = n.kind
  /-- A field that no block sets is as it was. -/
  untouched : ∀ f ∈ n.kind.schema, f.key.camel ≠ "at" → applied.values f.key.camel = [] →
    m.dumped f.key.camel = n.dumped f.key.camel
  /-- A field that blocks set, none of them to an object, is what the last value is read as. -/
  replaced : ∀ f ∈ n.kind.schema, f.key.camel ≠ "at" →
    (∀ v ∈ applied.values f.key.camel, ∀ o, v ≠ .object o) →
    ∀ v, (applied.values f.key.camel).getLast? = some v →
      ∃ u, m.dumped f.key.camel = some u ∧ f.parse v = .ok u
  /-- A record that blocks set to objects is put together part by part. -/
  merged : ∀ r ∈ n.kind.records,
    (∀ v ∈ applied.values r.field.key.camel, InCamelCase r.parts v) →
    ∃ own, n.dumped r.field.key.camel = some own ∧
      ((own = .null ∧ applied.values r.field.key.camel = []) ∨
      ∃ o, m.dumped r.field.key.camel = some (.object o) ∧ ∀ p ∈ r.parts,
        ∃ u, Keyed.get? o p.key.camel = some u ∧
          BecomesPart p (applied.values r.field.key.camel) own u)

theorem records_key_ne_at (k : Kind) : ∀ r ∈ k.records, r.field.key.camel ≠ "at" := by
  cases k <;> decide

/-- No part of a record is found by its snake-case key where there are only camel-case ones. -/
theorem InCamelCase.find?_eq_none {parts : List Field} {vs : List Value} {merged : Object} {p : Field}
    (camel : ∀ v ∈ vs, InCamelCase parts v) (hp : p ∈ parts)
    (under : ∀ key, Keyed.get? merged key = Object.lastUnder key vs)
    (absent : Object.lastUnder p.key.camel vs = none) : p.key.find? merged = none := by
  have snake : Keyed.get? merged p.key.snake = none := by
    rw [under]
    by_cases same : p.key.snake = p.key.camel
    · rw [same, absent]
    · refine Object.lastUnder_eq_none fun v hv => ?_
      obtain ⟨o, rfl, -, fresh⟩ := camel v hv
      exact Keyed.get?_eq_none fun e he here =>
        fresh p hp same (List.mem_map.mpr ⟨e, he, here⟩)
  rw [Key.find?, under, absent, snake]
  rfl

/-- A record that is read from objects put together has its parts from these. -/
theorem parts_merged {r : RecordField} {own u : Value} {vs : List Value} {merged : Object}
    (again : r.field.parse own = .ok own) (camel : ∀ v ∈ vs, InCamelCase r.parts v)
    (under : ∀ key, Keyed.get? merged key =
      (Object.lastUnder key vs).or (Keyed.get? own.members key))
    (h : r.field.parse (.object merged) = .ok u) :
    ∃ o, u = .object o ∧ ∀ p ∈ r.parts, ∃ w, Keyed.get? o p.key.camel = some w ∧
      BecomesPart p vs own w := by
  rcases r.parse h with ⟨e, -⟩ | ⟨_, o, e, rfl, stand⟩
  · cases e
  cases e
  refine ⟨o, rfl, fun p hp => ?_⟩
  obtain ⟨w, hw, holds⟩ := Field.Stands.get? stand r.distinct hp
  refine ⟨w, hw, ?_⟩
  unfold BecomesPart
  cases last : Object.lastUnder p.key.camel vs with
  | some v => exact holds.parse (by rw [under, last]; rfl)
  | none =>
    rcases r.parse again with ⟨rfl, -⟩ | ⟨before, _, rfl, e, stood⟩
    · refine holds.default (InCamelCase.find?_eq_none camel hp (fun key => ?_) last)
      rw [under]
      exact Option.or_none
    · cases e
      obtain ⟨x, hx, held⟩ := Field.Stands.get? stood r.distinct hp
      have now := holds.parse (show Keyed.get? merged p.key.camel = some x by
        rw [under, last]
        exact hx)
      simp only [Value.members, hx]
      exact Except.ok.inj (now.symm.trans (held.parse hx))

/-- One node at a width, field by field. A block that sets the type changes which fields there are;
    when none does, a field that no block sets is as it was, one that blocks set is what the last
    value for it is read as, and a record that blocks set to objects is put together from these. The
    last block is one up to a width if such a one sets the field, and the tightest of its kind. -/
theorem resolveOwn_cascades {v : Value} (parsed : read v = .ok n) (some_block : n.blocks ≠ [])
    (resolved : (n.resolveOwn width).result = .ok m) :
    ∃ applied, n.blocks.ordered width = .ok applied ∧
      (applied.values "type" = [] → n.Cascades width applied m) := by
  rcases resolveOwn_cases resolved with ⟨none, -⟩ | ⟨applied, -, ordered, overlaid⟩
  · exact absurd none some_block
  refine ⟨applied, ordered, fun untyped => ?_⟩
  have kind := resolved_kind overlaid untyped
  refine ⟨Blocks.ordered_perm ordered, Blocks.ordered_pairwise ordered,
    fun key v => Blocks.precedes_last ordered, kind, fun f hf other unset => ?_,
    fun f hf other plain v last => ?_, fun r hr camel => ?_⟩
  · obtain ⟨own, stands, again, becomes⟩ := resolved_field parsed overlaid kind hf other
    obtain ⟨u, hu, read⟩ := becomes own (by rw [unset]; rfl)
    rw [hu, stands, Except.ok.inj (read.symm.trans again)]
  · obtain ⟨own, -, -, becomes⟩ := resolved_field parsed overlaid kind hf other
    refine becomes v ?_
    rw [Object.foldl_laid_of_plain fun w hw => ⟨Blocks.ne_null_of_mem_values hw, plain w hw⟩, last]
    rfl
  · obtain ⟨own, stands, again, becomes⟩ := resolved_field parsed overlaid kind
      (n.kind.records_subset (List.mem_map_of_mem hr)) (records_key_ne_at _ r hr)
    refine ⟨own, stands, ?_⟩
    have objects : ∀ v ∈ applied.values r.field.key.camel,
        ∃ o, v = .object o ∧ (o.map (·.1)).Nodup := fun v hv => by
      obtain ⟨o, object, distinct, -⟩ := camel v hv
      exact ⟨o, object, distinct⟩
    by_cases nothing : own = .null ∧ applied.values r.field.key.camel = []
    · exact .inl nothing
    · refine .inr ?_
      have below : (own = .null ∧ applied.values r.field.key.camel ≠ []) ∨ ∃ o, own = .object o := by
        rcases r.parse again with ⟨null, -⟩ | ⟨o, _, object, -⟩
        · exact .inl ⟨null, fun unset => nothing ⟨null, unset⟩⟩
        · exact .inr ⟨o, object⟩
      obtain ⟨merged, folded, under⟩ := Object.foldl_laid_of_objects objects below
      obtain ⟨u, hu, read⟩ := becomes _ folded
      obtain ⟨o, rfl, parts⟩ := parts_merged again camel under read
      exact ⟨o, hu, parts⟩

/-- A text with two blocks, the later one first, and with half of the behaviors it will have. -/
def tightDocument : Value :=
  .object [("type", .text "Text"), ("id", .text "t"), ("text", .text "Hi"),
    ("behaviors", .object [("disclosure", .object [("collapsible", .bool true)])]),
    ("at", .object [("<=768", .object [("maxLines", .int 4)]),
      (">=320", .object [("maxLines", .int 3), ("text", .null),
        ("behaviors", .object [("guidedFlow", .object [("role", .text "step")])])])])]

def tightBlocks : Blocks :=
  [("<=768", some [("maxLines", .int 4)]),
    (">=320", some [("maxLines", .int 3), ("text", .null),
      ("behaviors", .object [("guidedFlow", .object [("role", .text "step")])])])]

def tightText : Node :=
  .text { Header.cascading "t" tightBlocks with
      behaviors := some ⟨some ⟨true, none, none, none, ["collapsible"]⟩, none, ["disclosure"]⟩
      given := ["id", "at", "behaviors", "text"] }
    ⟨"Hi", none, none, none⟩

theorem tightBlocks_ordered : tightBlocks.ordered (.int 640) = .ok tightBlocks.reverse := by
  have found : tightBlocks.conditional =
      .ok [(.atMost 768, tightBlocks[0]), (.atLeast 320, tightBlocks[1])] := rfl
  have sorted : [(Condition.atMost 768, tightBlocks[0]), (.atLeast 320, tightBlocks[1])].mergeSort
      (fun a b => a.1.precedes b.1) =
        [(.atLeast 320, tightBlocks[1]), (.atMost 768, tightBlocks[0])] := by
    rw [List.mergeSort]
    simp [List.MergeSort.Internal.splitInTwo, Condition.precedes]
  rw [Blocks.ordered_eq, found]
  exact congrArg (fun l => Except.ok (l.map (·.2))) sorted

/-- The text at a width at which both blocks apply. -/
def tightenedText : Node :=
  .text { Header.plain "t" with
      behaviors := some ⟨some ⟨true, none, none, none, Disclosure.keys.map (·.camel)⟩,
        some ⟨.step, none, none, none, none, none, none, ["role"]⟩, ["disclosure", "guidedFlow"]⟩
      given := Kind.text.names.filter (· ≠ "at") }
    ⟨"Hi", none, some 4, none⟩

theorem tightText_cascades : read tightDocument = .ok tightText ∧ tightText.blocks ≠ [] ∧
    (tightText.resolveOwn (.int 640)).result = .ok tightenedText ∧
      tightText.Cascades (.int 640) tightBlocks.reverse tightenedText := by
  have parsed : read tightDocument = .ok tightText := rfl
  have some_block : tightText.blocks ≠ [] := List.cons_ne_nil _ _
  have ordered : tightText.blocks.ordered (.int 640) = .ok tightBlocks.reverse :=
    tightBlocks_ordered
  have resolved : (tightText.resolveOwn (.int 640)).result = .ok tightenedText :=
    resolveOwn_of_read some_block ordered rfl
  obtain ⟨applied, ordered', law⟩ := resolveOwn_cascades parsed some_block resolved
  obtain rfl : tightBlocks.reverse = applied := Except.ok.inj (ordered.symm.trans ordered')
  exact ⟨parsed, some_block, resolved, law rfl⟩

end Node

end Wireframe
