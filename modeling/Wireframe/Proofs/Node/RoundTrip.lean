import Wireframe.Proofs.Node.HeaderRoundTrip

/-
  Wireframe.Proofs.Node.RoundTrip — nodes that were written are read again.

  A node is written as an object of its header's fields, its kind and the fields of its kind; its
  children stand in these. So it is read again when what it has itself is, and its children are.

  Proved:
  - `stack_again` and the like: the fields of every kind.
  - `content_filled`: what is in the slots of a node was read from where the slots say.
  - `Node.readWithin_again`: a whole tree, by induction on the depth of what it was read from.
  - `Node.read_write`: what is read of a node as it is written.
-/

namespace Wireframe

open Reading

/-! ## Contents -/

/-- The fields of a kind besides the header's. -/
def Kind.contentKeys : Kind → List Key
  | .stack => [Keys.direction, Keys.gap, Keys.padding, Keys.align, Keys.wrap, Keys.children]
  | .grid => [Keys.columns, Keys.gap, Keys.minColWidth, Keys.children]
  | .box => [Keys.padding, Keys.child]
  | .text => [Keys.text, Keys.fontSize, Keys.maxLines, Keys.intrinsicTextWidth]
  | .button => [Keys.text, Keys.roleHint]
  | .field => [Keys.label, Keys.inputType, Keys.required, Keys.helpText, Keys.errorText]
  | .form => [Keys.title, Keys.fields, Keys.actions, Keys.states]
  | .table => [Keys.title, Keys.columns, Keys.rows, Keys.responsive, Keys.states]

/-- The fields of a kind, in the order in which they are read. -/
def Kind.keys (k : Kind) : List Key := Header.keys ++ k.contentKeys

/-- The names of the fields of a kind. -/
def Kind.names (k : Kind) : List String := k.keys.map (·.camel)

/-- The member that says the kind of a node. -/
def Keys.type : Key := .plain "type"

/-- The keys under which a node of a kind is written. -/
def Kind.written (k : Kind) : List Key := Keys.type :: k.keys

theorem Kind.written_distinct (k : Kind) : (k.written.map (·.camel)).Nodup := by
  cases k <;> decide

namespace Node

mutual

/-- What the keys of the fields become in a whole tree. -/
def noting (f : Noting) : Node → Node
  | stack h s cs => stack (h.noting f Kind.stack.names) s (notingAll f cs)
  | grid h g cs => grid (h.noting f Kind.grid.names) g (notingAll f cs)
  | box h p c => box (h.noting f Kind.box.names) p (notingChild f c)
  | text h t => text (h.noting f Kind.text.names) t
  | button h b => button (h.noting f Kind.button.names) b
  | field h c => field (h.noting f Kind.field.names) c
  | form h c fs as => form (h.noting f Kind.form.names) c (notingAll f fs) (notingAll f as)
  | table h t => table (h.noting f Kind.table.names)
      { t with responsive := t.responsive.map (·.noting f) }

def notingAll (f : Noting) : List Node → List Node
  | [] => []
  | n :: rest => n.noting f :: notingAll f rest

def notingChild (f : Noting) : Option Node → Option Node
  | none => none
  | some c => some (c.noting f)

end

theorem notingAll_eq_map (f : Noting) (ns : List Node) : notingAll f ns = ns.map (noting f) := by
  induction ns with
  | nil => rfl
  | cons n rest ih => rw [notingAll, ih, List.map_cons]

theorem notingChild_eq_map (f : Noting) (c : Option Node) : notingChild f c = c.map (noting f) := by
  cases c <;> rfl

/-- The fields of a node besides the header's, as they are written. -/
def contentFields (w : Writing) : Node → Object
  | stack _ s cs => stackFields w s ++ [("children", .list (writeAll w cs))]
  | grid _ g cs => gridFields w g ++ [("children", .list (writeAll w cs))]
  | box _ p c => [("padding", .orNull (Spacing.write w) p), ("child", .orNull (write w) c)]
  | text _ t => textFields t
  | button _ b => buttonFields b
  | field _ f => fieldFields f
  | form _ f fs as => [("title", .orNull .text f.title), ("fields", .list (writeAll w fs)),
      ("actions", .list (writeAll w as)), ("states", .orNull .texts f.states)]
  | table _ t => tableFields w t

/-- All fields of a node. -/
def allFields (w : Writing) (n : Node) : Object :=
  headerFields w n.header ++ ("type", .text n.kind.name) :: n.contentFields w

theorem write_eq (w : Writing) (n : Node) :
    n.write w = .object (w.fields ("type" :: n.header.given) (n.allFields w)) := by
  cases n with
  | box h p c => cases c <;> rfl
  | stack | grid | text | button | field | form | table => rfl

theorem rewritten (w : Writing) (n : Node) {k : Kind} (kind : n.kind = k) :
    Rewritten k.written (n.allFields w) := by
  subst kind
  cases n with
  | stack | grid | box | text | button | field | form | table =>
    exact ⟨Kind.written_distinct _, rfl⟩

/-- The distances that a node has. -/
def spacings : Node → List (Spacing Float)
  | stack _ s _ => s.gap.toList ++ s.padding.toList
  | grid _ g _ => g.gap.toList
  | box _ p _ => p.toList
  | _ => []

/-- What a node has itself is written as what reads back. -/
structure Kept (w : Writing) (n : Node) : Prop where
  spacings : ∀ s ∈ n.spacings, Spacing.read (s.write w) = .ok s
  overrides : ∀ b ∈ n.header.overrides, overridesValue w b = overridesValue .exact b

end Node

namespace Reading

theorem direction_again (d : Direction) :
    Shape.choice Direction.words (.text (wordOf Direction.words d)) = .ok d :=
  Shape.lookUp_wordOf (by decide) (by cases d <;> decide) _

theorem align_again (a : Align) :
    Shape.choice Align.words (.text (wordOf Align.words a)) = .ok a :=
  Shape.lookUp_wordOf (by decide) (by cases a <;> decide) _

theorem emphasis_again (e : Emphasis) :
    Shape.choice Emphasis.words (.text (wordOf Emphasis.words e)) = .ok e :=
  Shape.lookUp_wordOf (by decide) (by cases e <;> decide) _

theorem spacing_refuses_null : ∀ b, Spacing.read .null ≠ .ok b := nofun

variable {child child' : Shape Node} {o : Object} {w : Writing} {c : Header → Node}

/-- The children of a node are read again, if they stand in the object. -/
def Again (child' : Shape Node) (w : Writing) (o' : Object) (ns : List Node) : Prop :=
  ∀ n ∈ ns, (n.write w).depth ≤ Value.depthMembers o' →
    child' (n.write w) = .ok (n.noting w.noting)

theorem children_again {o' : Object} {ns : List Node} {key : String}
    (again : Again child' w o' ns)
    (stands : Keyed.get? o' key = some (.list (Node.writeAll w ns))) :
    Shape.list child' (.list (Node.writeAll w ns)) = .ok (Node.notingAll w.noting ns) := by
  rw [Node.writeAll_eq_map] at stands ⊢
  rw [Node.notingAll_eq_map]
  refine Shape.list_map fun n hn => again n hn ?_
  have inList : (n.write w).depth ≤ (Value.list (ns.map (Node.write w))).depth :=
    Value.depth_le_items (List.mem_map_of_mem hn)
  exact Nat.le_trans inList (Value.depth_le_members stands)

/-- What a node of a kind is written as, of the fields that stand in an object. -/
def writtenOf (w : Writing) (n : Node) (o : Object) : Object :=
  w.fields (Key.noted n.kind.written o) (n.allFields w)

/-- A content that is read again makes the same node with the same header. -/
def ContentAgain (child' : Shape Node) (w : Writing) (k : Kind) (c : Header → Node) (o' : Object) :
    Prop :=
  ∃ c', (content child' k).Reads o' c' ∧
    ∀ h : Header, c' (h.noting w.noting k.names) = (c h).noting w.noting

theorem stack_again (reads : (content child .stack).Reads o c) (h : Header)
    (kept : (c h).Kept w) (again : Again child' w (writtenOf w (c h) o) (c h).children) :
    ContentAgain child' w .stack c (writtenOf w (c h) o) := by
  obtain ⟨f₁, cs, h₁, hcs, rfl⟩ := reads_seq.mp reads
  obtain ⟨s, hs, rfl⟩ := reads_map.mp h₁
  obtain ⟨f₂, wrap, h₂, hwrap, rfl⟩ := reads_seq.mp hs
  obtain ⟨f₃, align, h₃, halign, rfl⟩ := reads_seq.mp h₂
  obtain ⟨f₄, padding, h₄, hpadding, rfl⟩ := reads_seq.mp h₃
  obtain ⟨f₅, gap, h₅, hgap, rfl⟩ := reads_seq.mp h₄
  obtain ⟨direction, hdirection, rfl⟩ := reads_map.mp h₅
  have all : Rewritten Kind.stack.written
      ((Node.stack h ⟨direction, gap, padding, align, wrap⟩ cs).allFields w) := Node.rewritten w _ rfl
  have hdirection := all.same (w := w) (by decide) hdirection rfl (direction_again _)
  have hgap := all.nullable (w := w) (by decide) hgap rfl spacing_refuses_null fun a ha =>
    kept.spacings a (List.mem_append_left _ (Option.mem_toList.mpr ha))
  have hpadding := all.nullable (w := w) (by decide) hpadding rfl spacing_refuses_null fun a ha =>
    kept.spacings a (List.mem_append_right _ (Option.mem_toList.mpr ha))
  have halign := all.same (w := w) (by decide) halign rfl (align_again _)
  have hwrap := all.same (w := w) (by decide) hwrap rfl rfl
  have hcs := all.optional (w := w) (by decide) hcs rfl (fun _ none => by rw [none]; rfl)
    fun stands => children_again again stands
  exact ⟨_, (((((hdirection.map.seq hgap).seq hpadding).seq halign).seq hwrap).map).seq hcs,
    fun _ => rfl⟩

theorem grid_again (reads : (content child .grid).Reads o c) (h : Header)
    (kept : (c h).Kept w) (again : Again child' w (writtenOf w (c h) o) (c h).children) :
    ContentAgain child' w .grid c (writtenOf w (c h) o) := by
  obtain ⟨f₁, cs, h₁, hcs, rfl⟩ := reads_seq.mp reads
  obtain ⟨g, hg, rfl⟩ := reads_map.mp h₁
  obtain ⟨f₂, width, h₂, hwidth, rfl⟩ := reads_seq.mp hg
  obtain ⟨f₃, gap, h₃, hgap, rfl⟩ := reads_seq.mp h₂
  obtain ⟨columns, hcolumns, rfl⟩ := reads_map.mp h₃
  have all : Rewritten Kind.grid.written ((Node.grid h ⟨columns, gap, width⟩ cs).allFields w) :=
    Node.rewritten w _ rfl
  have some_column : Shape.integerFrom 1 (.int columns) = .ok columns :=
    hcolumns.of_optional (P := fun n => Shape.integerFrom 1 (.int n) = .ok n) rfl
      fun _ hv => Shape.integerFrom_again hv
  have hcolumns := all.same (w := w) (by decide) hcolumns rfl some_column
  have hgap := all.nullable (w := w) (by decide) hgap rfl spacing_refuses_null fun a ha =>
    kept.spacings a (Option.mem_toList.mpr ha)
  have hwidth := all.nullable (w := w) (by decide) hwidth rfl nofun fun _ _ => rfl
  have hcs := all.optional (w := w) (by decide) hcs rfl (fun _ none => by rw [none]; rfl)
    fun stands => children_again again stands
  exact ⟨_, ((hcolumns.map.seq hgap).seq hwidth).map.seq hcs, fun _ => rfl⟩

theorem box_again (reads : (content child .box).Reads o c) (h : Header)
    (kept : (c h).Kept w) (refuses : ∀ b, child' .null ≠ .ok b)
    (again : Again child' w (writtenOf w (c h) o) (c h).children) :
    ContentAgain child' w .box c (writtenOf w (c h) o) := by
  obtain ⟨f₁, inner, h₁, hinner, rfl⟩ := reads_seq.mp reads
  obtain ⟨padding, hpadding, rfl⟩ := reads_map.mp h₁
  have all : Rewritten Kind.box.written ((Node.box h padding inner).allFields w) :=
    Node.rewritten w _ rfl
  have hpadding := all.nullable (w := w) (by decide) hpadding rfl spacing_refuses_null fun a ha =>
    kept.spacings a (Option.mem_toList.mpr ha)
  have hinner := all.optional (w := w) (by decide) hinner rfl (fun _ none => by rw [none]; rfl)
    fun stands => Shape.nullable_orNull refuses fun n hn => by
      obtain rfl : inner = some n := hn
      exact again n (Option.mem_toList.mpr rfl) (Value.depth_le_members stands)
  refine ⟨_, hpadding.map.seq hinner, fun _ => ?_⟩
  rw [← Node.notingChild_eq_map]
  rfl

theorem text_again (reads : (content child .text).Reads o c) (h : Header) :
    ContentAgain child' w .text c (writtenOf w (c h) o) := by
  obtain ⟨t, ht, rfl⟩ := reads_map.mp reads
  obtain ⟨f₁, width, h₁, hwidth, rfl⟩ := reads_seq.mp ht
  obtain ⟨f₂, lines, h₂, hlines, rfl⟩ := reads_seq.mp h₁
  obtain ⟨f₃, size, h₃, hsize, rfl⟩ := reads_seq.mp h₂
  obtain ⟨text, htext, rfl⟩ := reads_map.mp h₃
  have all : Rewritten Kind.text.written ((Node.text h ⟨text, size, lines, width⟩).allFields w) :=
    Node.rewritten w _ rfl
  have htext := all.same (w := w) (by decide) htext rfl rfl
  have hsize := all.nullable (w := w) (by decide) hsize rfl nofun fun _ _ => rfl
  have hlines := all.nullable (w := w) (by decide) hlines rfl nofun fun _ _ => rfl
  have hwidth := all.nullable (w := w) (by decide) hwidth rfl nofun fun _ _ => rfl
  exact ⟨_, (((htext.map.seq hsize).seq hlines).seq hwidth).map, fun _ => rfl⟩

theorem button_again (reads : (content child .button).Reads o c) (h : Header) :
    ContentAgain child' w .button c (writtenOf w (c h) o) := by
  obtain ⟨b, hb, rfl⟩ := reads_map.mp reads
  obtain ⟨f₁, role, h₁, hrole, rfl⟩ := reads_seq.mp hb
  obtain ⟨text, htext, rfl⟩ := reads_map.mp h₁
  have all : Rewritten Kind.button.written ((Node.button h ⟨text, role⟩).allFields w) :=
    Node.rewritten w _ rfl
  have htext := all.same (w := w) (by decide) htext rfl rfl
  have hrole := all.nullable (w := w) (by decide) hrole rfl nofun fun e _ => emphasis_again e
  exact ⟨_, (htext.map.seq hrole).map, fun _ => rfl⟩

theorem field_again (reads : (content child .field).Reads o c) (h : Header) :
    ContentAgain child' w .field c (writtenOf w (c h) o) := by
  obtain ⟨b, hb, rfl⟩ := reads_map.mp reads
  obtain ⟨f₁, error, h₁, herror, rfl⟩ := reads_seq.mp hb
  obtain ⟨f₂, help, h₂, hhelp, rfl⟩ := reads_seq.mp h₁
  obtain ⟨f₃, required, h₃, hrequired, rfl⟩ := reads_seq.mp h₂
  obtain ⟨f₄, inputType, h₄, hinputType, rfl⟩ := reads_seq.mp h₃
  obtain ⟨label, hlabel, rfl⟩ := reads_map.mp h₄
  have all : Rewritten Kind.field.written
      ((Node.field h ⟨label, inputType, required, help, error⟩).allFields w) := Node.rewritten w _ rfl
  have hlabel := all.same (w := w) (by decide) hlabel rfl rfl
  have hinputType := all.nullable (w := w) (by decide) hinputType rfl nofun fun _ _ => rfl
  have hrequired := all.nullable (w := w) (by decide) hrequired rfl nofun fun _ _ => rfl
  have hhelp := all.nullable (w := w) (by decide) hhelp rfl nofun fun _ _ => rfl
  have herror := all.nullable (w := w) (by decide) herror rfl nofun fun _ _ => rfl
  exact ⟨_, ((((hlabel.map.seq hinputType).seq hrequired).seq hhelp).seq herror).map,
    fun _ => rfl⟩

theorem form_again (reads : (content child .form).Reads o c) (h : Header)
    (again : Again child' w (writtenOf w (c h) o) (c h).children) :
    ContentAgain child' w .form c (writtenOf w (c h) o) := by
  obtain ⟨f₁, states, h₁, hstates, rfl⟩ := reads_seq.mp reads
  obtain ⟨f₂, actions, h₂, hactions, rfl⟩ := reads_seq.mp h₁
  obtain ⟨f₃, fields, h₃, hfields, rfl⟩ := reads_seq.mp h₂
  obtain ⟨title, htitle, rfl⟩ := reads_map.mp h₃
  have all : Rewritten Kind.form.written
      ((Node.form h ⟨title, states⟩ fields actions).allFields w) := Node.rewritten w _ rfl
  have inFields : Again child' w (writtenOf w (.form h ⟨title, states⟩ fields actions) o) fields :=
    fun n hn => again n (List.mem_append_left _ hn)
  have inActions : Again child' w (writtenOf w (.form h ⟨title, states⟩ fields actions) o) actions :=
    fun n hn => again n (List.mem_append_right _ hn)
  have htitle := all.nullable (w := w) (by decide) htitle rfl nofun fun _ _ => rfl
  have hfields := all.optional (w := w) (by decide) hfields rfl (fun _ none => by rw [none]; rfl)
    fun stands => children_again inFields stands
  have hactions := all.optional (w := w) (by decide) hactions rfl (fun _ none => by rw [none]; rfl)
    fun stands => children_again inActions stands
  have hstates := all.nullable (w := w) (by decide) hstates rfl nofun
    fun ss _ => Shape.list_texts ss
  exact ⟨_, ((htitle.map.seq hfields).seq hactions).seq hstates, fun _ => rfl⟩

theorem table_again (reads : (content child .table).Reads o c) (h : Header) :
    ContentAgain child' w .table c (writtenOf w (c h) o) := by
  obtain ⟨t, ht, rfl⟩ := reads_map.mp reads
  obtain ⟨f₁, states, h₁, hstates, rfl⟩ := reads_seq.mp ht
  obtain ⟨f₂, responsive, h₂, hresponsive, rfl⟩ := reads_seq.mp h₁
  obtain ⟨f₃, rows, h₃, hrows, rfl⟩ := reads_seq.mp h₂
  obtain ⟨f₄, columns, h₄, hcolumns, rfl⟩ := reads_seq.mp h₃
  obtain ⟨title, htitle, rfl⟩ := reads_map.mp h₄
  have all : Rewritten Kind.table.written
      ((Node.table h ⟨title, columns, rows, responsive, states⟩).allFields w) := Node.rewritten w _ rfl
  have htitle := all.nullable (w := w) (by decide) htitle rfl nofun fun _ _ => rfl
  have hcolumns := all.same (w := w) (by decide) hcolumns rfl (Shape.list_texts columns)
  have hrows := all.nullable (w := w) (by decide) hrows rfl nofun fun _ _ => rfl
  have hresponsive := all.nullable_record (w := w) (by decide) hresponsive rfl
    (Narrowing.noting w.noting) fun _ _ h => narrowing_again w h
  have hstates := all.nullable (w := w) (by decide) hstates rfl nofun
    fun ss _ => Shape.list_texts ss
  exact ⟨_, ((((htitle.map.seq hcolumns).seq hrows).seq hresponsive).seq hstates).map,
    fun _ => rfl⟩

/-- The fields of every kind are read again. -/
theorem content_again {k : Kind} (reads : (content child k).Reads o c) (h : Header)
    (kept : (c h).Kept w) (refuses : ∀ b, child' .null ≠ .ok b)
    (again : Again child' w (writtenOf w (c h) o) (c h).children) :
    ContentAgain child' w k c (writtenOf w (c h) o) := by
  cases k with
  | stack => exact stack_again reads h kept again
  | grid => exact grid_again reads h kept again
  | box => exact box_again reads h kept refuses again
  | text => exact text_again reads h
  | button => exact button_again reads h
  | field => exact field_again reads h
  | form => exact form_again reads h again
  | table => exact table_again reads h

/-- The members that hold lists of children. -/
def childLists : List String := ["children", "fields", "actions"]

/-- A slot holds what was read from an object: an item of a list in it, or a child on its own. -/
inductive Filled (child : Shape Node) (o : Object) : Slot → Prop
  | listed {name : String} {items : List Value} {i : Nat} {v : Value} {n : Node} :
      name ∈ childLists → Keyed.get? o name = some (.list items) →
        items[i]? = some v → child v = .ok n → Filled child o ⟨name, some i, n⟩
  | alone {v : Value} {n : Node} :
      Keyed.get? o "child" = some v → child v = .ok n → Filled child o ⟨"child", none, n⟩

theorem Filled.read {t : Slot} (h : Filled child o t) : ∃ v, child v = .ok t.node := by
  cases h with
  | listed _ _ _ read => exact ⟨_, read⟩
  | alone _ read => exact ⟨_, read⟩

theorem listed_filled {name : String} (lists : name ∈ childLists) {cs : List Node}
    (reads : (optional (.plain name) (Shape.list child) []).Reads o cs) :
    ∀ t ∈ listSlots name cs, Filled child o t := by
  intro t ht
  obtain ⟨i, c, hi, rfl⟩ := Node.mem_listSlots.mp ht
  rcases reads_optional reads with ⟨-, rfl⟩ | ⟨used, v, found, hv⟩
  · cases hi
  · obtain ⟨hused, stands⟩ := Key.find?_eq_some found
    obtain rfl : used = name := by simpa [Key.names, Key.plain] using hused
    obtain ⟨items, rfl, each⟩ := Shape.list_eq_ok hv
    obtain ⟨v, item, read⟩ := getElem?_of_forall₂ each hi
    exact .listed lists stands item read

/-- The fields of a kind make a node of this kind around a header, and what is in its slots was
    read. -/
theorem content_filled {k : Kind} (reads : (content child k).Reads o c) (h : Header) :
    (c h).kind = k ∧ (c h).header = h ∧ ∀ t ∈ (c h).slots, Filled child o t := by
  cases k with
  | stack =>
    obtain ⟨f₁, cs, h₁, hcs, rfl⟩ := reads_seq.mp reads
    obtain ⟨s, -, rfl⟩ := reads_map.mp h₁
    exact ⟨rfl, rfl, listed_filled (by decide) hcs⟩
  | grid =>
    obtain ⟨f₁, cs, h₁, hcs, rfl⟩ := reads_seq.mp reads
    obtain ⟨g, -, rfl⟩ := reads_map.mp h₁
    exact ⟨rfl, rfl, listed_filled (by decide) hcs⟩
  | box =>
    obtain ⟨f₁, inner, h₁, hinner, rfl⟩ := reads_seq.mp reads
    obtain ⟨p, -, rfl⟩ := reads_map.mp h₁
    refine ⟨rfl, rfl, fun t ht => ?_⟩
    rcases reads_nullable hinner with rfl | ⟨used, v, n, rfl, found, hv⟩
    · cases ht
    · obtain rfl := List.mem_singleton.mp ht
      obtain ⟨hused, stands⟩ := Key.find?_eq_some found
      obtain rfl : used = "child" := List.mem_singleton.mp hused
      exact .alone stands hv
  | form =>
    obtain ⟨f₁, states, h₁, -, rfl⟩ := reads_seq.mp reads
    obtain ⟨f₂, actions, h₂, hactions, rfl⟩ := reads_seq.mp h₁
    obtain ⟨f₃, fields, h₃, hfields, rfl⟩ := reads_seq.mp h₂
    obtain ⟨title, -, rfl⟩ := reads_map.mp h₃
    refine ⟨rfl, rfl, fun t ht => ?_⟩
    rcases List.mem_append.mp ht with ht | ht
    · exact listed_filled (by decide) hfields t ht
    · exact listed_filled (by decide) hactions t ht
  | text | button | field | table =>
    obtain ⟨_, -, rfl⟩ := reads_map.mp reads
    exact ⟨rfl, rfl, fun _ ht => absurd ht List.not_mem_nil⟩

/-- The same by the children of the node. -/
theorem content_made {k : Kind} (reads : (content child k).Reads o c) (h : Header) :
    (c h).kind = k ∧ (c h).header = h ∧ ∀ n ∈ (c h).children, ∃ v, child v = .ok n := by
  obtain ⟨kind, header, filled⟩ := content_filled reads h
  refine ⟨kind, header, fun n hn => ?_⟩
  rw [← Node.slots_nodes] at hn
  obtain ⟨t, ht, rfl⟩ := List.mem_map.mp hn
  exact (filled t ht).read

theorem content_notes (k : Kind) : (content child k).Notes k.contentKeys := by
  cases k with
  | stack => exact ((((Notes.optional.map.seq .nullable).seq .nullable).seq .optional).seq
      .optional).map.seq .optional
  | grid => exact ((Notes.optional.map.seq .nullable).seq .nullable).map.seq .optional
  | box => exact Notes.nullable.map.seq .nullable
  | text => exact (((Notes.optional.map.seq .nullable).seq .nullable).seq .nullable).map
  | button => exact (Notes.optional.map.seq .nullable).map
  | field => exact ((((Notes.optional.map.seq .nullable).seq .nullable).seq .nullable).seq
      .nullable).map
  | form => exact ((Notes.nullable.map.seq .optional).seq .optional).seq .nullable
  | table => exact ((((Notes.nullable.map.seq .optional).seq .nullable).seq .nullable).seq
      .nullable).map

theorem node_notes (child : Shape Node) (k : Kind) : (node child k).Notes k.keys :=
  (header_notes.map.seq (content_notes k)).noted

end Reading

/-! ## Nodes -/

namespace Node

/-- What is read as a node: the fields of its header and of its kind, and the keys of these. -/
theorem node_reads {child : Shape Node} {k : Kind} {o : Object} {n : Node}
    (h : (node child k).Reads o n) : ∃ hd c, HeaderFields o hd ∧ (content child k).Reads o c ∧
      n = c { hd with given := Key.noted k.keys o } := by
  obtain ⟨f₀, h₀, rfl⟩ := (reads_noted_iff (node_notes child k)).mp h
  obtain ⟨f₁, c, h₁, hc, rfl⟩ := reads_seq.mp h₀
  obtain ⟨hd, hh, rfl⟩ := reads_map.mp h₁
  exact ⟨hd, c, header_reads hh, hc, rfl⟩

/-- A node that is read from an object is read again from what is written of it, whatever reads the
    children, as long as these are read again. -/
theorem node_again {child child' : Shape Node} {w : Writing} {k : Kind} {o : Object} {n : Node}
    (h : (node child k).Reads o n) (kept : n.Kept w) (refuses : ∀ b, child' .null ≠ .ok b)
    (again : Again child' w (writtenOf w n o) n.children) :
    (node child' k).Reads (writtenOf w n o) (n.noting w.noting) := by
  obtain ⟨hd, c, hhd, hc, rfl⟩ := node_reads h
  obtain ⟨kind, header, -⟩ := content_made hc { hd with given := Key.noted k.keys o }
  obtain ⟨c', hc', same⟩ := content_again hc _ kept refuses again
  have all := rewritten w (c { hd with given := Key.noted k.keys o }) kind
  have fields : HeaderFields (writtenOf w (c { hd with given := Key.noted k.keys o }) o)
      (hd.inside w.noting) := by
    rw [writtenOf, kind]
    rw [allFields, header] at all ⊢
    refine header_again w hhd all ?_ ?_
    · exact fun key hk => List.mem_cons_of_mem _ (List.mem_append_left _ hk)
    · have own := kept.overrides
      rwa [header] at own
  refine (reads_noted_iff (node_notes child' k)).mpr ⟨_, fields.reads.map.seq hc', ?_⟩
  have noted := all.noted (List.subset_cons_self _ k.keys) o w
  rw [← same, writtenOf, kind, noted]
  rfl

/-- An object that says its kind is read by the fields of this kind. -/
theorem readWithin_object {o : Object} {k : Kind} (tag : Keyed.get? o "type" = some (.text k.name))
    {d : Nat} {n : Node} (h : (node (readWithin d) k).Reads o n) :
    readWithin (d + 1) (.object o) = .ok n := by
  obtain ⟨given, h⟩ := h
  simp only [readWithin, tag, find?_name, Shape.underPlace_eq_ok]
  exact Result.map_eq_ok.mpr ⟨_, h, rfl⟩

theorem readWithin_refuses_null (d : Nat) : ∀ b, readWithin d .null ≠ .ok b := by
  intro b h
  cases d <;> cases h

/-- A tree that was read is read again from what is written of it. The induction is on how deep it
    may have been; how deep it may be the second time is what is written. -/
theorem readWithin_again (w : Writing) {d : Nat} {v : Value} {n : Node} (h : readWithin d v = .ok n)
    (kept : ∀ m ∈ n.allNodes, m.Kept w) {e : Nat} (room : (n.write w).depth ≤ e) :
    readWithin e (n.write w) = .ok (n.noting w.noting) := by
  induction d generalizing v n e with
  | zero =>
    obtain ⟨_, _, _, e, -⟩ := readWithin_eq_ok h
    cases e
  | succ d ih =>
    obtain ⟨_, o, k, same, rfl, tagged, reads⟩ := readWithin_eq_ok h
    cases same
    have tagged : (Keys.type.find? o).isSome := by
      simp only [Key.find?, Keys.type, Key.plain, tagged, Option.isSome_some]
    obtain ⟨hd, c, -, hc, made⟩ := node_reads reads
    obtain ⟨kind, header, children⟩ := content_made hc { hd with given := Key.noted k.keys o }
    rw [← made] at kind header children
    have all := rewritten w n kind
    have given : Key.noted n.kind.written o = "type" :: n.header.given := by
      rw [header, kind, Key.noted, Kind.written, List.filter_cons, if_pos tagged]
      rfl
    have object : n.write w = .object (writtenOf w n o) := by rw [write_eq, writtenOf, given]
    rw [object] at room ⊢
    obtain ⟨e, rfl⟩ : ∃ e', e = e' + 1 := ⟨e - 1, by simp only [Value.depth] at room; omega⟩
    have room : Value.depthMembers (writtenOf w n o) ≤ e := Nat.le_of_succ_le_succ room
    have tag : Keyed.get? (writtenOf w n o) "type" = some (.text k.name) := by
      have found := all.find?_fields List.mem_cons_self (v := .text k.name) (by rw [← kind]; rfl) o w
      rw [if_neg fun left => by rw [left.2] at tagged; cases tagged] at found
      rw [writtenOf, kind]
      exact (Key.find?_eq_some found).2
    refine readWithin_object tag (node_again reads (kept n n.mem_allNodes_self)
      (readWithin_refuses_null e) fun m hm within => ?_)
    obtain ⟨u, hu⟩ := children m hm
    exact ih hu (fun l hl => kept l (mem_allNodes_trans (mem_allNodes_child hm) hl))
      (Nat.le_trans within room)

/-! ## Kept keys -/

theorem noting_noting (g f : Noting) (n : Node) : (n.noting f).noting g = n.noting (g.after f) := by
  induction n using byChildren with
  | step n ih =>
    have each : ∀ ns : List Node, (∀ m ∈ ns, m ∈ n.children) →
        notingAll g (notingAll f ns) = notingAll (g.after f) ns := by
      intro ns within
      rw [notingAll_eq_map, notingAll_eq_map, notingAll_eq_map, List.map_map]
      exact List.map_congr_left fun m hm => ih m (within m hm)
    cases n with
    | stack h s cs => simp only [noting, Header.noting_noting, each cs fun _ hm => hm]
    | grid h s cs => simp only [noting, Header.noting_noting, each cs fun _ hm => hm]
    | box h p c =>
      cases c with
      | none => simp only [noting, notingChild, Header.noting_noting]
      | some c =>
        simp only [noting, notingChild, Header.noting_noting, ih c (List.mem_singleton.mpr rfl)]
    | form h c fs as =>
      simp only [noting, Header.noting_noting, each fs fun _ hm => List.mem_append_left _ hm,
        each as fun _ hm => List.mem_append_right _ hm]
    | table h t =>
      simp only [noting, Header.noting_noting, Option.map_map]
      rfl
    | text | button | field => simp only [noting, Header.noting_noting]

/-- A tree that keeps its keys is the same. -/
theorem noting_given (n : Node) : n.noting Writing.given.noting = n := by
  induction n using byChildren with
  | step n ih =>
    have each : ∀ ns : List Node, (∀ m ∈ ns, m ∈ n.children) →
        notingAll Writing.given.noting ns = ns := by
      intro ns within
      have own : ns.map (noting Writing.given.noting) = ns.map fun m => m :=
        List.map_congr_left fun m hm => ih m (within m hm)
      rw [notingAll_eq_map, own, List.map_id']
    cases n with
    | stack h s cs => simp only [noting, Header.noting_given, each cs fun _ hm => hm]
    | grid h s cs => simp only [noting, Header.noting_given, each cs fun _ hm => hm]
    | box h p c =>
      cases c with
      | none => simp only [noting, notingChild, Header.noting_given]
      | some c =>
        simp only [noting, notingChild, Header.noting_given, ih c (List.mem_singleton.mpr rfl)]
    | form h c fs as =>
      simp only [noting, Header.noting_given, each fs fun _ hm => List.mem_append_left _ hm,
        each as fun _ hm => List.mem_append_right _ hm]
    | table h t =>
      obtain ⟨title, columns, rows, responsive, states⟩ := t
      cases responsive with
      | none => simp only [noting, Header.noting_given, Option.map_none]
      | some r =>
        simp only [noting, Header.noting_given, Option.map_some]
        rfl
    | text | button | field => simp only [noting, Header.noting_given]

/-- The tree with its values alone, whichever of them were written. -/
def bare (n : Node) : Node := n.noting fun _ _ => []

theorem bare_noting (f : Noting) (n : Node) : (n.noting f).bare = n.bare := noting_noting _ f n

/-- A node that was read is read again from what is written of it: with the same values, and with
    the same keys when it is written with these. -/
theorem read_write (w : Writing) {v : Value} {n : Node} (h : read v = .ok n)
    (kept : ∀ m ∈ n.allNodes, m.Kept w) :
    ∃ m, read (n.write w) = .ok m ∧ m.bare = n.bare ∧ (w = .given → m = n) := by
  refine ⟨n.noting w.noting, readWithin_again w h kept (Nat.le_refl _), bare_noting _ n, ?_⟩
  rintro rfl
  exact n.noting_given

end Node

end Wireframe
