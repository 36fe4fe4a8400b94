import Wireframe.Proofs.Node.Document

/-
  Wireframe.Proofs.Scaffold — scaffolds that were written are read again.

  A scaffold is written and read like the records of a node, except for the sizes of what can be
  touched. Their default is a whole number, and numbers are read as doubles: written with every
  field, a default comes back as the double that is equal to it. Written with what was given, it is
  not written, and comes back as it was.

  Proved:
  - `touchTarget_again`, `settings_again`, `screen_again`: the records of a scaffold.
  - `Scaffold.read_write`: what is read of a scaffold as it is written.
  - `Scaffold.Unchanged.document`: a scaffold of which nothing has to be changed is handed out.
-/

namespace Wireframe

open Reading

/-- The same number, or one that is equal to it. -/
def Number.SameValue (a b : Number) : Prop := a = b ∨ a.same b = true

/-! ## Fields -/

namespace Rewritten

variable {α : Type} {keys : List Key} {all o : Object} {key : Key} {v : Value} {w : Writing}

/-- A number that may be left out is read again: a default as what it is read as, and every other
    number is a double and the same. -/
theorem number (h : Rewritten keys all) (hk : key ∈ keys) {default a : Number}
    (reads : (Reading.optional key Shape.number default).Reads o a)
    (value : Keyed.get? all key.camel = some (.number a))
    (own : ∃ b, Shape.number (.number default) = .ok b ∧ b.SameValue default) :
    ∃ b, (Reading.optional key Shape.number default).Reads (w.fields (Key.noted keys o) all) b ∧
      b.SameValue a ∧ (w = .given → b = a) := by
  rcases reads_optional reads with ⟨absent, rfl⟩ | ⟨used, u, found, hu⟩
  · have again := h.find?_fields hk value o w
    by_cases given : w = .given
    · rw [if_pos ⟨given, absent⟩] at again
      exact ⟨_, reads_optional_of_none again, .inl rfl, fun _ => rfl⟩
    · rw [if_neg fun both => given both.1] at again
      obtain ⟨b, hb, same⟩ := own
      exact ⟨b, reads_optional_of_find? again hb, same, fun same => absurd same given⟩
  · obtain ⟨x, -, rfl⟩ := Result.map_eq_ok.mp hu
    exact ⟨_, h.same hk reads value rfl, .inl rfl, fun _ => rfl⟩

/-- A field whose values are read again as values that are alike. -/
theorem alike (h : Rewritten keys all) (hk : key ∈ keys) {shape : Shape α} {default a : α}
    {like : α → α → Prop} (reads : (Reading.optional key shape default).Reads o a)
    (value : Keyed.get? all key.camel = some v)
    (again : ∃ b, shape v = .ok b ∧ like b a ∧ (w = .given → b = a)) :
    ∃ b, (Reading.optional key shape default).Reads (w.fields (Key.noted keys o) all) b ∧
      like b a ∧ (w = .given → b = a) := by
  obtain ⟨b, hb, same, own⟩ := again
  exact ⟨b, h.optional hk reads value (fun given stays => (own given).trans stays) fun _ => hb,
    same, own⟩

end Rewritten

/-- A value of a field was read, also where the field is left out and its default can be read. -/
theorem Reading.Reads.exists_read {α : Type} {key : Key} {shape : Shape α} {default a : α}
    {o : Object} (h : (optional key shape default).Reads o a) {u : Value}
    (own : shape u = .ok default) : ∃ v, shape v = .ok a := by
  rcases reads_optional h with ⟨-, rfl⟩ | ⟨_, v, -, hv⟩
  · exact ⟨u, own⟩
  · exact ⟨v, hv⟩

/-! ## Settings -/

def TouchTarget.keys : List Key := [Keys.width, Keys.height]

/-- The same sizes, whether or not they were written. -/
structure TouchTarget.SameValues (t u : TouchTarget) : Prop where
  w : t.w.SameValue u.w
  h : t.h.SameValue u.h

def Settings.keys : List Key :=
  [⟨"spacingScale", "spacing_scale"⟩, ⟨"minTouchTarget", "min_touch_target"⟩, .plain "breakpoints"]

/-- The same settings, whether or not they were written. -/
structure Settings.SameValues (s t : Settings) : Prop where
  spacingScale : s.spacingScale = t.spacingScale
  minTouchTarget : s.minTouchTarget.SameValues t.minTouchTarget
  breakpoints : s.breakpoints = t.breakpoints

namespace Reading

variable {w : Writing} {v : Value}

theorem touchTarget_notes : touchTarget.Notes TouchTarget.keys :=
  (Notes.optional.map.seq .optional).noted

theorem settings_notes : settings.Notes Settings.keys :=
  ((Notes.optional.map.seq .optional).seq .optional).noted

theorem standard_size_again :
    ∃ b, Shape.number (.number (.int 44)) = .ok b ∧ b.SameValue (.int 44) :=
  ⟨.float (Float.ofInt 44), rfl, .inr (by decide +kernel)⟩

theorem touchTarget_again {t : TouchTarget} (h : TouchTarget.read v = .ok t) :
    ∃ u, TouchTarget.read (t.write w) = .ok u ∧ u.SameValues t ∧ (w = .given → u = t) := by
  obtain ⟨o, rfl, reads⟩ := record_eq_ok h
  obtain ⟨f₀, h₀, rfl⟩ := (reads_noted_iff touchTarget_notes).mp reads
  obtain ⟨f₁, height, h₁, hheight, rfl⟩ := reads_seq.mp h₀
  obtain ⟨width, hwidth, rfl⟩ := reads_map.mp h₁
  have all : Rewritten TouchTarget.keys [("w", .number width), ("h", .number height)] :=
    ⟨by decide, rfl⟩
  obtain ⟨width', hwidth', sameWidth, ownWidth⟩ :=
    all.number (w := w) (by decide) hwidth rfl standard_size_again
  obtain ⟨height', hheight', sameHeight, ownHeight⟩ :=
    all.number (w := w) (by decide) hheight rfl standard_size_again
  have fields := (reads_noted_iff touchTarget_notes).mpr ⟨_, hwidth'.map.seq hheight', rfl⟩
  refine ⟨_, Reads.record "TouchTarget" fields, ⟨sameWidth, sameHeight⟩, ?_⟩
  rintro rfl
  rw [all.noted (List.Subset.refl _), ownWidth rfl, ownHeight rfl]
  rfl

theorem touchTarget_standard : TouchTarget.read (.object []) = .ok TouchTarget.standard := rfl

theorem settings_again {s : Settings} (h : Shape.record "Settings" settings v = .ok s)
    (kept : ∀ x ∈ s.spacingScale, Spacing.read (x.write w) = .ok x) :
    ∃ t, Shape.record "Settings" settings (s.write w) = .ok t ∧ t.SameValues s ∧
      (w = .given → t = s) := by
  obtain ⟨o, rfl, reads⟩ := record_eq_ok h
  obtain ⟨f₀, h₀, rfl⟩ := (reads_noted_iff settings_notes).mp reads
  obtain ⟨f₁, breakpoints, h₁, hbreakpoints, rfl⟩ := reads_seq.mp h₀
  obtain ⟨f₂, target, h₂, htarget, rfl⟩ := reads_seq.mp h₁
  obtain ⟨scale, hscale, rfl⟩ := reads_map.mp h₂
  have all : Rewritten Settings.keys [("spacingScale", .list (scale.map (Spacing.write w))),
      ("minTouchTarget", target.write w), ("breakpoints", .texts breakpoints)] :=
    ⟨by decide, rfl⟩
  have scale_again : Shape.list Spacing.read (.list (scale.map (Spacing.write w))) = .ok scale := by
    have again : Shape.list Spacing.read (.list (scale.map (Spacing.write w))) =
        .ok (scale.map id) := Shape.list_map kept
    rwa [List.map_id] at again
  have hscale := all.same (w := w) (by decide) hscale rfl scale_again
  obtain ⟨u, hu⟩ := htarget.exists_read touchTarget_standard
  obtain ⟨target', htarget', sameTarget, ownTarget⟩ :=
    all.alike (w := w) (by decide) htarget rfl (touchTarget_again hu)
  have hbreakpoints := all.same (w := w) (by decide) hbreakpoints rfl (Shape.list_texts breakpoints)
  have fields := (reads_noted_iff settings_notes).mpr
    ⟨_, (hscale.map.seq htarget').seq hbreakpoints, rfl⟩
  refine ⟨_, Reads.record "Settings" fields, ⟨rfl, sameTarget, rfl⟩, ?_⟩
  rintro rfl
  rw [all.noted (List.Subset.refl _), ownTarget rfl]
  rfl

theorem settings_standard :
    Shape.record "Settings" settings (.object []) = .ok Settings.standard := rfl

end Reading

/-! ## Screens -/

def Screen.keys : List Key := [Keys.id, Keys.title, .plain "root"]

/-- The same screen, whether or not its fields were written. -/
structure Screen.SameValues (s t : Screen) : Prop where
  id : s.id = t.id
  title : s.title = t.title
  root : s.root.bare = t.root.bare

namespace Reading

variable {w : Writing} {v : Value}

theorem screen_notes : screen.Notes Screen.keys :=
  ((Notes.required.map.seq .nullable).seq .required).noted

theorem screen_again {s : Screen} (h : Shape.record "Screen" screen v = .ok s)
    (kept : ∀ m ∈ s.root.allNodes, m.Kept w) :
    ∃ t, Shape.record "Screen" screen (s.write w) = .ok t ∧ t.SameValues s ∧
      (w = .given → t = s) := by
  obtain ⟨o, rfl, reads⟩ := record_eq_ok h
  obtain ⟨f₀, h₀, rfl⟩ := (reads_noted_iff screen_notes).mp reads
  obtain ⟨f₁, root, h₁, hroot, rfl⟩ := reads_seq.mp h₀
  obtain ⟨f₂, title, h₂, htitle, rfl⟩ := reads_seq.mp h₁
  obtain ⟨id, hid, rfl⟩ := reads_map.mp h₂
  have all : Rewritten Screen.keys [("id", .text id), ("title", .orNull .text title),
      ("root", root.write w)] :=
    ⟨by decide, rfl⟩
  obtain ⟨_, u, -, hu⟩ := reads_required.mp hroot
  obtain ⟨root', again, sameRoot, ownRoot⟩ := Node.read_write w hu kept
  have hid := all.required (w := w) (by decide) hid rfl rfl
  have htitle := all.nullable (w := w) (by decide) htitle rfl nofun fun _ _ => rfl
  have hroot := all.required (w := w) (by decide) hroot rfl again
  have fields := (reads_noted_iff screen_notes).mpr ⟨_, (hid.map.seq htitle).seq hroot, rfl⟩
  refine ⟨_, Reads.record "Screen" fields, ⟨rfl, rfl, sameRoot⟩, ?_⟩
  rintro rfl
  rw [all.noted (List.Subset.refl _), ownRoot rfl]
  rfl

end Reading

/-! ## Scaffolds -/

namespace Scaffold

def keys : List Key := [⟨"schemaVersion", "schema_version"⟩, .plain "screen", .plain "settings"]

/-- The same scaffold, whether or not its fields were written. -/
structure SameValues (s t : Scaffold) : Prop where
  schemaVersion : s.schemaVersion = t.schemaVersion
  screen : s.screen.SameValues t.screen
  settings : s.settings.SameValues t.settings

/-- Nothing of the scaffold has to be changed in a document. -/
structure Unchanged (s : Scaffold) : Prop where
  root : s.screen.root.Unchanged
  scale : Spacing.unlike ∉ s.settings.spacingScale

theorem scaffold_notes : Reading.scaffold.Notes keys :=
  ((Notes.optional.map.seq .required).seq .optional).noted

/-- A scaffold that was read is read again from what is written of it: with the same values, and as
    it was when what was given is written. -/
theorem read_write (w : Writing) {v : Value} {s : Scaffold} (h : read v = .ok s)
    (kept : w = .exact ∨ s.Unchanged) :
    ∃ t, read (s.write w) = .ok t ∧ t.SameValues s ∧ (w = .given → t = s) := by
  obtain ⟨o, rfl, reads⟩ := record_eq_ok h
  obtain ⟨f₀, h₀, rfl⟩ := (reads_noted_iff scaffold_notes).mp reads
  obtain ⟨f₁, settings, h₁, hsettings, rfl⟩ := reads_seq.mp h₀
  obtain ⟨f₂, screen, h₂, hscreen, rfl⟩ := reads_seq.mp h₁
  obtain ⟨version, hversion, rfl⟩ := reads_map.mp h₂
  have all : Rewritten keys [("schemaVersion", .text version), ("screen", screen.write w),
      ("settings", settings.write w)] :=
    ⟨by decide, rfl⟩
  obtain ⟨_, u, -, hu⟩ := reads_required.mp hscreen
  obtain ⟨screen', again, sameScreen, ownScreen⟩ :=
    screen_again hu (Node.kept_of (kept.imp_right (·.root)))
  have scale_kept : ∀ x ∈ settings.spacingScale, Spacing.read (x.write w) = .ok x := fun x hx =>
    Node.spacing_again fun same => kept.resolve_right fun unchanged => unchanged.scale (same ▸ hx)
  obtain ⟨u', hu'⟩ := hsettings.exists_read settings_standard
  obtain ⟨settings', hsettings', sameSettings, ownSettings⟩ :=
    all.alike (w := w) (by decide) hsettings rfl (settings_again hu' scale_kept)
  have hversion := all.same (w := w) (by decide) hversion rfl rfl
  have hscreen := all.required (w := w) (by decide) hscreen rfl again
  have fields := (reads_noted_iff scaffold_notes).mpr
    ⟨_, (hversion.map.seq hscreen).seq hsettings', rfl⟩
  refine ⟨_, Reads.record "Scaffold" fields, ⟨rfl, sameScreen, sameSettings⟩, ?_⟩
  rintro rfl
  rw [all.noted (List.Subset.refl _), ownScreen rfl, ownSettings rfl]
  rfl

/-! ## Documents -/

theorem settings_noHalf (w : Writing) (s : Settings) : (s.write w).hasHalfKey = false := by
  have target : (s.minTouchTarget.write w).hasHalfKey = false := by
    refine w.record_noHalf _ TouchTarget.keys rfl (by decide +kernel) ?_
    simp only [List.forall_mem_cons]
    exact ⟨rfl, rfl, List.forall_mem_nil _⟩
  have scale : (Value.list (s.spacingScale.map (Spacing.write w))).hasHalfKey = false := by
    refine Value.list_noHalf fun v hv => ?_
    obtain ⟨x, -, rfl⟩ := List.mem_map.mp hv
    exact Value.spacing_noHalf w x
  refine w.record_noHalf _ Settings.keys rfl (by decide +kernel) ?_
  simp only [List.forall_mem_cons]
  exact ⟨scale, target, Value.texts_noHalf s.breakpoints, List.forall_mem_nil _⟩

theorem screen_noHalf (w : Writing) {s : Screen} (h : s.root.Unchanged) :
    (s.write w).hasHalfKey = false := by
  refine w.record_noHalf _ Screen.keys rfl (by decide +kernel) ?_
  simp only [List.forall_mem_cons]
  exact ⟨rfl, Value.orNull_noHalf fun _ _ => rfl, Node.write_noHalf w h, List.forall_mem_nil _⟩

/-- A scaffold of which nothing has to be changed is handed out. -/
theorem Unchanged.document {s : Scaffold} (h : s.Unchanged) (w : Writing) :
    s.document w = .ok (s.write w) := by
  have noHalf : (s.write w).hasHalfKey = false := by
    refine w.record_noHalf _ keys rfl (by decide +kernel) ?_
    simp only [List.forall_mem_cons]
    exact ⟨rfl, screen_noHalf w h.root, settings_noHalf w s.settings, List.forall_mem_nil _⟩
  rw [Scaffold.document, Value.handedOut, noHalf, if_neg Bool.false_ne_true]

end Scaffold

end Wireframe
