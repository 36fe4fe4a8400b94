import Wireframe.Command.Files
import Wireframe.Proofs.Result

/-
  Wireframe.Proofs.Command.Files — what writing to a file changes.

  A name is followed from directory to directory, so every place above the one that it leads to is a
  directory already. A text is written to a file that is there or to a new one, and never over a
  directory; after that its place is a file with this text, and all other places are what they were, the
  directories among them. So names lead on as before, and the file is read again by the name that it
  was written under, whether it was there before or not.

  Proved:
  - `reached_of_locate`: all is directories above the place that a name leads to.
  - `entity_of_write`: what is at each place after a text is written.
  - `read_of_write`: the file reads as what is written to it, and all others as before.
  - `write_new`: a text can be written wherever a name leads to nothing yet.
  - `read_elsewhere`: also names that lead to no file fail as before, when the file was there.
-/

namespace Wireframe.Command

/-- What is at a place, with another text if it is a file. -/
def Entity.retold (text : String) : Entity → Entity
  | file _ => file text
  | e => e

theorem Location.contains_iff {m l : Location} :
    m.contains l = true ↔ m.fromTop = l.fromTop ∧ m.steps <+: l.steps := by
  rw [contains, Bool.and_eq_true, beq_iff_eq, List.isPrefixOf_iff_prefix]

namespace Files

variable {fs gs : Files} {l m : Location} {name text : String}

/-! ## On the way to a place -/

/-- Every place above is a directory. -/
def Reached (fs : Files) (l : Location) : Prop :=
  ∀ m : Location, m.contains l = true → m ≠ l → fs.entity m = .directory

theorem Reached.upTo (reached : fs.Reached l) (here : fs.entity l = .directory)
    (above : m.contains l = true) : fs.entity m = .directory := by
  by_cases same : m = l
  · exact same ▸ here
  · exact reached m above same

/-- One step further down, or from the working directory out. -/
theorem Reached.snoc (reached : fs.Reached l) (here : fs.entity l = .directory) (s : String) :
    fs.Reached { l with steps := l.steps ++ [s] } := by
  intro m above other
  obtain ⟨top, steps⟩ := Location.contains_iff.mp above
  rcases List.prefix_concat_iff.mp steps with whole | before
  · exact absurd (Location.ext top whole) other
  · exact reached.upTo here (Location.contains_iff.mpr ⟨top, before⟩)

theorem Reached.step (reached : fs.Reached l) (here : fs.entity l = .directory) (s : String) :
    fs.Reached (l.step s) := by
  unfold Location.step
  split
  · exact reached.snoc here s
  · split
    · rename_i none
      have nil : l.steps = [] := List.getLast?_eq_none_iff.mp none
      split
      · exact reached
      · have out := reached.snoc here ".."
        rwa [nil] at out
    · split
      · exact reached.snoc here ".."
      · intro m above _
        obtain ⟨top, steps⟩ := Location.contains_iff.mp above
        exact reached.upTo here
          (Location.contains_iff.mpr ⟨top, steps.trans (List.dropLast_prefix _)⟩)

theorem reached_of_follow {steps : List String} :
    ∀ {m}, fs.Reached m → fs.follow m steps = .ok l → fs.Reached l := by
  induction steps with
  | nil =>
    intro m reached h
    cases h
    exact reached
  | cons s rest ih =>
    intro m reached h
    unfold follow at h
    split at h
    · cases h
    · cases h
    · rename_i here
      split at h
      · cases h
      · exact ih (reached.step here s) h

/-- A name leads to a place by directories. -/
theorem reached_of_locate (h : fs.locate name = .ok l) : fs.Reached l := by
  unfold locate at h
  split at h
  · cases h
  split at h
  · cases h
  split at h
  · cases h
  refine reached_of_follow (fun m above other => ?_) h
  obtain ⟨top, steps⟩ := Location.contains_iff.mp above
  exact absurd (Location.ext top (List.prefix_nil.mp steps)) other

/-! ## What is written -/

theorem replaced_place (l : Location) (text : String) (f : Location × String) :
    (if f.1 == l then (l, text) else f).1 = f.1 := by
  split
  · exact (eq_of_beq ‹_›).symm
  · rfl

theorem text?_replaced (fs : Files) (l m : Location) (text : String) :
    (fs.replaced l text).text? m =
      if m = l then (fs.text? m).map fun _ => text else fs.text? m := by
  simp only [text?, replaced, List.find?_map, Function.comp_def, replaced_place, Option.map_map]
  cases h : fs.texts.find? (·.1 == m) with
  | none => simp
  | some f =>
    have here : f.1 = m := eq_of_beq (List.find?_some h :)
    by_cases same : m = l
    · simp [here, same]
    · simp [here, same]

theorem isDirectory_replaced (fs : Files) (l m : Location) (text : String) :
    (fs.replaced l text).isDirectory m = fs.isDirectory m := by
  simp only [isDirectory, replaced, List.any_map, Function.comp_def, replaced_place]

/-- A file that is there gets another text, and nothing else changes. -/
theorem entity_replaced {old : String} (file : fs.entity l = .file old) (text : String) (m : Location) :
    (fs.replaced l text).entity m = if m = l then .file text else fs.entity m := by
  unfold entity at file ⊢
  rw [text?_replaced, isDirectory_replaced]
  by_cases same : m = l
  · subst same
    cases told : fs.text? m with
    | none =>
      simp only [told] at file
      split at file <;> cases file
    | some t => simp
  · simp only [if_neg same]

/-- Where there is nothing, a new text is found and changes no other one. -/
theorem text?_added (free : fs.text? l = none) (text : String) (m : Location) :
    (fs.added l text).text? m = if m = l then some text else fs.text? m := by
  simp only [text?, added, List.find?_append, List.find?_singleton]
  by_cases same : m = l
  · subst same
    rw [Option.map_eq_none_iff.mp free]
    simp
  · have other : (l == m) = false := beq_eq_false_iff_ne.mpr (Ne.symm same)
    simp only [other, Bool.false_eq_true, if_false, Option.or_none, if_neg same]

theorem isDirectory_added (fs : Files) (l m : Location) (text : String) :
    (fs.added l text).isDirectory m = (fs.isDirectory m || m.contains l) := by
  simp only [isDirectory, added, List.any_append, List.any_cons, List.any_nil, Bool.or_false]
  ac_rfl

/-- A new file is at a place where there was nothing. The places around it were directories before, so
    nothing else changes. -/
theorem entity_added (reached : fs.Reached l) (free : fs.entity l = .nothing) (text : String)
    (m : Location) : (fs.added l text).entity m = if m = l then .file text else fs.entity m := by
  have untold : fs.text? l = none := by
    cases told : fs.text? l with
    | none => rfl
    | some t => simp [entity, told] at free
  by_cases same : m = l
  · rw [entity, text?_added untold, if_pos same, if_pos same]
  · rw [if_neg same]
    cases above : m.contains l with
    | false =>
      simp only [entity, text?_added untold, if_neg same, isDirectory_added, above, Bool.or_false]
    | true =>
      have here := reached m above same
      rw [here]
      unfold entity at here ⊢
      rw [text?_added untold, if_neg same, isDirectory_added, above, Bool.or_true]
      cases told : fs.text? m with
      | none => rfl
      | some t => simp [told] at here

/-- A text is written to a new file where there is nothing yet. -/
theorem write_new (located : fs.locate name = .ok l) (free : fs.entity l = .nothing) (text : String) :
    fs.write name text = .ok (fs.added l text) := by
  simp only [write, located, free, bind, Except.bind]
  rfl

/-- After a text is written its place is a file with this text, where no directory was before, and all
    other places are what they were. -/
theorem entity_of_write (written : fs.write name text = .ok gs) : ∃ l, fs.locate name = .ok l ∧
    fs.entity l ≠ .directory ∧ ∀ m, gs.entity m = if m = l then .file text else fs.entity m := by
  obtain ⟨l, located, written⟩ := Result.bind_eq_ok.mp written
  refine ⟨l, located, ?_⟩
  split at written
  · cases written
  · rename_i old file
    cases written
    exact ⟨by rw [file]; nofun, entity_replaced file text⟩
  · rename_i free
    cases written
    exact ⟨by rw [free]; nofun, entity_added (reached_of_locate located) free text⟩

/-! ## What is read -/

theorem read_eq_ok {old : String} :
    fs.read name = .ok old ↔ ∃ l, fs.locate name = .ok l ∧ fs.entity l = .file old := by
  simp only [read, Result.bind_eq_ok]
  refine exists_congr fun l => and_congr_right fun _ => ?_
  cases fs.entity l with
  | file t => exact ⟨fun h => by cases h; rfl, fun h => by cases h; rfl⟩
  | directory => exact ⟨nofun, nofun⟩
  | nothing => exact ⟨nofun, nofun⟩

/-- Where the same places are directories, names lead to the same places. -/
theorem follow_eq_ok_congr (same : ∀ m, gs.entity m = .directory ↔ fs.entity m = .directory)
    (steps : List String) : ∀ m, gs.follow m steps = .ok l ↔ fs.follow m steps = .ok l := by
  induction steps with
  | nil => exact fun _ => Iff.rfl
  | cons s rest ih =>
    intro m
    by_cases here : fs.entity m = .directory
    · simp only [follow, here, (same m).mpr here]
      split
      · rfl
      · exact ih (m.step s)
    · have there : gs.entity m ≠ .directory := mt (same m).mp here
      have ends : ∀ {hs : Files}, hs.entity m ≠ .directory → hs.follow m (s :: rest) ≠ .ok l := by
        intro hs other h
        unfold follow at h
        split at h
        · cases h
        · cases h
        · exact other ‹_›
      exact iff_of_false (ends there) (ends here)

theorem locate_eq_ok_congr (same : ∀ m, gs.entity m = .directory ↔ fs.entity m = .directory) :
    gs.locate name = .ok l ↔ fs.locate name = .ok l := by
  unfold locate
  split
  · rfl
  split
  · rfl
  split
  · rfl
  exact follow_eq_ok_congr same _ _

/-- A file reads as the text that was written to it, by all of its names and also when it is new, and
    every other file reads as before. -/
theorem read_of_write (written : fs.write name text = .ok gs) :
    (∀ same, fs.locate same = fs.locate name → gs.read same = .ok text) ∧
    ∀ other, fs.locate other ≠ fs.locate name → ∀ t, gs.read other = .ok t ↔ fs.read other = .ok t := by
  obtain ⟨l, located, free, entities⟩ := entity_of_write written
  have same : ∀ m, gs.entity m = .directory ↔ fs.entity m = .directory := by
    intro m
    rw [entities]
    split
    · rename_i here
      exact iff_of_false nofun (here ▸ free)
    · rfl
  refine ⟨fun other leads => ?_, fun other apart t => ?_⟩
  · refine read_eq_ok.mpr ⟨l, (locate_eq_ok_congr same).mpr (leads.trans located), ?_⟩
    rw [entities, if_pos rfl]
  · rw [read_eq_ok, read_eq_ok]
    refine exists_congr fun m => ?_
    rw [locate_eq_ok_congr same]
    refine and_congr_right fun leads => ?_
    have elsewhere : m ≠ l := by
      rintro rfl
      exact apart (leads.trans located.symm)
    rw [entities, if_neg elsewhere]

/-- Where the same places are files and directories, names lead to the same places or fail alike. -/
theorem locate_congr (alike : ∀ m, (gs.entity m).retold "" = (fs.entity m).retold "") (name : String) :
    gs.locate name = fs.locate name := by
  have follows : ∀ steps m, gs.follow m steps = fs.follow m steps := by
    intro steps
    induction steps with
    | nil => exact fun _ => rfl
    | cons s rest ih =>
      intro m
      have kind := alike m
      simp only [follow, ih]
      cases there : gs.entity m <;> cases here : fs.entity m <;>
        simp_all [Entity.retold]
  simp only [locate, follows]

/-- When a text is written to a file that was there, every name that leads elsewhere reads as before,
    also where nothing is read. -/
theorem read_elsewhere {old : String} (written : fs.write name text = .ok gs)
    (there : fs.read name = .ok old) (other : String) (apart : fs.locate other ≠ fs.locate name) :
    gs.read other = fs.read other := by
  obtain ⟨l, located, file⟩ := read_eq_ok.mp there
  obtain ⟨_, located', -, entities⟩ := entity_of_write written
  obtain rfl := Except.ok.inj (located.symm.trans located')
  have alike : ∀ m, (gs.entity m).retold "" = (fs.entity m).retold "" := by
    intro m
    rw [entities m]
    split
    · rename_i here
      rw [here, file]
      rfl
    · rfl
  rw [read, read, locate_congr alike]
  refine Result.bind_congr_ok fun m leads => ?_
  have elsewhere : m ≠ l := by
    rintro rfl
    exact apart (leads.trans located.symm)
  rw [entities, if_neg elsewhere]

end Files

end Wireframe.Command
