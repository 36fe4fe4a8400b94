import Wireframe.Trail
import Mathlib.Data.List.Forall2

/-
  Wireframe.Proofs.Trail — what computations that leave notes come to.

  A computation in steps comes to what its last step comes to, when every step before it comes to
  something; and it fails as its first step that fails does.
-/

namespace Wireframe.Trail

variable {ω ε ε' α β : Type}

@[simp] theorem result_done (a : α) : (done a : Trail ω ε α).result = .ok a := rfl
@[simp] theorem result_pure (a : α) : (pure a : Trail ω ε α).result = .ok a := rfl
@[simp] theorem result_note (w : ω) : (note w : Trail ω ε Unit).result = .ok () := rfl
@[simp] theorem result_leave (ws : List ω) : (leave ws : Trail ω ε Unit).result = .ok () := rfl
@[simp] theorem result_ofExcept (r : Except ε α) : (ofExcept r : Trail ω ε α).result = r := rfl

@[simp] theorem done_bind (a : α) (f : α → Trail ω ε β) : (done a >>= f) = f a := by
  show bind (done a) f = f a
  simp only [bind, done, List.nil_append]

theorem result_bind (t : Trail ω ε α) (f : α → Trail ω ε β) :
    (t >>= f).result = t.result >>= fun a => (f a).result := by
  show (bind t f).result = _
  unfold bind
  cases t.result <;> rfl

@[simp] theorem result_bind_eq_ok {t : Trail ω ε α} {f : α → Trail ω ε β} {b : β} :
    (t >>= f).result = .ok b ↔ ∃ a, t.result = .ok a ∧ (f a).result = .ok b := by
  show (bind t f).result = .ok b ↔ _
  unfold bind
  cases h : t.result with
  | ok a => simp
  | error e => simp

theorem notes_bind {t : Trail ω ε α} {f : α → Trail ω ε β} {a : α} (h : t.result = .ok a) :
    (t >>= f).notes = t.notes ++ (f a).notes := by
  show (bind t f).notes = _
  simp only [bind, h]

theorem notes_subset_bind (t : Trail ω ε α) (f : α → Trail ω ε β) : t.notes ⊆ (t >>= f).notes := by
  show t.notes ⊆ (bind t f).notes
  unfold bind
  cases t.result with
  | ok a => exact List.subset_append_left _ _
  | error e => exact List.Subset.refl _

/-- A note that is left only under a condition changes nothing of what comes after. -/
theorem result_ite_note {p : Prop} [Decidable p] (w : ω) (t : Trail ω ε β) :
    (if p then (note w >>= fun _ => t) else t).result = t.result := by
  split
  · rfl
  · rfl

theorem notes_ite_note {p : Prop} [Decidable p] (w : ω) (t : Trail ω ε β) :
    (if p then (note w >>= fun _ => t) else t).notes = (if p then [w] else []) ++ t.notes := by
  split
  · exact notes_bind (result_note w)
  · rfl

/-- What a computation is turned into makes no difference to what is noted. -/
theorem notes_bind_pure (t : Trail ω ε α) (f : α → β) :
    (t >>= fun a => (pure (f a) : Trail ω ε β)).notes = t.notes := by
  show (bind t _).notes = _
  unfold bind
  cases t.result with
  | ok a => exact List.append_nil _
  | error e => rfl

theorem result_bind_eq_error {t : Trail ω ε α} {f : α → Trail ω ε β} {e : ε} :
    (t >>= f).result = .error e ↔
      t.result = .error e ∨ ∃ a, t.result = .ok a ∧ (f a).result = .error e := by
  show (bind t f).result = .error e ↔ _
  unfold bind
  cases h : t.result with
  | ok a => simp
  | error e => simp

/-- What comes after a computation matters only for what this comes to. -/
theorem bind_congr_ok {t : Trail ω ε α} {f g : α → Trail ω ε β}
    (h : ∀ a, t.result = .ok a → f a = g a) : (t >>= f) = (t >>= g) := by
  show bind t f = bind t g
  unfold bind
  cases ht : t.result with
  | error e => rfl
  | ok a => simp only [h a ht]

/-! ## What is noted -/

/-- Nothing is noted but what has a property. -/
def OnlyNotes (P : ω → Prop) (t : Trail ω ε α) : Prop := ∀ w ∈ t.notes, P w

section

variable {P : ω → Prop} {t : Trail ω ε α}

theorem onlyNotes_done (a : α) : (done a : Trail ω ε α).OnlyNotes P := nofun

theorem onlyNotes_ofExcept (r : Except ε α) : (ofExcept r : Trail ω ε α).OnlyNotes P := nofun

theorem onlyNotes_note {w : ω} (h : P w) : (note w : Trail ω ε Unit).OnlyNotes P :=
  fun _ hw => List.mem_singleton.mp hw ▸ h

theorem OnlyNotes.bind {f : α → Trail ω ε β} (h : t.OnlyNotes P)
    (hf : ∀ a, t.result = .ok a → (f a).OnlyNotes P) : (t >>= f).OnlyNotes P := by
  intro w hw
  change w ∈ (Trail.bind t f).notes at hw
  unfold Trail.bind at hw
  cases ha : t.result with
  | ok a =>
    rw [ha] at hw
    rcases List.mem_append.mp hw with hw | hw
    · exact h w hw
    · exact hf a ha w hw
  | error e =>
    rw [ha] at hw
    exact h w hw

theorem OnlyNotes.ite_note {p : Prop} [Decidable p] {w : ω} (hw : P w) (h : t.OnlyNotes P) :
    (if p then (note w >>= fun _ => t) else t).OnlyNotes P := by
  split
  · exact (onlyNotes_note hw).bind fun _ _ => h
  · exact h

end

/-! ## One computation for every item -/

theorem each_congr {f g : α → Trail ω ε β} {as : List α} (h : ∀ a ∈ as, f a = g a) :
    each f as = each g as := by
  induction as with
  | nil => rfl
  | cons a rest ih =>
    simp only [each, h a List.mem_cons_self, ih fun b hb => h b (List.mem_cons_of_mem a hb)]

theorem each_result_congr {f g : α → Trail ω ε β} {as : List α}
    (h : ∀ a ∈ as, (f a).result = (g a).result) : (each f as).result = (each g as).result := by
  induction as with
  | nil => rfl
  | cons a rest ih =>
    simp only [each, result_bind, h a List.mem_cons_self,
      ih fun b hb => h b (List.mem_cons_of_mem a hb), result_pure]

theorem each_done {f : α → Trail ω ε α} {as : List α} (h : ∀ a ∈ as, f a = done a) :
    each f as = done as := by
  induction as with
  | nil => rfl
  | cons a rest ih =>
    simp only [each, h a List.mem_cons_self, ih fun b hb => h b (List.mem_cons_of_mem a hb), done_bind]
    rfl

theorem each_eq_ok {f : α → Trail ω ε β} {as : List α} {bs : List β}
    (h : (each f as).result = .ok bs) : List.Forall₂ (fun a b => (f a).result = .ok b) as bs := by
  induction as generalizing bs with
  | nil => cases h; exact .nil
  | cons a rest ih =>
    simp only [each, result_bind_eq_ok, result_pure] at h
    obtain ⟨b, hb, more, hmore, e⟩ := h
    cases e
    exact .cons hb (ih hmore)

theorem each_append_eq_error {f : α → Trail ω ε β} {as bs : List α} {e : ε} :
    (each f (as ++ bs)).result = .error e ↔ (each f as).result = .error e ∨
      ∃ cs, (each f as).result = .ok cs ∧ (each f bs).result = .error e := by
  induction as with
  | nil => simp [each]
  | cons a rest ih =>
    simp only [List.cons_append, each, result_bind_eq_error, result_bind_eq_ok, result_pure, ih,
      reduceCtorEq, and_false, exists_false, or_false]
    constructor
    · rintro (h | ⟨b, hb, h | ⟨cs, hcs, h⟩⟩)
      · exact .inl (.inl h)
      · exact .inl (.inr ⟨b, hb, h⟩)
      · exact .inr ⟨b :: cs, ⟨b, hb, cs, hcs, rfl⟩, h⟩
    · rintro ((h | ⟨b, hb, h⟩) | ⟨_, ⟨b, hb, cs, hcs, -⟩, h⟩)
      · exact .inl h
      · exact .inr ⟨b, hb, .inl h⟩
      · exact .inr ⟨b, hb, .inr ⟨cs, hcs, h⟩⟩

/-- The items fail as the first one does that fails. -/
theorem each_eq_error {f : α → Trail ω ε β} {as : List α} {e : ε} :
    (each f as).result = .error e ↔ ∃ before a after, as = before ++ a :: after ∧
      (∀ b ∈ before, ∃ c, (f b).result = .ok c) ∧ (f a).result = .error e := by
  induction as with
  | nil =>
    constructor
    · intro h; cases h
    · rintro ⟨before, a, after, h, -⟩
      exact absurd h (by simp)
  | cons a rest ih =>
    simp only [each, result_bind_eq_error, result_pure, reduceCtorEq, and_false, exists_false,
      or_false, ih]
    constructor
    · rintro (h | ⟨c, hc, before, a', after, rfl, ok, h⟩)
      · exact ⟨[], a, rest, rfl, by simp, h⟩
      · refine ⟨a :: before, a', after, rfl, fun b hb => ?_, h⟩
        rcases List.mem_cons.mp hb with rfl | hb
        · exact ⟨c, hc⟩
        · exact ok b hb
    · rintro ⟨before, a', after, halves, ok, h⟩
      cases before with
      | nil => cases halves; exact .inl h
      | cons b before =>
        cases halves
        obtain ⟨c, hc⟩ := ok a List.mem_cons_self
        exact .inr ⟨c, hc, before, a', after, rfl, fun b hb => ok b (List.mem_cons_of_mem a hb), h⟩

end Wireframe.Trail
