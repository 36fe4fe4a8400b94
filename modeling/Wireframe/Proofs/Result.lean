import Mathlib.Data.List.Forall2

/-
  Wireframe.Proofs.Result — when a computation that may fail comes to something.

  Steps come to what the last of them comes to, when every one before it comes to something.
-/

namespace Wireframe.Result

variable {ε ε' α β : Type}

theorem bind_eq_ok {r : Except ε α} {f : α → Except ε β} {b : β} :
    (r >>= f) = .ok b ↔ ∃ a, r = .ok a ∧ f a = .ok b := by
  cases r with
  | ok a => simp [bind, Except.bind]
  | error e => simp [bind, Except.bind]

/-- What comes after a step matters only for what this comes to. -/
theorem bind_congr_ok {r : Except ε α} {f g : α → Except ε β} (h : ∀ a, r = .ok a → f a = g a) :
    (r >>= f) = (r >>= g) := by
  cases r with
  | ok a => exact h a rfl
  | error e => rfl

theorem fails_of_not_ok {r : Except ε α} (h : ∀ a, r ≠ .ok a) : ∃ e, r = .error e := by
  cases r with
  | ok a => exact absurd rfl (h a)
  | error e => exact ⟨e, rfl⟩

theorem map_eq_ok {r : Except ε α} {f : α → β} {b : β} :
    r.map f = .ok b ↔ ∃ a, r = .ok a ∧ f a = b := by
  cases r with
  | ok a => simp [Except.map]
  | error e => simp [Except.map]

theorem mapError_eq_ok {r : Except ε α} {f : ε → ε'} {a : α} :
    r.mapError f = .ok a ↔ r = .ok a := by
  cases r with
  | ok b =>
    show (Except.ok b : Except ε' α) = .ok a ↔ _
    simp only [Except.ok.injEq]
  | error e => exact ⟨fun h => (nomatch h), fun h => (nomatch h)⟩

theorem mapError_eq_error {r : Except ε α} {f : ε → ε'} {e' : ε'} :
    r.mapError f = .error e' ↔ ∃ e, r = .error e ∧ f e = e' := by
  cases r with
  | ok a => exact ⟨fun h => (nomatch h), fun ⟨_, h, _⟩ => (nomatch h)⟩
  | error e =>
    show (Except.error (f e) : Except ε' α) = .error e' ↔ _
    simp

theorem map_fails_iff {r : Except ε α} {f : α → β} :
    (∃ e, r.map f = .error e) ↔ ∃ e, r = .error e := by
  cases r with
  | ok a => simp [Except.map]
  | error e => simp [Except.map]

/-- A list fails as soon as one of its items does. -/
theorem mapM_fails_iff {f : α → Except ε β} {as : List α} :
    (∃ e, as.mapM f = .error e) ↔ ∃ a ∈ as, ∃ e, f a = .error e := by
  induction as with
  | nil => simp [pure, Except.pure]
  | cons a rest ih =>
    rw [List.mapM_cons]
    simp only [List.mem_cons, exists_eq_or_imp, ← ih]
    cases f a with
    | error e => simp [bind, Except.bind]
    | ok b => cases rest.mapM f <;> simp [bind, Except.bind, pure, Except.pure]

theorem mapM_eq_ok {f : α → Except ε β} {as : List α} {bs : List β} :
    as.mapM f = .ok bs ↔ List.Forall₂ (fun a b => f a = .ok b) as bs := by
  induction as generalizing bs with
  | nil =>
    rw [List.mapM_nil, List.forall₂_nil_left_iff]
    constructor
    · intro h; exact (Except.ok.inj h).symm
    · intro h; exact congrArg _ h.symm
  | cons a rest ih =>
    simp only [List.mapM_cons, bind_eq_ok, ih, List.forall₂_cons_left_iff]
    constructor
    · rintro ⟨b, hb, more, hmore, e⟩
      exact ⟨b, more, hb, hmore, (Except.ok.inj e).symm⟩
    · rintro ⟨b, more, hb, hmore, rfl⟩
      exact ⟨b, hb, more, hmore, rfl⟩

/-- A list fails as the first of its items does that fails. -/
theorem mapM_eq_error {f : α → Except ε β} {as : List α} {e : ε} :
    as.mapM f = .error e ↔ ∃ before a after, as = before ++ a :: after ∧
      (∀ b ∈ before, ∃ c, f b = .ok c) ∧ f a = .error e := by
  induction as with
  | nil =>
    constructor
    · intro h; cases h
    · rintro ⟨before, a, after, h, -⟩
      exact absurd h (by simp)
  | cons a rest ih =>
    have steps : (a :: rest).mapM f = .error e ↔
        f a = .error e ∨ ∃ c, f a = .ok c ∧ rest.mapM f = .error e := by
      rw [List.mapM_cons]
      cases f a with
      | error e' => simp [bind, Except.bind]
      | ok c => cases rest.mapM f <;> simp [bind, Except.bind, pure, Except.pure]
    rw [steps, ih]
    constructor
    · rintro (h | ⟨c, hc, before, a', after, rfl, ok, h⟩)
      · exact ⟨[], a, rest, rfl, by simp, h⟩
      · refine ⟨a :: before, a', after, rfl, fun b hb => ?_, h⟩
        rcases List.mem_cons.mp hb with rfl | hb
        · exact ⟨c, hc⟩
        · exact ok b hb
    · rintro ⟨before, a', after, halves, ok, h⟩
      cases before with
      | nil => cases halves; exact .inl h
      | cons b before =>
        cases halves
        obtain ⟨c, hc⟩ := ok a List.mem_cons_self
        exact .inr ⟨c, hc, before, a', after, rfl, fun b hb => ok b (List.mem_cons_of_mem a hb), h⟩

theorem forM_eq_ok {f : α → Except ε Unit} {items : List α} :
    items.forM f = .ok () ↔ ∀ a ∈ items, f a = .ok () := by
  induction items with
  | nil => exact iff_of_true rfl (List.forall_mem_nil _)
  | cons a rest ih =>
    rw [List.forall_mem_cons, ← ih]
    show (f a >>= fun _ => rest.forM f) = .ok () ↔ _
    rw [bind_eq_ok]
    exact ⟨fun ⟨(), own, later⟩ => ⟨own, later⟩, fun ⟨own, later⟩ => ⟨(), own, later⟩⟩

theorem toOption_eq_some {r : Except ε α} {a : α} : r.toOption = some a ↔ r = .ok a := by
  cases r with
  | ok b => simp [Except.toOption]
  | error e => simp [Except.toOption]

/-- What a computation fails with, if it does. -/
def failure? : Except ε α → Option ε
  | .ok _ => none
  | .error e => some e

theorem failure?_eq_some {r : Except ε α} {e : ε} : failure? r = some e ↔ r = .error e := by
  cases r with
  | ok a => simp [failure?]
  | error e => simp [failure?]

theorem map_toOption_eq_some {r : Except ε α} {f : α → β} {b : β} :
    (r.map f).toOption = some b ↔ ∃ a, r = .ok a ∧ f a = b := by
  cases r with
  | ok a => simp [Except.map, Except.toOption]
  | error e => simp [Except.map, Except.toOption]

end Wireframe.Result
