import Wireframe.Proofs.Pattern.Numbering

/-
  Wireframe.Proofs.Pattern.ActionOrder — whether a way back comes after a way forward.

  The rule asks for an order of all the actions of a step, and looks at two of them: the first that
  leads back, and the first that finishes, or when none does the first that leads on. So what it
  tells is true, but it passes over some steps. It does so when the first way back comes between a
  way on and a way to finish, and when a second way back comes after a way forward and the first one
  does not.

  Proved:
  - `backAfterForward_iff_first`: what the rule looks at.
  - `disordered_append`: what comes before the first way back and after it.
  - `backAfterForward_iff`: what it tells of, and what it passes over.
  - `order_exact`: one finding for each step that it tells of, in the order of the steps.
-/

namespace Wireframe.Wizards

/-! ## Moves -/

/-- Does the move lead on or finish? -/
def Move.Forward (m : Move) : Prop := m = .next ∨ m = .finish

instance (m : Move) : Decidable m.Forward := inferInstanceAs (Decidable (_ ∨ _))

/-- Some way back comes after some way forward. -/
def Disordered (moves : List Move) : Prop := ∃ m : Move, m.Forward ∧ [m, .back].Sublist moves

/-- These come before the first way back, and those after it. -/
def FirstBack (moves before after : List Move) : Prop :=
  moves = before ++ .back :: after ∧ .back ∉ before

/-- The first way back comes after a way on, but a way to finish comes only after it; or it comes
    after no way forward, and a later one does. -/
def Overlooked (moves : List Move) : Prop :=
  ∃ before after, FirstBack moves before after ∧ .finish ∉ before ∧
    (.next ∈ before ∧ .finish ∈ after ∨ .next ∉ before ∧ Disordered after)

section

variable {moves before after : List Move}

theorem exists_firstBack (h : .back ∈ moves) : ∃ before after, FirstBack moves before after :=
  List.eq_append_cons_of_mem h

theorem FirstBack.takeWhile (h : FirstBack moves before after) :
    moves.takeWhile (· != .back) = before := by
  obtain ⟨rfl, none_before⟩ := h
  have ahead : ∀ m ∈ before, (m != .back) = true := fun m hm =>
    bne_iff_ne.mpr fun same => none_before (same ▸ hm)
  rw [List.takeWhile_append_of_pos ahead, List.takeWhile_cons_of_neg (by decide), List.append_nil]

theorem FirstBack.unique {before' after' : List Move} (h : FirstBack moves before after)
    (h' : FirstBack moves before' after') : before = before' ∧ after = after' := by
  obtain rfl := h.takeWhile.symm.trans h'.takeWhile
  have same := List.append_cancel_left (h.1.symm.trans h'.1)
  exact ⟨rfl, (List.cons.inj same).2⟩

/-- Of two moves, which one comes first is told by what comes before the first way back. -/
theorem findIdx?_lt (h : FirstBack moves before after) (m : Move) :
    (match moves.findIdx? (· == .back), moves.findIdx? (· == m) with
      | some i, some j => decide (j < i)
      | _, _ => false) = true ↔ m ∈ before := by
  obtain ⟨rfl, none_before⟩ := h
  have back : (before ++ .back :: after).findIdx? (· == .back) = some before.length := by
    have ahead : before.findIdx? (· == .back) = none :=
      List.findIdx?_eq_none_iff.mpr fun m hm => beq_eq_false_iff_ne.mpr fun same =>
        none_before (same ▸ hm)
    rw [List.findIdx?_append, ahead, List.findIdx?_cons, if_pos (beq_self_eq_true _)]
    simp
  rw [back, List.findIdx?_append]
  cases found : before.findIdx? (· == m) with
  | some j =>
    obtain ⟨short, same, -⟩ := List.findIdx?_eq_some_iff_getElem.mp found
    have hm : m ∈ before := eq_of_beq same ▸ List.getElem_mem short
    simpa [hm] using short
  | none =>
    have absent : m ∉ before := fun hm => by
      simpa using List.findIdx?_eq_none_iff.mp found m hm
    cases (Move.back :: after).findIdx? (· == m) with
    | none => simp [absent]
    | some j => simp [absent]

/-- What the rule looks at: whether before the first way back there is a way to finish, or a way on
    and nowhere a way to finish. -/
theorem backAfterForward_iff_first (h : FirstBack moves before after) :
    backAfterForward moves = true ↔ .finish ∈ before ∨ .finish ∉ after ∧ .next ∈ before := by
  refine (findIdx?_lt h (if moves.contains .finish then .finish else .next)).trans ?_
  have finishes : moves.contains .finish = true ↔ .finish ∈ before ∨ .finish ∈ after := by
    rw [h.1, List.contains_iff_mem, List.mem_append, List.mem_cons]
    simp
  split <;> tauto

/-! ## Order -/

theorem disordered_iff :
    Disordered moves ↔ ¬moves.Pairwise fun m n => m.Forward → n ≠ .back := by
  rw [List.pairwise_iff_forall_sublist]
  push Not
  constructor
  · rintro ⟨m, forward, late⟩
    exact ⟨m, .back, late, forward, rfl⟩
  · rintro ⟨m, n, late, forward, rfl⟩
    exact ⟨m, forward, late⟩

instance : DecidablePred Disordered := fun _ => decidable_of_iff _ disordered_iff.symm

/-- There is disorder around the first way back, or after it. -/
theorem disordered_append (h : FirstBack moves before after) :
    Disordered moves ↔ (∃ m ∈ before, m.Forward) ∨ Disordered after := by
  obtain ⟨rfl, none_before⟩ := h
  have first : before.Pairwise fun m n => m.Forward → n ≠ .back :=
    List.pairwise_of_forall_mem_list fun m _ n hn _ same => none_before (same ▸ hn)
  have back : ¬Move.back.Forward := by rintro (h | h) <;> cases h
  have late : (∀ m ∈ before, ∀ n ∈ .back :: after, m.Forward → n ≠ .back) ↔
      ¬∃ m ∈ before, m.Forward := by
    constructor
    · rintro none ⟨m, hm, forward⟩
      exact none m hm .back List.mem_cons_self forward rfl
    · exact fun none m hm _ _ forward => absurd ⟨m, hm, forward⟩ none
  have own : ∀ n ∈ after, Move.back.Forward → n ≠ .back := fun _ _ forward => absurd forward back
  rw [disordered_iff, disordered_iff, List.pairwise_append, List.pairwise_cons, late,
    and_iff_right first, and_iff_right own, not_and_or, not_not, or_comm]

/-- The rule tells of disorder, but where it is overlooked. -/
theorem backAfterForward_iff (moves : List Move) :
    backAfterForward moves = true ↔ Disordered moves ∧ ¬Overlooked moves := by
  by_cases back : Move.back ∈ moves
  · obtain ⟨before, after, first⟩ := exists_firstBack back
    have overlooked : Overlooked moves ↔ .finish ∉ before ∧
        (.next ∈ before ∧ .finish ∈ after ∨ .next ∉ before ∧ Disordered after) := by
      constructor
      · rintro ⟨before', after', first', rest⟩
        obtain ⟨rfl, rfl⟩ := first.unique first'
        exact rest
      · exact fun rest => ⟨before, after, first, rest⟩
    have forward : (∃ m ∈ before, m.Forward) ↔ .next ∈ before ∨ .finish ∈ before := by
      simp only [Move.Forward, and_or_left, exists_or, exists_eq_right]
    rw [backAfterForward_iff_first first, disordered_append first, overlooked, forward]
    tauto
  · have silent : backAfterForward moves = false := by
      have absent : moves.findIdx? (· == .back) = none :=
        List.findIdx?_eq_none_iff.mpr fun m hm => beq_eq_false_iff_ne.mpr fun same =>
          back (same ▸ hm)
      rw [backAfterForward, absent]
    rw [silent]
    refine iff_of_false Bool.false_ne_true ?_
    rintro ⟨⟨m, -, late⟩, -⟩
    exact back (late.subset (by simp))

theorem Overlooked.disordered (h : Overlooked moves) : Disordered moves := by
  obtain ⟨before, after, first, -, between | later⟩ := h
  · exact (disordered_append first).mpr (.inl ⟨.next, between.1, .inl rfl⟩)
  · exact (disordered_append first).mpr (.inr later.2)

/-- With one way back at most, and not both a way on and a way to finish, nothing is overlooked. -/
theorem not_overlooked (one_back : moves.count .back ≤ 1)
    (one_kind : .next ∉ moves ∨ .finish ∉ moves) : ¬Overlooked moves := by
  rintro ⟨before, after, ⟨rfl, -⟩, -, between | ⟨-, m, -, late⟩⟩
  · rcases one_kind with none | none
    · exact none (List.mem_append_left _ between.1)
    · exact none (List.mem_append_right _ (List.mem_cons_of_mem _ between.2))
  · have second : 0 < after.count .back := List.count_pos_iff.mpr (late.subset (by simp))
    rw [List.count_append, List.count_cons_self] at one_back
    omega

end

/-! ## Findings -/

/-- The moves of the actions of a step, in their order. -/
def Step.moves (s : Step) : List Move := s.actions.buttons.map moveOf

theorem Step.within_moves (s : Step) (n : Int) : (s.within n).moves = s.moves := by
  unfold within
  split <;> rfl

/-- The issue that tells of a way back after a way forward in a step, with all its moves. -/
structure Step.Misordered (s : Step) (issue : Issue) : Prop where
  id : issue.id = "wizard-actions-order"
  severity : issue.severity = .warn
  message : issue.message = "Back action appears after Next/Finish in step " ++ toString s.index
  node : issue.nodeId = some (some s.place.node.id)
  details : issue.details =
    some (some [("stepIndex", .int s.index), ("order", .texts (s.moves.map Move.name))])

open scoped Classical in
/-- What the rule on the order of actions comes to on a tree. -/
structure OrderExact (root : Node) : Prop where
  /-- One finding for every step of a scope with disorder that is not overlooked, in the order of the
  scopes and of their steps, and no other. -/
  findings : List.Forall₂ Step.Misordered
    (((scopes root).flatMap (·.steps)).filter fun s => Disordered s.moves ∧ ¬Overlooked s.moves)
    (orderFindings root)
  /-- What is overlooked is disorder too. -/
  overlooked : ∀ scope ∈ scopes root, ∀ s ∈ scope.steps, Overlooked s.moves → Disordered s.moves
  /-- None is overlooked in a step with one way back at most, and not both a way on and a way to
  finish. -/
  plain : ∀ scope ∈ scopes root, ∀ s ∈ scope.steps, s.moves.count .back ≤ 1 →
    (.next ∉ s.moves ∨ .finish ∉ s.moves) → ¬Overlooked s.moves

theorem order_exact (root : Node) : OrderExact root where
  findings := by
    classical
    rw [orderFindings, stepFindings, ← List.filterMap_flatMap]
    refine forall₂_filterMap (fun s _ => ?_) fun s _ issue told => ?_
    · rw [Option.map_eq_none_iff, decide_eq_false_iff_not, ← backAfterForward_iff, Step.moves]
      simp
    · obtain ⟨_, late, rfl⟩ := Option.map_eq_some_iff.mp told
      obtain ⟨-, same⟩ := Option.ite_none_right_eq_some.mp late
      cases same
      exact ⟨rfl, rfl, rfl, rfl, rfl⟩
  overlooked _ _ _ _ := Overlooked.disordered
  plain _ _ _ _ := not_overlooked

/-- Two steps. In the second one the way back comes after a way on, and before a way to finish. -/
def checkout : Node :=
  .plainStack "checkout" .vertical
    [.inFlow "address" .step none none
        [.text (.plain "where") ⟨"Where to", none, none, none⟩,
          .plainStack "on" .horizontal [.plainButton "next" "Next"]],
      .inFlow "payment" .step none none
        [.text (.plain "how") ⟨"How to pay", none, none, none⟩,
          .plainStack "off" .horizontal
            [.plainButton "skip" "Next", .plainButton "back" "Back", .plainButton "pay" "Finish"]]]

theorem checkout_untold : checkout.UniqueIds ∧
    (∃ s ∈ (scopes checkout).flatMap (·.steps), Disordered s.moves) ∧
    orderFindings checkout = [] := by
  have unique : checkout.UniqueIds := by decide +kernel
  have passed : ∀ l ∈ checkout.walk,
      backAfterForward ((actionsOf l).buttons.map moveOf) = false := by decide +kernel
  have silent : orderFindings checkout = [] := by
    refine stepFindings_eq_nil.mpr fun scope hscope s hs => ?_
    obtain ⟨hl, own⟩ := steps_in_walk hscope hs
    simp only [own, passed _ hl, Bool.false_eq_true, if_false]
  have kept : (wizardsOf checkout).isEmpty = true ∧
      ∃ t ∈ keptSteps (stepsOf checkout none), Disordered t.moves := by decide +kernel
  obtain ⟨no_wizard, t, ht, late⟩ := kept
  have only : scopes checkout = [Scope.of none (stepsOf checkout none)] := by
    rw [scopes_eq, no_wizard, Bool.true_or, if_pos rfl, List.isEmpty_iff.mp no_wizard]
    rfl
  have hs := (Scope.of_steps_perm none (stepsOf checkout none)).mem_iff.mpr (List.mem_map_of_mem ht)
  refine ⟨unique, ⟨_, List.mem_flatMap.mpr ⟨_, only ▸ List.mem_singleton_self _, hs⟩, ?_⟩, silent⟩
  rwa [Step.within_moves]

end Wireframe.Wizards
