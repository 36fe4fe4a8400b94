import Wireframe.Proofs.Cascade.Mentioned

/-
  Wireframe.Proofs.Cascade.Constant — between two thresholds the width makes no difference.

  A width decides which blocks apply, and nothing else about a tree. So two widths at which the
  same conditions hold resolve a tree alike. The conditions are not those of the tree's own nodes
  alone: a block brings in nodes with further blocks. But all that is ever met is mentioned in the
  tree (`Called.conditionKeys_subset`), which is what the induction runs on.

  The notes differ, because they tell the width.

  Proved:
  - `ordered_congr`: widths at which the same conditions hold order the blocks alike.
  - `resolve_result_congr`: they resolve a tree alike, to a tree or to a failure.
  - `resolve_between_thresholds`: so do widths on the same side of every threshold.
-/

namespace Wireframe

variable {w v : Number}

/-- At both widths the conditions that some keys write hold, or at neither. -/
def HoldAlike (w v : Number) (keys : List String) : Prop :=
  ∀ key ∈ keys, ∀ c, Condition.parse key = .ok (some c) → c.holds w = c.holds v

namespace Blocks

theorem ordered_congr {blocks : Blocks} (h : HoldAlike w v (blocks.map (·.1))) :
    blocks.ordered w = blocks.ordered v := by
  rw [ordered_eq, ordered_eq]
  cases hfound : blocks.conditional with
  | error e => rfl
  | ok found =>
    have alike : (found.filter fun b => b.1.holds w) = found.filter fun b => b.1.holds v := by
      refine List.filter_congr fun b hb => ?_
      obtain ⟨mem, key⟩ := mem_conditional hfound hb
      exact h _ (List.mem_map_of_mem mem) _ key
    simp only [Except.map, alike]

end Blocks

namespace Node

theorem resolveOwn_result_congr {n : Node} (h : n.blocks.ordered w = n.blocks.ordered v) :
    (n.resolveOwn w).result = (n.resolveOwn v).result := by
  unfold resolveOwn
  split
  · rfl
  · rw [h, Trail.result_bind, Trail.result_bind]
    refine congrArg _ (funext fun applied => ?_)
    rw [Trail.result_bind, Trail.result_bind]
    rfl

theorem eachChild_result_congr {f g : Node → Trail Entry Failure Node} {n : Node}
    (h : ∀ c ∈ n.children, (f c).result = (g c).result) :
    (n.eachChild f).result = (n.eachChild g).result := by
  cases n with
  | stack hd s cs =>
    have each := Trail.each_result_congr (show ∀ c ∈ cs, (f c).result = (g c).result from h)
    simp only [eachChild, Trail.result_bind, Trail.result_pure, each]
  | grid hd s cs =>
    have each := Trail.each_result_congr (show ∀ c ∈ cs, (f c).result = (g c).result from h)
    simp only [eachChild, Trail.result_bind, Trail.result_pure, each]
  | box hd p c =>
    cases c with
    | none => rfl
    | some c =>
      simp only [eachChild, Trail.result_bind, h c (List.mem_singleton_self c), Trail.result_pure]
  | form hd fc fs as =>
    simp only [eachChild, Trail.result_bind, Trail.result_pure,
      Trail.each_result_congr fun c hc => h c (List.mem_append_left as hc),
      Trail.each_result_congr fun c hc => h c (List.mem_append_right fs hc)]
  | text | button | field | table => rfl

/-- Widths at which the same conditions hold, of all that a tree mentions, resolve it alike. -/
theorem resolve_result_congr {n : Node} (h : HoldAlike w v n.conditionKeys) :
    (n.resolve w).result = (n.resolve v).result := by
  induction n using (called_wellFounded w).induction with
  | _ n ih =>
    have own : HoldAlike w v (n.blocks.map (·.1)) := by
      intro key hkey
      obtain ⟨b, hb, rfl⟩ := List.mem_map.mp hkey
      exact h b.1 (key_mem_conditionKeys hb).1
    have first := resolveOwn_result_congr (Blocks.ordered_congr own)
    rw [resolve_eq, resolve_eq, Trail.result_bind, Trail.result_bind, ← first]
    refine Result.bind_congr_ok fun m hm => eachChild_result_congr fun c hc => ?_
    have called : Called w c n := ⟨m, hm, hc⟩
    exact ih c called fun key hkey => h key (called.conditionKeys_subset hkey)

/-- Two widths resolve a tree to the same tree, or fail alike, when they are on the same side of
    the threshold of every condition that stands in a map of blocks anywhere in the tree, at a node
    or inside of a block: below it, at it or above it. -/
theorem resolve_between_thresholds (n : Node)
    (same_side : ∀ key ∈ n.conditionKeys, ∀ c, Condition.parse key = .ok (some c) →
      Number.le (.int c.threshold) w = Number.le (.int c.threshold) v ∧
      Number.le w (.int c.threshold) = Number.le v (.int c.threshold)) :
    (n.resolve w).result = (n.resolve v).result := by
  refine resolve_result_congr fun key hkey c hc => ?_
  obtain ⟨from_below, from_above⟩ := same_side key hkey c hc
  cases c with
  | atLeast t => exact from_below
  | atMost t => exact from_above

/-- A stack that gets a text from a block, the text with a block of its own. -/
def relayRoot : Node :=
  .stack (.cascading "page" [(">=600", some [("children", .list [.object
      [("type", .text "Text"), ("id", .text "note"),
        ("at", .object [("<=900", .object [("text", .text "narrow")])])]])])])
    ⟨.vertical, none, none, .start, false⟩ []

theorem relayRoot_between_thresholds : relayRoot.conditionKeys = [">=600", "<=900"] ∧
    (relayRoot.resolve (.int 601)).result = (relayRoot.resolve (.int 899)).result := by
  have keys : relayRoot.conditionKeys = [">=600", "<=900"] := by decide +kernel
  refine ⟨keys, resolve_between_thresholds relayRoot ?_⟩
  rw [keys]
  have first : Condition.parse ">=600" = .ok (some (.atLeast 600)) := by decide +kernel
  have second : Condition.parse "<=900" = .ok (some (.atMost 900)) := by decide +kernel
  simp only [List.forall_mem_cons, first, second, Except.ok.injEq, Option.some.injEq, forall_eq']
  exact ⟨by decide, by decide, fun _ h => absurd h List.not_mem_nil⟩

end Node

end Wireframe
