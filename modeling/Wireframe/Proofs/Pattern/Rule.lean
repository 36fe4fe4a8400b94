import Wireframe.Pattern.Rule
import Wireframe.Proofs.Hidden
import Wireframe.Proofs.Renaming

/-
  Wireframe.Proofs.Pattern.Rule — which rules of a pattern fail.

  The counts of a verdict hang only on which rules find something. So they are the same for two
  trees when every rule finds something on one exactly when it does on the other. A rule that finds
  the same on a renamed tree, about the nodes by their other names, does both.
-/

namespace Wireframe

theorem Rule.evaluate_isEmpty (r : Rule) (root : Node) :
    (r.evaluate root).isEmpty = (r.check root).isEmpty := by
  simp only [evaluate]

/-- No must of a pattern fails exactly when none of them finds anything. -/
theorem Pattern.mustFailed_eq_zero {p : Pattern} {root : Node} :
    (p.validate root).mustFailed = 0 ↔ ∀ r ∈ p.must, r.check root = [] := by
  show (failedCount p.must root : Int) = 0 ↔ _
  simp only [failedCount, Int.natCast_eq_zero, List.countP_eq_zero, Rule.evaluate_isEmpty,
    Bool.not_eq_true', Bool.not_eq_false, List.isEmpty_iff]

/-! ## Verdicts on pruned trees -/

/-- A check finds something on a pruned tree exactly when it does on the tree. -/
def PassesAlike (root : Node) (check : Node → List Issue) : Prop :=
  check root.prune = [] ↔ check root = []

/-- Two verdicts count the same. -/
structure Verdict.CountsAlike (v w : Verdict) : Prop where
  mustPassed : v.mustPassed = w.mustPassed
  mustFailed : v.mustFailed = w.mustFailed
  shouldPassed : v.shouldPassed = w.shouldPassed
  shouldFailed : v.shouldFailed = w.shouldFailed

theorem counts_prune {rules : List Rule} {root : Node}
    (alike : ∀ r ∈ rules, PassesAlike root r.check) :
    passedCount rules root.prune = passedCount rules root ∧
      failedCount rules root.prune = failedCount rules root := by
  have same : ∀ r ∈ rules, (r.evaluate root.prune).isEmpty = (r.evaluate root).isEmpty := by
    intro r hr
    rw [Bool.eq_iff_iff, List.isEmpty_iff, List.isEmpty_iff]
    exact alike r hr
  refine ⟨List.countP_congr fun r hr => ?_, List.countP_congr fun r hr => ?_⟩
  · rw [same r hr]
  · rw [same r hr]

theorem Pattern.countsAlike {p : Pattern} {root : Node}
    (alike : ∀ r ∈ p.rules, PassesAlike root r.check) :
    (p.validate root.prune).CountsAlike (p.validate root) := by
  obtain ⟨mustPassed, mustFailed⟩ :=
    counts_prune fun r hr => alike r (List.mem_append_left p.should hr)
  obtain ⟨shouldPassed, shouldFailed⟩ :=
    counts_prune fun r hr => alike r (List.mem_append_right p.must hr)
  exact ⟨congrArg Int.ofNat mustPassed, congrArg Int.ofNat mustFailed,
    congrArg Int.ofNat shouldPassed, congrArg Int.ofNat shouldFailed⟩

/-! ## Verdicts on renamed trees -/

section

variable (r : Renaming)

/-- What one check finds in a tree the other one finds in the renamed tree, about the same nodes. -/
def FindsAlike (check check' : Node → List Issue) : Prop :=
  ∀ root : Node, ToldAlike r (check root) (check' (root.renamed r))

/-- A finding is told about the node by its other name, at the same pointer. -/
theorem Finding.toldAlike {rule : String} {severity : Severity} {f f' : Finding}
    (nodeId : f'.nodeId = f.nodeId.map r) (pointer : f'.pointer = f.pointer) :
    ToldAlike r [f.toIssue rule severity] [f'.toIssue rule severity] := by
  simp only [ToldAlike, toIssue, Issue.outline, Outline.renamed, nodeId, pointer, List.map_cons,
    List.map_nil, Option.map_map]
  rfl

/-- The rules of two patterns find alike, one by one. -/
structure Pattern.FindsAlike (p q : Pattern) : Prop where
  must : List.Forall₂ (fun a b => Wireframe.FindsAlike r a.check b.check) p.must q.must
  should : List.Forall₂ (fun a b => Wireframe.FindsAlike r a.check b.check) p.should q.should

variable {r}

/-- A check that looks at visible nodes one by one. -/
theorem FindsAlike.of_walk {f f' : Located → Option Issue}
    (h : ∀ n p, ToldAlike r (f ⟨n, p⟩).toList (f' ⟨n.renamed r, p⟩).toList) :
    FindsAlike r (fun root => root.walk.filterMap f) fun root => root.walk.filterMap f' := by
  intro root
  beta_reduce
  rw [Node.walk_renamed]
  exact .filterMap fun l _ => h l.node l.pointer

theorem counts_renamed {rules rules' : List Rule} (root : Node)
    (alike : List.Forall₂ (fun a b => FindsAlike r a.check b.check) rules rules') :
    passedCount rules' (root.renamed r) = passedCount rules root ∧
      failedCount rules' (root.renamed r) = failedCount rules root := by
  induction alike with
  | nil => exact ⟨rfl, rfl⟩
  | cons h _ ih =>
    have same := (h root).isEmpty
    simp only [passedCount, failedCount, Rule.evaluate, List.countP_cons, same] at ih ⊢
    rw [ih.1, ih.2]
    exact ⟨rfl, rfl⟩

theorem evaluate_renamed {rules rules' : List Rule} (root : Node)
    (alike : List.Forall₂ (fun a b => FindsAlike r a.check b.check) rules rules') :
    ToldAlike r (rules.flatMap (·.evaluate root)) (rules'.flatMap (·.evaluate (root.renamed r))) := by
  induction alike with
  | nil => rfl
  | cons h _ ih => exact (h root).append ih

namespace Pattern.FindsAlike

variable {p q : Pattern} (alike : p.FindsAlike r q) (root : Node)
include alike

theorem counts : (q.validate (root.renamed r)).CountsAlike (p.validate root) := by
  obtain ⟨mustPassed, mustFailed⟩ := counts_renamed root alike.must
  obtain ⟨shouldPassed, shouldFailed⟩ := counts_renamed root alike.should
  exact ⟨congrArg Int.ofNat mustPassed, congrArg Int.ofNat mustFailed,
    congrArg Int.ofNat shouldPassed, congrArg Int.ofNat shouldFailed⟩

theorem issues : ToldAlike r (p.validate root).issues (q.validate (root.renamed r)).issues :=
  evaluate_renamed root (List.rel_append alike.must alike.should)

end Pattern.FindsAlike

end

end Wireframe
