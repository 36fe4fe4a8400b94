import Wireframe.Scaffold
import Wireframe.Proofs.Cascade.Resolve
import Wireframe.Proofs.Node.RoundTrip

/-
  Wireframe.Proofs.Node.Columns — grids of documents have columns.

  Reading refuses a grid that asks for less than one column. Resolving a tree reads again what
  blocks were laid over, so it brings in no grid without columns either.

  Proved:
  - `Node.read_columned`: every grid of a node that is read has a column.
  - `Node.resolve_columned`: so has every grid of what it is resolved to.
  - `Scaffold.columned`: every grid of a screen that is read has a column.
-/

namespace Wireframe

open Reading

/-- Has the node a column, if it is a grid? -/
def Node.HasColumn : Node → Prop
  | .grid _ c _ => 1 ≤ c.columns
  | _ => True

/-- Every grid in the tree has a column. -/
def Node.Columned (n : Node) : Prop := ∀ m ∈ n.allNodes, m.HasColumn

namespace Node

theorem columned_iff {n : Node} : n.Columned ↔ n.HasColumn ∧ ∀ c ∈ n.children, c.Columned := by
  constructor
  · intro h
    exact ⟨h n n.mem_allNodes_self, fun c hc m hm => h m (mem_allNodes.mpr (.inr ⟨c, hc, hm⟩))⟩
  · rintro ⟨own, below⟩ m hm
    rcases mem_allNodes.mp hm with rfl | ⟨c, hc, hm⟩
    · exact own
    · exact below c hc m hm

/-! ## Reading -/

theorem content_hasColumn {child : Shape Node} {k : Kind} {o : Object} {c : Header → Node}
    (reads : (content child k).Reads o c) (h : Header) : (c h).HasColumn := by
  cases k with
  | grid =>
    obtain ⟨f₁, cs, h₁, -, rfl⟩ := reads_seq.mp reads
    obtain ⟨g, hg, rfl⟩ := reads_map.mp h₁
    obtain ⟨f₂, width, h₂, -, rfl⟩ := reads_seq.mp hg
    obtain ⟨f₃, gap, h₃, -, rfl⟩ := reads_seq.mp h₂
    obtain ⟨columns, hcolumns, rfl⟩ := reads_map.mp h₃
    show 1 ≤ columns
    refine hcolumns.of_optional (Int.le_refl 1) fun v hv => ?_
    obtain ⟨n, -, hn⟩ := Result.bind_eq_ok.mp hv
    split at hn
    · rename_i bound
      cases hn
      exact bound
    · cases hn
  | stack | box | text | button | field | form | table =>
    have kind := (content_made reads h).1
    cases hc : c h with
    | grid => rw [hc] at kind; cases kind
    | stack | box | text | button | field | form | table => trivial

theorem readWithin_columned (d : Nat) : ∀ {v : Value} {n : Node}, readWithin d v = .ok n →
    n.Columned := by
  induction d with
  | zero =>
    intro v n h
    obtain ⟨_, _, _, e, -⟩ := readWithin_eq_ok h
    cases e
  | succ d ih =>
    intro v n h
    obtain ⟨_, o, k, e, rfl, -, hn⟩ := readWithin_eq_ok h
    cases e
    obtain ⟨hd, c, -, hc, rfl⟩ := node_reads hn
    refine columned_iff.mpr ⟨content_hasColumn hc _, fun m hm => ?_⟩
    obtain ⟨u, hu⟩ := (content_made hc _).2.2 m hm
    exact ih hu

/-- Every grid of a node that is read has a column. -/
theorem read_columned {v : Value} {n : Node} (h : read v = .ok n) : n.Columned :=
  readWithin_columned v.depth h

/-! ## Resolving -/

theorem resolveOwn_columned {width : Number} {n m : Node} (h : (n.resolveOwn width).result = .ok m)
    (columned : n.Columned) : m.Columned := by
  rcases resolveOwn_cases h with ⟨-, rfl⟩ | ⟨_, -, -, hread⟩
  · exact columned
  · exact read_columned hread

theorem eachChild_hasColumn {f : Node → Trail Entry Failure Node} {n m : Node}
    (h : (n.eachChild f).result = .ok m) (own : n.HasColumn) : m.HasColumn := by
  cases n with
  | grid hd g cs =>
    simp only [eachChild, Trail.result_bind_eq_ok, Trail.result_pure] at h
    obtain ⟨ds, -, e⟩ := h
    cases e
    exact own
  | stack hd s cs =>
    simp only [eachChild, Trail.result_bind_eq_ok, Trail.result_pure] at h
    obtain ⟨ds, -, e⟩ := h
    cases e
    trivial
  | box hd p c =>
    cases c with
    | none => cases h; trivial
    | some c =>
      simp only [eachChild, Trail.result_bind_eq_ok, Trail.result_pure] at h
      obtain ⟨d, -, e⟩ := h
      cases e
      trivial
  | form hd fc fs as =>
    simp only [eachChild, Trail.result_bind_eq_ok, Trail.result_pure] at h
    obtain ⟨gs, -, bs, -, e⟩ := h
    cases e
    trivial
  | text | button | field | table => cases h; trivial

/-- Every grid of what a tree is resolved to has a column. -/
theorem resolve_columned {width : Number} {n m : Node} (h : (n.resolve width).result = .ok m)
    (columned : n.Columned) : m.Columned := by
  induction n using (called_wellFounded width).induction generalizing m with
  | _ n ih =>
    rw [resolve_eq] at h
    obtain ⟨own, hown, heach⟩ := Trail.result_bind_eq_ok.mp h
    obtain ⟨column, below⟩ := columned_iff.mp (resolveOwn_columned hown columned)
    refine columned_iff.mpr ⟨eachChild_hasColumn heach column, fun d hd => ?_⟩
    obtain ⟨c, hc, hcd⟩ := exists_of_forall₂ (eachChild_eq_ok heach).2 hd
    exact ih c ⟨own, hown, hc⟩ hcd (below c hc)

end Node

theorem Screen.columned {v : Value} {s : Screen} (h : Shape.record "Screen" Reading.screen v = .ok s) :
    s.root.Columned := by
  obtain ⟨o, rfl, reads⟩ := Reading.record_eq_ok h
  obtain ⟨f₀, given, h₀, rfl⟩ := reads_noted reads
  obtain ⟨f₁, root, h₁, hroot, rfl⟩ := reads_seq.mp h₀
  obtain ⟨f₂, title, h₂, -, rfl⟩ := reads_seq.mp h₁
  obtain ⟨id, -, rfl⟩ := reads_map.mp h₂
  obtain ⟨_, v, -, hv⟩ := reads_required.mp hroot
  exact Node.read_columned hv

/-- Every grid of a screen that is read has a column. -/
theorem Scaffold.columned {document : Value} {s : Scaffold} (h : read document = .ok s) :
    s.screen.root.Columned := by
  obtain ⟨o, rfl, reads⟩ := Reading.record_eq_ok h
  obtain ⟨f₀, given, h₀, rfl⟩ := reads_noted reads
  obtain ⟨f₁, settings, h₁, -, rfl⟩ := reads_seq.mp h₀
  obtain ⟨f₂, screen, h₂, hscreen, rfl⟩ := reads_seq.mp h₁
  obtain ⟨version, -, rfl⟩ := reads_map.mp h₂
  obtain ⟨_, v, -, hv⟩ := reads_required.mp hscreen
  exact Screen.columned hv

end Wireframe
