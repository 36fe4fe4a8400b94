import Wireframe.Proofs.Score.Gate
import Mathlib.Data.List.FinRange

/-
  Wireframe.Proofs.Viewports — a report does not depend on the order of its viewports.

  Every viewport is laid out on its own. Three things look at several of them at once. The smallest
  viewport is the first one that no other goes before; as only equal viewports go before each other
  in neither way, it is the same one wherever it stands, and viewports that are equal have equal
  layouts. Spacing defects are counted over all layouts before they are clustered, and penalties
  are summed up before the mean is taken.

  Proved:
  - `Viewport.smallest?_perm`: the smallest viewport is the same in any order.
  - `Surroundings.of_perm`: so is what the layouts tell about it.
  - `Categories.scores_perm`: so are the scores.
  - `report_permuted`: in another order a report has its layouts in that order, and is otherwise
    the same.
-/

namespace Wireframe

/-! ## Numbered items -/

namespace Trail

variable {ω ε α β : Type}

theorem each_ofFn_eq_ok {n : Nat} {f : α → Trail ω ε β} {as : Fin n → α} {bs : List β} :
    (each f (List.ofFn as)).result = .ok bs ↔
      ∃ b : Fin n → β, bs = List.ofFn b ∧ ∀ i, (f (as i)).result = .ok (b i) := by
  induction n generalizing bs with
  | zero =>
    simp only [List.ofFn_zero, each, result_done, Except.ok.injEq, IsEmpty.forall_iff, and_true]
    constructor
    · intro h
      exact ⟨Fin.elim0, h.symm⟩
    · rintro ⟨_, h⟩
      exact h.symm
  | succ n ih =>
    simp only [List.ofFn_succ, each, result_bind_eq_ok, result_pure, ih, Fin.forall_fin_succ]
    constructor
    · rintro ⟨b, hb, _, ⟨more, rfl, hmore⟩, e⟩
      cases e
      exact ⟨Fin.cons b more, by simp, hb, hmore⟩
    · rintro ⟨b, rfl, first, rest⟩
      exact ⟨b 0, first, _, ⟨fun i => b i.succ, rfl, rest⟩, rfl⟩

end Trail

theorem Result.mapM_ofFn_eq_ok {ε α β : Type} {n : Nat} {f : α → Except ε β} {as : Fin n → α}
    {bs : List β} : (List.ofFn as).mapM f = .ok bs ↔
      ∃ b : Fin n → β, bs = List.ofFn b ∧ ∀ i, f (as i) = .ok (b i) := by
  induction n generalizing bs with
  | zero =>
    simp only [List.ofFn_zero, List.mapM_nil, IsEmpty.forall_iff, and_true]
    constructor
    · intro h
      exact ⟨Fin.elim0, (Except.ok.inj h).symm⟩
    · rintro ⟨_, h⟩
      exact congrArg _ h.symm
  | succ n ih =>
    simp only [List.ofFn_succ, List.mapM_cons, bind_eq_ok, ih, Fin.forall_fin_succ]
    constructor
    · rintro ⟨b, hb, _, ⟨more, rfl, hmore⟩, e⟩
      cases e
      exact ⟨Fin.cons b more, by simp, hb, hmore⟩
    · rintro ⟨b, rfl, first, rest⟩
      exact ⟨b 0, first, _, ⟨fun i => b i.succ, rfl, rest⟩, rfl⟩

theorem zip_ofFn {α β : Type} {n : Nat} (a : Fin n → α) (b : Fin n → β) :
    (List.ofFn a).zip (List.ofFn b) = List.ofFn fun i => (a i, b i) := by
  induction n with
  | zero => rfl
  | succ n ih => simp only [List.ofFn_succ, List.zip_cons_cons, ih]

/-! ## The smallest viewport -/

namespace Viewport

theorem before_iff {v u : Viewport} :
    v.before u = true ↔ v.width < u.width ∨ v.width = u.width ∧ v.height < u.height := by
  simp [before]

/-- Viewports that go before each other in neither way are equal. -/
theorem eq_of_not_before {v u : Viewport} (h : v.before u = false) (k : u.before v = false) :
    v = u := by
  rw [← Bool.not_eq_true, before_iff] at h k
  obtain ⟨w, b, _, _⟩ := v
  obtain ⟨w', b', _, _⟩ := u
  simp only [mk.injEq] at h k ⊢
  omega

/-- What the lesser of two viewports does not go before, neither of them goes before. -/
theorem not_before_of_lesser {u v m : Viewport} (h : (if u.before v then u else v).before m = false) :
    v.before m = false ∧ u.before m = false := by
  simp only [← Bool.not_eq_true, before_iff] at h ⊢
  split at h <;> omega

/-- A viewport that is in the list and that no other goes before. -/
def IsSmallest (v : Viewport) (vs : List Viewport) : Prop := v ∈ vs ∧ ∀ u ∈ vs, u.before v = false

theorem IsSmallest.eq {v u : Viewport} {vs : List Viewport} (hv : v.IsSmallest vs)
    (hu : u.IsSmallest vs) : v = u :=
  eq_of_not_before (hu.2 v hv.1) (hv.2 u hu.1)

theorem IsSmallest.perm {v : Viewport} {vs us : List Viewport} (h : v.IsSmallest vs)
    (same : vs.Perm us) : v.IsSmallest us :=
  ⟨same.mem_iff.mp h.1, fun u hu => h.2 u (same.mem_iff.mpr hu)⟩

/-- The walk keeps the smallest of the viewports it has seen. -/
theorem isSmallest_foldl (first : Viewport) (vs : List Viewport) :
    (vs.foldl (fun least u => if u.before least then u else least) first).IsSmallest (first :: vs) := by
  induction vs generalizing first with
  | nil => exact ⟨List.mem_singleton_self first, by simp [before]⟩
  | cons u rest ih =>
    obtain ⟨mem, least⟩ := ih (if u.before first then u else first)
    rw [List.foldl_cons]
    refine ⟨?_, ?_⟩
    · rcases List.mem_cons.mp mem with kept | mem
      · rw [kept]
        split <;> simp
      · exact List.mem_cons_of_mem _ (List.mem_cons_of_mem _ mem)
    · obtain ⟨hfirst, hu⟩ := not_before_of_lesser (least _ List.mem_cons_self)
      intro w hw
      simp only [List.mem_cons] at hw
      rcases hw with rfl | rfl | hw
      · exact hfirst
      · exact hu
      · exact least w (List.mem_cons_of_mem _ hw)

theorem smallest?_eq_some {v : Viewport} {vs : List Viewport} :
    smallest? vs = some v ↔ v.IsSmallest vs := by
  cases vs with
  | nil => exact ⟨fun h => (nomatch h), fun h => (nomatch h.1)⟩
  | cons first rest =>
    rw [smallest?, Option.some.injEq]
    exact ⟨fun h => h ▸ isSmallest_foldl first rest, (isSmallest_foldl first rest).eq⟩

/-- The smallest viewport is the same in any order. -/
theorem smallest?_perm {vs us : List Viewport} (same : vs.Perm us) : smallest? vs = smallest? us := by
  refine Option.ext fun v => ?_
  rw [smallest?_eq_some, smallest?_eq_some]
  exact ⟨fun h => h.perm same, fun h => h.perm same.symm⟩

end Viewport

/-! ## What the layouts tell -/

/-- Where equal keys have equal values, a value is found by its key in any order. -/
theorem find?_key_perm {α β : Type} [DecidableEq α] {l m : List (α × β)} (same : l.Perm m)
    (agree : ∀ p ∈ l, ∀ q ∈ l, p.1 = q.1 → p = q) (a : α) :
    l.find? (·.1 == a) = m.find? (·.1 == a) := by
  cases hl : l.find? (·.1 == a) with
  | none =>
    rw [List.find?_eq_none] at hl
    exact (List.find?_eq_none.mpr fun p hp => hl p (same.mem_iff.mpr hp)).symm
  | some p =>
    have hp := List.find?_some hl
    have mem := List.mem_of_find?_eq_some hl
    cases hm : m.find? (·.1 == a) with
    | none => exact absurd hp (List.find?_eq_none.mp hm p (same.mem_iff.mp mem))
    | some q =>
      have hq := List.find?_some hm
      rw [beq_iff_eq] at hp hq
      exact congrArg some
        (agree p mem q (same.mem_iff.mpr (List.mem_of_find?_eq_some hm)) (hp.trans hq.symm))

theorem Surroundings.of_perm {l m : List (Viewport × Layout)} (same : l.Perm m)
    (agree : ∀ p ∈ l, ∀ q ∈ l, p.1 = q.1 → p = q) : Surroundings.of l = Surroundings.of m := by
  unfold Surroundings.of
  rw [Viewport.smallest?_perm (same.map _)]
  cases Viewport.smallest? (m.map (·.1)) with
  | none => rfl
  | some v =>
    simp only
    rw [find?_key_perm same agree v]

/-! ## Scores -/

theorem sumOf_perm {α : Type} {count : α → Int} {as bs : List α} (same : as.Perm bs) :
    sumOf count as = sumOf count bs := by
  induction same with
  | nil => rfl
  | cons a _ ih => simp only [sumOf, ih]
  | swap a b rest => simp only [sumOf]; omega
  | trans _ _ ih ih' => exact ih.trans ih'

theorem Issue.count_perm {is js : List Issue} (same : is.Perm js) (id severity : Option String) :
    Issue.count is id severity = Issue.count js id severity :=
  same.countP_eq _

/-- The scores are the same in any order of the layouts. -/
theorem Categories.scores_perm {α : Type} [Scalar α] (vs : List Verdict) (f : Focus)
    {ls ms : List Layout} (same : ls.Perm ms) :
    (Categories.scores vs f ls : Categories α) = Categories.scores vs f ms := by
  have penalties := same.map fun l => viewportPenalty l.issues
  have viewports : (viewportPoints (ls.map fun l => viewportPenalty l.issues) : α) =
      viewportPoints (ms.map fun l => viewportPenalty l.issues) := by
    simp only [viewportPoints, penalties.isEmpty_eq, sumOf_perm penalties, penalties.length_eq]
  have grouping : groupingPoints f.issues (ls.flatMap (·.issues)) =
      groupingPoints f.issues (ms.flatMap (·.issues)) := by
    simp only [groupingPoints, Issue.count_perm (same.flatMap_right _)]
  rw [scores, scores, grouping, viewports]

theorem Score.compute_perm (weights : Categories Float) (criteria : Criteria) (vs : List Verdict)
    (f : Focus) {ls ms : List Layout} (same : ls.Perm ms) :
    Score.compute weights criteria vs f ls = Score.compute weights criteria vs f ms := by
  rw [compute, compute, Categories.scores_perm vs f same]

/-! ## Reports -/

/-- Whatever viewports a screen is reported on, those that are asked for or those it has by itself:
asked for in another order, duplicates included, they give the same report, with the layouts in
that order. -/
theorem report_permuted (env : Environment) (q : Inquiry) (s : Scaffold) (r : Report) {n : Nat}
    (texts : Fin n → String) (order : Equiv.Perm (Fin n))
    (viewports : Layout.viewportTexts env s q.viewports = List.ofFn texts)
    (h : (Report.compute env q s).result = .ok r) :
    ∃ layouts : Fin n → Layout, r.layouts = List.ofFn layouts ∧
      (Report.compute env { q with viewports := some (List.ofFn (texts ∘ order)) } s).result =
        .ok { r with layouts := List.ofFn (layouts ∘ order) } := by
  obtain ⟨_, _, focus, topics, verdicts, score, read, sized, laid, hf, ht, named, hvs, hs, rfl⟩ :=
    Report.compute_eq_ok.mp h
  rw [viewports, Report.parseViewports] at read
  obtain ⟨vs, rfl, hv⟩ := Result.mapM_ofFn_eq_ok.mp read
  obtain ⟨layouts, rfl, hl⟩ := Trail.each_ofFn_eq_ok.mp laid
  refine ⟨layouts, rfl, ?_⟩
  have around : Surroundings.of ((List.ofFn (vs ∘ order)).zip (List.ofFn (layouts ∘ order))) =
      Surroundings.of ((List.ofFn vs).zip (List.ofFn layouts)) := by
    rw [zip_ofFn, zip_ofFn]
    refine (Surroundings.of_perm (order.ofFn_comp_perm fun i => (vs i, layouts i)).symm ?_).symm
    -- Viewports that are equal were laid out by the same computation.
    intro p hp p' hp' same
    obtain ⟨i, rfl⟩ := (List.mem_ofFn' _ p).mp hp
    obtain ⟨j, rfl⟩ := (List.mem_ofFn' _ p').mp hp'
    have same : vs i = vs j := same
    have same_layout : layouts i = layouts j :=
      Except.ok.inj ((hl i).symm.trans (same ▸ hl j))
    exact Prod.ext same same_layout
  refine Report.compute_eq_ok.mpr ⟨List.ofFn (vs ∘ order), List.ofFn (layouts ∘ order), focus, topics,
    verdicts, score, Result.mapM_ofFn_eq_ok.mpr ⟨_, rfl, fun i => hv (order i)⟩, sized,
    Trail.each_ofFn_eq_ok.mpr ⟨_, rfl, fun i => hl (order i)⟩, hf, ht, named, around ▸ hvs, ?_, ?_⟩
  · rw [Score.compute_perm _ _ _ _ (order.ofFn_comp_perm layouts)]
    exact hs
  · rw [around]

/-- A table that does not say what it does on narrow viewports, and a button too wide for them. -/
def wideTable : Node :=
  .plainStack "page" .vertical
    [.table (.plain "prices") ⟨none, ["item", "price", "stock", "unit", "total"], some 3, none, none⟩,
      .plainStack "actions" .horizontal
        [.button { Header.plain "buy" with minSize := some ⟨some 500, none, ["w"]⟩ } ⟨"Buy", none⟩]]

/-- The narrow viewport is asked for twice. -/
def wideTableInquiry : Inquiry where
  patterns := ["Table.Simple"]
  viewports := some ["320x640", "1024x768", "320x640"]
  weights := Categories.standardWeights
  criteria := ⟨true, true, some 60⟩
  detection := .role
  room := 1000

/-- The first of three comes last. -/
def rotation : Equiv.Perm (Fin 3) := (Equiv.swap 1 2).trans (Equiv.swap 0 1)

theorem wideTable_rotated : ∃ r,
    (Report.compute [] wideTableInquiry (.around wideTable)).result = .ok r ∧
    (r.layouts.map (·.viewport) = ["320x640", "1024x768", "320x640"] ∧ r.score.overall = 58) ∧
    ∃ layouts : Fin 3 → Layout, r.layouts = List.ofFn layouts ∧
      (Report.compute [] { wideTableInquiry with
        viewports := some ["1024x768", "320x640", "320x640"] } (.around wideTable)).result =
          .ok { r with layouts := [layouts 1, layouts 2, layouts 0] } := by
  have computed : ((Report.compute [] wideTableInquiry (.around wideTable)).result.map
      fun r => (r.layouts.map (·.viewport), r.score.overall)).toOption =
        some (["320x640", "1024x768", "320x640"], 58) := by
    decide +kernel
  obtain ⟨r, hr, told⟩ := Result.map_toOption_eq_some.mp computed
  obtain ⟨layouts, hl, permuted⟩ := report_permuted [] wideTableInquiry (.around wideTable) r
    ["320x640", "1024x768", "320x640"].get rotation rfl hr
  have turned : ∀ {α : Type} (f : Fin 3 → α), List.ofFn (f ∘ rotation) = [f 1, f 2, f 0] :=
    fun _ => rfl
  have texts := turned ["320x640", "1024x768", "320x640"].get
  refine ⟨r, hr, Prod.mk.inj told, layouts, hl, ?_⟩
  rw [turned layouts, texts] at permuted
  exact permuted

end Wireframe
