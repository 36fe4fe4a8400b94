import Wireframe.Keyed
import Wireframe.Proofs.Mentions

/-
  Wireframe.Proofs.Keyed — what stands under a key.

  Proved:
  - `get?_put`: a value that is put stands under its key, and other keys keep theirs.
  - `erase_put_of_ne` / `get?_erase_of_ne`: to erase a key changes nothing about the others.
  - `ofList_of_nodup`: entries whose keys are distinct stay as they are.
  - `get?_ofList`: of several values for a key the last one counts.
  - `ofList_mapValues`, `group_mapValues`: with other values the same keys stand in the same order.
  - `ofList_mapKeys`, `group_mapKeys`: so do the same values under keys that are renamed one by one.
  - `group_eq`: one group for every key, in the order of first mentions, with the values of the key.
-/

namespace Wireframe.Keyed

variable {κ α : Type} [BEq κ] [LawfulBEq κ]

/-! ## One key -/

omit [LawfulBEq κ] in
theorem put_cons (k : κ) (v : α) (rest : List (κ × α)) (key : κ) (value : α) :
    put ((k, v) :: rest) key value =
      if k == key then (k, value) :: rest else (k, v) :: put rest key value := rfl

theorem get?_put (entries : List (κ × α)) (k : κ) (v : α) (key : κ) :
    get? (put entries k v) key = if k == key then some v else get? entries key := by
  induction entries with
  | nil => rfl
  | cons e rest ih =>
    obtain ⟨k', w⟩ := e
    unfold put
    by_cases same : k' = k
    · subst same
      simp only [BEq.rfl, if_true, get?]
      split <;> rfl
    · rw [if_neg (by simpa using same), get?, get?, ih]
      by_cases found : k' = key
      · subst found
        simp [Ne.symm same]
      · simp [found]

theorem mem_of_get? {entries : List (κ × α)} {k : κ} {v : α} (h : get? entries k = some v) :
    (k, v) ∈ entries := by
  induction entries with
  | nil => cases h
  | cons e rest ih =>
    obtain ⟨k', w⟩ := e
    unfold get? at h
    split at h
    · rename_i same
      cases h
      cases eq_of_beq same
      exact List.mem_cons_self
    · exact List.mem_cons_of_mem _ (ih h)

omit [LawfulBEq κ] in
theorem get?_append (as bs : List (κ × α)) (k : κ) :
    get? (as ++ bs) k = (get? as k).or (get? bs k) := by
  induction as with
  | nil => rfl
  | cons e rest ih =>
    rw [List.cons_append, get?, get?]
    split
    · rfl
    · exact ih

theorem get?_eq_none {entries : List (κ × α)} {k : κ} (h : ∀ e ∈ entries, e.1 ≠ k) :
    get? entries k = none := by
  induction entries with
  | nil => rfl
  | cons e rest ih =>
    rw [get?, if_neg (by simpa using h e List.mem_cons_self),
      ih fun f hf => h f (List.mem_cons_of_mem _ hf)]

theorem exists_get?_of_mem {entries : List (κ × α)} {e : κ × α} (h : e ∈ entries) :
    ∃ v, get? entries e.1 = some v := by
  induction entries with
  | nil => cases h
  | cons first rest ih =>
    rw [get?]
    split
    · exact ⟨_, rfl⟩
    · rename_i other
      rcases List.mem_cons.mp h with rfl | h
      · exact absurd BEq.rfl other
      · exact ih h

/-- Where keys are distinct, what stands under a key is its entry. -/
theorem get?_eq_some_of_nodup {entries : List (κ × α)} (h : (entries.map (·.1)).Nodup) {k : κ}
    {v : α} : get? entries k = some v ↔ (k, v) ∈ entries := by
  refine ⟨mem_of_get?, fun found => ?_⟩
  induction entries with
  | nil => cases found
  | cons e rest ih =>
    obtain ⟨k', w⟩ := e
    obtain ⟨fresh, others⟩ := List.nodup_cons.mp h
    rw [get?]
    rcases List.mem_cons.mp found with here | found
    · cases here
      rw [if_pos BEq.rfl]
    · have other : k' ≠ k := by
        rintro rfl
        exact fresh (List.mem_map_of_mem (f := (·.1)) found)
      rw [if_neg (by simpa using other), ih others found]

theorem mem_put {entries : List (κ × α)} {k : κ} {v : α} {e : κ × α} (h : e ∈ put entries k v) :
    e ∈ entries ∨ e = (k, v) := by
  induction entries with
  | nil => exact .inr (List.mem_singleton.mp h)
  | cons first rest ih =>
    obtain ⟨k', w⟩ := first
    unfold put at h
    split at h
    · rename_i same
      cases eq_of_beq same
      rcases List.mem_cons.mp h with rfl | h
      · exact .inr rfl
      · exact .inl (List.mem_cons_of_mem _ h)
    · rcases List.mem_cons.mp h with rfl | h
      · exact .inl List.mem_cons_self
      · exact (ih h).imp_left (List.mem_cons_of_mem _)

/-! ## Without a key -/

omit [LawfulBEq κ] in
theorem erase_cons (k : κ) (v : α) (rest : List (κ × α)) (key : κ) :
    erase ((k, v) :: rest) key = if k == key then erase rest key else (k, v) :: erase rest key := by
  cases h : k == key <;> simp [erase, bne, h]

omit [LawfulBEq κ] in
theorem get?_erase_self (entries : List (κ × α)) (key : κ) : get? (erase entries key) key = none := by
  induction entries with
  | nil => rfl
  | cons e rest ih =>
    rw [erase_cons]
    split
    · exact ih
    · rename_i other
      rw [get?, if_neg other, ih]

theorem get?_erase_of_ne (entries : List (κ × α)) {k key : κ} (h : k ≠ key) :
    get? (erase entries key) k = get? entries k := by
  induction entries with
  | nil => rfl
  | cons e rest ih =>
    rw [erase_cons]
    split
    · rename_i gone
      have : e.1 ≠ k := fun here => h (here.symm.trans (eq_of_beq gone))
      rw [ih, get?, if_neg (by simpa using this)]
    · rw [get?, get?, ih]

theorem erase_put_self (entries : List (κ × α)) (key : κ) (v : α) :
    erase (put entries key v) key = erase entries key := by
  induction entries with
  | nil => rw [put, erase_cons, if_pos BEq.rfl]
  | cons e rest ih =>
    unfold put
    split
    · rename_i here
      rw [erase_cons, erase_cons, if_pos here, if_pos here]
    · rename_i other
      rw [erase_cons, erase_cons, if_neg other, if_neg other, ih]

theorem erase_put_of_ne (entries : List (κ × α)) {k key : κ} (h : k ≠ key) (v : α) :
    erase (put entries k v) key = put (erase entries key) k v := by
  have stays : ¬(k == key) = true := by simpa using h
  induction entries with
  | nil => rw [put, erase_cons, if_neg stays]; rfl
  | cons e rest ih =>
    obtain ⟨k', w⟩ := e
    rw [put_cons, erase_cons]
    by_cases here : k' = k
    · subst here
      rw [if_pos BEq.rfl, if_neg stays, erase_cons, if_neg stays, put_cons, if_pos BEq.rfl]
    · have other : ¬(k' == k) = true := by simpa using here
      rw [if_neg other, erase_cons, ih]
      split
      · rfl
      · rw [put_cons, if_neg other]

/-! ## Many keys -/

omit [LawfulBEq κ] in
theorem ofList_snoc (entries : List (κ × α)) (e : κ × α) :
    ofList (entries ++ [e]) = put (ofList entries) e.1 e.2 := by
  simp only [ofList, List.foldl_append, List.foldl_cons, List.foldl_nil]

omit [LawfulBEq κ] in
theorem put_of_fresh {entries : List (κ × α)} {k : κ} (fresh : ∀ e ∈ entries, (e.1 == k) = false)
    (v : α) : put entries k v = entries ++ [(k, v)] := by
  induction entries with
  | nil => rfl
  | cons e rest ih =>
    rw [put_cons, fresh e List.mem_cons_self, if_neg Bool.false_ne_true,
      ih fun e he => fresh e (List.mem_cons_of_mem _ he), List.cons_append]

/-- Entries whose keys are distinct stay as they are. -/
theorem ofList_of_nodup {entries : List (κ × α)} (h : (entries.map (·.1)).Nodup) :
    ofList entries = entries := by
  induction entries using List.reverseRecOn with
  | nil => rfl
  | append_singleton entries e ih =>
    rw [List.map_append, List.nodup_append] at h
    obtain ⟨own, -, apart⟩ := h
    have fresh : ∀ f ∈ entries, (f.1 == e.1) = false := fun f hf =>
      beq_eq_false_iff_ne.mpr (apart f.1 (List.mem_map_of_mem hf) e.1 List.mem_cons_self)
    rw [ofList_snoc, ih own, put_of_fresh fresh]

/-- The last value that was put under a key stands there. -/
theorem get?_ofList (entries : List (κ × α)) (k : κ) :
    get? (ofList entries) k = (entries.reverse.find? (·.1 == k)).map (·.2) := by
  suffices ∀ reversed : List (κ × α), get? (ofList reversed.reverse) k =
      (reversed.find? (·.1 == k)).map (·.2) by
    simpa using this entries.reverse
  intro reversed
  induction reversed with
  | nil => rfl
  | cons e rest ih =>
    rw [List.reverse_cons, ofList_snoc, get?_put, ih, List.find?_cons]
    cases e.1 == k <;> rfl

/-- A key that has values has one of them. -/
theorem exists_get?_ofList {entries : List (κ × α)} {k : κ} {v : α} (h : (k, v) ∈ entries) :
    ∃ w, get? (ofList entries) k = some w ∧ (k, w) ∈ entries := by
  have found : (entries.reverse.find? (·.1 == k)).isSome := by
    rw [List.find?_isSome]
    exact ⟨(k, v), List.mem_reverse.mpr h, BEq.rfl⟩
  obtain ⟨⟨k', w⟩, hw⟩ := Option.isSome_iff_exists.mp found
  have same : k' = k := eq_of_beq (List.find?_some hw :)
  subst same
  refine ⟨w, by rw [get?_ofList, hw]; rfl, ?_⟩
  exact List.mem_reverse.mp (List.mem_of_find?_eq_some hw)

/-! ## Groups -/

omit [LawfulBEq κ] in
theorem group_snoc (entries : List (κ × α)) (e : κ × α) :
    group (entries ++ [e]) = addTo (group entries) e.1 e.2 := by
  simp only [group, List.foldl_append, List.foldl_cons, List.foldl_nil]

/-- The values of a key among some entries, in order. -/
def valuesOf (entries : List (κ × α)) (k : κ) : List α := (entries.filter (·.1 == k)).map (·.2)

omit [LawfulBEq κ] in
theorem valuesOf_snoc (entries : List (κ × α)) (e : κ × α) (k : κ) :
    valuesOf (entries ++ [e]) k = if e.1 == k then valuesOf entries k ++ [e.2]
      else valuesOf entries k := by
  rw [valuesOf, List.filter_append, List.filter_singleton, List.map_append, valuesOf]
  cases e.1 == k with
  | true => rfl
  | false => exact List.append_nil _

theorem valuesOf_eq_nil {entries : List (κ × α)} {k : κ} (absent : k ∉ entries.map (·.1)) :
    valuesOf entries k = [] := by
  rw [valuesOf, List.map_eq_nil_iff, List.filter_eq_nil_iff]
  exact fun e he same => absent (eq_of_beq same ▸ List.mem_map_of_mem he)

/-- Where every key has the value of a function, that is what stands under it. -/
theorem get?_map (f : κ → α) (keys : List κ) (k : κ) :
    get? (keys.map fun key => (key, f key)) k = if keys.contains k then some (f k) else none := by
  induction keys with
  | nil => rfl
  | cons key rest ih =>
    rw [List.map_cons, get?, ih, List.contains_cons]
    by_cases here : key = k
    · subst here
      simp
    · simp [here, Ne.symm here]

theorem put_map (f : κ → α) {keys : List κ} (nodup : keys.Nodup) {k : κ} (known : k ∈ keys) (v : α) :
    put (keys.map fun key => (key, f key)) k v =
      keys.map fun key => (key, if k == key then v else f key) := by
  induction keys with
  | nil => cases known
  | cons key rest ih =>
    obtain ⟨fresh, nodup⟩ := List.nodup_cons.mp nodup
    rw [List.map_cons, put_cons, List.map_cons]
    by_cases here : key = k
    · subst here
      have others : ∀ other ∈ rest, ¬(key == other) = true := fun other h same =>
        fresh (eq_of_beq same ▸ h)
      rw [if_pos BEq.rfl, if_pos BEq.rfl]
      exact congrArg _ (List.map_congr_left fun other h => by rw [if_neg (others other h)])
    · have known := (List.mem_cons.mp known).resolve_left (Ne.symm here)
      rw [if_neg (by simpa using here), if_neg (by simpa using Ne.symm here), ih nodup known]

/-- There is one group for every key, in the order in which the keys come first, with the values of
    the key in their order. -/
theorem group_eq (entries : List (κ × α)) : group entries =
    (entries.map (·.1)).eraseDups.map fun k => (k, valuesOf entries k) := by
  induction entries using List.reverseRecOn with
  | nil => rfl
  | append_singleton entries e ih =>
    obtain ⟨k, v⟩ := e
    rw [group_snoc, addTo, ih, get?_map, List.map_append, List.map_singleton, eraseDups_snoc]
    simp only [valuesOf_snoc]
    by_cases known : k ∈ entries.map (·.1)
    · have kept := List.mem_eraseDups.mpr known
      rw [if_pos (List.contains_iff_mem.mpr kept), if_pos (List.contains_iff_mem.mpr known),
        put_map _ (nodup_eraseDups _) kept]
      refine List.map_congr_left fun key _ => ?_
      by_cases here : k = key
      · subst here
        simp
      · simp [here]
    · have others : ∀ key ∈ (entries.map (·.1)).eraseDups, ¬(k == key) = true := fun key h same =>
        known (List.mem_eraseDups.mp (eq_of_beq same ▸ h))
      rw [if_neg fun h => known (List.mem_eraseDups.mp (List.contains_iff_mem.mp h)),
        if_neg fun h => known (List.contains_iff_mem.mp h), List.map_append, List.map_singleton,
        put_of_fresh ?fresh, if_pos BEq.rfl, valuesOf_eq_nil known]
      case fresh =>
        rintro _ he
        obtain ⟨key, h, rfl⟩ := List.mem_map.mp he
        exact beq_eq_false_iff_ne.mpr fun same => others key h (beq_iff_eq.mpr same.symm)
      · refine congrArg (· ++ _) (List.map_congr_left fun key h => ?_)
        rw [if_neg (others key h)]

/-- A value of a group is one of those that were grouped. -/
theorem mem_group {entries : List (κ × α)} {g : κ × List α} (h : g ∈ group entries) :
    ∀ v ∈ g.2, v ∈ entries.map (·.2) := by
  rw [group_eq] at h
  obtain ⟨k, -, rfl⟩ := List.mem_map.mp h
  exact fun v hv => (List.filter_sublist.map _).subset hv

/-! ## Other values under the same keys -/

section

variable {β : Type} (f : α → β)

/-- The entries with other values. -/
def mapValues (entries : List (κ × α)) : List (κ × β) := entries.map fun e => (e.1, f e.2)

omit [LawfulBEq κ] in
theorem get?_mapValues (entries : List (κ × α)) (k : κ) :
    get? (mapValues f entries) k = (get? entries k).map f := by
  induction entries with
  | nil => rfl
  | cons e rest ih =>
    obtain ⟨k', v⟩ := e
    show (if k' == k then some (f v) else get? (mapValues f rest) k) =
      (if k' == k then some v else get? rest k).map f
    rw [ih]
    split
    · rfl
    · rfl

omit [LawfulBEq κ] in
theorem put_mapValues (entries : List (κ × α)) (k : κ) (v : α) :
    put (mapValues f entries) k (f v) = mapValues f (put entries k v) := by
  induction entries with
  | nil => rfl
  | cons e rest ih =>
    obtain ⟨k', w⟩ := e
    show put ((k', f w) :: mapValues f rest) k (f v) = mapValues f (put ((k', w) :: rest) k v)
    rw [put_cons, put_cons, ih]
    split
    · rfl
    · rfl

omit [LawfulBEq κ] in
theorem ofList_mapValues (entries : List (κ × α)) :
    ofList (mapValues f entries) = mapValues f (ofList entries) := by
  suffices ∀ all : List (κ × α), (mapValues f entries).foldl (fun all e => put all e.1 e.2)
      (mapValues f all) = mapValues f (entries.foldl (fun all e => put all e.1 e.2) all) from this []
  induction entries with
  | nil => intro all; rfl
  | cons e rest ih =>
    intro all
    show (mapValues f rest).foldl _ (put (mapValues f all) e.1 (f e.2)) = _
    rw [put_mapValues, ih]
    rfl

omit [LawfulBEq κ] in
theorem group_mapValues (entries : List (κ × α)) :
    group (mapValues f entries) = mapValues (List.map f) (group entries) := by
  have added : ∀ (groups : List (κ × List α)) (k : κ) (v : α),
      addTo (mapValues (List.map f) groups) k (f v) = mapValues (List.map f) (addTo groups k v) := by
    intro groups k v
    have together : ((get? (mapValues (List.map f) groups) k).getD []) ++ [f v] =
        ((get? groups k).getD [] ++ [v]).map f := by
      rw [get?_mapValues, List.map_append]
      cases get? groups k with
      | none => rfl
      | some vs => rfl
    rw [addTo, together, put_mapValues, addTo]
  suffices ∀ groups : List (κ × List α),
      (mapValues f entries).foldl (fun groups e => addTo groups e.1 e.2)
        (mapValues (List.map f) groups) =
          mapValues (List.map f) (entries.foldl (fun groups e => addTo groups e.1 e.2) groups) from
    this []
  induction entries with
  | nil => intro groups; rfl
  | cons e rest ih =>
    intro groups
    show (mapValues f rest).foldl _ (addTo (mapValues (List.map f) groups) e.1 (f e.2)) = _
    rw [added, ih]
    rfl

end

/-! ## The same values under other keys -/

section

variable {ν : Type} [BEq ν] [LawfulBEq ν] {f : κ → ν} (injective : Function.Injective f)

/-- The entries under other keys. -/
def mapKeys (f : κ → ν) (entries : List (κ × α)) : List (ν × α) := entries.map fun e => (f e.1, e.2)

include injective

theorem beq_of_injective (k key : κ) : (f k == f key) = (k == key) := by
  rw [Bool.eq_iff_iff, beq_iff_eq, beq_iff_eq]
  exact injective.eq_iff

theorem get?_mapKeys (entries : List (κ × α)) (k : κ) :
    get? (mapKeys f entries) (f k) = get? entries k := by
  induction entries with
  | nil => rfl
  | cons e rest ih =>
    show (if f e.1 == f k then some e.2 else get? (mapKeys f rest) (f k)) =
      if e.1 == k then some e.2 else get? rest k
    rw [beq_of_injective injective, ih]

theorem put_mapKeys (entries : List (κ × α)) (k : κ) (v : α) :
    put (mapKeys f entries) (f k) v = mapKeys f (put entries k v) := by
  induction entries with
  | nil => rfl
  | cons e rest ih =>
    obtain ⟨k', w⟩ := e
    show put ((f k', w) :: mapKeys f rest) (f k) v = mapKeys f (put ((k', w) :: rest) k v)
    rw [put_cons, put_cons, beq_of_injective injective, ih]
    split
    · rfl
    · rfl

theorem ofList_mapKeys (entries : List (κ × α)) :
    ofList (mapKeys f entries) = mapKeys f (ofList entries) := by
  suffices ∀ all : List (κ × α), (mapKeys f entries).foldl (fun all e => put all e.1 e.2)
      (mapKeys f all) = mapKeys f (entries.foldl (fun all e => put all e.1 e.2) all) from this []
  induction entries with
  | nil => intro all; rfl
  | cons e rest ih =>
    intro all
    show (mapKeys f rest).foldl _ (put (mapKeys f all) (f e.1) e.2) = _
    rw [put_mapKeys injective, ih]
    rfl

theorem group_mapKeys (entries : List (κ × α)) :
    group (mapKeys f entries) = mapKeys f (group entries) := by
  suffices ∀ groups : List (κ × List α),
      (mapKeys f entries).foldl (fun groups e => addTo groups e.1 e.2) (mapKeys f groups) =
        mapKeys f (entries.foldl (fun groups e => addTo groups e.1 e.2) groups) from this []
  induction entries with
  | nil => intro groups; rfl
  | cons e rest ih =>
    intro groups
    show (mapKeys f rest).foldl _ (addTo (mapKeys f groups) (f e.1) e.2) = _
    rw [addTo, get?_mapKeys injective, put_mapKeys injective, ← addTo, ih]
    rfl

end

end Wireframe.Keyed
