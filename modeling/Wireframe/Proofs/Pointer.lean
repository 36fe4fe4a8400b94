import Wireframe.Value.Pointer

/-
  Wireframe.Proofs.Pointer — pointers and their tokens.

  Proved:
  - `unescapeChars_escapeChars`: a token is read from its written form as it was.
  - `parse_build`: the tokens of a pointer that is built from tokens are these tokens; so two
    pointers are equal only when their tokens are (`build_injective`), and one starts with another
    and a slash only when its tokens go on from those of the other (`startsWith_build_iff`).
  - `resolve_build`: a pointer addresses the value that its tokens lead to.
  - `child_eq_build`: the pointer of a child is that of its parent with one or two tokens more.
-/

namespace Wireframe.Pointer

/-! ## Written tokens -/

theorem unescapeChars_cons {c : Char} (h : c ≠ '~') (cs : List Char) :
    unescapeChars (c :: cs) = c :: unescapeChars cs := by
  conv =>
    lhs
    unfold unescapeChars
  split
  · rename_i e; cases e; exact absurd rfl h
  · rename_i e; cases e; exact absurd rfl h
  · rename_i e; cases e; rfl
  · rename_i e; cases e

theorem unescapeChars_escapeChars (cs : List Char) : unescapeChars (escapeChars cs) = cs := by
  induction cs with
  | nil => rfl
  | cons c cs ih =>
    unfold escapeChars
    split
    · rename_i h; subst h; rw [unescapeChars, ih]
    · split
      · rename_i h; subst h; rw [unescapeChars, ih]
      · rename_i h _; rw [unescapeChars_cons h, ih]

theorem slash_not_mem_escapeChars (cs : List Char) : '/' ∉ escapeChars cs := by
  induction cs with
  | nil => simp [escapeChars]
  | cons c cs ih =>
    unfold escapeChars
    split
    · simp [ih]
    · split
      · simp [ih]
      · rename_i h; simp [ih, Ne.symm h]

/-- A token without a tilde and a slash is written as it is. -/
theorem escapeChars_plain {cs : List Char} (tilde : '~' ∉ cs) (slash : '/' ∉ cs) :
    escapeChars cs = cs := by
  induction cs with
  | nil => rfl
  | cons c cs ih =>
    simp only [List.mem_cons, not_or] at tilde slash
    unfold escapeChars
    rw [if_neg (Ne.symm tilde.1), if_neg (Ne.symm slash.1), ih tilde.2 slash.2]

/-! ## Parts -/

theorem parts_self {cs : List Char} (h : '/' ∉ cs) : parts cs = [cs] := by
  induction cs with
  | nil => rfl
  | cons c cs ih =>
    simp only [List.mem_cons, not_or] at h
    unfold parts
    rw [if_neg (Ne.symm h.1), ih h.2]

theorem parts_ne_nil (cs : List Char) : parts cs ≠ [] := by
  cases cs with
  | nil => simp [parts]
  | cons c cs =>
    unfold parts
    split
    · simp
    · split <;> simp

/-- A slash stands between the parts before it and the parts after it. -/
theorem parts_slash (cs ds : List Char) : parts (cs ++ '/' :: ds) = parts cs ++ parts ds := by
  induction cs with
  | nil => rfl
  | cons c cs ih =>
    rw [List.cons_append, parts, parts, ih]
    split
    · rfl
    · obtain ⟨part, rest, found⟩ := List.exists_cons_of_ne_nil (parts_ne_nil cs)
      rw [found]
      rfl

theorem parts_append {cs : List Char} (h : '/' ∉ cs) (rest : List Char) :
    parts (cs ++ '/' :: rest) = cs :: parts rest := by
  rw [parts_slash, parts_self h]
  rfl

/-- The parts of one written token and more after it are these tokens, still written. -/
theorem parts_tokens (cs : List Char) (tokens : List String) :
    parts (escapeChars cs ++ tokens.flatMap fun t => '/' :: escapeChars t.toList) =
      escapeChars cs :: tokens.map fun t => escapeChars t.toList := by
  induction tokens generalizing cs with
  | nil => rw [List.flatMap_nil, List.append_nil, parts_self (slash_not_mem_escapeChars cs)]; rfl
  | cons t ts ih =>
    rw [List.flatMap_cons, List.cons_append, parts_append (slash_not_mem_escapeChars cs), ih]
    rfl

/-! ## Pointers -/

theorem toList_build (tokens : List String) :
    (build tokens).toList = tokens.flatMap fun t => '/' :: escapeChars t.toList :=
  String.toList_ofList

theorem build_append (ts us : List String) : build (ts ++ us) = build ts ++ build us := by
  rw [← String.toList_inj, String.toList_append]
  simp only [toList_build, List.flatMap_append]

theorem parse_build (tokens : List String) : parse (build tokens) = .ok tokens := by
  cases tokens with
  | nil => rfl
  | cons t ts =>
    have read : ∀ u : String, String.ofList (unescapeChars (escapeChars u.toList)) = u := fun u => by
      rw [unescapeChars_escapeChars, String.ofList_toList]
    unfold parse
    simp only [toList_build, List.flatMap_cons, List.cons_append, parts_tokens, List.map_cons,
      List.map_map, Function.comp_def, read, List.map_id']

theorem build_injective {ts us : List String} (h : build ts = build us) : ts = us := by
  have := (parse_build ts).symm.trans ((congrArg parse h).trans (parse_build us))
  exact Except.ok.inj this

/-- With the same beginning, pointers differ as soon as the tokens after it do. -/
theorem append_build_injective {p : String} {ts us : List String}
    (h : p ++ build ts = p ++ build us) : ts = us := by
  refine build_injective ?_
  rw [← String.toList_inj] at h ⊢
  simpa only [String.toList_append, List.append_cancel_left_eq] using h

/-- What follows a pointer after one more slash are more tokens. -/
theorem parse_more {p : String} {ts : List String} (h : parse p = .ok ts) (cs : List Char) :
    ∃ more, more ≠ [] ∧ parse (p ++ "/" ++ String.ofList cs) = .ok (ts ++ more) := by
  refine ⟨(parts cs).map fun part => String.ofList (unescapeChars part), ?_, ?_⟩
  · rw [Ne, List.map_eq_nil_iff]
    exact parts_ne_nil cs
  · have whole : (p ++ "/" ++ String.ofList cs).toList = p.toList ++ '/' :: cs := by simp
    unfold parse at h ⊢
    rw [whole]
    split at h
    · rename_i empty
      cases h
      rw [empty]
      rfl
    · rename_i ds form
      cases h
      rw [form, List.cons_append]
      simp only [parts_slash, List.map_append]
    · cases h

/-- With the same beginning, one pointer starts with another and a slash exactly when it has all
    tokens of the other and more. -/
theorem startsWith_build_iff (p : String) (ts us : List String) :
    (p ++ build us).startsWith (p ++ build ts ++ "/") = true ↔
      ∃ more, more ≠ [] ∧ us = ts ++ more := by
  rw [String.startsWith_string_iff]
  constructor
  · rintro ⟨cs, hcs⟩
    have same : build us = build ts ++ "/" ++ String.ofList cs := by
      rw [← String.toList_inj]
      simp only [String.toList_append, List.append_assoc, List.append_cancel_left_eq] at hcs
      simp only [String.toList_append, String.toList_ofList, List.append_assoc, hcs]
    obtain ⟨more, some_more, hmore⟩ := parse_more (parse_build ts) cs
    rw [← same, parse_build] at hmore
    exact ⟨more, some_more, Except.ok.inj hmore⟩
  · rintro ⟨more, some_more, rfl⟩
    obtain ⟨t, rest, rfl⟩ := List.exists_cons_of_ne_nil some_more
    refine ⟨escapeChars t.toList ++ (build rest).toList, ?_⟩
    simp only [String.toList_append, toList_build, List.flatMap_append, List.flatMap_cons,
      List.append_assoc, List.cons_append]
    rfl

/-! ## Places -/

theorem follow_cons {v next : Value} {token : String} (h : step? v token = some next)
    (rest : List String) : follow v (token :: rest) = follow next rest := by
  rw [follow, h]

theorem follow_append (v : Value) (ts us : List String) :
    follow v (ts ++ us) = follow v ts >>= fun w => follow w us := by
  induction ts generalizing v with
  | nil => rfl
  | cons t ts ih =>
    simp only [List.cons_append, follow]
    cases step? v t with
    | none => rfl
    | some next => exact ih next

theorem resolve_build {document v : Value} {tokens : List String}
    (h : follow document tokens = .ok v) : resolve document (build tokens) = .ok v := by
  simp only [resolve, parse_build, bind, Except.bind, h]

/-! ## Children -/

/-- The tokens from a parent to a child in one of its slots. -/
def childTokens (slot : String) (index : Option Nat) : List String :=
  slot :: (index.map toString).toList

theorem toString_injective {m n : Nat} (h : toString m = toString n) : m = n := by
  have : Nat.toDigits 10 m = Nat.toDigits 10 n := by
    rw [← Nat.toList_repr, ← Nat.toList_repr]
    exact congrArg String.toList h
  rw [← Nat.ofDigitChars_ten_toDigits (n := m), this, Nat.ofDigitChars_ten_toDigits]

theorem escapeChars_digits (n : Nat) : escapeChars (Nat.toDigits 10 n) = Nat.toDigits 10 n := by
  have digit : ∀ c ∈ Nat.toDigits 10 n, c.isDigit := fun c hc =>
    Nat.isDigit_of_mem_toDigits (by decide) (by decide) hc
  exact escapeChars_plain (fun h => absurd (digit _ h) (by decide))
    (fun h => absurd (digit _ h) (by decide))

theorem child_eq_build (parent slot : String) (index : Option Nat) :
    child parent slot (index.map Int.ofNat) = parent ++ build (childTokens slot index) := by
  rw [← String.toList_inj, String.toList_append, toList_build]
  cases index with
  | none => simp [child, childTokens, escape]
  | some i =>
    have shown : toString (Int.ofNat i) = toString i := rfl
    simp [child, childTokens, escape, shown, escapeChars_digits, -Int.ofNat_eq_natCast]

end Wireframe.Pointer
