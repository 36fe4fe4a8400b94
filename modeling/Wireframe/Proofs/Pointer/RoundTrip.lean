import Wireframe.Proofs.Pointer
import Wireframe.Proofs.Node.Writing

/-
  Wireframe.Proofs.Pointer.RoundTrip — pointers are written and read back without loss.

  A token is written by two replacements, `~` first and `/` second, and read by two in the opposite
  order; each is done in one pass here (`escapeChars_eq_replaced`, `unescapeChars_eq_replaced`). In
  the wrong order `~01` would be read as `/`.

  Proved:
  - `build_parse_iff`: a pointer that is read is written again as it was exactly when each of its
    tildes is followed by `0` or `1`.
  - `parse_refuses`: only a pointer that is not empty and has no slash in front is refused.
  - `follow_leads`: the texts of the keys and positions of a path lead to the value at its end.
  - `pointers_round_trip`: tokens from a pointer that was built from them, a pointer from its own
    tokens, and a value from the pointer of the path to it.
-/

namespace Wireframe.Pointer

/-! ## Two replacements in one pass -/

/-- The text with `new` in place of each `c` that `more` stands after, from left to right. What is
    put in is not looked at again. -/
def replaced (c : Char) (more new : List Char) : List Char → List Char
  | [] => []
  | d :: ds =>
    if d = c ∧ more <+: ds then new ++ replaced c more new (ds.drop more.length)
    else d :: replaced c more new ds
termination_by ds => ds.length
decreasing_by all_goals (simp only [List.length_cons, List.length_drop]; omega)

section

variable {c d : Char} {more new : List Char}

theorem replaced_nil : replaced c more new [] = [] := by rw [replaced]

theorem replaced_here (ds : List Char) :
    replaced c more new (c :: (more ++ ds)) = new ++ replaced c more new ds := by
  rw [replaced, if_pos ⟨rfl, List.prefix_append more ds⟩, List.drop_left]

theorem replaced_other (h : d ≠ c) (ds : List Char) :
    replaced c more new (d :: ds) = d :: replaced c more new ds := by
  rw [replaced, if_neg fun both => h both.1]

theorem replaced_apart {ds : List Char} (h : ¬ more <+: ds) :
    replaced c more new (d :: ds) = d :: replaced c more new ds := by
  rw [replaced, if_neg fun both => h both.2]

end

/-- A token is written by replacing `~` and then `/`. -/
theorem escapeChars_eq_replaced (cs : List Char) :
    escapeChars cs = replaced '/' [] ['~', '1'] (replaced '~' [] ['~', '0'] cs) := by
  induction cs with
  | nil => rw [replaced_nil, replaced_nil, escapeChars]
  | cons c cs ih =>
    have tilde (ds : List Char) :
        replaced '~' [] ['~', '0'] ('~' :: ds) = '~' :: '0' :: replaced '~' [] ['~', '0'] ds :=
      replaced_here ds
    have slash (ds : List Char) :
        replaced '/' [] ['~', '1'] ('/' :: ds) = '~' :: '1' :: replaced '/' [] ['~', '1'] ds :=
      replaced_here ds
    unfold escapeChars
    by_cases is_tilde : c = '~'
    · subst is_tilde
      rw [if_pos rfl, ih, tilde, replaced_other (by decide), replaced_other (by decide)]
    · by_cases is_slash : c = '/'
      · subst is_slash
        rw [if_neg is_tilde, if_pos rfl, ih, replaced_other (by decide), slash]
      · rw [if_neg is_tilde, if_neg is_slash, ih, replaced_other is_tilde, replaced_other is_slash]

/-- Reading slashes first puts no `0` after a tilde that had none. -/
theorem head_replaced_slash {cs : List Char}
    (h : ['0'] <+: replaced '~' ['1'] ['/'] cs) : ['0'] <+: cs := by
  cases cs with
  | nil => rwa [replaced_nil] at h
  | cons c cs =>
    unfold replaced at h
    split at h
    · exact absurd (List.cons_prefix_cons.mp h).1 (by decide)
    · rw [List.cons_prefix_cons] at h ⊢
      exact ⟨h.1, List.nil_prefix⟩

/-- A token is read by replacing `~1` and then `~0`. -/
theorem unescapeChars_eq_replaced (cs : List Char) :
    unescapeChars cs = replaced '~' ['0'] ['~'] (replaced '~' ['1'] ['/'] cs) := by
  induction cs using unescapeChars.induct with
  | case1 cs ih =>
    have first : replaced '~' ['1'] ['/'] ('~' :: '0' :: cs) =
        '~' :: '0' :: replaced '~' ['1'] ['/'] cs := by
      rw [replaced_apart fun h => absurd (List.cons_prefix_cons.mp h).1 (by decide),
        replaced_other (by decide)]
    have second (ds : List Char) : replaced '~' ['0'] ['~'] ('~' :: '0' :: ds) =
        '~' :: replaced '~' ['0'] ['~'] ds := replaced_here ds
    rw [unescapeChars, ih, first, second]
  | case2 cs ih =>
    have slash : replaced '~' ['1'] ['/'] ('~' :: '1' :: cs) = '/' :: replaced '~' ['1'] ['/'] cs :=
      replaced_here cs
    rw [unescapeChars, ih, slash, replaced_other (by decide)]
  | case3 c cs no_zero no_one ih =>
    rw [unescapeChars.eq_3 c cs no_zero no_one, ih]
    by_cases is_tilde : c = '~'
    · have apart_one : ¬ ['1'] <+: cs := by
        intro h
        obtain ⟨ds, form⟩ := h
        exact no_one ds is_tilde form.symm
      have apart_zero : ¬ ['0'] <+: cs := by
        intro h
        obtain ⟨ds, form⟩ := h
        exact no_zero ds is_tilde form.symm
      rw [replaced_apart apart_one, replaced_apart fun h => apart_zero (head_replaced_slash h)]
    · rw [replaced_other is_tilde, replaced_other is_tilde]
  | case4 => rw [replaced_nil, replaced_nil, unescapeChars]

/-- In the wrong order of the two replacements this token would be read as a slash. -/
example : unescapeChars "~01".toList = "~1".toList := by decide

/-! ## Tildes in pairs -/

/-- Each tilde is followed by `0` or `1`. -/
def TildesPaired (cs : List Char) : Prop :=
  ∀ before after, cs = before ++ '~' :: after → after.head? = some '0' ∨ after.head? = some '1'

theorem tildesPaired_nil : TildesPaired [] := by
  intro before after h
  cases before <;> cases h

theorem tildesPaired_cons {c : Char} {cs : List Char} :
    TildesPaired (c :: cs) ↔
      (c = '~' → cs.head? = some '0' ∨ cs.head? = some '1') ∧ TildesPaired cs := by
  constructor
  · intro h
    refine ⟨fun e => h [] cs (by rw [e]; rfl), fun before after e => ?_⟩
    exact h (c :: before) after (by rw [e]; rfl)
  · intro ⟨here, later⟩ before after e
    cases before with
    | nil =>
      cases e
      exact here rfl
    | cons b before =>
      cases e
      exact later before after rfl

theorem tildesPaired_other {c : Char} (h : c ≠ '~') {cs : List Char} :
    TildesPaired (c :: cs) ↔ TildesPaired cs := by
  rw [tildesPaired_cons]
  exact ⟨And.right, fun rest => ⟨fun e => absurd e h, rest⟩⟩

theorem TildesPaired.append {cs ds : List Char} (hc : TildesPaired cs) (hd : TildesPaired ds) :
    TildesPaired (cs ++ ds) := by
  induction cs with
  | nil => exact hd
  | cons c cs ih =>
    rw [tildesPaired_cons] at hc
    refine tildesPaired_cons.mpr ⟨fun e => ?_, ih hc.2⟩
    -- what follows the tilde is in the same list
    cases cs with
    | nil => exact absurd (hc.1 e) (by decide)
    | cons next rest => exact hc.1 e

theorem tildesPaired_escapeChars (cs : List Char) : TildesPaired (escapeChars cs) := by
  induction cs with
  | nil => exact tildesPaired_nil
  | cons c cs ih =>
    unfold escapeChars
    split
    · exact tildesPaired_cons.mpr ⟨fun _ => .inl rfl, (tildesPaired_other (by decide)).mpr ih⟩
    · split
      · exact tildesPaired_cons.mpr ⟨fun _ => .inr rfl, (tildesPaired_other (by decide)).mpr ih⟩
      · rename_i h _
        exact (tildesPaired_other h).mpr ih

/-- A written pointer has only tildes that belong to a written token. -/
theorem tildesPaired_build (tokens : List String) : TildesPaired (build tokens).toList := by
  rw [toList_build]
  induction tokens with
  | nil => exact tildesPaired_nil
  | cons t ts ih =>
    rw [List.flatMap_cons]
    exact .append ((tildesPaired_other (by decide)).mpr (tildesPaired_escapeChars _)) ih

/-! ## Parts and tokens -/

theorem slash_not_mem_parts {cs part : List Char} (h : part ∈ parts cs) : '/' ∉ part := by
  induction cs generalizing part with
  | nil =>
    obtain rfl := List.mem_singleton.mp h
    exact List.not_mem_nil
  | cons c cs ih =>
    unfold parts at h
    split at h
    · rcases List.mem_cons.mp h with rfl | later
      · exact List.not_mem_nil
      · exact ih later
    · rename_i no_slash
      obtain ⟨first, rest, found⟩ := List.exists_cons_of_ne_nil (parts_ne_nil cs)
      rw [found] at h ih
      rcases List.mem_cons.mp h with rfl | later
      · rw [List.mem_cons, not_or]
        exact ⟨Ne.symm no_slash, ih (List.mem_cons_self ..)⟩
      · exact ih (List.mem_cons_of_mem _ later)

/-- The parts, each after a slash, are the text again. -/
theorem join_parts (cs : List Char) : (parts cs).flatMap ('/' :: ·) = '/' :: cs := by
  induction cs with
  | nil => rfl
  | cons c cs ih =>
    unfold parts
    split
    · rename_i is_slash
      rw [List.flatMap_cons, ih, is_slash]
      rfl
    · obtain ⟨first, rest, found⟩ := List.exists_cons_of_ne_nil (parts_ne_nil cs)
      rw [found, List.flatMap_cons, List.cons_append] at ih
      rw [found]
      simp only [List.flatMap_cons, List.cons_append, (List.cons.inj ih).2]

/-- After a part comes a slash or nothing, so no tilde at its end is one of a pair. -/
theorem tildesPaired_parts {cs : List Char} (h : TildesPaired cs) {part : List Char}
    (hp : part ∈ parts cs) : TildesPaired part := by
  obtain ⟨earlier, later, found⟩ := List.append_of_mem hp
  intro before after hpart
  have place : '/' :: cs = (earlier.flatMap ('/' :: ·) ++ '/' :: before) ++
      '~' :: (after ++ later.flatMap ('/' :: ·)) := by
    rw [← join_parts, found, hpart]
    simp
  have follower := (tildesPaired_other (by decide)).mpr h _ _ place
  cases after with
  | cons next rest => exact follower
  | nil =>
    cases later with
    | nil => exact absurd follower (by decide)
    | cons next rest => exact absurd follower (by simp)

/-- A part without a slash whose tildes are in pairs is written again as it was. -/
theorem escapeChars_unescapeChars {cs : List Char} (no_slash : '/' ∉ cs) (h : TildesPaired cs) :
    escapeChars (unescapeChars cs) = cs := by
  induction cs using unescapeChars.induct with
  | case1 cs ih =>
    simp only [List.mem_cons, not_or] at no_slash
    have later := (tildesPaired_other (by decide)).mp (tildesPaired_cons.mp h).2
    rw [unescapeChars, escapeChars, if_pos rfl, ih no_slash.2.2 later]
  | case2 cs ih =>
    simp only [List.mem_cons, not_or] at no_slash
    have later := (tildesPaired_other (by decide)).mp (tildesPaired_cons.mp h).2
    rw [unescapeChars, escapeChars, if_neg (by decide), if_pos rfl, ih no_slash.2.2 later]
  | case3 c cs no_zero no_one ih =>
    simp only [List.mem_cons, not_or] at no_slash
    obtain ⟨here, later⟩ := tildesPaired_cons.mp h
    have no_tilde : c ≠ '~' := by
      intro is_tilde
      rcases here is_tilde with zero | one
      · obtain ⟨rest, hrest⟩ := List.head?_eq_some_iff.mp zero
        exact no_zero rest is_tilde hrest
      · obtain ⟨rest, hrest⟩ := List.head?_eq_some_iff.mp one
        exact no_one rest is_tilde hrest
    rw [unescapeChars_cons no_tilde, escapeChars, if_neg no_tilde, if_neg (Ne.symm no_slash.1),
      ih no_slash.2 later]
  | case4 => rfl

/-! ## Pointers that are read -/

theorem startsWith_slash_iff {p : String} :
    p.startsWith "/" = true ↔ ∃ cs, p.toList = '/' :: cs := by
  rw [String.startsWith_string_iff]
  exact exists_congr fun cs => eq_comm

theorem parse_reads {p : String} (h : p = "" ∨ p.startsWith "/" = true) :
    ∃ tokens, parse p = .ok tokens := by
  rcases h with rfl | slash
  · exact ⟨[], rfl⟩
  · obtain ⟨cs, form⟩ := startsWith_slash_iff.mp slash
    unfold parse
    rw [form]
    exact ⟨_, rfl⟩

theorem parse_refuses {p : String} (some_char : p ≠ "") (no_slash : p.startsWith "/" = false) :
    parse p = .error (.noLeadingSlash p) := by
  unfold parse
  split
  · rename_i empty
    exact absurd (String.toList_inj.mp empty) some_char
  · rename_i cs form
    rw [startsWith_slash_iff.mpr ⟨cs, form⟩] at no_slash
    cases no_slash
  · rfl

/-- A pointer that is read is written again as it was exactly when each of its tildes is followed
    by `0` or `1`. -/
theorem build_parse_iff {p : String} {tokens : List String} (h : parse p = .ok tokens) :
    build tokens = p ↔ TildesPaired p.toList := by
  constructor
  · intro same
    rw [← same]
    exact tildesPaired_build tokens
  · intro paired
    rw [← String.toList_inj, toList_build]
    unfold parse at h
    split at h
    · rename_i empty
      cases h
      exact empty.symm
    · rename_i cs form
      cases h
      rw [form] at paired ⊢
      have again : ∀ part ∈ parts cs, escapeChars (unescapeChars part) = part := fun part hp =>
        escapeChars_unescapeChars (slash_not_mem_parts hp)
          (tildesPaired_parts ((tildesPaired_other (by decide)).mp paired) hp)
      rw [List.flatMap_map, ← join_parts]
      simp only [String.toList_ofList]
      exact List.flatMap_congr fun part hp => by rw [again part hp]
    · cases h

/-! ## Paths into documents -/

/-- A step of a path: the key of a member, or the position of an item; a position below zero counts
    from the end. -/
inductive Token where
  | key (name : String)
  | position (i : Int)
  deriving DecidableEq

/-- The text of a token. A position is written in decimal, with as many digits as it takes. -/
def Token.shown : Token → String
  | .key name => name
  | .position i => toString i

/-- A path leads from a document along keys that its objects have and positions that its lists
    have. -/
inductive Leads : Value → List Token → Value → Prop
  | here (v : Value) : Leads v [] v
  | member {members : Object} {name : String} {next v : Value} {path : List Token} :
      Keyed.get? members name = some next → Leads next path v →
        Leads (.object members) (.key name :: path) v
  | item {items : List Value} {i : Nat} {next v : Value} {path : List Token} :
      items[i]? = some next → Leads next path v →
        Leads (.list items) (.position i :: path) v
  | itemFromEnd {items : List Value} {i : Nat} {next v : Value} {path : List Token} :
      items.reverse[i]? = some next → Leads next path v →
        Leads (.list items) (.position (Int.negSucc i) :: path) v

/-- Positions are those of lists, which are no longer than lists can be. -/
def PositionsFit (path : List Token) : Prop :=
  ∀ i, .position i ∈ path → (i.natAbs : Int) < lengthBound

theorem PositionsFit.tail {token : Token} {path : List Token} (h : PositionsFit (token :: path)) :
    PositionsFit path := fun i hi => h i (List.mem_cons_of_mem token hi)

theorem PositionsFit.head {i : Int} {path : List Token} (h : PositionsFit (.position i :: path)) :
    i.natAbs < 10 ^ Text.digitLimit := length_small (h i List.mem_cons_self)

/-- A position below zero leads to the item there, counted from the end. -/
theorem step?_itemFromEnd {items : List Value} {i : Nat} {v : Value}
    (h : items.reverse[i]? = some v) (small : i + 1 < 10 ^ Text.digitLimit) :
    step? (.list items) (toString (Int.negSucc i)) = some v := by
  have inside : i < items.length := by
    rw [← List.length_reverse]
    exact (List.getElem?_eq_some_iff.mp h).1
  have place : Int.negSucc i + items.length = ((items.length - 1 - i : Nat) : Int) := by omega
  have found : position? items.length (toString (Int.negSucc i)) = some (items.length - 1 - i) := by
    simp only [position?, Text.integer?_negative small, Option.bind_eq_bind, Option.bind_some,
      if_pos (Int.negSucc_lt_zero i), place]
    rw [if_pos ⟨Int.natCast_nonneg _, by omega⟩, Int.toNat_natCast]
  rw [List.getElem?_reverse inside] at h
  rw [step?, found]
  exact h

theorem follow_leads {document v : Value} {path : List Token} (h : Leads document path v)
    (fit : PositionsFit path) : follow document (path.map Token.shown) = .ok v := by
  induction h with
  | here v => rfl
  | @member members name next v path found _ ih =>
    have step : step? (.object members) name = some next := found
    rw [List.map_cons, Token.shown, follow_cons step, ih fit.tail]
  | @item items i next v path found _ ih =>
    have step : step? (.list items) (toString (i : Int)) = some next := step?_item found fit.head
    rw [List.map_cons, Token.shown, follow_cons step, ih fit.tail]
  | @itemFromEnd items i next v path found _ ih =>
    have step := step?_itemFromEnd found fit.head
    rw [List.map_cons, Token.shown, follow_cons step, ih fit.tail]

/-! ## There and back -/

/-- Tokens are read from the pointer that is built from them. A pointer that is empty or starts
    with a slash is read, and is built from its tokens exactly when each of its tildes is followed
    by `0` or `1`; any other is refused. The pointer of a path addresses the value at its end. -/
theorem pointers_round_trip :
    (∀ tokens : List Token,
      parse (build (tokens.map Token.shown)) = .ok (tokens.map Token.shown)) ∧
    (∀ p : String, p = "" ∨ p.startsWith "/" = true →
      ∃ tokens, parse p = .ok tokens ∧ (build tokens = p ↔ TildesPaired p.toList)) ∧
    (∀ p : String, p ≠ "" → p.startsWith "/" = false → parse p = .error (.noLeadingSlash p)) ∧
    ∀ (document v : Value) (path : List Token), Leads document path v → PositionsFit path →
      resolve document (build (path.map Token.shown)) = .ok v := by
  refine ⟨fun tokens => parse_build _, fun p h => ?_, fun p => parse_refuses, ?_⟩
  · obtain ⟨tokens, read⟩ := parse_reads h
    exact ⟨tokens, read, build_parse_iff read⟩
  · intro document v path leads fit
    exact resolve_build (follow_leads leads fit)

/-- Keys that are empty, hold slashes or look like escapes, and positions from both ends. -/
theorem pointers_round_trip_odd_keys :
    (∃ tokens, parse "/a~1b/~01//-1" = .ok tokens ∧
      (build tokens = "/a~1b/~01//-1" ↔ TildesPaired "/a~1b/~01//-1".toList)) ∧
    parse "a/b" = .error (.noLeadingSlash "a/b") ∧
    resolve (.object [("a/b", .list [.null, .object [("~1", .object [("", .bool true)])]])])
      (build (([.key "a/b", .position (-1), .key "~1", .key ""] : List Token).map Token.shown)) =
        .ok (.bool true) := by
  obtain ⟨-, read, refused, resolved⟩ := pointers_round_trip
  have slash : "/a~1b/~01//-1".startsWith "/" = true :=
    startsWith_slash_iff.mpr ⟨"a~1b/~01//-1".toList, rfl⟩
  have no_slash : "a/b".startsWith "/" = false := by
    rw [Bool.eq_false_iff, Ne, startsWith_slash_iff]
    intro ⟨cs, h⟩
    exact absurd (List.cons.inj h).1 (by decide)
  refine ⟨read _ (.inr slash), refused _ (by decide) no_slash, resolved _ _ _ ?_ ?_⟩
  · exact .member rfl (.itemFromEnd (i := 0) rfl (.member rfl (.member rfl (.here _))))
  · intro i hi
    obtain rfl : i = -1 := by simpa using hi
    decide

end Wireframe.Pointer
