import Wireframe.Text.Keyword

/-
  Wireframe.Proofs.Text.Words — what the words of a label are, and what they begin with.

  The scan goes from the end of a text to its start, and holds the run that it is in apart from the
  words that have ended. A run at the very start of the text is a word like any other.

  Proved:
  - `mem_words_iff`: the words of a text are its runs of word characters that have no word character
    right before and after them.
  - `beginsWord_iff`: a label begins a word with a keyword when one of its words does, whatever the
    case of its letters.
-/

namespace Wireframe.Text

/-- A run of word characters, with others at most behind it. -/
structure Run (word after : List Char) : Prop where
  some_char : word ≠ []
  chars : ∀ c ∈ word, isWord c = true
  behind : ∀ c ∈ after.head?, isWord c = false

/-- A word of a text: a run with no word character right before it. -/
def IsWordOf (word cs : List Char) : Prop :=
  ∃ before after, cs = before ++ (word ++ after) ∧ Run word after ∧
    ∀ c ∈ before.getLast?, isWord c = false

/-- A word that something stands before, and that is no word character. -/
def IsLaterWordOf (word cs : List Char) : Prop :=
  ∃ before after, cs = before ++ (word ++ after) ∧ Run word after ∧
    ∃ c ∈ before.getLast?, isWord c = false

theorem runs_fst (cs : List Char) : (runs cs).1 = cs.takeWhile isWord := by
  induction cs with
  | nil => rfl
  | cons c cs ih =>
    simp only [runs, List.takeWhile_cons, ← ih]
    split
    · rfl
    · rfl

/-- The run that a text starts with. -/
theorem takeWhile_isWord_iff {word cs : List Char} :
    word ≠ [] ∧ cs.takeWhile isWord = word ↔ ∃ after, cs = word ++ after ∧ Run word after := by
  constructor
  · intro ⟨some_char, same⟩
    subst same
    refine ⟨cs.dropWhile isWord, List.takeWhile_append_dropWhile.symm, some_char,
      List.all_eq_true.mp List.all_takeWhile, ?_⟩
    intro c hc
    have := List.head?_dropWhile_not isWord cs
    rw [hc] at this
    simpa using this
  · intro ⟨after, form, run⟩
    subst form
    refine ⟨run.some_char, ?_⟩
    rw [List.takeWhile_append_of_pos run.chars]
    cases after with
    | nil => simp
    | cons c after => rw [List.takeWhile_cons_of_neg (by simp [run.behind c rfl]), List.append_nil]

theorem isWordOf_iff {word cs : List Char} :
    IsWordOf word cs ↔ (word ≠ [] ∧ cs.takeWhile isWord = word) ∨ IsLaterWordOf word cs := by
  rw [takeWhile_isWord_iff]
  constructor
  · intro ⟨before, after, form, run, apart⟩
    cases last : before.getLast? with
    | none =>
      rw [List.getLast?_eq_none_iff] at last
      subst last
      exact .inl ⟨after, form, run⟩
    | some c => exact .inr ⟨before, after, form, run, c, last, apart c last⟩
  · intro h
    rcases h with ⟨after, form, run⟩ | ⟨before, after, form, run, c, last, apart⟩
    · exact ⟨[], after, form, run, fun c hc => nomatch hc⟩
    · refine ⟨before, after, form, run, fun d hd => ?_⟩
      rwa [Option.some.inj (hd.symm.trans last)]

/-- One more character in front ends the word at the start when it is no word character, and
    otherwise changes nothing of the words after it. -/
theorem isLaterWordOf_cons {word cs : List Char} {c : Char} :
    IsLaterWordOf word (c :: cs) ↔
      if isWord c = true then IsLaterWordOf word cs else IsWordOf word cs := by
  constructor
  · intro ⟨before, after, form, run, d, last, apart⟩
    cases before with
    | nil => cases last
    | cons b before =>
      obtain ⟨rfl, rfl⟩ := List.cons.inj form
      have last : before.getLast?.getD c = d := by
        rw [List.getLast?_cons] at last
        exact Option.some.inj last
      cases inner : before.getLast? with
      | none =>
        rw [inner] at last
        obtain rfl : c = d := last
        rw [if_neg (by simp [apart])]
        exact ⟨before, after, rfl, run, by simp [inner]⟩
      | some e =>
        rw [inner] at last
        obtain rfl : e = d := last
        split
        · exact ⟨before, after, rfl, run, e, inner, apart⟩
        · exact ⟨before, after, rfl, run, fun x hx => by
            rwa [Option.some.inj (hx.symm.trans inner)]⟩
  · intro h
    split at h
    · obtain ⟨before, after, rfl, run, d, last, apart⟩ := h
      refine ⟨c :: before, after, rfl, run, d, ?_, apart⟩
      rw [List.getLast?_cons, Option.mem_def.mp last]
      rfl
    · rename_i no_word
      obtain ⟨before, after, rfl, run, apart⟩ := h
      refine ⟨c :: before, after, rfl, run, _, List.getLast?_cons, ?_⟩
      cases last : before.getLast? with
      | none => simpa using no_word
      | some d => exact apart d last

theorem not_isLaterWordOf_nil (word : List Char) : ¬IsLaterWordOf word [] := by
  intro ⟨before, after, form, run, _⟩
  exact run.some_char (List.append_eq_nil_iff.mp (List.append_eq_nil_iff.mp form.symm).2).1

/-- What the scan has found is the run at the start and the later words. -/
theorem mem_scanned {word cs : List Char} (later : word ∈ (runs cs).2 ↔ IsLaterWordOf word cs) :
    word ∈ words cs ↔ IsWordOf word cs := by
  rw [isWordOf_iff, ← later, ← runs_fst]
  simp only [words, List.isEmpty_iff]
  split
  · rename_i empty
    rw [empty]
    exact ⟨.inr, fun h => h.resolve_left fun first => first.1 first.2.symm⟩
  · rename_i some_char
    rw [List.mem_cons]
    refine or_congr_left ⟨fun same => ⟨same ▸ some_char, same.symm⟩, fun first => first.2.symm⟩

theorem mem_runs_snd {word cs : List Char} : word ∈ (runs cs).2 ↔ IsLaterWordOf word cs := by
  induction cs with
  | nil => exact iff_of_false List.not_mem_nil (not_isLaterWordOf_nil word)
  | cons c cs ih =>
    rw [isLaterWordOf_cons, ← ih, ← mem_scanned ih]
    simp only [runs, words]
    split
    · rfl
    · rfl

/-- The words of a text are its runs of word characters that have no word character right before
    and after them. -/
theorem mem_words_iff {word cs : List Char} : word ∈ words cs ↔ IsWordOf word cs :=
  mem_scanned mem_runs_snd

/-- A label begins a word with a keyword when one of its words does, whatever the case of its
    letters. -/
theorem beginsWord_iff {keywords : List String} {label : String} :
    beginsWord keywords label = true ↔ ∃ word, IsWordOf word label.toList ∧
      ∃ keyword ∈ keywords, keyword.toList <+: word.map foldLetter := by
  simp only [beginsWord, List.any_eq_true, List.isPrefixOf_iff_prefix, mem_words_iff]

end Wireframe.Text
