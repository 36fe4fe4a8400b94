import Wireframe.Pattern.Collapsibles
import Wireframe.Pattern.Forms
import Wireframe.Pattern.Tables
import Wireframe.Proofs.Text.Words
import Mathlib.Data.Bool.AllAny
import Mathlib.Data.List.Forall2

/-
  Wireframe.Proofs.Pattern.Keywords — keywords count where they are words.

  That a label has the letters of a keyword in it says nothing: "Backup" takes nobody back. What
  counts is where the letters stand. A place in a label is an edge when there is a word character on
  one side of it only, and a keyword is found where it stands between two edges. Underscores, digits
  and the letters of every script are word characters, so "back_up" and "back2" have no keyword, and
  "Go-back!" has one. A search for such places finds the words of the label that are keywords: what
  is spelled like a keyword consists of word characters, so its edges are the ends of a whole run.

  Controls of tables are looked for by how their words begin, and then the edge at the end is left
  out.

  Proved:
  - `foldLetter_eq_iff`: which characters stand for a letter of a keyword.
  - `standsAlone_iff`, `standsFirst_iff`: keywords between edges are words, and keywords after an edge
    begin words.
  - `mentions_iff`, `beginsWord_iff_hasWordFrom`: what labels are asked for are their words.
  - `keywords_are_words`: so it is in the four rules that look for keywords.
-/

namespace Wireframe.Text

/-! ## Letters -/

/-- A character stands for a small letter: it is this letter or its capital, the Kelvin sign for `k`,
the long s for `s`, the dotted capital or the dotless small i for `i`. -/
def SameLetter (c letter : Char) : Prop :=
  c = letter ∨ c = letter.toUpper ∨ (letter = 'k' ∧ c = '\u212a') ∨ (letter = 's' ∧ c = '\u017f') ∨
    (letter = 'i' ∧ (c = '\u0130' ∨ c = '\u0131'))

/-- The characters are those of the keyword, one by one. -/
def Spells (part : List Char) (keyword : String) : Prop := List.Forall₂ SameLetter part keyword.toList

def smallLetters : List Char := "abcdefghijklmnopqrstuvwxyz".toList

/-- A keyword is written in small letters. -/
structure IsKeyword (keyword : String) : Prop where
  some_letter : keyword.toList ≠ []
  letters : ∀ c ∈ keyword.toList, c ∈ smallLetters

instance (keyword : String) : Decidable (IsKeyword keyword) :=
  decidable_of_iff (keyword.toList ≠ [] ∧ keyword.toList.all (· ∈ smallLetters) = true)
    ⟨fun h => ⟨h.1, List.all_iff_forall_prop.mp h.2⟩, fun h => ⟨h.1, List.all_iff_forall_prop.mpr h.2⟩⟩

theorem foldLetter_ascii {c : Char} (ascii : c.toNat < 128) : ∀ letter ∈ smallLetters,
    (foldLetter c = letter ↔ c = letter ∨ c = letter.toUpper) := by
  -- All characters cannot be gone through, the letters of a list can.
  have table : ∀ n < 128, smallLetters.all fun letter =>
      (foldLetter (Char.ofNat n) = letter ↔
        Char.ofNat n = letter ∨ Char.ofNat n = letter.toUpper) := by
    decide +kernel
  have own := List.all_iff_forall_prop.mp (table c.toNat ascii)
  rwa [Char.ofNat_toNat] at own

/-- Small letters, their capitals and what besides stands for them. -/
theorem isWord_of_sameLetter {c letter : Char} (small : letter ∈ smallLetters)
    (same : SameLetter c letter) : isWord c = true := by
  have letters : ∀ letter ∈ smallLetters, isWord letter = true ∧ isWord letter.toUpper = true :=
    List.all_iff_forall_prop.mp (by decide +kernel)
  have others : ∀ c ∈ ['\u212a', '\u017f', '\u0130', '\u0131'], isWord c = true :=
    List.all_iff_forall_prop.mp (by decide +kernel)
  rcases same with rfl | rfl | ⟨-, rfl⟩ | ⟨-, rfl⟩ | ⟨-, rfl | rfl⟩
  · exact (letters _ small).1
  · exact (letters _ small).2
  all_goals exact others _ (by decide)

/-- As keywords see it, a character is the small letter that it stands for. -/
theorem foldLetter_eq_iff {c letter : Char} (small : letter ∈ smallLetters) :
    foldLetter c = letter ↔ SameLetter c letter := by
  have low : ∀ letter ∈ smallLetters, letter.toNat < 128 ∧ letter.toUpper.toNat < 128 :=
    List.all_iff_forall_prop.mp (by decide +kernel)
  by_cases ascii : c.toNat < 128
  · rw [foldLetter_ascii ascii letter small]
    refine ⟨fun h => h.imp_right .inl, fun h => ?_⟩
    rcases h with rfl | rfl | ⟨-, rfl⟩ | ⟨-, rfl⟩ | ⟨-, rfl | rfl⟩
    · exact .inl rfl
    · exact .inr rfl
    all_goals exact absurd ascii (by decide)
  · have other : c ≠ letter ∧ c ≠ letter.toUpper :=
      ⟨fun e => ascii (e ▸ (low letter small).1), fun e => ascii (e ▸ (low letter small).2)⟩
    have point : ∀ d : Char, c = d ↔ c.toNat = d.toNat := fun d => Char.toNat_inj.symm
    simp only [foldLetter, if_neg ascii, SameLetter, other, false_or, point]
    split
    all_goals simp_all [eq_comm]

theorem map_foldLetter_eq_iff {part letters : List Char} (small : ∀ c ∈ letters, c ∈ smallLetters) :
    part.map foldLetter = letters ↔ List.Forall₂ SameLetter part letters := by
  induction letters generalizing part with
  | nil => simp
  | cons letter rest ih =>
    obtain ⟨own, below⟩ := List.forall_mem_cons.mp small
    cases part with
    | nil => simp
    | cons c part =>
      rw [List.map_cons, List.cons.injEq, foldLetter_eq_iff own, ih below, List.forall₂_cons]

namespace IsKeyword

variable {keyword : String} (h : IsKeyword keyword) {part : List Char}
include h

theorem spells_iff : Spells part keyword ↔ part.map foldLetter = keyword.toList :=
  (map_foldLetter_eq_iff h.letters).symm

/-- What is spelled like a keyword begins some text that is spelled like more. -/
theorem prefix_iff {word : List Char} :
    keyword.toList <+: word.map foldLetter ↔ ∃ part, part <+: word ∧ Spells part keyword := by
  constructor
  · intro ⟨rest, more⟩
    obtain ⟨part, behind, rfl, own, -⟩ := List.map_eq_append_iff.mp more.symm
    exact ⟨part, List.prefix_append part behind, h.spells_iff.mpr own⟩
  · intro ⟨part, before, own⟩
    rw [← h.spells_iff.mp own]
    exact before.map foldLetter

/-- What is spelled like a keyword is a run of word characters. -/
theorem run_of_spells (own : Spells part keyword) : part ≠ [] ∧ ∀ c ∈ part, isWord c = true := by
  constructor
  · rintro rfl
    exact h.some_letter (List.forall₂_nil_left_iff.mp own)
  · intro c hc
    obtain ⟨i, hi, rfl⟩ := List.mem_iff_getElem.mp hc
    have long := own.length_eq
    exact isWord_of_sameLetter (h.letters _ (List.getElem_mem (long ▸ hi))) (own.get hi (long ▸ hi))

end IsKeyword

/-! ## Edges -/

/-- A place between two parts of a text is an edge when there is a word character on one side of it
only. -/
def Edge (before after : List Char) : Prop := before.getLast?.any isWord ≠ after.head?.any isWord

/-- One of the words of a text is a keyword. -/
def HasWord (keywords : List String) (cs : List Char) : Prop :=
  ∃ word, IsWordOf word cs ∧ ∃ keyword ∈ keywords, Spells word keyword

/-- One of the words of a text begins with a keyword. -/
def HasWordFrom (keywords : List String) (cs : List Char) : Prop :=
  ∃ word, IsWordOf word cs ∧ ∃ keyword ∈ keywords, ∃ part, part <+: word ∧ Spells part keyword

/-- A keyword stands somewhere in the text between two edges. -/
def StandsAlone (keywords : List String) (cs : List Char) : Prop :=
  ∃ before part after, cs = before ++ (part ++ after) ∧ (∃ keyword ∈ keywords, Spells part keyword) ∧
    Edge before (part ++ after) ∧ Edge (before ++ part) after

/-- A keyword stands somewhere in the text behind an edge. -/
def StandsFirst (keywords : List String) (cs : List Char) : Prop :=
  ∃ before part after, cs = before ++ (part ++ after) ∧ (∃ keyword ∈ keywords, Spells part keyword) ∧
    Edge before (part ++ after)

section

variable {before part after : List Char} (some_char : part ≠ []) (chars : ∀ c ∈ part, isWord c = true)
include some_char chars

/-- Word characters begin at an edge when no word character is before them. -/
theorem edge_before_iff :
    Edge before (part ++ after) ↔ ∀ c ∈ before.getLast?, isWord c = false := by
  obtain ⟨c, rest, rfl⟩ := List.exists_cons_of_ne_nil some_char
  have first : ((c :: rest) ++ after).head?.any isWord = true := chars c List.mem_cons_self
  rw [Edge, first]
  cases before.getLast? with
  | none => simp
  | some d => simp

/-- They end at an edge when no word character is behind them. -/
theorem edge_behind_iff :
    Edge (before ++ part) after ↔ ∀ c ∈ after.head?, isWord c = false := by
  have last : (before ++ part).getLast?.any isWord = true := by
    rw [List.getLast?_append_of_ne_nil before some_char, List.getLast?_eq_some_getLast some_char]
    exact chars _ (List.getLast_mem some_char)
  rw [Edge, last]
  cases after.head? with
  | none => simp
  | some d => simp

end

section

variable {keywords : List String} (written : ∀ keyword ∈ keywords, IsKeyword keyword) {cs : List Char}
include written

/-- A keyword between two edges is a word, and the other way round. -/
theorem standsAlone_iff :
    StandsAlone keywords cs ↔ HasWord keywords cs := by
  constructor
  · intro ⟨before, part, after, split, ⟨keyword, hk, own⟩, start, stop⟩
    obtain ⟨some_char, chars⟩ := (written keyword hk).run_of_spells own
    have behind := (edge_behind_iff some_char chars).mp stop
    exact ⟨part, ⟨before, after, split, ⟨some_char, chars, behind⟩,
      (edge_before_iff some_char chars).mp start⟩, keyword, hk, own⟩
  · intro ⟨word, ⟨before, after, split, run, apart⟩, spelled⟩
    exact ⟨before, word, after, split, spelled, (edge_before_iff run.some_char run.chars).mpr apart,
      (edge_behind_iff run.some_char run.chars).mpr run.behind⟩

/-- A keyword behind an edge is what a word begins with, and the other way round. -/
theorem standsFirst_iff : StandsFirst keywords cs ↔ HasWordFrom keywords cs := by
  constructor
  · intro ⟨before, part, after, split, ⟨keyword, hk, own⟩, start⟩
    obtain ⟨some_char, chars⟩ := (written keyword hk).run_of_spells own
    -- The word goes on behind the keyword for as long as there are word characters.
    obtain ⟨rest, same, run⟩ := takeWhile_isWord_iff.mp
      (show part ++ after.takeWhile isWord ≠ [] ∧
          (part ++ after).takeWhile isWord = part ++ after.takeWhile isWord from
        ⟨List.append_ne_nil_of_left_ne_nil some_char _, List.takeWhile_append_of_pos chars⟩)
    refine ⟨_, ⟨before, rest, split.trans (congrArg _ same), run,
      (edge_before_iff some_char chars).mp start⟩, keyword, hk, part, List.prefix_append _ _, own⟩
  · intro ⟨word, ⟨before, after, split, run, apart⟩, keyword, hk, part, ⟨rest, more⟩, own⟩
    subst more
    obtain ⟨some_char, chars⟩ := (written keyword hk).run_of_spells own
    rw [List.append_assoc] at split
    exact ⟨before, part, rest ++ after, split, ⟨keyword, hk, own⟩,
      (edge_before_iff some_char chars).mpr apart⟩

variable {label : String}

/-- A label mentions a keyword when it has the word, whatever the case of its letters. -/
theorem mentions_iff : mentions keywords label = true ↔ HasWord keywords label.toList := by
  simp only [mentions, List.any_eq_true, beq_iff_eq, mem_words_iff]
  refine exists_congr fun word => and_congr_right fun _ => exists_congr fun keyword =>
    and_congr_right fun hk => (written keyword hk).spells_iff.symm

theorem beginsWord_iff_hasWordFrom :
    beginsWord keywords label = true ↔ HasWordFrom keywords label.toList := by
  rw [beginsWord_iff]
  refine exists_congr fun word => and_congr_right fun _ => exists_congr fun keyword =>
    and_congr_right fun hk => (written keyword hk).prefix_iff

end

end Wireframe.Text

namespace Wireframe

open Text

/-! ## The rules -/

/-- In each of the four rules that look for keywords in a label, a keyword is found where it stands
between two edges, and that is where a word of the label is the keyword, letter by letter and whatever
the case: in buttons that leave a form, in those that fold a section, and in technical labels of
fields. Controls of tables are found by a keyword behind an edge, and that is where a word of the label
begins with it. -/
theorem keywords_are_words (text : String) :
    ((∀ h role, FormFlow.isCancel (.button h ⟨text, role⟩) = true ↔
        StandsAlone ["cancel", "back"] text.toList) ∧
      (StandsAlone ["cancel", "back"] text.toList ↔ HasWord ["cancel", "back"] text.toList)) ∧
    ((∀ h role, Collapsibles.isCandidate (.button h ⟨text, role⟩) = true ↔ h.visible = true ∧
        (StandsAlone Collapsibles.controlWords text.toList ∨
          ∃ a ∈ h.affordances.getD [], a ∈ Collapsibles.controlAffordances)) ∧
      (StandsAlone Collapsibles.controlWords text.toList ↔
        HasWord Collapsibles.controlWords text.toList)) ∧
    ((∀ f : FieldContent, Forms.needsHelp { f with label := text } = true ↔ f.helpText.getD "" = "" ∧
        (Text.size text ≤ Forms.shortLabel ∨ StandsAlone Forms.technicalTerms text.toList)) ∧
      (StandsAlone Forms.technicalTerms text.toList ↔ HasWord Forms.technicalTerms text.toList)) ∧
    ((∀ h role, Tables.isControlLeaf (.button h ⟨text, role⟩) = true ↔
        StandsFirst Tables.controlWords text.toList) ∧
      (∀ h (f : FieldContent), Tables.isControlLeaf (.field h { f with label := text }) = true ↔
        StandsFirst Tables.controlWords text.toList) ∧
      (StandsFirst Tables.controlWords text.toList ↔ HasWordFrom Tables.controlWords text.toList)) := by
  have leaving : ∀ keyword ∈ ["cancel", "back"], IsKeyword keyword := by decide +kernel
  have folding : ∀ keyword ∈ Collapsibles.controlWords, IsKeyword keyword := by decide +kernel
  have technical : ∀ keyword ∈ Forms.technicalTerms, IsKeyword keyword := by decide +kernel
  have finding : ∀ keyword ∈ Tables.controlWords, IsKeyword keyword := by decide +kernel
  have begins : beginsWord Tables.controlWords text = true ↔ StandsFirst Tables.controlWords text.toList :=
    (beginsWord_iff_hasWordFrom finding).trans (standsFirst_iff finding).symm
  refine ⟨⟨fun h role => ?_, standsAlone_iff leaving⟩, ⟨fun h role => ?_, standsAlone_iff folding⟩,
    ⟨fun f => ?_, standsAlone_iff technical⟩, fun h role => begins, fun h f => begins,
    standsFirst_iff finding⟩
  · exact (mentions_iff leaving).trans (standsAlone_iff leaving).symm
  · rw [Collapsibles.isCandidate, Bool.and_eq_true, Bool.or_eq_true, mentions_iff folding,
      standsAlone_iff folding, List.any_eq_true]
    simp only [List.contains_iff_mem]
  · rw [Forms.needsHelp, Bool.and_eq_true, Bool.or_eq_true, mentions_iff technical,
      standsAlone_iff technical, String.isEmpty_iff, decide_eq_true_eq]

/-- With an underscore, a digit or a letter of another script at it, a keyword is another word. -/
example : ["Cancel", "Go-BAC\u212a!", "_back", "back2", "backя"].map (mentions ["cancel", "back"]) =
    [true, true, false, false, false] := by
  decide +kernel

end Wireframe
