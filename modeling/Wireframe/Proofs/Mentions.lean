import Mathlib.Data.List.Induction
import Mathlib.Data.List.Nodup

/-
  Wireframe.Proofs.Mentions — lists without their repetitions.

  To leave out what was there before keeps the first of equal items, so items come in the order of
  their first mentions. To keep the last ones would give the same items in another order.

  Proved:
  - `eraseDups_snoc`: an item at the end is kept when it is new.
  - `firstMentions_eraseDups`: what is left is the items in the order of their first mentions.
-/

namespace Wireframe

variable {α : Type} [BEq α] [LawfulBEq α]

/-- The items of a list, each once, in the order in which they are first mentioned. -/
structure FirstMentions (all once : List α) : Prop where
  nodup : once.Nodup
  mem : ∀ a, a ∈ once ↔ a ∈ all
  order : once.Pairwise fun a b => all.idxOf a < all.idxOf b

theorem eraseDups_snoc (as : List α) (a : α) :
    (as ++ [a]).eraseDups = if as.contains a then as.eraseDups else as.eraseDups ++ [a] := by
  rw [List.eraseDups_append, List.removeAll, List.filter_singleton, List.elem_eq_contains]
  cases as.contains a with
  | true => exact List.append_nil _
  | false => rfl

theorem nodup_eraseDups (l : List α) : l.eraseDups.Nodup := by
  induction l using List.reverseRecOn with
  | nil => exact List.nodup_nil
  | append_singleton as a ih =>
    rw [eraseDups_snoc]
    split
    · exact ih
    · rename_i fresh
      rw [List.contains_iff_mem, ← List.mem_eraseDups] at fresh
      exact List.nodup_append.mpr ⟨ih, List.nodup_singleton a, fun b hb c hc same =>
        fresh (List.mem_singleton.mp hc ▸ same ▸ hb)⟩

theorem eraseDups_of_nodup {l : List α} (h : l.Nodup) : l.eraseDups = l := by
  induction l using List.reverseRecOn with
  | nil => rfl
  | append_singleton as a ih =>
    obtain ⟨own, -, apart⟩ := List.nodup_append.mp h
    have fresh : ¬as.contains a = true := fun known =>
      apart a (List.contains_iff_mem.mp known) a List.mem_cons_self rfl
    rw [eraseDups_snoc, if_neg fresh, ih own]

theorem eraseDups_sublist (l : List α) : l.eraseDups.Sublist l := by
  induction l using List.reverseRecOn with
  | nil => exact .slnil
  | append_singleton as a ih =>
    rw [eraseDups_snoc]
    split
    · exact ih.trans (List.sublist_append_left as [a])
    · exact ih.append (.refl [a])

theorem firstMentions_eraseDups (l : List α) : FirstMentions l l.eraseDups where
  nodup := nodup_eraseDups l
  mem _ := List.mem_eraseDups
  order := by
    induction l using List.reverseRecOn with
    | nil => exact .nil
    | append_singleton as a ih =>
      have known : ∀ {b}, b ∈ as.eraseDups → (as ++ [a]).idxOf b = as.idxOf b := fun hb =>
        List.idxOf_append_of_mem (List.mem_eraseDups.mp hb)
      have old : as.eraseDups.Pairwise fun b c => (as ++ [a]).idxOf b < (as ++ [a]).idxOf c :=
        ih.imp_of_mem fun hb hc lt => by rwa [known hb, known hc]
      rw [eraseDups_snoc]
      split
      · exact old
      · rename_i fresh
        rw [List.contains_iff_mem] at fresh
        refine List.pairwise_append.mpr ⟨old, List.pairwise_singleton _ a, fun b hb c hc => ?_⟩
        obtain rfl := List.mem_singleton.mp hc
        rw [known hb, List.idxOf_append_of_notMem fresh]
        have := List.idxOf_lt_length_of_mem (List.mem_eraseDups.mp hb)
        omega

end Wireframe
