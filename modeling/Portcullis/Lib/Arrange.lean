import Portcullis.Lib.SortByKey
import Mathlib.Logic.Relation
import Mathlib.Order.Extension.Linear
/-!
# Arrange — the orders of a list in which nothing blocks a later element

`R a b` says that `a` must not come before `b`.  A list without repeats has such an order exactly when `R` makes no
cycle among its elements (`exists_arrangement_iff`): a partial order extends to a linear one, and sorting by that
arranges the list.
-/
namespace Arrange

open List
open SortBy

variable {α : Type} (R : α → α → Prop)

def Between (l : List α) (a b : α) : Prop := a ∈ l ∧ b ∈ l ∧ a ≠ b ∧ R a b

def CycleFree (l : List α) : Prop := ∀ a, ¬ Relation.TransGen (Between R l) a a

variable {R}

theorem between_iff_of_perm {l l' : List α} (h : l ~ l') {a b : α} : Between R l a b ↔ Between R l' a b := by
  unfold Between
  rw [h.mem_iff, h.mem_iff]

theorem cycleFree_of_perm {l l' : List α} (h : l ~ l') (hc : CycleFree R l) : CycleFree R l' := by
  intro a ha
  exact hc a (Relation.TransGen.mono (fun _ _ hab => (between_iff_of_perm h).2 hab) a a ha)

theorem idxOf_lt_of_pair_sublist [DecidableEq α] {l : List α} (hnd : l.Nodup) {a b : α} (h : [a, b] <+ l) :
    l.idxOf a < l.idxOf b := by
  obtain ⟨pre, post, rfl, ha⟩ := pair_sublist_iff_append.1 h
  have hb : b ∉ pre := fun hb => (List.nodup_append.1 hnd).2.2 b hb b List.mem_cons_self rfl
  rw [List.idxOf_append_of_mem ha, List.idxOf_append_of_notMem hb]
  have hlt := List.idxOf_lt_length_of_mem ha
  omega

/-- In an arranged list `R` runs backwards, so it cannot come round. -/
theorem cycleFree_of_pairwise {l : List α} (hnd : l.Nodup) (h : l.Pairwise (fun a b => ¬ R a b)) : CycleFree R l := by
  classical
  intro a hcyc
  have hback : ∀ x y, Between R l x y → l.idxOf x > l.idxOf y := by
    rintro x y ⟨hx, hy, hne, hR⟩
    have hyx : [y, x] <+ l :=
      (pair_sublist_or hne hx hy).resolve_left (fun hxy => List.pairwise_iff_forall_sublist.1 h hxy hR)
    exact idxOf_lt_of_pair_sublist hnd hyx
  have hself : Relation.TransGen (fun m n : Nat => m > n) (l.idxOf a) (l.idxOf a) :=
    Relation.TransGen.lift (fun x => l.idxOf x) hback a a hcyc
  rw [Relation.transGen_eq_self] at hself
  exact lt_irrefl _ hself

/-- The order of a relation without cycles, reversed: `a` is at or below `b` when `b` leads to `a`. -/
theorem isPartialOrder_of_cycleFree {l : List α} (h : CycleFree R l) :
    IsPartialOrder α (fun a b => Relation.ReflTransGen (Between R l) b a) where
  refl _ := Relation.ReflTransGen.refl
  trans _ _ _ hab hbc := hbc.trans hab
  antisymm a b hab hba := by
    rcases Relation.reflTransGen_iff_eq_or_transGen.1 hab with heq | hlt
    · exact heq
    · exact absurd (hlt.trans_left hba) (h b)

theorem exists_arrangement_of_cycleFree {l : List α} (hnd : l.Nodup) (h : CycleFree R l) :
    ∃ l', l' ~ l ∧ l'.Pairwise (fun a b => ¬ R a b) := by
  classical
  have := isPartialOrder_of_cycleFree h
  obtain ⟨s, hs, hle⟩ := extend_partialOrder (fun a b => Relation.ReflTransGen (Between R l) b a)
  have hperm : l.insertionSort s ~ l := List.perm_insertionSort s l
  have hsorted : (l.insertionSort s).Pairwise s := List.pairwise_insertionSort s l
  refine ⟨l.insertionSort s, hperm, List.pairwise_iff_forall_sublist.2 (fun {a b} hsub hR => ?_)⟩
  have hne : a ≠ b := by
    have hnd' := (hperm.nodup_iff.2 hnd).sublist hsub
    simpa using hnd'
  have hmem := mem_of_pair_sublist hsub
  have hab : s a b := List.pairwise_iff_forall_sublist.1 hsorted hsub
  have hba : s b a :=
    hle b a (Relation.ReflTransGen.single ⟨hperm.mem_iff.1 hmem.1, hperm.mem_iff.1 hmem.2, hne, hR⟩)
  exact hne (hs.antisymm a b hab hba)

/-- **A list can be arranged exactly when the relation makes no cycle in it.** -/
theorem exists_arrangement_iff {l : List α} (hnd : l.Nodup) :
    (∃ l', l' ~ l ∧ l'.Pairwise (fun a b => ¬ R a b)) ↔ CycleFree R l := by
  constructor
  · rintro ⟨l', hperm, h⟩
    exact cycleFree_of_perm hperm (cycleFree_of_pairwise (hperm.nodup_iff.2 hnd) h)
  · exact exists_arrangement_of_cycleFree hnd

end Arrange
