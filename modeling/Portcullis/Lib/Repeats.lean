import Mathlib.Data.List.Perm.Basic
import Mathlib.Data.List.Nodup
import Mathlib.Data.List.Count
/-!
# Repeats — the keys a seen-set scan reports

`repeats seen l` walks `l` with a set of the keys seen so far and reports every key already in it.  Each key is
reported once less than it occurs (`count_repeats`), so a list reports nothing exactly when it has no repeat
(`repeats_eq_nil_iff`) and its reports do not depend on its order (`repeats_perm`).
-/
namespace Repeats

open List

variable {κ : Type} [DecidableEq κ]

/-- Keys of `l` already in `seen`, or seen earlier in `l`. -/
def repeats : List κ → List κ → List κ
  | _, [] => []
  | seen, k :: l => if k ∈ seen then k :: repeats seen l else repeats (k :: seen) l

theorem count_repeats_seen (k : κ) : ∀ (l seen : List κ),
    (repeats seen l).count k = l.count k - if k ∈ seen then 0 else 1
  | [], seen => by simp [repeats]
  | a :: l, seen => by
    unfold repeats
    by_cases ha : a ∈ seen
    · rw [if_pos ha, List.count_cons, List.count_cons, count_repeats_seen k l seen]
      by_cases hak : a = k
      · subst hak; simp [ha]
      · simp [hak]
    · rw [if_neg ha, List.count_cons, count_repeats_seen k l (a :: seen)]
      by_cases hak : a = k
      · subst hak; simp [ha]
      · simp [hak, Ne.symm hak]

/-- **Each key is reported once less than it occurs.** -/
theorem count_repeats (k : κ) (l : List κ) : (repeats [] l).count k = l.count k - 1 := by
  rw [count_repeats_seen]; simp

theorem repeats_eq_nil_iff {l : List κ} : repeats [] l = [] ↔ l.Nodup := by
  rw [List.nodup_iff_count_le_one]
  constructor
  · intro h k
    have := count_repeats k l
    rw [h, List.count_nil] at this
    omega
  · intro h
    refine List.eq_nil_iff_forall_not_mem.2 (fun k hk => ?_)
    have hpos := List.count_pos_iff.2 hk
    have := h k
    rw [count_repeats] at hpos
    omega

/-- **The reports do not depend on the order**, as a multiset. -/
theorem repeats_perm {l l' : List κ} (h : l ~ l') : repeats [] l ~ repeats [] l' :=
  List.perm_iff_count.2 (fun k => by rw [count_repeats, count_repeats, h.count_eq])

end Repeats
