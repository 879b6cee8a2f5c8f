import Mathlib.Data.List.Sort
/-!
# SortByKey — a stable sort by a key, and selection by the same key

`sortByKey key l` sorts by `key` and keeps the order of equal keys.  Its order is the lexicographic one, the key first
and the old order second (`pair_sublist_sortByKey_iff`); it commutes with deleting elements (`filter_sortByKey`); and
always taking next the earliest element of least key walks it (`sortByKey_eq_cons_of_leastBy`).
"`a` before `b` in `l`" is written `[a, b].Sublist l`.
-/
namespace SortBy

open List

variable {α β κ : Type} [LinearOrder κ]

/-! ## Before, as a two-element sublist -/

theorem pair_sublist_or {a b : α} : ∀ {l : List α}, a ≠ b → a ∈ l → b ∈ l → [a, b] <+ l ∨ [b, a] <+ l
  | x :: l, hne, ha, hb => by
    rcases List.mem_cons.1 ha with rfl | hal
    · have hbl : b ∈ l := (List.mem_cons.1 hb).resolve_left (Ne.symm hne)
      exact Or.inl (List.Sublist.cons_cons a (List.singleton_sublist.2 hbl))
    · rcases List.mem_cons.1 hb with rfl | hbl
      · exact Or.inr (List.Sublist.cons_cons b (List.singleton_sublist.2 hal))
      · exact (pair_sublist_or hne hal hbl).imp (fun h => h.cons x) (fun h => h.cons x)

theorem mem_of_pair_sublist {a b : α} {l : List α} (h : [a, b] <+ l) : a ∈ l ∧ b ∈ l :=
  ⟨h.subset (by simp), h.subset (by simp)⟩

theorem pair_sublist_asymm {a b : α} {l : List α} (hnd : l.Nodup) (hab : [a, b] <+ l) : ¬ [b, a] <+ l := by
  induction l with
  | nil => exact fun h => by cases h
  | cons x l ih =>
    obtain ⟨hx, hnd⟩ := List.nodup_cons.1 hnd
    intro hba
    cases hab with
    | cons _ hab =>
      cases hba with
      | cons _ hba => exact ih hnd hab hba
      | cons_cons _ hba => exact hx (mem_of_pair_sublist hab).2
    | cons_cons _ hab =>
      cases hba with
      | cons _ hba => exact hx (mem_of_pair_sublist hba).2
      | cons_cons _ hba => exact hx (List.singleton_sublist.1 hab)

theorem pair_sublist_trans {a b c : α} {l : List α} (hnd : l.Nodup) (hab : [a, b] <+ l) (hbc : [b, c] <+ l) :
    [a, c] <+ l := by
  induction l with
  | nil => cases hab
  | cons x l ih =>
    obtain ⟨hx, hnd⟩ := List.nodup_cons.1 hnd
    cases hab with
    | cons _ hab =>
      cases hbc with
      | cons _ hbc => exact (ih hnd hab hbc).cons x
      | cons_cons _ hbc => exact absurd (mem_of_pair_sublist hab).2 hx
    | cons_cons _ hab =>
      cases hbc with
      | cons _ hbc => exact List.Sublist.cons_cons a (List.singleton_sublist.2 (mem_of_pair_sublist hbc).2)
      | cons_cons _ hbc => exact List.Sublist.cons_cons a hbc

/-- In a list without repeats, a relation that holds from earlier to later elements decides which is earlier. -/
theorem pair_sublist_of_pairwise {R : α → α → Prop} {a b : α} {l : List α} (hp : l.Pairwise R) (hne : a ≠ b)
    (ha : a ∈ l) (hb : b ∈ l) (hba : ¬ R b a) : [a, b] <+ l :=
  (pair_sublist_or hne ha hb).resolve_right (fun h => hba (List.pairwise_iff_forall_sublist.1 hp h))

theorem pair_sublist_iff_append {a b : α} : ∀ {l : List α},
    [a, b] <+ l ↔ ∃ pre post, l = pre ++ b :: post ∧ a ∈ pre
  | [] => by simp
  | x :: l => by
    rw [List.cons_sublist_cons', List.singleton_sublist, pair_sublist_iff_append (l := l)]
    constructor
    · rintro (⟨pre, post, rfl, ha⟩ | ⟨rfl, hb⟩)
      · exact ⟨x :: pre, post, rfl, List.mem_cons_of_mem _ ha⟩
      · obtain ⟨pre, post, rfl⟩ := List.append_of_mem hb
        exact ⟨a :: pre, post, rfl, List.mem_cons_self⟩
    · rintro ⟨pre, post, heq, ha⟩
      cases pre with
      | nil => cases ha
      | cons y pre =>
        simp only [List.cons_append, List.cons.injEq] at heq
        obtain ⟨rfl, rfl⟩ := heq
        rcases List.mem_cons.1 ha with rfl | ha
        · exact Or.inr ⟨rfl, by simp⟩
        · exact Or.inl ⟨pre, post, rfl, ha⟩

/-- What `find?` finds comes before every other element it would accept. -/
theorem pair_sublist_of_find? {p : α → Bool} {a b : α} : ∀ {l : List α}, l.find? p = some a → b ∈ l → p b = true →
    a ≠ b → [a, b] <+ l
  | x :: l, ha, hb, hpb, hne => by
    rw [List.find?_cons] at ha
    split at ha
    · simp only [Option.some.injEq] at ha
      subst ha
      exact List.Sublist.cons_cons x (List.singleton_sublist.2 ((List.mem_cons.1 hb).resolve_left (Ne.symm hne)))
    · rename_i hpx
      have hbx : b ≠ x := fun h => by rw [h, hpx] at hpb; cases hpb
      exact (pair_sublist_of_find? ha ((List.mem_cons.1 hb).resolve_left hbx) hpb hne).cons x

/-! ## The sort -/

def sortByKey (key : α → κ) (l : List α) : List α := l.insertionSort (fun a b => key a ≤ key b)

instance total_key (key : α → κ) : Std.Total (fun a b : α => key a ≤ key b) := ⟨fun a b => le_total (key a) (key b)⟩

instance isTrans_key (key : α → κ) : IsTrans α (fun a b : α => key a ≤ key b) := ⟨fun _ _ _ => le_trans⟩

variable (key : α → κ)

@[simp] theorem sortByKey_nil : sortByKey key [] = [] := rfl

theorem sortByKey_cons (a : α) (l : List α) :
    sortByKey key (a :: l) = (sortByKey key l).orderedInsert (fun a b => key a ≤ key b) a := rfl

theorem sortByKey_perm (l : List α) : sortByKey key l ~ l := List.perm_insertionSort _ l

@[simp] theorem mem_sortByKey {a : α} {l : List α} : a ∈ sortByKey key l ↔ a ∈ l := (sortByKey_perm key l).mem_iff

theorem pairwise_sortByKey (l : List α) : (sortByKey key l).Pairwise (fun a b => key a ≤ key b) :=
  List.pairwise_insertionSort _ l

theorem sortByKey_of_pairwise {l : List α} (h : l.Pairwise (fun a b => key a ≤ key b)) : sortByKey key l = l :=
  h.insertionSort_eq

theorem sortByKey_sortByKey (l : List α) : sortByKey key (sortByKey key l) = sortByKey key l :=
  sortByKey_of_pairwise key (pairwise_sortByKey key l)

theorem map_sortByKey (f : β → α) (l : List β) : (sortByKey (fun b => key (f b)) l).map f = sortByKey key (l.map f) :=
  List.map_insertionSort _ _ f l (fun _ _ _ _ => Iff.rfl)

/-- An element goes before the equal keys already there, so the old order survives inside them. -/
theorem pairwise_lex_orderedInsert {R : α → α → Prop} (a : α) : ∀ {l : List α}, (∀ b ∈ l, R a b) →
    l.Pairwise (fun a b => key a ≤ key b) → l.Pairwise (fun a b => key a < key b ∨ key a = key b ∧ R a b) →
    (l.orderedInsert (fun a b => key a ≤ key b) a).Pairwise (fun a b => key a < key b ∨ key a = key b ∧ R a b)
  | [], _, _, _ => List.pairwise_singleton _ a
  | b :: l, hR, hs, hl => by
    rw [List.orderedInsert_cons]
    split
    · rename_i hab
      refine List.pairwise_cons.2 ⟨fun c hc => ?_, hl⟩
      have hac : key a ≤ key c := by
        rcases List.mem_cons.1 hc with rfl | hc
        · exact hab
        · exact hab.trans (List.rel_of_pairwise_cons hs hc)
      exact hac.lt_or_eq.imp_right (fun h => ⟨h, hR c hc⟩)
    · rename_i hab
      refine List.pairwise_cons.2 ⟨fun c hc => ?_, ?_⟩
      · rcases (List.mem_orderedInsert _).1 hc with rfl | hc
        · exact Or.inl (not_le.1 hab)
        · exact List.rel_of_pairwise_cons hl hc
      · exact pairwise_lex_orderedInsert a (fun c hc => hR c (List.mem_cons_of_mem _ hc)) hs.of_cons hl.of_cons

/-- **The sort is lexicographic**: by key, and inside equal keys by any relation the old order kept. -/
theorem pairwise_lex_sortByKey {R : α → α → Prop} : ∀ {l : List α}, l.Pairwise R →
    (sortByKey key l).Pairwise (fun a b => key a < key b ∨ key a = key b ∧ R a b)
  | [], _ => List.Pairwise.nil
  | a :: l, h => by
    rw [sortByKey_cons]
    refine pairwise_lex_orderedInsert key a (fun b hb => ?_) (pairwise_sortByKey key l)
      (pairwise_lex_sortByKey h.of_cons)
    exact List.rel_of_pairwise_cons h ((mem_sortByKey key).1 hb)

/-- **Before in the sorted list** is a smaller key, or an equal key and before in the old list. -/
theorem pair_sublist_sortByKey_iff {a b : α} {l : List α} :
    [a, b] <+ sortByKey key l ↔ (a ∈ l ∧ b ∈ l ∧ key a < key b) ∨ (key a = key b ∧ [a, b] <+ l) := by
  constructor
  · intro h
    have hold : l.Pairwise (fun a b => [a, b] <+ l) := List.pairwise_iff_forall_sublist.2 (fun h => h)
    have hmem := mem_of_pair_sublist h
    simp only [mem_sortByKey] at hmem
    exact (List.pairwise_iff_forall_sublist.1 (pairwise_lex_sortByKey key hold) h).imp_left
      (fun hlt => ⟨hmem.1, hmem.2, hlt⟩)
  · rintro (⟨ha, hb, hlt⟩ | ⟨heq, h⟩)
    · exact pair_sublist_of_pairwise (pairwise_sortByKey key l) (fun h => by simp [h] at hlt)
        ((mem_sortByKey key).2 ha) ((mem_sortByKey key).2 hb) (not_le.2 hlt)
    · exact List.pair_sublist_insertionSort heq.le h

theorem filter_orderedInsert (p : α → Bool) (a : α) : ∀ {l : List α}, l.Pairwise (fun a b => key a ≤ key b) →
    (l.orderedInsert (fun a b => key a ≤ key b) a).filter p =
      if p a then (l.filter p).orderedInsert (fun a b => key a ≤ key b) a else l.filter p
  | [], _ => by by_cases hp : p a <;> simp [hp]
  | b :: l, hs => by
    have ih := filter_orderedInsert p a hs.of_cons
    rw [List.orderedInsert_cons]
    by_cases hab : key a ≤ key b
    · rw [if_pos hab, List.filter_cons]
      by_cases hp : p a
      · rw [if_pos hp, if_pos hp]
        -- every kept element is at or after `a`, so `a` is inserted in front
        cases hl : (b :: l).filter p with
        | nil => rfl
        | cons c m =>
          have hc : c ∈ b :: l := (List.mem_filter.1 (hl ▸ List.mem_cons_self)).1
          have hac : key a ≤ key c := by
            rcases List.mem_cons.1 hc with rfl | hc
            · exact hab
            · exact hab.trans (List.rel_of_pairwise_cons hs hc)
          rw [List.orderedInsert_cons, if_pos hac]
      · rw [if_neg hp, if_neg hp]
    · rw [if_neg hab, List.filter_cons, List.filter_cons, ih]
      by_cases hp : p a <;> by_cases hb : p b <;> simp [hp, hb, hab]

/-- **Deleting elements commutes with the sort.** -/
theorem filter_sortByKey (p : α → Bool) : ∀ l : List α, (sortByKey key l).filter p = sortByKey key (l.filter p)
  | [] => rfl
  | a :: l => by
    rw [sortByKey_cons, filter_orderedInsert key p a (pairwise_sortByKey key l), filter_sortByKey p l,
      List.filter_cons]
    split <;> rfl

/-- **Stability**: the elements of one key keep their old order. -/
theorem filter_key_sortByKey (k : κ) (l : List α) :
    (sortByKey key l).filter (fun a => decide (key a = k)) = l.filter (fun a => decide (key a = k)) := by
  rw [filter_sortByKey]
  refine sortByKey_of_pairwise key (List.pairwise_of_forall_mem_list (fun a ha b hb => ?_))
  have hka := (List.mem_filter.1 ha).2
  have hkb := (List.mem_filter.1 hb).2
  simp only [decide_eq_true_eq] at hka hkb
  rw [hka, hkb]

theorem find?_key_sortByKey (k : κ) (l : List α) :
    (sortByKey key l).find? (fun a => decide (key a = k)) = l.find? (fun a => decide (key a = k)) := by
  rw [← List.head?_filter, ← List.head?_filter, filter_key_sortByKey]

/-! ## Selection -/

/-- The earliest element of least key. -/
def leastBy : List α → Option α
  | [] => none
  | a :: l =>
    match leastBy l with
    | none => some a
    | some b => if key a ≤ key b then some a else some b

theorem leastBy_eq_none : ∀ {l : List α}, leastBy key l = none ↔ l = []
  | [] => by simp [leastBy]
  | a :: l => by
    simp only [leastBy, reduceCtorEq, iff_false]
    split
    · simp
    · split <;> simp

theorem mem_of_leastBy : ∀ {l : List α} {x : α}, leastBy key l = some x → x ∈ l
  | a :: l, x, h => by
    simp only [leastBy] at h
    split at h
    · simp only [Option.some.injEq] at h; simp [h]
    · rename_i b hb
      split at h
      · simp only [Option.some.injEq] at h; simp [h]
      · exact List.mem_cons_of_mem _ (mem_of_leastBy (h ▸ hb))

/-- **Selection walks the sort**: the earliest element of least key is its head, and the rest is the sort of what
remains. -/
theorem sortByKey_eq_cons_of_leastBy [DecidableEq α] : ∀ {l : List α} {x : α}, leastBy key l = some x →
    sortByKey key l = x :: sortByKey key (l.erase x)
  | a :: l, x, h => by
    simp only [leastBy] at h
    rw [sortByKey_cons]
    split at h
    · rename_i hn
      obtain rfl := (leastBy_eq_none key).1 hn
      simp only [Option.some.injEq] at h
      simp [h]
    · rename_i b hb
      have ih := sortByKey_eq_cons_of_leastBy hb
      rw [ih, List.orderedInsert_cons]
      split at h
      · rename_i hab
        simp only [Option.some.injEq] at h
        rw [if_pos hab, ← ih, ← h, List.erase_cons_head]
      · rename_i hab
        simp only [Option.some.injEq] at h
        subst h
        have hne : a ≠ b := fun heq => hab (heq ▸ le_rfl)
        rw [if_neg hab, List.erase_cons_tail (by simpa using hne), sortByKey_cons]

end SortBy
