import Portcullis.Lib.SortByKey
import Mathlib.Data.List.Perm.Basic
/-!
# Walk — firing the hits of a list up to the first that stops

`fire hit stop l` fires every hit in order and stops after the first that stops.  Elements that do not fire can be
deleted (`fire_filter`).  A list sorted by a key fires alike in all its orders as long as two hits of one key always
sit behind a stopping hit of a smaller key (`fire_eq_of_perm`), and only then (`exists_fire_ne`).
-/
namespace Walk

open List
open SortBy

variable {α : Type} (hit stop : α → Bool)

/-- The hits, up to and including the first that stops. -/
def fire : List α → List α
  | [] => []
  | a :: l => if hit a then (if stop a then [a] else a :: fire l) else fire l

theorem fire_sublist : ∀ l : List α, fire hit stop l <+ l
  | [] => List.Sublist.refl []
  | a :: l => by
    unfold fire
    split
    · split
      · exact List.Sublist.cons_cons a (List.nil_sublist l)
      · exact List.Sublist.cons_cons a (fire_sublist l)
    · exact (fire_sublist l).cons a

theorem hit_of_mem_fire {a : α} : ∀ {l : List α}, a ∈ fire hit stop l → hit a = true
  | b :: l, h => by
    unfold fire at h
    split at h
    · rename_i hb
      split at h
      · rw [List.mem_singleton] at h
        rw [h]; exact hb
      · rcases List.mem_cons.1 h with rfl | h
        · exact hb
        · exact hit_of_mem_fire h
    · exact hit_of_mem_fire h

/-- **What fires**, in a list without repeats: the hits with no stopping hit before them. -/
theorem mem_fire_iff {a : α} : ∀ {l : List α}, l.Nodup → (a ∈ fire hit stop l ↔
    a ∈ l ∧ hit a = true ∧ ∀ t, [t, a] <+ l → stop t = true → ¬ hit t = true)
  | [], _ => by simp [fire]
  | b :: l, hnd => by
    obtain ⟨hb, hnd⟩ := List.nodup_cons.1 hnd
    have ih := mem_fire_iff (a := a) hnd
    unfold fire
    by_cases hba : b = a
    · subst hba
      have hnone : ∀ t, ¬ [t, b] <+ b :: l := fun t ht => by
        cases ht with
        | cons _ ht => exact hb (mem_of_pair_sublist ht).2
        | cons_cons _ ht => exact hb (List.singleton_sublist.1 ht)
      by_cases hh : hit b
      · have hmem : b ∈ (if stop b then [b] else b :: fire hit stop l) := by split <;> simp
        simp [hh, hmem, hnone]
      · have hno : b ∉ fire hit stop l := fun h => hb ((fire_sublist hit stop l).subset h)
        simp [hh, hno]
    · have hpair : ∀ t, [t, a] <+ b :: l ↔ [t, a] <+ l ∨ t = b ∧ a ∈ l := by
        intro t
        rw [List.cons_sublist_cons', List.singleton_sublist]
      simp only [hpair, List.mem_cons, Ne.symm hba, false_or]
      by_cases hh : hit b
      · by_cases hs : stop b
        · simp only [hh, hs, if_true, List.mem_singleton, Ne.symm hba, false_iff]
          rintro ⟨hal, -, hall⟩
          exact hall b (Or.inr ⟨rfl, hal⟩) hs hh
        · simp only [hh, hs, if_true, Bool.false_eq_true, if_false, List.mem_cons, Ne.symm hba, false_or, ih]
          refine and_congr_right (fun _ => and_congr_right (fun _ => ⟨fun hall t ht => ?_, fun hall t ht => ?_⟩))
          · rcases ht with ht | ⟨rfl, -⟩
            · exact hall t ht
            · exact fun hst => absurd hst hs
          · exact hall t (Or.inl ht)
      · simp only [hh, Bool.false_eq_true, if_false, ih]
        refine and_congr_right (fun _ => and_congr_right (fun _ => ⟨fun hall t ht => ?_, fun hall t ht => ?_⟩))
        · rcases ht with ht | ⟨rfl, -⟩
          · exact hall t ht
          · exact fun _ => hh
        · exact hall t (Or.inl ht)

/-- **Elements that do not fire can be deleted.** -/
theorem fire_filter {keep : α → Bool} : ∀ {l : List α}, (∀ a ∈ fire hit stop l, keep a = true) →
    fire hit stop (l.filter keep) = fire hit stop l
  | [], _ => rfl
  | a :: l, h => by
    by_cases hh : hit a
    · by_cases hs : stop a
      · have hk : keep a = true := h a (by simp [fire, hh, hs])
        simp [hk, fire, hh, hs]
      · have hk : keep a = true := h a (by simp [fire, hh, hs])
        have ih : fire hit stop (l.filter keep) = fire hit stop l :=
          fire_filter (fun b hb => h b (by simp [fire, hh, hs, hb]))
        simp [hk, fire, hh, hs, ih]
    · have ih : fire hit stop (l.filter keep) = fire hit stop l :=
        fire_filter (fun b hb => h b (by simpa [fire, hh] using hb))
      by_cases hk : keep a <;> simp [hk, fire, hh, ih]

theorem fire_filter_hit (l : List α) : fire hit stop (l.filter hit) = fire hit stop l :=
  fire_filter hit stop (fun _ ha => hit_of_mem_fire hit stop ha)

theorem fire_congr {hit' stop' : α → Bool} : ∀ {l : List α}, (∀ a ∈ l, hit' a = hit a) → (∀ a ∈ l, stop' a = stop a) →
    fire hit' stop' l = fire hit stop l
  | [], _, _ => rfl
  | a :: l, hh, hs => by
    have ih := fire_congr (fun b hb => hh b (List.mem_cons_of_mem a hb)) (fun b hb => hs b (List.mem_cons_of_mem a hb))
    unfold fire
    rw [hh a List.mem_cons_self, hs a List.mem_cons_self, ih]

theorem fire_map {β : Type} (f : β → α) (l : List β) :
    fire hit stop (l.map f) = (fire (fun b => hit (f b)) (fun b => stop (f b)) l).map f := by
  induction l with
  | nil => rfl
  | cons b l ih =>
    rw [List.map_cons, fire, fire]
    by_cases hh : hit (f b)
    · by_cases hs : stop (f b)
      · simp [hh, hs]
      · simp [hh, hs, ih]
    · simp [hh, ih]

/-! ## Orders of one list -/

variable (key : α → Nat)

/-- Two hits of one key sit behind a stopping hit of a smaller key. -/
def TiesBehindStop (l : List α) : Prop :=
  ∀ a ∈ l, ∀ b ∈ l, a ≠ b → key a = key b → hit a = true → hit b = true →
    ∃ t ∈ l, stop t = true ∧ hit t = true ∧ key t < key a

theorem fire_eq_of_perm_of_hits : ∀ {l l' : List α}, (∀ a ∈ l, hit a = true) → l ~ l' →
    l.Pairwise (fun a b => key a ≤ key b) → l'.Pairwise (fun a b => key a ≤ key b) →
    TiesBehindStop hit stop key l → fire hit stop l = fire hit stop l'
  | [], l', _, hp, _, _, _ => by rw [List.nil_perm.1 hp]
  | x :: l, [], _, hp, _, _, _ => by cases hp.symm.nil_eq
  | x :: l, y :: l', hh, hp, hs, hs', ht => by
    have hxy : x = y := by
      by_contra hne
      have hy : y ∈ x :: l := hp.mem_iff.2 List.mem_cons_self
      have hx : x ∈ y :: l' := hp.mem_iff.1 List.mem_cons_self
      have hyl : y ∈ l := (List.mem_cons.1 hy).resolve_left (Ne.symm hne)
      have hxl : x ∈ l' := (List.mem_cons.1 hx).resolve_left hne
      have hle : key x ≤ key y := List.rel_of_pairwise_cons hs hyl
      have hge : key y ≤ key x := List.rel_of_pairwise_cons hs' hxl
      obtain ⟨t, htl, -, -, hlt⟩ := ht x List.mem_cons_self y hy hne (by omega) (hh x List.mem_cons_self) (hh y hy)
      rcases List.mem_cons.1 htl with rfl | htl
      · omega
      · have := List.rel_of_pairwise_cons hs htl
        omega
    subst hxy
    have hhx : hit x = true := hh x List.mem_cons_self
    unfold fire
    rw [if_pos hhx, if_pos hhx]
    by_cases hstop : stop x
    · simp [hstop]
    · rw [if_neg hstop, if_neg hstop]
      rw [fire_eq_of_perm_of_hits (fun a ha => hh a (List.mem_cons_of_mem _ ha)) hp.cons_inv hs.of_cons hs'.of_cons]
      intro a ha b hb hne hkey hha hhb
      obtain ⟨t, htl, hst, hht, hlt⟩ :=
        ht a (List.mem_cons_of_mem _ ha) b (List.mem_cons_of_mem _ hb) hne hkey hha hhb
      rcases List.mem_cons.1 htl with rfl | htl
      · exact absurd hst hstop
      · exact ⟨t, htl, hst, hht, hlt⟩

/-- **Every sorted order of a list fires alike**, when two hits of one key always sit behind a stopping hit. -/
theorem fire_eq_of_perm {l l' : List α} (hp : l ~ l') (hs : l.Pairwise (fun a b => key a ≤ key b))
    (hs' : l'.Pairwise (fun a b => key a ≤ key b)) (ht : TiesBehindStop hit stop key l) :
    fire hit stop l = fire hit stop l' := by
  rw [← fire_filter_hit hit stop l, ← fire_filter_hit hit stop l']
  refine fire_eq_of_perm_of_hits hit stop key (fun a ha => (List.mem_filter.1 ha).2) (hp.filter hit) (hs.filter hit)
    (hs'.filter hit) ?_
  intro a ha b hb hne hkey hha hhb
  obtain ⟨t, htl, hst, hht, hlt⟩ :=
    ht a (List.mem_filter.1 ha).1 b (List.mem_filter.1 hb).1 hne hkey hha hhb
  exact ⟨t, List.mem_filter.2 ⟨htl, hht⟩, hst, hht, hlt⟩

def sortedWithFirst [DecidableEq α] (a : α) (l : List α) : List α := sortByKey key (a :: l.erase a)

section SortedWithFirst

variable [DecidableEq α] {key} {a : α} {l : List α}

theorem sortedWithFirst_perm (ha : a ∈ l) : sortedWithFirst key a l ~ l :=
  (sortByKey_perm key _).trans (List.perm_cons_erase ha).symm

theorem pair_sublist_sortedWithFirst {b : α} (hb : b ∈ l) (hne : a ≠ b) (hkey : key a = key b) :
    [a, b] <+ sortedWithFirst key a l := by
  have hbe : b ∈ l.erase a := (List.mem_erase_of_ne (Ne.symm hne)).2 hb
  exact (pair_sublist_sortByKey_iff key).2
    (Or.inr ⟨hkey, List.Sublist.cons_cons a (List.singleton_sublist.2 hbe)⟩)

theorem key_lt_of_pair_sublist_sortedWithFirst (hnd : l.Nodup) {t : α} (h : [t, a] <+ sortedWithFirst key a l) :
    t ∈ l ∧ key t < key a := by
  rcases (pair_sublist_sortByKey_iff key).1 h with ⟨ht, -, hlt⟩ | ⟨-, h⟩
  · have hta : t ≠ a := fun heq => by rw [heq] at hlt; exact lt_irrefl _ hlt
    exact ⟨List.mem_of_mem_erase ((List.mem_cons.1 ht).resolve_left hta), hlt⟩
  · have hae : a ∉ l.erase a := fun h => (hnd.mem_erase_iff.1 h).1 rfl
    cases h with
    | cons _ h => exact absurd (mem_of_pair_sublist h).2 hae
    | cons_cons _ h => exact absurd (List.singleton_sublist.1 h) hae

theorem mem_fire_sortedWithFirst (hnd : l.Nodup) (ha : a ∈ l) (hha : hit a = true)
    (hfree : ∀ t ∈ l, stop t = true → hit t = true → ¬ key t < key a) :
    a ∈ fire hit stop (sortedWithFirst key a l) := by
  rw [mem_fire_iff hit stop ((sortedWithFirst_perm ha).nodup_iff.2 hnd)]
  refine ⟨(sortedWithFirst_perm ha).mem_iff.2 ha, hha, fun t ht hst hht => ?_⟩
  obtain ⟨htl, hlt⟩ := key_lt_of_pair_sublist_sortedWithFirst hnd ht
  exact hfree t htl hst hht hlt

end SortedWithFirst

/-- **Two hits of one key with no stopping hit below them fire in either order.** -/
theorem exists_fire_ne [DecidableEq α] {l : List α} (hnd : l.Nodup) {a b : α} (ha : a ∈ l) (hb : b ∈ l) (hne : a ≠ b)
    (hkey : key a = key b) (hha : hit a = true) (hhb : hit b = true)
    (hfree : ∀ t ∈ l, stop t = true → hit t = true → ¬ key t < key a) :
    fire hit stop (sortedWithFirst key a l) ≠ fire hit stop (sortedWithFirst key b l) := by
  intro heq
  have hfa : a ∈ fire hit stop (sortedWithFirst key a l) := mem_fire_sortedWithFirst hit stop hnd ha hha hfree
  have hfb : b ∈ fire hit stop (sortedWithFirst key b l) :=
    mem_fire_sortedWithFirst hit stop hnd hb hhb (fun t ht hst hht => hkey ▸ hfree t ht hst hht)
  rw [← heq] at hfb
  have hnda : (sortedWithFirst key a l).Nodup := (sortedWithFirst_perm ha).nodup_iff.2 hnd
  have hndb : (sortedWithFirst key b l).Nodup := (sortedWithFirst_perm hb).nodup_iff.2 hnd
  have hab := pair_sublist_sortedWithFirst hb hne hkey
  have hba := pair_sublist_sortedWithFirst ha (Ne.symm hne) hkey.symm
  rcases pair_sublist_or hne hfa hfb with h | h
  · exact pair_sublist_asymm hndb hba (h.trans (heq ▸ fire_sublist hit stop _))
  · exact pair_sublist_asymm hnda hab (h.trans (fire_sublist hit stop _))

end Walk
