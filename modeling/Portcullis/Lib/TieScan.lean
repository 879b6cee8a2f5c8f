import Portcullis.Lib.FirstBefore
/-!
# TieScan — a scan of ties that keeps to the first of each key

Two indices walk a sorted list: the inner one while the key is that of the outer one, which then goes on where the inner
one stopped.  The pairs looked at are an element with the first of its key, never two later ones (`mem_scan_iff`), and no
pair is looked at twice (`nodup_scan`).
-/
namespace TieScan

open List
open SortBy

variable {α β κ : Type} [LinearOrder κ] (key : α → κ) (p : α → α → Bool)

/-- The pairs `p` accepts, `a` being the element of the outer index. -/
def scanFrom (a : α) : List α → List (α × α)
  | [] => []
  | b :: l =>
    if key b = key a then
      if p a b then (a, b) :: scanFrom a l else scanFrom a l
    else scanFrom b l

def scan : List α → List (α × α)
  | [] => []
  | a :: l => scanFrom key p a l

/-- `x` is the first of its key and `y` a later one: the pairs the scan looks at. -/
def Scanned (l : List α) (x y : α) : Prop := l.find? (fun z => decide (key z = key y)) = some x ∧ [x, y] <+ l

variable {key}

theorem Scanned.key_eq {l : List α} {x y : α} (h : Scanned key l x y) : key x = key y := by
  simpa using List.find?_some h.1

/-- A second element of the first key adds the pair of the two. -/
theorem scanned_cons_tie {a b : α} {l : List α} (hab : key b = key a) {x y : α} :
    Scanned key (a :: b :: l) x y ↔ (x = a ∧ y = b) ∨ Scanned key (a :: l) x y := by
  have hfind : ∀ k, (a :: b :: l).find? (fun z => decide (key z = k)) = (a :: l).find? (fun z => decide (key z = k)) := by
    intro k
    by_cases hk : key a = k
    · simp [hk]
    · simp [hk, hab]
  constructor
  · intro h
    have hkey := h.key_eq
    obtain ⟨hx, hsub⟩ := h
    rw [hfind] at hx
    rw [List.cons_sublist_cons', List.cons_sublist_cons', List.singleton_sublist, List.singleton_sublist] at hsub
    rcases hsub with (hsub | ⟨rfl, hy⟩) | ⟨rfl, hy⟩
    · exact Or.inr ⟨hx, hsub.cons a⟩
    · -- `x = b` is first of its key only when it is `a` over again
      have hay : key a = key y := hab ▸ hkey
      have hxa : x = a := by
        rw [List.find?_cons_of_pos (by simp [hay])] at hx
        exact (Option.some.inj hx).symm
      subst hxa
      exact Or.inr ⟨hx, List.Sublist.cons_cons x (List.singleton_sublist.2 hy)⟩
    · rcases List.mem_cons.1 hy with rfl | hy
      · exact Or.inl ⟨rfl, rfl⟩
      · exact Or.inr ⟨hx, List.Sublist.cons_cons x (List.singleton_sublist.2 hy)⟩
  · rintro (⟨rfl, rfl⟩ | ⟨hx, hsub⟩)
    · exact ⟨by simp [hab], List.Sublist.cons_cons x (by simp)⟩
    · exact ⟨by rw [hfind]; exact hx, hsub.trans (List.Sublist.cons_cons a (List.sublist_cons_self b l))⟩

/-- In a sorted list the scan leaves an element whose key does not come again. -/
theorem scanned_cons_next {a b : α} {l : List α} (hs : (a :: b :: l).Pairwise (fun a b => key a ≤ key b))
    (hab : key b ≠ key a) {x y : α} : Scanned key (a :: b :: l) x y ↔ Scanned key (b :: l) x y := by
  have hne : ∀ y ∈ b :: l, key a ≠ key y := by
    intro y hy heq
    have hby : key b ≤ key y := by
      rcases List.mem_cons.1 hy with rfl | hy
      · exact le_refl _
      · exact List.rel_of_pairwise_cons hs.of_cons hy
    have hale : key a ≤ key b := List.rel_of_pairwise_cons hs List.mem_cons_self
    exact hab (le_antisymm (heq ▸ hby) hale)
  have hfind : ∀ y ∈ b :: l, (a :: b :: l).find? (fun z => decide (key z = key y)) =
      (b :: l).find? (fun z => decide (key z = key y)) :=
    fun y hy => List.find?_cons_of_neg (by simpa using hne y hy)
  constructor
  · intro h
    have hkey := h.key_eq
    obtain ⟨hx, hsub⟩ := h
    rw [List.cons_sublist_cons', List.singleton_sublist] at hsub
    rcases hsub with hsub | ⟨rfl, hy⟩
    · rw [hfind y (mem_of_pair_sublist hsub).2] at hx
      exact ⟨hx, hsub⟩
    · exact absurd hkey (hne y hy)
  · rintro ⟨hx, hsub⟩
    exact ⟨by rw [hfind y (mem_of_pair_sublist hsub).2]; exact hx, hsub.cons a⟩

theorem mem_scanFrom_iff {x y : α} : ∀ {l : List α} {a : α}, (a :: l).Pairwise (fun a b => key a ≤ key b) →
    ((x, y) ∈ scanFrom key p a l ↔ Scanned key (a :: l) x y ∧ p x y = true)
  | [], a, _ => by
    simp only [scanFrom, List.not_mem_nil, false_iff]
    rintro ⟨⟨-, hsub⟩, -⟩
    exact absurd hsub.length_le (by simp)
  | b :: l, a, hs => by
    unfold scanFrom
    by_cases hab : key b = key a
    · have hs' : (a :: l).Pairwise (fun a b => key a ≤ key b) :=
        hs.sublist (List.Sublist.cons_cons a (List.sublist_cons_self b l))
      have hnew : (x, y) ∈ (if p a b then (a, b) :: scanFrom key p a l else scanFrom key p a l) ↔
          ((x = a ∧ y = b) ∧ p x y = true) ∨ (x, y) ∈ scanFrom key p a l := by
        have hhead : (x = a ∧ y = b) ∧ p x y = true ↔ (x = a ∧ y = b) ∧ p a b = true := by
          constructor
          · rintro ⟨⟨rfl, rfl⟩, h⟩
            exact ⟨⟨rfl, rfl⟩, h⟩
          · rintro ⟨⟨rfl, rfl⟩, h⟩
            exact ⟨⟨rfl, rfl⟩, h⟩
        rw [hhead]
        cases p a b <;> simp
      rw [if_pos hab, hnew, mem_scanFrom_iff hs', scanned_cons_tie hab, ← or_and_right]
    · rw [if_neg hab, mem_scanFrom_iff hs.of_cons, scanned_cons_next hs hab]

/-- **The pairs of the scan**, on a sorted list. -/
theorem mem_scan_iff {x y : α} {l : List α} (hs : l.Pairwise (fun a b => key a ≤ key b)) :
    (x, y) ∈ scan key p l ↔ Scanned key l x y ∧ p x y = true := by
  cases l with
  | nil => simp [scan, Scanned]
  | cons a l => exact mem_scanFrom_iff p hs

variable (key)

/-- Each element comes second at most once. -/
theorem map_snd_scanFrom_sublist : ∀ (l : List α) (a : α), (scanFrom key p a l).map Prod.snd <+ l
  | [], _ => List.Sublist.refl []
  | b :: l, a => by
    unfold scanFrom
    split
    · split
      · exact List.Sublist.cons_cons b (map_snd_scanFrom_sublist l a)
      · exact (map_snd_scanFrom_sublist l a).cons b
    · exact (map_snd_scanFrom_sublist l b).cons b

theorem nodup_scan {l : List α} (hnd : l.Nodup) : (scan key p l).Nodup := by
  cases l with
  | nil => exact List.nodup_nil
  | cons a l => exact List.Nodup.of_map Prod.snd ((List.nodup_cons.1 hnd).2.sublist (map_snd_scanFrom_sublist key p l a))

theorem scanFrom_map (f : β → α) : ∀ (l : List β) (a : β), scanFrom key p (f a) (l.map f) =
    (scanFrom (fun b => key (f b)) (fun a b => p (f a) (f b)) a l).map (Prod.map f f)
  | [], _ => rfl
  | b :: l, a => by
    rw [List.map_cons, scanFrom, scanFrom, scanFrom_map f l a, scanFrom_map f l b]
    split
    · split <;> rfl
    · rfl

theorem scan_map (f : β → α) (l : List β) : scan key p (l.map f) =
    (scan (fun b => key (f b)) (fun a b => p (f a) (f b)) l).map (Prod.map f f) := by
  cases l with
  | nil => rfl
  | cons a l => exact scanFrom_map key p f l a

end TieScan
