import Mathlib.Data.List.Nodup
import Mathlib.Data.List.Perm.Basic
/-!
# Keyed — tables with one item a key, and the plans that change them

A plan lists what to add, to update and to remove so that a table holds the items of a list, two items counting as one
where they are `same`; `planOf` computes one and `patch` follows one.  A table that follows such a plan, in whichever
way, holds the list (`Follows.holds`), and a table that holds the list already is the one that leaves nothing to plan
(`Plans.eq_empty_iff`).  A plan is as long as what changes between the list the table holds and the next
(`Plans.length_eq`).
-/
namespace Keyed

open List

variable {κ α : Type}

structure Plan (κ α : Type) where
  add : List α
  update : List α
  remove : List κ

/-- A way to follow a plan: the items it adds or updates, without the keys it removes, and the rest as it was. -/
def patch [DecidableEq κ] (key : α → κ) (table : κ → Option α) (p : Plan κ α) : κ → Option α := fun k =>
  match (p.add ++ p.update).find? (fun x => decide (key x = k)) with
  | some x => some x
  | none => if k ∈ p.remove then none else table k

variable (key : α → κ) (same : α → α → Prop)

/-- The plan from a table to a list: the items whose key is new, those that changed, and the keys the list has not. -/
structure Plans (table : κ → Option α) (l : List α) (p : Plan κ α) : Prop where
  add : ∀ x, x ∈ p.add ↔ x ∈ l ∧ table (key x) = none
  update : ∀ x, x ∈ p.update ↔ x ∈ l ∧ ∃ y, table (key x) = some y ∧ ¬ same y x
  remove : ∀ k, k ∈ p.remove ↔ (∃ y, table k = some y) ∧ ∀ x ∈ l, key x ≠ k

/-- `table'` is what following a plan makes of `table`: what it adds or updates is there, what it removes is not, and the
rest is as it was. -/
structure Follows (table : κ → Option α) (p : Plan κ α) (table' : κ → Option α) : Prop where
  listed : ∀ x ∈ p.add ++ p.update, ∃ y, table' (key x) = some y ∧ same y x
  removed : ∀ k ∈ p.remove, table' k = none
  kept : ∀ k, (∀ x ∈ p.add ++ p.update, key x ≠ k) → k ∉ p.remove → table' k = table k

/-- The table holds the items of the list under their keys, and nothing else. -/
structure Holds (table : κ → Option α) (l : List α) : Prop where
  present : ∀ x ∈ l, ∃ y, table (key x) = some y ∧ same y x
  absent : ∀ k, (∀ x ∈ l, key x ≠ k) → table k = none

section Computed

variable [DecidableEq κ] [DecidableRel same]

/-- The table of a list; of two items with one key it has the first. -/
def tableOf (live : List α) : κ → Option α := fun k => live.find? (fun x => decide (key x = k))

def changed (table : κ → Option α) (x : α) : Bool :=
  match table (key x) with
  | some y => !decide (same y x)
  | none => false

def planOf (live l : List α) : Plan κ α where
  add := l.filter (fun x => (tableOf key live (key x)).isNone)
  update := l.filter (changed key same (tableOf key live))
  remove := (live.map key).filter (fun k => l.all (fun x => decide (key x ≠ k)))

theorem plans_planOf (live l : List α) : Plans key same (tableOf key live) l (planOf key same live l) where
  add x := by simp [planOf]
  update x := by
    rw [planOf, List.mem_filter, changed]
    cases tableOf key live (key x) <;> simp
  remove k := by
    have hlive : k ∈ live.map key ↔ ∃ y, tableOf key live k = some y := by
      rw [← Option.isSome_iff_exists, tableOf, List.find?_isSome]
      simp
    simp [planOf, hlive]

end Computed

section Unique

variable [DecidableEq κ] {key} {l l' : List α}

theorem tableOf_eq_some_iff (hkeys : (l.map key).Nodup) {k : κ} {x : α} :
    tableOf key l k = some x ↔ x ∈ l ∧ key x = k := by
  unfold tableOf
  constructor
  · intro h
    exact ⟨List.mem_of_find?_eq_some h, by simpa using List.find?_some h⟩
  · rintro ⟨hx, rfl⟩
    cases hfind : l.find? (fun y => decide (key y = key x)) with
    | none => simpa using List.find?_eq_none.1 hfind x hx
    | some y =>
      have hkey : key y = key x := by simpa using List.find?_some hfind
      rw [List.inj_on_of_nodup_map hkeys (List.mem_of_find?_eq_some hfind) hx hkey]

theorem tableOf_eq_none_iff {k : κ} : tableOf key l k = none ↔ k ∉ l.map key := by
  simp [tableOf]

/-- A list without repeated keys is the same table in every order. -/
theorem tableOf_of_perm (hkeys : (l.map key).Nodup) (h : l.Perm l') : tableOf key l' = tableOf key l := by
  have hkeys' : (l'.map key).Nodup := (h.map key).nodup_iff.1 hkeys
  funext k
  ext x
  rw [tableOf_eq_some_iff hkeys, tableOf_eq_some_iff hkeys', h.mem_iff]

end Unique

variable {key same} {table : κ → Option α} {l l' : List α} {p : Plan κ α}

theorem Holds.of_mem_iff (h : Holds key same table l) (hmem : ∀ x, x ∈ l ↔ x ∈ l') : Holds key same table l' where
  present x hx := h.present x ((hmem x).2 hx)
  absent k hk := h.absent k (fun x hx => hk x ((hmem x).1 hx))

theorem Holds.plans_empty (h : Holds key same table l) : Plans key same table l ⟨[], [], []⟩ where
  add x := by
    refine iff_of_false List.not_mem_nil (fun ⟨hx, hnone⟩ => ?_)
    obtain ⟨y, hy, -⟩ := h.present x hx
    rw [hnone] at hy
    cases hy
  update x := by
    refine iff_of_false List.not_mem_nil (fun ⟨hx, y, hy, hdiff⟩ => ?_)
    obtain ⟨z, hz, hsame⟩ := h.present x hx
    rw [hy] at hz
    exact hdiff (Option.some.inj hz ▸ hsame)
  remove k := by
    refine iff_of_false List.not_mem_nil (fun ⟨⟨y, hy⟩, habs⟩ => ?_)
    rw [h.absent k habs] at hy
    cases hy

/-- **Nothing is planned exactly for a table that holds the list.** -/
theorem Plans.eq_empty_iff (hp : Plans key same table l p) : p = ⟨[], [], []⟩ ↔ Holds key same table l := by
  constructor
  · rintro rfl
    constructor
    · intro x hx
      cases ht : table (key x) with
      | none => exact absurd ((hp.add x).2 ⟨hx, ht⟩) List.not_mem_nil
      | some y =>
        by_cases hs : same y x
        · exact ⟨y, rfl, hs⟩
        · exact absurd ((hp.update x).2 ⟨hx, y, ht, hs⟩) List.not_mem_nil
    · intro k hk
      cases ht : table k with
      | none => rfl
      | some y => exact absurd ((hp.remove k).2 ⟨⟨y, ht⟩, hk⟩) List.not_mem_nil
  · intro h
    have hempty := h.plans_empty
    obtain ⟨add, update, remove⟩ := p
    have hadd : add = [] :=
      List.eq_nil_iff_forall_not_mem.2 (fun x hx => List.not_mem_nil ((hempty.add x).2 ((hp.add x).1 hx)))
    have hupdate : update = [] :=
      List.eq_nil_iff_forall_not_mem.2 (fun x hx => List.not_mem_nil ((hempty.update x).2 ((hp.update x).1 hx)))
    have hremove : remove = [] :=
      List.eq_nil_iff_forall_not_mem.2 (fun k hk => List.not_mem_nil ((hempty.remove k).2 ((hp.remove k).1 hk)))
    rw [hadd, hupdate, hremove]

/-- A plan made for the table of a list serves every table that holds the list. -/
theorem Plans.of_holds [DecidableEq κ] (hp : Plans key same (tableOf key l) l' p) (h : Holds key same table l)
    (heqv : Equivalence same) (hkeys : (l.map key).Nodup) : Plans key same table l' p := by
  have hboth (k : κ) : (table k = none ∧ tableOf key l k = none) ∨
      ∃ y x, table k = some y ∧ tableOf key l k = some x ∧ same y x := by
    by_cases hk : k ∈ l.map key
    · obtain ⟨x, hx, rfl⟩ := List.mem_map.1 hk
      obtain ⟨y, hy, hyx⟩ := h.present x hx
      exact Or.inr ⟨y, x, hy, (tableOf_eq_some_iff hkeys).2 ⟨hx, rfl⟩, hyx⟩
    · exact Or.inl ⟨h.absent k (fun x hx hkey => hk (List.mem_map.2 ⟨x, hx, hkey⟩)), tableOf_eq_none_iff.2 hk⟩
  constructor
  · intro x
    rw [hp.add]
    rcases hboth (key x) with ⟨ht, hl⟩ | ⟨y, z, ht, hl, -⟩ <;> simp [ht, hl]
  · intro x
    rw [hp.update]
    rcases hboth (key x) with ⟨ht, hl⟩ | ⟨y, z, ht, hl, hyz⟩
    · simp [ht, hl]
    · have hiff : same z x ↔ same y x := ⟨heqv.trans hyz, heqv.trans (heqv.symm hyz)⟩
      simp [ht, hl, hiff]
  · intro k
    rw [hp.remove]
    rcases hboth k with ⟨ht, hl⟩ | ⟨y, z, ht, hl, -⟩ <;> simp [ht, hl]

/-- What a plan adds or updates are items of the list. -/
theorem Plans.mem_of_mem (hp : Plans key same table l p) {x : α} (hx : x ∈ p.add ++ p.update) : x ∈ l := by
  rcases List.mem_append.1 hx with h | h
  · exact ((hp.add x).1 h).1
  · exact ((hp.update x).1 h).1

/-- An item of the list that the plan leaves alone is there already. -/
theorem Plans.same_of_notMem (hp : Plans key same table l p) {x : α} (hx : x ∈ l) (hno : x ∉ p.add ++ p.update) :
    ∃ y, table (key x) = some y ∧ same y x := by
  rw [List.mem_append, not_or] at hno
  cases ht : table (key x) with
  | none => exact absurd ((hp.add x).2 ⟨hx, ht⟩) hno.1
  | some y =>
    by_cases hs : same y x
    · exact ⟨y, rfl, hs⟩
    · exact absurd ((hp.update x).2 ⟨hx, y, ht, hs⟩) hno.2

/-! ## How long a plan is -/

section Length

variable (key same) [DecidableEq κ] [DecidableRel same]

/-- `l` has an item that counts as `x`. -/
def has (l : List α) (x : α) : Bool := l.any (fun y => decide (key y = key x ∧ same y x))

/-- The items of `l'` that are not in `l` as they are, and those of `l` whose keys are not in `l'`. -/
def changes (l l' : List α) : Nat :=
  l'.countP (fun x => !has key same l x) + l.countP (fun y => decide (key y ∉ l'.map key))

variable {key same}

theorem Holds.has_iff (h : Holds key same table l) (heqv : Equivalence same) {x : α} :
    has key same l x = true ↔ ∃ y, table (key x) = some y ∧ same y x := by
  unfold has
  rw [List.any_eq_true]
  constructor
  · rintro ⟨z, hz, hzx⟩
    obtain ⟨hkey, hsame⟩ := of_decide_eq_true hzx
    obtain ⟨y, hy, hyz⟩ := h.present z hz
    exact ⟨y, hkey ▸ hy, heqv.trans hyz hsame⟩
  · rintro ⟨y, hy, hyx⟩
    by_cases hk : ∃ z ∈ l, key z = key x
    · obtain ⟨z, hz, hkey⟩ := hk
      obtain ⟨y', hy', hyz⟩ := h.present z hz
      rw [hkey, hy] at hy'
      obtain rfl := Option.some.inj hy'
      exact ⟨z, hz, decide_eq_true ⟨hkey, heqv.trans (heqv.symm hyz) hyx⟩⟩
    · push Not at hk
      rw [h.absent _ hk] at hy
      cases hy

/-- **A plan without repeats is as long as the change**, from a table that holds `l` to the list `l'`. -/
theorem Plans.length_eq (hp : Plans key same table l' p) (h : Holds key same table l) (heqv : Equivalence same)
    (hkeys : (l.map key).Nodup) (hl' : l'.Nodup) (honce : (p.add ++ p.update).Nodup) (hremove : p.remove.Nodup) :
    p.add.length + p.update.length + p.remove.length = changes key same l l' := by
  have hset : p.add ++ p.update ~ l'.filter (fun x => !has key same l x) := by
    refine (List.perm_ext_iff_of_nodup honce (hl'.filter _)).2 (fun x => ?_)
    rw [List.mem_append, hp.add, hp.update, List.mem_filter, Bool.not_eq_true', Bool.eq_false_iff, ne_eq, h.has_iff heqv,
      ← and_or_left]
    refine and_congr_right (fun _ => ?_)
    cases table (key x) <;> simp
  have hgone : p.remove ~ (l.map key).filter (fun k => decide (k ∉ l'.map key)) := by
    refine (List.perm_ext_iff_of_nodup hremove (hkeys.filter _)).2 (fun k => ?_)
    have hlive : (∃ y, table k = some y) ↔ k ∈ l.map key := by
      constructor
      · rintro ⟨y, hy⟩
        by_contra hk
        rw [h.absent k (fun x hx hkey => hk (List.mem_map.2 ⟨x, hx, hkey⟩))] at hy
        cases hy
      · intro hk
        obtain ⟨x, hx, rfl⟩ := List.mem_map.1 hk
        obtain ⟨y, hy, -⟩ := h.present x hx
        exact ⟨y, hy⟩
    rw [hp.remove, hlive, List.mem_filter, decide_eq_true_iff]
    simp
  rw [← List.length_append, hset.length_eq, hgone.length_eq, List.filter_map, List.length_map, ← List.countP_eq_length_filter,
    ← List.countP_eq_length_filter]
  rfl

end Length

/-! ## Following a plan -/

/-- What a plan adds or updates has no key that it removes. -/
theorem Plans.notMem_remove (hp : Plans key same table l p) {x : α} (hx : x ∈ p.add ++ p.update) : key x ∉ p.remove :=
  fun hk => ((hp.remove _).1 hk).2 x (hp.mem_of_mem hx) rfl

/-- **A table that follows the plan holds the list**, one item a key. -/
theorem Follows.holds {table' : κ → Option α} (h : Follows key same table p table') (hp : Plans key same table l p)
    (hkeys : (l.map key).Nodup) : Holds key same table' l := by
  constructor
  · intro x hx
    by_cases hlisted : x ∈ p.add ++ p.update
    · exact h.listed x hlisted
    · -- another item planned under the key of `x` would be `x`
      have hother : ∀ y ∈ p.add ++ p.update, key y ≠ key x := by
        intro y hy hkey
        obtain rfl := List.inj_on_of_nodup_map hkeys (hp.mem_of_mem hy) hx hkey
        exact hlisted hy
      have hkeep : key x ∉ p.remove := fun hk => ((hp.remove _).1 hk).2 x hx rfl
      rw [h.kept (key x) hother hkeep]
      exact hp.same_of_notMem hx hlisted
  · intro k hk
    by_cases hrem : k ∈ p.remove
    · exact h.removed k hrem
    · rw [h.kept k (fun x hx => hk x (hp.mem_of_mem hx)) hrem]
      cases ht : table k with
      | none => rfl
      | some y => exact absurd ((hp.remove k).2 ⟨⟨y, ht⟩, hk⟩) hrem

theorem follows_patch [DecidableEq κ] (hkeys : (l.map key).Nodup) (hrefl : ∀ x, same x x)
    (hp : Plans key same table l p) : Follows key same table p (patch key table p) := by
  have hnone {k : κ} (hk : ∀ x ∈ p.add ++ p.update, key x ≠ k) :
      (p.add ++ p.update).find? (fun x => decide (key x = k)) = none :=
    List.find?_eq_none.2 (fun x hx => by simpa using hk x hx)
  constructor
  · intro x hx
    unfold patch
    cases hfind : (p.add ++ p.update).find? (fun y => decide (key y = key x)) with
    | none => simpa using List.find?_eq_none.1 hfind x hx
    | some y =>
      have hkey : key y = key x := by simpa using List.find?_some hfind
      obtain rfl := List.inj_on_of_nodup_map hkeys (hp.mem_of_mem (List.mem_of_find?_eq_some hfind)) (hp.mem_of_mem hx) hkey
      exact ⟨y, rfl, hrefl y⟩
  · intro k hk
    have hother : ∀ x ∈ p.add ++ p.update, key x ≠ k := fun x hx hkey => hp.notMem_remove hx (hkey ▸ hk)
    simp only [patch, hnone hother, if_pos hk]
  · intro k hk hrem
    simp only [patch, hnone hk, if_neg hrem]

end Keyed
