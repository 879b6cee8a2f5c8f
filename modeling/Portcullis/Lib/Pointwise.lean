import Mathlib.Data.List.Forall2
/-!
# Pointwise — lists related element by element

What `Forall₂` carries from one list to the other: equal images (`map_eq`), what every element has (`forall_mem`), and
the two lists as the sides of one list of related pairs (`exists_pairs`).
-/
namespace Pointwise

open List

variable {α β γ : Type} {R : α → β → Prop} {l : List α} {l' : List β}

theorem map_eq {f : α → γ} {g : β → γ} (hfg : ∀ a b, R a b → g b = f a) (h : Forall₂ R l l') : l'.map g = l.map f := by
  induction h with
  | nil => rfl
  | cons hab _ ih => rw [List.map_cons, List.map_cons, hfg _ _ hab, ih]

theorem flatMap_eq {f : α → List γ} {g : β → List γ} (hfg : ∀ a b, R a b → g b = f a) (h : Forall₂ R l l') :
    l'.flatMap g = l.flatMap f := by
  rw [List.flatMap_def, List.flatMap_def, map_eq hfg h]

theorem flatMap_sublist {f : α → List γ} {g : β → List γ} (hfg : ∀ a b, R a b → g b <+ f a) (h : Forall₂ R l l') :
    l'.flatMap g <+ l.flatMap f := by
  induction h with
  | nil => exact List.Sublist.refl []
  | cons hab _ ih =>
    rw [List.flatMap_cons, List.flatMap_cons]
    exact (hfg _ _ hab).append ih

theorem forall_mem {P : α → Prop} {Q : β → Prop} (hPQ : ∀ a b, R a b → P a → Q b) (h : Forall₂ R l l')
    (hP : ∀ a ∈ l, P a) : ∀ b ∈ l', Q b := by
  induction h with
  | nil => exact List.forall_mem_nil _
  | cons hab _ ih =>
    obtain ⟨ha, hl⟩ := List.forall_mem_cons.1 hP
    exact List.forall_mem_cons.2 ⟨hPQ _ _ hab ha, ih hl⟩

/-- Related elements are members of their lists. -/
theorem with_mem (h : Forall₂ R l l') : Forall₂ (fun a b => a ∈ l ∧ b ∈ l' ∧ R a b) l l' := by
  obtain ⟨hlen, hR⟩ := List.forall₂_iff_zip.1 h
  refine List.forall₂_iff_zip.2 ⟨hlen, fun hab => ?_⟩
  obtain ⟨ha, hb⟩ := List.of_mem_zip hab
  exact ⟨ha, hb, hR hab⟩

theorem exists_of_mem (h : Forall₂ R l l') : ∀ b ∈ l', ∃ a ∈ l, R a b := by
  refine forall_mem (P := fun _ => True) (fun a _ hab _ => ?_) (with_mem h) (fun _ _ => trivial)
  exact ⟨a, hab.1, hab.2.2⟩

/-- Lists related element by element are the two sides of a list of related pairs. -/
theorem exists_pairs (h : Forall₂ R l l') :
    ∃ zs : List { ab : α × β // R ab.1 ab.2 }, zs.map (fun z => z.1.1) = l ∧ zs.map (fun z => z.1.2) = l' := by
  induction h with
  | nil => exact ⟨[], rfl, rfl⟩
  | @cons a b l l' hab _ ih =>
    obtain ⟨zs, rfl, rfl⟩ := ih
    exact ⟨⟨(a, b), hab⟩ :: zs, rfl, rfl⟩

end Pointwise
