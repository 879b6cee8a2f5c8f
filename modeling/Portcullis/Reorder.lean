import Portcullis.Ties
import Portcullis.Bridge
import Portcullis.Lib.Arrange
/-!
# Reorder — the verdict and the order of the file

A verdict depends on the declaration order through the ties alone: the scan compares the first rule of a priority with
the others, and inside a priority a rule is dead behind an earlier one.  So a reordering changes the verdict of a
ruleset unless no order of it is accepted, or its ties are apart and all are (`acceptance_reorder_iff`).
-/
namespace Portcullis

open SortBy
open Arrange
open List

/-- The same rules, the chains in another order and the rules inside each of them. -/
structure Reorders (rs rs' : Ruleset) : Prop where
  version : rs'.version = rs.version
  chains : ∃ cs, Forall₂ Chain.SameRules rs.chains cs ∧ cs ~ rs'.chains

/-- No other rule of its priority overlaps `f` or is killed by it. -/
def Opens (c : Chain) (f : Rule) : Prop :=
  ∀ g ∈ c.rules, f ≠ g → f.priority = g.priority → ¬ f.matcher.overlaps g.matcher = true ∧ ¬ kills f g = true

/-- Two rules of one priority never overlap or kill each other. -/
def TiesApart (c : Chain) : Prop := ∀ f ∈ c.rules, Opens c f

def tieKills (a b : Rule) : Prop := a.priority = b.priority ∧ kills a b = true

/-- Every priority has a rule that can come first, and the rules of a priority do not kill each other round. -/
structure Arrangeable (c : Chain) : Prop where
  opener : ∀ r ∈ c.rules, ∃ f ∈ c.rules, f.priority = r.priority ∧ Opens c f
  cycleFree : CycleFree tieKills c.rules

def LowerSpare (c : Chain) : Prop :=
  ∀ e ∈ c.rules, ∀ r ∈ c.rules, e.priority < r.priority → ¬ kills e r = true

/-- The checks that read no declaration order. -/
structure PassesUnordered (rs : Ruleset) : Prop where
  version : rs.version ≤ schemaVersion
  names : (rs.chains.map Chain.name).Nodup
  ids : (rs.chains.flatMap (fun c => c.rules.map Rule.id)).Nodup
  lower : ∀ c ∈ rs.chains, LowerSpare c

structure TiesClean (c : Chain) : Prop where
  alive : ∀ e r, e.priority = r.priority → [e, r] <+ c.rules → ¬ kills e r = true
  scanned : ∀ x y, firstOf c y.priority = some x → [x, y] <+ c.rules → ¬ collides x y = true

theorem verify_eq_ok_iff_ties (rs : Ruleset) :
    verify rs = .ok () ↔ PassesUnordered rs ∧ ∀ c ∈ rs.chains, TiesClean c := by
  simp only [verify_eq_ok_iff_clean, lintChain_eq_nil_iff]
  constructor
  · rintro ⟨hv, hn, hi, hc⟩
    exact ⟨⟨hv, hn, hi, fun c h => (hc c h).1⟩, fun c h => ⟨(hc c h).2.1, (hc c h).2.2⟩⟩
  · rintro ⟨⟨hv, hn, hi, hl⟩, hc⟩
    exact ⟨hv, hn, hi, fun c h => ⟨hl c h, (hc c h).alive, (hc c h).scanned⟩⟩

theorem PassesUnordered.nodup_ids {rs : Ruleset} (h : PassesUnordered rs) {c : Chain} (hc : c ∈ rs.chains) :
    (c.rules.map Rule.id).Nodup :=
  (List.nodup_flatMap.1 h.ids).1 c hc

/-! ## Under a reordering -/

theorem Reorders.refl (rs : Ruleset) : Reorders rs rs :=
  ⟨rfl, rs.chains, List.forall₂_same.2 (fun _ _ => ⟨rfl, rfl, List.Perm.refl _⟩), List.Perm.refl _⟩

theorem opens_iff_of_sameRules {c c' : Chain} (h : c.SameRules c') (f : Rule) : Opens c f ↔ Opens c' f := by
  unfold Opens
  simp only [h.rules.mem_iff]

theorem tiesApart_iff_of_sameRules {c c' : Chain} (h : c.SameRules c') : TiesApart c ↔ TiesApart c' := by
  unfold TiesApart
  simp only [opens_iff_of_sameRules h, h.rules.mem_iff]

theorem lowerSpare_iff_of_sameRules {c c' : Chain} (h : c.SameRules c') : LowerSpare c ↔ LowerSpare c' := by
  unfold LowerSpare
  simp only [h.rules.mem_iff]

theorem arrangeable_iff_of_sameRules {c c' : Chain} (h : c.SameRules c') : Arrangeable c ↔ Arrangeable c' := by
  constructor
  · rintro ⟨hop, hcyc⟩
    refine ⟨?_, cycleFree_of_perm h.rules.symm hcyc⟩
    simpa only [h.rules.mem_iff, opens_iff_of_sameRules h] using hop
  · rintro ⟨hop, hcyc⟩
    refine ⟨?_, cycleFree_of_perm h.rules hcyc⟩
    simpa only [h.rules.mem_iff, opens_iff_of_sameRules h] using hop

theorem Reorders.forall_chains_iff {rs rs' : Ruleset} (h : Reorders rs rs') {P : Chain → Prop}
    (hP : ∀ c c', c.SameRules c' → (P c ↔ P c')) : (∀ c ∈ rs.chains, P c) ↔ ∀ c ∈ rs'.chains, P c := by
  obtain ⟨cs, hsame, hperm⟩ := h.chains
  simp only [← hperm.mem_iff]
  clear hperm h
  generalize rs.chains = cs₀ at hsame
  induction hsame with
  | nil => simp
  | cons hc _ ih => simp only [List.forall_mem_cons, hP _ _ hc, ih]

theorem names_eq_of_forall₂ {cs cs' : List Chain} (h : Forall₂ Chain.SameRules cs cs') :
    cs'.map Chain.name = cs.map Chain.name := by
  induction h with
  | nil => rfl
  | cons hc _ ih => rw [List.map_cons, List.map_cons, hc.name, ih]

theorem Reorders.passesUnordered_iff {rs rs' : Ruleset} (h : Reorders rs rs') :
    PassesUnordered rs ↔ PassesUnordered rs' := by
  obtain ⟨cs, hsame, hperm⟩ := h.chains
  have hnames : rs.chains.map Chain.name ~ rs'.chains.map Chain.name :=
    names_eq_of_forall₂ hsame ▸ hperm.map Chain.name
  have hids := (ids_perm hsame).symm.trans (hperm.flatMap_right (fun c => c.rules.map Rule.id))
  have hlower := h.forall_chains_iff (fun _ _ hc => lowerSpare_iff_of_sameRules hc)
  constructor
  · rintro ⟨hv, hn, hi, hl⟩
    exact ⟨h.version ▸ hv, hnames.nodup_iff.1 hn, hids.nodup_iff.1 hi, hlower.1 hl⟩
  · rintro ⟨hv, hn, hi, hl⟩
    exact ⟨h.version ▸ hv, hnames.nodup_iff.2 hn, hids.nodup_iff.2 hi, hlower.2 hl⟩

/-! ## Orders of one chain -/

section OneChain

variable {c : Chain}

theorem tiesClean_of_tiesApart (h : TiesApart c) (hid : (c.rules.map Rule.id).Nodup) : TiesClean c := by
  have happart : ∀ e r, [e, r] <+ c.rules → e.priority = r.priority →
      ¬ e.matcher.overlaps r.matcher = true ∧ ¬ kills e r = true := by
    intro e r hsub hprio
    have hne : e ≠ r := by simpa using (nodup_of_ids hid).sublist hsub
    have hmem := mem_of_pair_sublist hsub
    exact h e hmem.1 r hmem.2 hne hprio
  constructor
  · intro e r hprio hsub
    exact (happart e r hsub hprio).2
  · intro x y hx hsub hcol
    have hprio : x.priority = y.priority := by simpa using List.find?_some hx
    simp only [collides, Bool.and_eq_true] at hcol
    exact (happart x y hsub hprio).1 hcol.2

/-- **An accepted order shows its chain arrangeable**: its first rule of a priority opens it. -/
theorem arrangeable_of_tiesClean (h : TiesClean c) (hid : (c.rules.map Rule.id).Nodup) : Arrangeable c := by
  constructor
  · intro r hr
    have hsome : (firstOf c r.priority).isSome = true := List.find?_isSome.2 ⟨r, hr, by simp⟩
    obtain ⟨f, hf⟩ := Option.isSome_iff_exists.1 hsome
    have hfr : f.priority = r.priority := by simpa using List.find?_some hf
    have hfc : f ∈ c.rules := List.mem_of_find?_eq_some hf
    refine ⟨f, hfc, hfr, fun g hg hne hprio => ?_⟩
    have hsub : [f, g] <+ c.rules := pair_sublist_of_find? hf hg (by simp [← hprio, hfr]) hne
    refine ⟨fun ho => h.scanned f g (by rw [← hprio, hfr]; exact hf) hsub ?_, h.alive f g hprio hsub⟩
    have hids : f.id ≠ g.id := fun heq => hne (eq_of_ids hid hfc hg heq)
    simp [collides, hids, ho]
  · refine (exists_arrangement_iff (nodup_of_ids hid)).1 ⟨c.rules, List.Perm.refl _, ?_⟩
    refine List.pairwise_iff_forall_sublist.2 ?_
    rintro e r hsub ⟨hprio, hk⟩
    exact h.alive e r hprio hsub hk

open Classical in
/-- The rules that open their priority come before the others. -/
noncomputable def openRank (c : Chain) (r : Rule) : Nat := if Opens c r then 0 else 1

theorem openRank_of_opens {r : Rule} (h : Opens c r) : openRank c r = 0 := if_pos h

theorem openRank_of_not_opens {r : Rule} (h : ¬ Opens c r) : openRank c r = 1 := if_neg h

theorem opens_of_openRank_lt {e r : Rule} (h : openRank c e < openRank c r) : Opens c e := by
  by_contra hno
  rw [openRank_of_not_opens hno] at h
  by_cases hr : Opens c r
  · rw [openRank_of_opens hr] at h
    omega
  · rw [openRank_of_not_opens hr] at h
    omega

/-- With the openers in front, the first rule of a priority is one. -/
theorem opens_of_find? (h : Arrangeable c) {l : List Rule} (hl : l ~ c.rules) (hnd : l.Nodup) {x y : Rule}
    (hy : y ∈ c.rules)
    (hx : (sortByKey (openRank c) l).find? (fun r => decide (r.priority = y.priority)) = some x) : Opens c x := by
  have hperm : sortByKey (openRank c) l ~ l := sortByKey_perm (openRank c) l
  by_contra hno
  obtain ⟨f, hf, hfy, hopf⟩ := h.opener y hy
  have hxf : x ≠ f := fun heq => hno (heq ▸ hopf)
  have hxl : x ∈ l := (mem_sortByKey (openRank c)).1 (List.mem_of_find?_eq_some hx)
  have hbefore : [f, x] <+ sortByKey (openRank c) l := by
    refine (pair_sublist_sortByKey_iff (openRank c)).2 (Or.inl ⟨hl.mem_iff.2 hf, hxl, ?_⟩)
    rw [openRank_of_opens hopf, openRank_of_not_opens hno]
    exact Nat.zero_lt_one
  have hfl : f ∈ sortByKey (openRank c) l := hperm.mem_iff.2 (hl.mem_iff.2 hf)
  exact pair_sublist_asymm (hperm.nodup_iff.2 hnd) hbefore (pair_sublist_of_find? hx hfl (by simp [hfy]) hxf)

/-- **An arrangeable chain has an accepted order**: arrange the kills, then move the openers to the front. -/
theorem exists_tiesClean (h : Arrangeable c) (hid : (c.rules.map Rule.id).Nodup) :
    ∃ c', c.SameRules c' ∧ TiesClean c' := by
  obtain ⟨l, hl, hkills⟩ := (exists_arrangement_iff (nodup_of_ids hid)).2 h.cycleFree
  have hperm : sortByKey (openRank c) l ~ c.rules := (sortByKey_perm (openRank c) l).trans hl
  have hnd : (sortByKey (openRank c) l).Nodup := hperm.nodup_iff.2 (nodup_of_ids hid)
  refine ⟨{ c with rules := sortByKey (openRank c) l }, ⟨rfl, rfl, hperm⟩, ?_, ?_⟩
  · intro e r hprio hsub hk
    have hne : e ≠ r := by simpa using hnd.sublist hsub
    have hr : r ∈ c.rules := hperm.mem_iff.1 (mem_of_pair_sublist hsub).2
    rcases (pair_sublist_sortByKey_iff (openRank c)).1 hsub with ⟨-, -, hlt⟩ | ⟨-, hold⟩
    · exact (opens_of_openRank_lt hlt r hr hne hprio).2 hk
    · exact List.pairwise_iff_forall_sublist.1 hkills hold ⟨hprio, hk⟩
  · intro x y hx hsub hcol
    have hne : x ≠ y := by simpa using hnd.sublist hsub
    have hy : y ∈ c.rules := hperm.mem_iff.1 (mem_of_pair_sublist hsub).2
    have hprio : x.priority = y.priority := by simpa using List.find?_some hx
    have hop : Opens c x := opens_of_find? h hl (hl.nodup_iff.2 (nodup_of_ids hid)) hy hx
    simp only [collides, Bool.and_eq_true] at hcol
    exact (hop y hy hne hprio).1 hcol.2

/-- **A chain with a clash has a refused order**: the clash declared first. -/
theorem exists_not_tiesClean (h : ¬ TiesApart c) (hid : (c.rules.map Rule.id).Nodup) :
    ∃ c', c.SameRules c' ∧ ¬ TiesClean c' := by
  unfold TiesApart Opens at h
  push Not at h
  obtain ⟨a, ha, b, hb, hne, hprio, hclash⟩ := h
  refine ⟨{ c with rules := a :: c.rules.erase a }, ⟨rfl, rfl, (List.perm_cons_erase ha).symm⟩, fun hclean => ?_⟩
  have hbe : b ∈ c.rules.erase a := (List.mem_erase_of_ne (Ne.symm hne)).2 hb
  have hsub : [a, b] <+ a :: c.rules.erase a := List.Sublist.cons_cons a (List.singleton_sublist.2 hbe)
  have hids : a.id ≠ b.id := fun heq => hne (eq_of_ids hid ha hb heq)
  have hk : kills a b = true := hclash (fun ho => hclean.scanned a b (by simp [firstOf, hprio]) hsub
    (by simp [collides, hids, ho]))
  exact hclean.alive a b hprio hsub hk

end OneChain

/-! ## The verdict -/

theorem Reorders.exists_accepted {rs : Ruleset} (hpass : PassesUnordered rs) (h : ∀ c ∈ rs.chains, Arrangeable c) :
    ∃ rs', Reorders rs rs' ∧ verify rs' = .ok () := by
  have hex : ∀ c ∈ rs.chains, ∃ c', c.SameRules c' ∧ TiesClean c' :=
    fun c hc => exists_tiesClean (h c hc) (hpass.nodup_ids hc)
  choose! arrange hsame hclean using hex
  have hre : Reorders rs { rs with chains := rs.chains.map arrange } :=
    ⟨rfl, _, List.forall₂_map_right_iff.2 (List.forall₂_same.2 hsame), List.Perm.refl _⟩
  refine ⟨_, hre, (verify_eq_ok_iff_ties _).2 ⟨hre.passesUnordered_iff.1 hpass, ?_⟩⟩
  intro c' hc'
  obtain ⟨c, hc, rfl⟩ := List.mem_map.1 hc'
  exact hclean c hc

theorem Reorders.exists_refused {rs : Ruleset} (hpass : PassesUnordered rs) {c : Chain} (hc : c ∈ rs.chains)
    (h : ¬ TiesApart c) : ∃ rs', Reorders rs rs' ∧ verify rs' ≠ .ok () := by
  obtain ⟨c', hsame, hclash⟩ := exists_not_tiesClean h (hpass.nodup_ids hc)
  obtain ⟨pre, post, hsplit⟩ := List.append_of_mem hc
  have hrefl : ∀ l : List Chain, Forall₂ Chain.SameRules l l :=
    fun l => List.forall₂_same.2 (fun _ _ => ⟨rfl, rfl, List.Perm.refl _⟩)
  refine ⟨{ rs with chains := pre ++ c' :: post }, ⟨rfl, _, ?_, List.Perm.refl _⟩, fun hok => ?_⟩
  · rw [hsplit]
    exact List.rel_append (hrefl pre) (List.Forall₂.cons hsame (hrefl post))
  · exact hclash (((verify_eq_ok_iff_ties _).1 hok).2 c' (by simp))

/-- **When the verdict of a ruleset does not depend on its declaration order.** -/
theorem acceptance_reorder_iff (rs : Ruleset) :
    (∀ rs', Reorders rs rs' → (verify rs = .ok () ↔ verify rs' = .ok ())) ↔
      ¬ PassesUnordered rs ∨ (∃ c ∈ rs.chains, ¬ Arrangeable c) ∨ ∀ c ∈ rs.chains, TiesApart c := by
  constructor
  · intro hsame
    by_contra hno
    push Not at hno
    obtain ⟨hpass, harr, c, hc, hclash⟩ := hno
    obtain ⟨rs₁, h₁, hok⟩ := Reorders.exists_accepted hpass harr
    obtain ⟨rs₂, h₂, hrefused⟩ := Reorders.exists_refused hpass hc hclash
    exact hrefused ((hsame rs₂ h₂).1 ((hsame rs₁ h₁).2 hok))
  · intro h rs' hre
    simp only [verify_eq_ok_iff_ties]
    rcases h with hfail | ⟨c, hc, hbad⟩ | hties
    · have hfail' : ¬ PassesUnordered rs' := fun hp => hfail (hre.passesUnordered_iff.2 hp)
      simp [hfail, hfail']
    · -- in no order is the chain clean
      have hnone : ∀ rs₁, Reorders rs rs₁ → ¬ (PassesUnordered rs₁ ∧ ∀ c ∈ rs₁.chains, TiesClean c) := by
        rintro rs₁ h₁ ⟨hp, hclean⟩
        have harr := (h₁.forall_chains_iff (fun _ _ => arrangeable_iff_of_sameRules)).2
          (fun c hc => arrangeable_of_tiesClean (hclean c hc) (hp.nodup_ids hc))
        exact hbad (harr c hc)
      exact iff_of_false (hnone rs (Reorders.refl rs)) (hnone rs' hre)
    · -- in every order each chain is
      have hties' := (hre.forall_chains_iff (fun _ _ => tiesApart_iff_of_sameRules)).1 hties
      constructor
      · rintro ⟨hp, -⟩
        have hp' := hre.passesUnordered_iff.1 hp
        exact ⟨hp', fun c hc => tiesClean_of_tiesApart (hties' c hc) (hp'.nodup_ids hc)⟩
      · rintro ⟨hp', -⟩
        have hp := hre.passesUnordered_iff.2 hp'
        exact ⟨hp, fun c hc => tiesClean_of_tiesApart (hties c hc) (hp.nodup_ids hc)⟩

/-- **Accepted, and refused in the reverse order**, with the two overlapping rules first. -/
theorem not_acceptance_reorder_threeTied :
    ¬ ∀ rs', Reorders (.new [threeTied]) rs' → (verify (.new [threeTied]) = .ok () ↔ verify rs' = .ok ()) := by
  intro h
  have hre : Reorders (.new [threeTied]) (.new [{ threeTied with rules := threeTied.rules.reverse }]) := by
    refine ⟨rfl, _, ?_, List.Perm.refl _⟩
    exact List.Forall₂.cons ⟨rfl, rfl, List.reverse_perm _⟩ List.Forall₂.nil
  have hok : verify (.new [threeTied]) = .ok () := (verify_eq_ok_iff _).2 (by decide)
  exact absurd ((verify_eq_ok_iff _).1 ((h _ hre).1 hok)) (by decide)

end Portcullis
