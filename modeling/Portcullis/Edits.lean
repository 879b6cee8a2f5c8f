import Portcullis.Reorder
import Portcullis.Dataplane
import Portcullis.Lib.Pointwise
import Mathlib.Data.List.Flatten
/-!
# Edits — one rule added, and rules deleted

A rule appended to a chain of an accepted ruleset leaves it accepted exactly when it passes the checks that concern it
(`addRule_accepted_iff`): nothing else has to be looked at again.  Deleting rules can make an accepted ruleset refused,
as what the scan steps over comes to light; no deletion does exactly when the rules of one priority are disjoint
(`deletions_accepted_iff`).
-/
namespace Portcullis

open SortBy
open List

/-! ## Adding a rule -/

def Chain.addRule (c : Chain) (r : Rule) : Chain := { c with rules := c.rules ++ [r] }

/-- `r` appended to the chain of that name. -/
def Ruleset.addRule (rs : Ruleset) (name : String) (r : Rule) : Ruleset :=
  { rs with chains := rs.chains.map (fun c => if c.name = name then c.addRule r else c) }

/-- The checks that concern a rule appended to a chain. -/
structure Chain.Admits (c : Chain) (r : Rule) : Prop where
  alive : ∀ e ∈ c.rules, e.priority ≤ r.priority → ¬ kills e r = true
  spares : ∀ x ∈ c.rules, r.priority < x.priority → ¬ kills r x = true
  apart : ∀ f, firstOf c r.priority = some f → ¬ f.matcher.overlaps r.matcher = true

theorem pair_sublist_concat_iff {a b r : Rule} {l : List Rule} :
    [a, b] <+ l ++ [r] ↔ [a, b] <+ l ∨ (a ∈ l ∧ b = r) := by
  constructor
  · intro h
    obtain ⟨l₁, l₂, heq, h₁, h₂⟩ := List.sublist_append_iff.1 h
    rcases l₁ with _ | ⟨x, _ | ⟨y, l₁⟩⟩
    · have hlen := h₂.length_le
      rw [← List.nil_append l₂, ← heq] at hlen
      simp at hlen
    · obtain ⟨rfl, rfl⟩ : a = x ∧ [b] = l₂ := by simpa using heq
      exact Or.inr ⟨List.singleton_sublist.1 h₁, List.mem_singleton.1 (List.singleton_sublist.1 h₂)⟩
    · obtain ⟨rfl, rfl, rfl, rfl⟩ : a = x ∧ b = y ∧ l₁ = [] ∧ l₂ = [] := by simpa using heq
      exact Or.inl h₁
  · rintro (h | ⟨ha, rfl⟩)
    · exact h.trans (List.sublist_append_left l [r])
    · exact (List.singleton_sublist.2 ha).append (List.Sublist.refl [b])

theorem firstOf_addRule_of_mem {c : Chain} {x : Rule} (r : Rule) {q : UInt32} (hx : x ∈ c.rules) (hq : x.priority = q) :
    firstOf (c.addRule r) q = firstOf c q := by
  have hsome : (firstOf c q).isSome = true := List.find?_isSome.2 ⟨x, hx, by simp [hq]⟩
  obtain ⟨f, hf⟩ := Option.isSome_iff_exists.1 hsome
  unfold firstOf at hf ⊢
  rw [Chain.addRule, List.find?_append, hf, Option.some_or]

/-- **Only the checks that concern the new rule** are to be made in its chain. -/
theorem lintChain_addRule_iff {c : Chain} (hclean : lintChain c = []) {r : Rule} (hfresh : r.id ∉ c.rules.map Rule.id) :
    lintChain (c.addRule r) = [] ↔ c.Admits r := by
  obtain ⟨hlow, htie, hscan⟩ := (lintChain_eq_nil_iff c).1 hclean
  have hcollides {x : Rule} (hx : x ∈ c.rules) : collides x r = x.matcher.overlaps r.matcher := by
    have hids : x.id ≠ r.id := fun heq => hfresh (heq ▸ List.mem_map_of_mem hx)
    simp [collides, hids]
  have hlast {x : Rule} (hx : x ∈ c.rules) : [x, r] <+ (c.addRule r).rules := pair_sublist_concat_iff.2 (Or.inr ⟨hx, rfl⟩)
  have hmem {x : Rule} : x ∈ (c.addRule r).rules ↔ x ∈ c.rules ∨ x = r := by simp [Chain.addRule]
  rw [lintChain_eq_nil_iff]
  constructor
  · rintro ⟨hlow', htie', hscan'⟩
    refine ⟨fun e he hle => ?_, fun x hx hlt => ?_, fun f hf ho => ?_⟩
    · by_cases heq : e.priority = r.priority
      · exact htie' e r heq (hlast he)
      · exact hlow' e (hmem.2 (Or.inl he)) r (hmem.2 (Or.inr rfl)) (UInt32.lt_of_le_of_ne hle heq)
    · exact hlow' r (hmem.2 (Or.inr rfl)) x (hmem.2 (Or.inl hx)) hlt
    · have hfc : f ∈ c.rules := List.mem_of_find?_eq_some hf
      have hfr : f.priority = r.priority := by simpa using List.find?_some hf
      refine hscan' f r ((firstOf_addRule_of_mem r hfc hfr).trans hf) (hlast hfc) ?_
      rw [hcollides hfc, ho]
  · rintro ⟨halive, hspares, hapart⟩
    refine ⟨fun e he x hx hlt => ?_, fun e x heq hsub => ?_, fun x y hx hsub => ?_⟩
    · rcases hmem.1 he with hec | rfl
      · rcases hmem.1 hx with hxc | rfl
        · exact hlow e hec x hxc hlt
        · exact halive e hec (UInt32.le_of_lt hlt)
      · rcases hmem.1 hx with hxc | rfl
        · exact hspares x hxc hlt
        · exact absurd hlt (UInt32.lt_irrefl _)
    · rcases pair_sublist_concat_iff.1 hsub with hsub | ⟨he, rfl⟩
      · exact htie e x heq hsub
      · exact halive e he (heq ▸ UInt32.le_refl _)
    · rcases pair_sublist_concat_iff.1 hsub with hsub | ⟨hxc, rfl⟩
      · have hyc : y ∈ c.rules := (mem_of_pair_sublist hsub).2
        exact hscan x y ((firstOf_addRule_of_mem r hyc rfl).symm.trans hx) hsub
      · have hxy : x.priority = y.priority := by simpa using List.find?_some hx
        rw [hcollides hxc]
        exact hapart x ((firstOf_addRule_of_mem y hxc hxy).symm.trans hx)

theorem chains_addRule {rs : Ruleset} (hnames : (rs.chains.map Chain.name).Nodup) {c : Chain} (hc : c ∈ rs.chains)
    (r : Rule) : ∃ s t, rs.chains = s ++ c :: t ∧ (rs.addRule c.name r).chains = s ++ c.addRule r :: t := by
  obtain ⟨s, t, heq⟩ := List.append_of_mem hc
  refine ⟨s, t, heq, ?_⟩
  have hkeep {l : List Chain} (hl : ∀ d ∈ l, d.name ≠ c.name) :
      l.map (fun d => if d.name = c.name then d.addRule r else d) = l := by
    refine (List.map_congr_left (fun d hd => ?_)).trans (List.map_id l)
    rw [if_neg (hl d hd), id]
  rw [heq, List.map_append, List.map_cons, List.nodup_append] at hnames
  obtain ⟨-, ht, hdisj⟩ := hnames
  have hs (d : Chain) (hd : d ∈ s) : d.name ≠ c.name :=
    hdisj d.name (List.mem_map_of_mem hd) c.name List.mem_cons_self
  have ht' (d : Chain) (hd : d ∈ t) : d.name ≠ c.name :=
    fun h => (List.nodup_cons.1 ht).1 (h ▸ List.mem_map_of_mem hd)
  simp only [Ruleset.addRule, heq, List.map_append, List.map_cons, if_true, hkeep hs, hkeep ht']

/-- **A rule can be added exactly when it is new and its chain admits it.** -/
theorem addRule_accepted_iff {rs : Ruleset} (hok : verify rs = .ok ()) {c : Chain} (hc : c ∈ rs.chains) (r : Rule) :
    verify (rs.addRule c.name r) = .ok () ↔ r.id ∉ rs.rules.map Rule.id ∧ c.Admits r := by
  obtain ⟨hversion, hnames, hids, hclean⟩ := (verify_eq_ok_iff_clean rs).1 hok
  obtain ⟨s, t, hchains, hadd⟩ := chains_addRule hnames hc r
  have hnames' : (rs.addRule c.name r).chains.map Chain.name = rs.chains.map Chain.name := by
    rw [hchains, hadd, List.map_append, List.map_append, List.map_cons, List.map_cons]
    rfl
  have hperm : (rs.addRule c.name r).chains.flatMap (fun d => d.rules.map Rule.id) ~
      r.id :: rs.chains.flatMap (fun d => d.rules.map Rule.id) := by
    rw [hchains, hadd]
    simp only [List.flatMap_append, List.flatMap_cons, Chain.addRule, List.map_append, List.map_cons, List.map_nil,
      List.append_assoc, List.singleton_append]
    rw [← List.append_assoc, ← List.append_assoc (s.flatMap _) (c.rules.map Rule.id)]
    exact List.perm_middle
  have hothers : (∀ d ∈ (rs.addRule c.name r).chains, lintChain d = []) ↔ lintChain (c.addRule r) = [] := by
    rw [hchains] at hclean
    rw [hadd]
    simp only [List.forall_mem_append, List.forall_mem_cons] at hclean ⊢
    exact ⟨fun h => h.2.1, fun h => ⟨hclean.1, h, hclean.2.2⟩⟩
  have hfreshIn (h : r.id ∉ rs.chains.flatMap (fun d => d.rules.map Rule.id)) : r.id ∉ c.rules.map Rule.id :=
    fun hmem => h (List.mem_flatMap.2 ⟨c, hc, hmem⟩)
  rw [verify_eq_ok_iff_clean, hnames', hperm.nodup_iff, List.nodup_cons, hothers, rules_ids]
  constructor
  · rintro ⟨-, -, ⟨hfresh, -⟩, hlint⟩
    exact ⟨hfresh, (lintChain_addRule_iff (hclean c hc) (hfreshIn hfresh)).1 hlint⟩
  · rintro ⟨hfresh, hadmits⟩
    exact ⟨hversion, hnames, ⟨hfresh, hids⟩, (lintChain_addRule_iff (hclean c hc) (hfreshIn hfresh)).2 hadmits⟩

/-- Behind `sshOnly`'s rule the ports below 100 can be dropped. -/
theorem addRule_accepted_iff_sshOnly :
    verify (sshOnly.addRule "input"
        { id := ⟨2⟩, priority := 20, matcher := { dstPort := .range ⟨1, 99⟩ }, action := .drop }) = .ok () ↔
      (⟨2⟩ : RuleId) ∉ sshOnly.rules.map Rule.id ∧ (sshOnly.chains.head (by decide)).Admits
        { id := ⟨2⟩, priority := 20, matcher := { dstPort := .range ⟨1, 99⟩ }, action := .drop } :=
  addRule_accepted_iff ((verify_eq_ok_iff sshOnly).2 (by decide)) (List.head_mem _) _

/-! ## Deleting rules -/

structure Chain.Deletes (c c' : Chain) : Prop where
  name : c'.name = c.name
  defaultPolicy : c'.defaultPolicy = c.defaultPolicy
  rules : c'.rules <+ c.rules

/-- Some chains deleted, and some rules of the others. -/
structure Deletes (rs rs' : Ruleset) : Prop where
  version : rs'.version = rs.version
  chains : ∃ cs, cs <+ rs.chains ∧ Forall₂ Chain.Deletes cs rs'.chains

/-- No two rules of one priority overlap. -/
def TiesDisjoint (c : Chain) : Prop := ∀ a b, [a, b] <+ c.rules → a.priority = b.priority → ¬ collides a b = true

theorem lintChain_of_deletes {c c' : Chain} (h : c.Deletes c') (hclean : lintChain c = []) (hties : TiesDisjoint c) :
    lintChain c' = [] := by
  obtain ⟨hlow, htie, -⟩ := (lintChain_eq_nil_iff c).1 hclean
  refine (lintChain_eq_nil_iff c').2 ⟨fun e he r hr hlt => ?_, fun e r heq hsub => ?_, fun x y hx hsub => ?_⟩
  · exact hlow e (h.rules.subset he) r (h.rules.subset hr) hlt
  · exact htie e r heq (hsub.trans h.rules)
  · have hxy : x.priority = y.priority := by simpa using List.find?_some hx
    exact hties x y (hsub.trans h.rules) hxy

/-- **Whatever is deleted from an accepted ruleset, the rest is accepted**, exactly when no two rules of one priority
overlap. -/
theorem deletions_accepted_iff {rs : Ruleset} (hok : verify rs = .ok ()) :
    (∀ rs', Deletes rs rs' → verify rs' = .ok ()) ↔ ∀ c ∈ rs.chains, TiesDisjoint c := by
  obtain ⟨hversion, hnames, hids, hclean⟩ := (verify_eq_ok_iff_clean rs).1 hok
  constructor
  · -- two tied rules that overlap, and nothing else
    intro hall c hc a b hsub hprio hcol
    have hdel : Deletes rs ⟨rs.version, [{ c with rules := [a, b] }]⟩ :=
      ⟨rfl, [c], List.singleton_sublist.2 hc, .cons ⟨rfl, rfl, hsub⟩ .nil⟩
    obtain ⟨-, -, -, hlint⟩ := (verify_eq_ok_iff_clean _).1 (hall _ hdel)
    obtain ⟨-, -, hscan⟩ := (lintChain_eq_nil_iff _).1 (hlint _ List.mem_cons_self)
    exact hscan a b (by simp [hprio]) (List.Sublist.refl _) hcol
  · rintro hties rs' ⟨hversion', cs, hcs, hdel⟩
    have hlint : ∀ c ∈ cs, lintChain c = [] ∧ TiesDisjoint c :=
      fun c hc => ⟨hclean c (hcs.subset hc), hties c (hcs.subset hc)⟩
    refine (verify_eq_ok_iff_clean rs').2 ⟨hversion' ▸ hversion, ?_, ?_, ?_⟩
    · rw [Pointwise.map_eq (fun _ _ h => h.name) hdel]
      exact hnames.sublist (hcs.map Chain.name)
    · have hsub := Pointwise.flatMap_sublist (fun c c' (h : Chain.Deletes c c') => h.rules.map Rule.id) hdel
      exact hids.sublist (hsub.trans (hcs.flatMap _))
    · exact Pointwise.forall_mem (fun _ _ h hc => lintChain_of_deletes h hc.1 hc.2) hdel hlint

theorem deletions_accepted_iff_threeTied : (∀ rs', Deletes (.new [threeTied]) rs' → verify rs' = .ok ()) ↔
    ∀ c ∈ [threeTied], TiesDisjoint c :=
  deletions_accepted_iff ((verify_eq_ok_iff _).2 (by decide))

end Portcullis
