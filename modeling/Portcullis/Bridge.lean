import Portcullis.DeadRules
/-!
# Bridge — the ruleset handed to the dataplane (`bridge.rs`)

Netctl walks rules in declaration order, so the bridge sorts each chain by priority.  The sort is the lint pass's own,
ties included: the bridged document has the same findings, and walking it as declared is walking the original by
priority (`bridge_faithful`).
-/
namespace Portcullis

open SortBy
open Repeats (repeats)
open List

/-- `desired_netctl_ruleset`: each chain's rules sorted by priority, stable. -/
def desiredNetctlRuleset (rs : Ruleset) : Ruleset :=
  { rs with chains := rs.chains.map (fun chain =>
      { chain with rules := sortByKey (fun r => r.priority.toNat) chain.rules }) }

/-- The walk of a chain that always takes next the remaining rule of least priority, the earliest declared among
equals. -/
def walkByPriority (p : Packet) (rules : List Rule) : List Rule :=
  match _h : leastBy (fun r : Rule => r.priority.toNat) rules with
  | none => []
  | some r =>
    if r.matcher.matchesPacket p then
      (if r.action.isTerminal then [r] else r :: walkByPriority p (rules.erase r))
    else walkByPriority p (rules.erase r)
termination_by rules.length
decreasing_by
  all_goals
    have hr : r ∈ rules := mem_of_leastBy _ _h
    have hlen := List.length_erase_of_mem hr
    have hpos := List.length_pos_of_mem hr
    omega

/-- **Taking the least rule each time is walking the sorted chain.** -/
theorem walkByPriority_eq_fired (p : Packet) (rules : List Rule) : walkByPriority p rules = fired p (evalOrder rules) := by
  fun_induction walkByPriority p rules with
  | case1 rules h =>
    rw [(leastBy_eq_none _).1 h]
    rfl
  | case2 rules r h hm ht =>
    rw [evalOrder, sortByKey_eq_cons_of_leastBy _ h]
    simp [fired, Walk.fire, hm, ht]
  | case3 rules r h hm ht ih =>
    rw [ih, evalOrder, evalOrder, sortByKey_eq_cons_of_leastBy _ h]
    simp [fired, Walk.fire, hm, ht]
  | case4 rules r h hm ih =>
    rw [ih, evalOrder, evalOrder, sortByKey_eq_cons_of_leastBy _ h]
    simp [fired, Walk.fire, hm]

structure Chain.SameRules (c c' : Chain) : Prop where
  name : c'.name = c.name
  defaultPolicy : c'.defaultPolicy = c.defaultPolicy
  rules : c'.rules ~ c.rules

structure BridgeFaithful (rs : Ruleset) : Prop where
  issues : issuesOf (verify (desiredNetctlRuleset rs)) ~ issuesOf (verify rs)
  accepted : verify (desiredNetctlRuleset rs) = .ok () ↔ verify rs = .ok ()
  walk : Forall₂ (fun c c' => ∀ p, fired p c'.rules = walkByPriority p c.rules) rs.chains (desiredNetctlRuleset rs).chains
  version : (desiredNetctlRuleset rs).version = rs.version
  chains : Forall₂ Chain.SameRules rs.chains (desiredNetctlRuleset rs).chains
  idempotent : desiredNetctlRuleset (desiredNetctlRuleset rs) = desiredNetctlRuleset rs

/-- The lint pass sorts again what the bridge sorted, so it sees the same chain. -/
theorem lintChain_sorted (c : Chain) :
    lintChain { c with rules := sortByKey (fun r => r.priority.toNat) c.rules } = lintChain c := by
  simp only [lintChain, evalOrder, sortByKey_sortByKey]

theorem ids_perm {cs cs' : List Chain} (h : Forall₂ Chain.SameRules cs cs') :
    cs'.flatMap (fun c => c.rules.map Rule.id) ~ cs.flatMap (fun c => c.rules.map Rule.id) := by
  induction h with
  | nil => exact List.Perm.refl _
  | cons hc _ ih =>
    simp only [List.flatMap_cons]
    exact (hc.rules.map Rule.id).append ih

theorem chains_desiredNetctlRuleset (rs : Ruleset) :
    Forall₂ Chain.SameRules rs.chains (desiredNetctlRuleset rs).chains :=
  List.forall₂_map_right_iff.2 (List.forall₂_same.2 (fun _ _ => ⟨rfl, rfl, sortByKey_perm _ _⟩))

theorem lintIssues_desiredNetctlRuleset (rs : Ruleset) : lintIssues (desiredNetctlRuleset rs) ~ lintIssues rs := by
  have hnames : (desiredNetctlRuleset rs).chains.map Chain.name = rs.chains.map Chain.name := by
    simp [desiredNetctlRuleset, Function.comp_def]
  have hlint : (desiredNetctlRuleset rs).chains.flatMap lintChain = rs.chains.flatMap lintChain := by
    simp only [desiredNetctlRuleset, List.flatMap_map, lintChain_sorted]
  have hids := Repeats.repeats_perm (ids_perm (chains_desiredNetctlRuleset rs))
  unfold lintIssues
  rw [hnames, hlint, iterRules_ids, iterRules_ids]
  exact ((List.Perm.refl _).append (hids.map duplicateRuleIdIssue)).append_right _

/-- **What is handed to the dataplane is what was verified.** -/
theorem bridge_faithful (rs : Ruleset) : BridgeFaithful rs where
  issues := by
    rw [issuesOf_verify, issuesOf_verify]
    exact lintIssues_desiredNetctlRuleset rs
  accepted := by
    rw [verify_eq_ok_iff, verify_eq_ok_iff]
    exact ⟨fun h => (h ▸ lintIssues_desiredNetctlRuleset rs).nil_eq.symm,
      fun h => (h ▸ lintIssues_desiredNetctlRuleset rs).eq_nil⟩
  walk := by
    refine List.forall₂_map_right_iff.2 (List.forall₂_same.2 (fun c _ p => ?_))
    rw [walkByPriority_eq_fired, evalOrder]
  version := rfl
  chains := chains_desiredNetctlRuleset rs
  idempotent := by
    simp only [desiredNetctlRuleset, List.map_map, Function.comp_def, sortByKey_sortByKey]

end Portcullis
