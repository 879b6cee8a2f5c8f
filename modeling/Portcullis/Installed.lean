import Portcullis.Dataplane
import Portcullis.Ties
/-!
# Installed — the live rules as a packet meets them

A chain of the stored ruleset is walked by its ids, each read off the live rules: a diff names rules by their ids, and no
chains.  After any session over a netctl that follows its diffs, the live walk is the chain's own in every order its
priorities allow exactly when the chain's ties that the scan misses or misreads are behind terminal rules
(`live_walks_iff`).  What an apply plans to change is the difference of the two rulesets, rule by rule
(`planned_eq_changes`): names, policies and the grouping into chains do not count.
-/
namespace Portcullis

open List
open Machine (exec)

/-! ## Walking what is live -/

/-- Rules as they are live, each under its id. -/
def entries (live : RuleId → Option Rule) (rules : List Rule) : List (RuleId × Rule) :=
  rules.filterMap (fun r => (live r.id).map (Prod.mk r.id))

/-- What fires of the live rules, walked in the order of `rules`. -/
def liveFired (live : RuleId → Option Rule) (p : Packet) (rules : List Rule) : List (RuleId × Action) :=
  (Walk.fire (fun e => e.2.matcher.matchesPacket p) (fun e => e.2.action.isTerminal) (entries live rules)).map
    (fun e => (e.1, e.2.action))

def Rule.effect (r : Rule) : RuleId × Action := (r.id, r.action)

/-- The live rules of a chain fire as the chain does, in every order that their priorities allow. -/
def WalksAs (live : RuleId → Option Rule) (c : Chain) : Prop :=
  ∀ l, l ~ c.rules → (entries live l).Pairwise (fun a b => a.2.priority ≤ b.2.priority) →
    ∀ p, liveFired live p l = (c.fires p).map Rule.effect

theorem eq_of_map_ids {rules : List Rule} (hid : (rules.map Rule.id).Nodup) : ∀ {l l' : List Rule}, l ⊆ rules →
    l' ⊆ rules → l.map Rule.id = l'.map Rule.id → l = l'
  | [], [], _, _, _ => rfl
  | [], _ :: _, _, _, h => by cases h
  | _ :: _, [], _, _, h => by cases h
  | a :: l, b :: l', hl, hl', h => by
    obtain ⟨hab, hrest⟩ := List.cons.inj h
    obtain ⟨ha, hl⟩ := List.cons_subset.1 hl
    obtain ⟨hb, hl'⟩ := List.cons_subset.1 hl'
    rw [eq_of_ids hid ha hb hab, eq_of_map_ids hid hl hl' hrest]

section Live

variable {live : RuleId → Option Rule} {rs : Ruleset}

/-- The live rule under the id of `r`. -/
def liveAs (live : RuleId → Option Rule) (r : Rule) : Rule := (live r.id).getD r

theorem HasLive.liveAs_eq (h : HasLive live rs) {r : Rule} (hr : r ∈ rs.rules) :
    live r.id = some (liveAs live r) ∧ (liveAs live r).SameEffect r := by
  obtain ⟨r', hr', hsame⟩ := h.present r hr
  unfold liveAs
  rw [hr', Option.getD_some]
  exact ⟨rfl, hsame⟩

theorem HasLive.entries_eq (h : HasLive live rs) : ∀ {l : List Rule}, l ⊆ rs.rules →
    entries live l = l.map (fun r => (r.id, liveAs live r))
  | [], _ => rfl
  | r :: l, hl => by
    obtain ⟨hr, hl⟩ := List.cons_subset.1 hl
    have ih : entries live l = l.map (fun r => (r.id, liveAs live r)) := h.entries_eq hl
    unfold entries at ih ⊢
    rw [List.filterMap_cons, (h.liveAs_eq hr).1, Option.map_some, ih, List.map_cons]

/-- **The live rules fire as the document's**, in one and the same order. -/
theorem HasLive.liveFired_eq (h : HasLive live rs) {l : List Rule} (hl : l ⊆ rs.rules) (p : Packet) :
    liveFired live p l = (fired p l).map Rule.effect := by
  have heff (r : Rule) (hr : r ∈ l) : (liveAs live r).SameEffect r := (h.liveAs_eq (hl hr)).2
  have hfire : Walk.fire (fun r => (liveAs live r).matcher.matchesPacket p) (fun r => (liveAs live r).action.isTerminal) l =
      fired p l :=
    Walk.fire_congr _ _ (fun r hr => by rw [(heff r hr).matcher]) (fun r hr => by rw [(heff r hr).action])
  unfold liveFired
  rw [h.entries_eq hl, Walk.fire_map, hfire, List.map_map]
  refine List.map_congr_left (fun r hr => ?_)
  have hmem : r ∈ l := (Walk.fire_sublist _ _ _).subset hr
  simp only [Function.comp_apply, Rule.effect, (heff r hmem).action]

theorem HasLive.sorted_iff (h : HasLive live rs) {l : List Rule} (hl : l ⊆ rs.rules) :
    (entries live l).Pairwise (fun a b => a.2.priority ≤ b.2.priority) ↔ l.Pairwise (fun a b => a.priority ≤ b.priority) := by
  rw [h.entries_eq hl, List.pairwise_map]
  refine List.Pairwise.iff_of_mem (fun {a b} ha hb => ?_)
  rw [(h.liveAs_eq (hl ha)).2.priority, (h.liveAs_eq (hl hb)).2.priority]

/-- **A chain is walked live as it stands exactly when it leaves no order open.** -/
theorem HasLive.walksAs_iff (h : HasLive live rs) (hok : verify rs = .ok ()) {c : Chain} (hc : c ∈ rs.chains) :
    WalksAs live c ↔ UnexaminedTiesBehind c := by
  have hid := nodup_ids_of_verify hok hc
  have hsub {l : List Rule} (hl : l ~ c.rules) : l ⊆ rs.rules :=
    fun r hr => mem_rules_iff.2 ⟨c, hc, hl.mem_iff.1 hr⟩
  have hfired {l : List Rule} (hl : l ~ c.rules) (p : Packet) : fired p l ⊆ c.rules :=
    fun r hr => hl.mem_iff.1 ((Walk.fire_sublist _ _ _).subset hr)
  constructor
  · intro hwalk
    refine unexaminedTiesBehind_of_orderFree hid (fun p l l' hl hl' hs hs' => ?_)
    have h1 := hwalk l hl ((h.sorted_iff (hsub hl)).2 hs) p
    have h2 := hwalk l' hl' ((h.sorted_iff (hsub hl')).2 hs') p
    rw [h.liveFired_eq (hsub hl)] at h1
    rw [h.liveFired_eq (hsub hl')] at h2
    have hmap := congrArg (List.map Prod.fst) (h1.trans h2.symm)
    rw [List.map_map, List.map_map] at hmap
    exact eq_of_map_ids hid (hfired hl p) (hfired hl' p) hmap
  · intro hties l hl hs p
    have hclean := ((verify_eq_ok_iff_clean rs).1 hok).2.2.2 c hc
    have hfree := orderFree_of_unexaminedTiesBehind hclean hid hties
    rw [h.liveFired_eq (hsub hl)]
    exact congrArg (List.map Rule.effect)
      (hfree p l (evalOrder c.rules) hl (evalOrder_perm c.rules) ((h.sorted_iff (hsub hl)).1 hs) (pairwise_evalOrder c.rules))

end Live

variable {fromStr : String → Except String FileConfig}

theorem Session.Inv.accepted_of_stored {s : Session} (hinv : s.Inv) {rs : Ruleset} (hrs : s.stored.1 = some rs) :
    verify rs = .ok () := by
  rcases hinv.storedLast with ⟨hnone, -⟩ | ⟨rs', o, hrs', -, hok, -⟩
  · rw [hrs] at hnone
    cases hnone
  · rw [hrs] at hrs'
    exact Option.some.inj hrs' ▸ hok

/-- **After any session each stored chain is what the dataplane walks**, exactly when its unexamined ties are behind
terminal rules. -/
theorem live_walks_iff {ops : List (Env × Op)} {s : Session} {live : List ApplyRecord → RuleId → Option Rule}
    {rs : Ruleset} (h : exec (Session.step fromStr) {} ops = some s) (hnet : NetctlFollows live s.history)
    (hrs : s.stored.1 = some rs) {c : Chain} (hc : c ∈ rs.chains) :
    WalksAs (live s.history) c ↔ UnexaminedTiesBehind c := by
  have hinv := session_inv h
  have hlive : HasLive (live s.history) rs := hnet.hasLive hinv.gated (hinv.lastApplied_of_stored hrs)
  exact hlive.walksAs_iff (hinv.accepted_of_stored hrs) hc

theorem live_walks_iff_applyWeb : ∃ s : Session, exec (Session.step decodeWeb) {} [startupOnStale, applyWeb] = some s ∧
    ∀ c ∈ sshAndWeb.chains, WalksAs (liveOnStale s.history) c ↔ UnexaminedTiesBehind c := by
  obtain ⟨s, hs, hstored, hhist⟩ := ran_applyWeb
  exact ⟨s, hs, fun c hc => live_walks_iff hs (hhist ▸ netctlFollows_applyWeb) hstored hc⟩

/-! ## What an apply changes -/

/-- The rules of `rs'` that `rs` has not, or with another effect, and those of `rs` whose ids `rs'` has not. -/
def Ruleset.changes (rs rs' : Ruleset) : Nat := Keyed.changes Rule.id Rule.SameEffect rs.rules rs'.rules

/-- A diff lists nothing twice. -/
structure RulesetDiff.ListsOnce (diff : RulesetDiff) : Prop where
  rules : (diff.add ++ diff.update).Nodup
  remove : diff.remove.Nodup

def DiffsOnce (history : List ApplyRecord) : Prop :=
  ∀ record ∈ history, ∀ desired diff, .computeDiff desired (.ok diff) ∈ record.calls → diff.ListsOnce

theorem rules_desiredNetctlRuleset_perm {rs : Ruleset} (h : verify rs = .ok ()) :
    (desiredNetctlRuleset rs).rules ~ rs.rules :=
  (List.perm_ext_iff_of_nodup (nodup_ids_desiredNetctlRuleset h).of_map (nodup_ids_of_accepted h).of_map).2
    (mem_rules_desiredNetctlRuleset rs)

/-- **The changes a diff plans are those between the two rulesets.** -/
theorem len_eq_changes {rs rs' : Ruleset} {live : RuleId → Option Rule} {diff : RulesetDiff} (hok : verify rs = .ok ())
    (hok' : verify rs' = .ok ()) (hlive : HasLive live rs) (hdiff : diff.Documented live (desiredNetctlRuleset rs'))
    (honce : diff.ListsOnce) : diff.len = rs.changes rs' := by
  have hperm := rules_desiredNetctlRuleset_perm hok'
  have hlen := hdiff.length_eq hlive Rule.sameEffect_equivalence (nodup_ids_of_accepted hok)
    (nodup_ids_desiredNetctlRuleset hok').of_map honce.rules honce.remove
  have hchanges : Keyed.changes Rule.id Rule.SameEffect rs.rules (desiredNetctlRuleset rs').rules = rs.changes rs' := by
    unfold Ruleset.changes Keyed.changes
    simp only [hperm.countP_eq, (hperm.map Rule.id).mem_iff]
  rw [← hchanges, ← hlen]
  rfl

/-- **An apply plans as many changes as there are between the ruleset stored before it and its own**, when no diff
lists anything twice. -/
theorem planned_eq_changes {ops : List (Env × Op)} {s s' : Session} {live : List ApplyRecord → RuleId → Option Rule}
    {env : Env} {op : Op} {outcome : Outcome} {o : ApplyOutcome} {rs : Ruleset}
    (h : exec (Session.step fromStr) {} ops = some s) (hstep : s.perform fromStr env op = some (s', outcome))
    (ho : outcome.applied = some o) (hnet : NetctlFollows live s'.history) (honce : DiffsOnce s'.history)
    (hrs : s.stored.1 = some rs) : ∃ rs', s'.stored.1 = some rs' ∧ o.plannedChanges = rs.changes rs' := by
  obtain ⟨rs', diff, hok', rfl, hstored, hhist⟩ := perform_applied hstep ho
  rw [hhist] at hnet honce
  have hdiff := hnet.computes _ _ _ diff List.suffix_rfl List.mem_cons_self
  have hinv := session_inv h
  have hlive := hnet.tail.hasLive hinv.gated (hinv.lastApplied_of_stored hrs)
  have hlists : diff.ListsOnce := honce _ List.mem_cons_self _ diff List.mem_cons_self
  refine ⟨rs', by rw [hstored], ?_⟩
  exact len_eq_changes (hinv.accepted_of_stored hrs) hok' hlive hdiff hlists

/-- The rule of `sshOnly` in another chain, whose policy is another. -/
def sshMoved : Ruleset := .new [{ name := "forward", rules := sshOnly.rules, defaultPolicy := .accept }]

def decodeMoved (text : String) : Except String FileConfig :=
  if text = "moved.toml" then .ok ⟨sshMoved⟩ else .ok ⟨sshOnly⟩

/-- A rule moved to another chain is no change. -/
theorem planned_eq_changes_moved : ∃ (s s' : Session) (outcome : Outcome) (o : ApplyOutcome),
    s.perform decodeMoved (sampleEnv 2 (.ok ())) (.request (.ok (.apply "moved.toml"))) = some (s', outcome) ∧
      outcome.applied = some o ∧ ∃ rs', s'.stored.1 = some rs' ∧ o.plannedChanges = sshOnly.changes rs' := by
  have hrun : (exec (Session.step decodeMoved) {} [startupOnStale]).map
      (fun s => (s.stored.1, (s.perform decodeMoved (sampleEnv 2 (.ok ())) (.request (.ok (.apply "moved.toml")))).map
        (fun so => (so.1.history, so.2.applied)))) =
      some (some sshOnly, some ([appliedRecord sshMoved {}, appliedRecord sshOnly diffFromStale], some ⟨1, 1, 1, 0⟩)) := by
    rfl
  obtain ⟨s, hs, heq⟩ := Option.map_eq_some_iff.1 hrun
  obtain ⟨hstored, hstep⟩ := Prod.mk.inj heq
  obtain ⟨⟨s', outcome⟩, hs', heq'⟩ := Option.map_eq_some_iff.1 hstep
  obtain ⟨hhist, happlied⟩ := Prod.mk.inj heq'
  simp only at hhist happlied
  have hnet : NetctlFollows liveOnStale s'.history := by
    rw [hhist]
    exact netctlFollows_patchedLive netctlFollows_startupOnStale (by decide)
      (hasLive_startupOnStale.of_mem_iff (fun r => (mem_rules_desiredNetctlRuleset sshMoved r).symm)).plans_empty
  have honce : DiffsOnce s'.history := by
    rw [hhist]
    intro record hrecord desired diff hmem
    rcases List.mem_cons.1 hrecord with rfl | hrecord
    · obtain ⟨-, rfl⟩ := computeDiff_mem_appliedRecord hmem
      exact ⟨by decide, by decide⟩
    · obtain rfl := List.mem_singleton.1 hrecord
      obtain ⟨-, rfl⟩ := computeDiff_mem_appliedRecord hmem
      exact ⟨by decide, by decide⟩
  exact ⟨s, s', outcome, ⟨1, 1, 1, 0⟩, hs', happlied, planned_eq_changes hs hs' happlied hnet honce hstored⟩

end Portcullis
