import Portcullis.Session
import Portcullis.Lib.Keyed
/-!
# Dataplane — the live rules and the stored ruleset

Netctl knows the live rules by their ids and hands the daemon the difference to what is desired (`RulesetDiff`).  Which
rules are live is netctl's: all that is asked of it is that its diffs are the documented ones, that an apply does what
its diff lists, and that nothing else changes what is live (`NetctlFollows`).  Then the live rules are after every
operation of a session those of the stored ruleset, whatever was live before the daemon started (`live_has_stored`), and
an apply plans no change exactly when they are live already (`planned_none_iff`).
-/
namespace Portcullis

open List
open Machine (exec)
open Keyed (Plan Plans Holds)

def Ruleset.rules (rs : Ruleset) : List Rule := rs.iterRules.map Prod.snd

/-- What `RulesetDiff::update` compares. -/
structure Rule.SameEffect (a b : Rule) : Prop where
  matcher : a.matcher = b.matcher
  action : a.action = b.action
  priority : a.priority = b.priority

instance decidableSameEffect : DecidableRel Rule.SameEffect := fun a b =>
  decidable_of_iff (a.matcher = b.matcher ∧ a.action = b.action ∧ a.priority = b.priority)
    ⟨fun ⟨hm, ha, hp⟩ => ⟨hm, ha, hp⟩, fun h => ⟨h.matcher, h.action, h.priority⟩⟩

theorem Rule.SameEffect.refl (r : Rule) : r.SameEffect r := ⟨rfl, rfl, rfl⟩

theorem Rule.sameEffect_equivalence : Equivalence Rule.SameEffect where
  refl := Rule.SameEffect.refl
  symm h := ⟨h.matcher.symm, h.action.symm, h.priority.symm⟩
  trans h h' := ⟨h.matcher.trans h'.matcher, h.action.trans h'.action, h.priority.trans h'.priority⟩

def RulesetDiff.plan (diff : RulesetDiff) : Plan RuleId Rule := ⟨diff.add, diff.update, diff.remove⟩

/-- `RulesetDiff` as documented: the desired rules that are not live, those live with another matcher, action or
priority, and the live ids that are not desired. -/
def RulesetDiff.Documented (diff : RulesetDiff) (live : RuleId → Option Rule) (desired : Ruleset) : Prop :=
  Plans Rule.id Rule.SameEffect live desired.rules diff.plan

def HasLive (live : RuleId → Option Rule) (rs : Ruleset) : Prop := Holds Rule.id Rule.SameEffect live rs.rules

theorem mem_rules_iff {rs : Ruleset} {r : Rule} : r ∈ rs.rules ↔ ∃ c ∈ rs.chains, r ∈ c.rules := by
  simp [Ruleset.rules, Ruleset.iterRules]

theorem mem_rules_desiredNetctlRuleset (rs : Ruleset) (r : Rule) : r ∈ (desiredNetctlRuleset rs).rules ↔ r ∈ rs.rules := by
  simp [mem_rules_iff, desiredNetctlRuleset, SortBy.mem_sortByKey]

theorem rules_ids (rs : Ruleset) : rs.rules.map Rule.id = rs.chains.flatMap (fun c => c.rules.map Rule.id) := by
  rw [Ruleset.rules, List.map_map, ← iterRules_ids]
  rfl

theorem nodup_ids_of_accepted {rs : Ruleset} (h : verify rs = .ok ()) : (rs.rules.map Rule.id).Nodup := by
  rw [rules_ids]
  exact ((verify_eq_ok_iff_clean rs).1 h).2.2.1

theorem nodup_ids_desiredNetctlRuleset {rs : Ruleset} (h : verify rs = .ok ()) :
    ((desiredNetctlRuleset rs).rules.map Rule.id).Nodup := by
  rw [rules_ids, (ids_perm (chains_desiredNetctlRuleset rs)).nodup_iff]
  exact ((verify_eq_ok_iff_clean rs).1 h).2.2.1

/-- **Where the diff of an accepted ruleset is followed, its rules are the live ones.** -/
theorem hasLive_of_follows {rs : Ruleset} {live live' : RuleId → Option Rule} {diff : RulesetDiff}
    (hok : verify rs = .ok ()) (hdiff : diff.Documented live (desiredNetctlRuleset rs))
    (hfollows : Keyed.Follows Rule.id Rule.SameEffect live diff.plan live') : HasLive live' rs :=
  (hfollows.holds hdiff (nodup_ids_desiredNetctlRuleset hok)).of_mem_iff (mem_rules_desiredNetctlRuleset rs)

theorem len_eq_zero_iff (diff : RulesetDiff) : diff.len = 0 ↔ diff.plan = ⟨[], [], []⟩ := by
  simp [RulesetDiff.len, RulesetDiff.plan, and_assoc]

theorem len_eq_zero_iff_hasLive {rs : Ruleset} {live : RuleId → Option Rule} {diff : RulesetDiff}
    (hdiff : diff.Documented live (desiredNetctlRuleset rs)) : diff.len = 0 ↔ HasLive live rs := by
  rw [len_eq_zero_iff, hdiff.eq_empty_iff]
  exact ⟨fun h => h.of_mem_iff (mem_rules_desiredNetctlRuleset rs),
    fun h => h.of_mem_iff (fun r => (mem_rules_desiredNetctlRuleset rs r).symm)⟩

/-! ## What is asked of netctl -/

def Call.appliedDiff : Call → Option RulesetDiff
  | .apply diff (.ok _) => some diff
  | _ => none

def ApplyRecord.appliedDiff (record : ApplyRecord) : Option RulesetDiff := record.calls.findSome? Call.appliedDiff

/-- Netctl over a history, newest first, `live` telling the rules that are live after each part of it: the diffs it
computes are the documented ones, an apply that succeeds does what its diff lists, and nothing else, a failing apply
included, changes what is live. -/
structure NetctlFollows (live : List ApplyRecord → RuleId → Option Rule) (history : List ApplyRecord) : Prop where
  computes : ∀ record older desired diff, record :: older <:+ history → .computeDiff desired (.ok diff) ∈ record.calls →
    diff.Documented (live older) desired
  applies : ∀ record older diff, record :: older <:+ history → record.appliedDiff = some diff →
    Keyed.Follows Rule.id Rule.SameEffect (live older) diff.plan (live (record :: older))
  keeps : ∀ record older, record :: older <:+ history → record.appliedDiff = none → live (record :: older) = live older

theorem NetctlFollows.tail {live : List ApplyRecord → RuleId → Option Rule} {record : ApplyRecord}
    {older : List ApplyRecord} (h : NetctlFollows live (record :: older)) : NetctlFollows live older where
  computes r l desired diff hsuf := h.computes r l desired diff (hsuf.trans (List.suffix_cons record older))
  applies r l diff hsuf := h.applies r l diff (hsuf.trans (List.suffix_cons record older))
  keeps r l hsuf := h.keeps r l (hsuf.trans (List.suffix_cons record older))

/-- The record of an apply whose three backend calls succeed. -/
def appliedRecord (rs : Ruleset) (diff : RulesetDiff) : ApplyRecord :=
  ⟨rs, [.computeDiff (desiredNetctlRuleset rs) (.ok diff), .validate diff (.ok ()), .apply diff (.ok ())]⟩

theorem computeDiff_mem_appliedRecord {rs desired : Ruleset} {diff diff' : RulesetDiff}
    (h : .computeDiff desired (.ok diff') ∈ (appliedRecord rs diff).calls) :
    desired = desiredNetctlRuleset rs ∧ diff' = diff := by
  simpa [appliedRecord] using h

theorem appliedDiff_eq_none_iff {record : ApplyRecord} : record.appliedDiff = none ↔ record.succeeded = false := by
  rw [ApplyRecord.appliedDiff, ApplyRecord.succeeded, List.findSome?_eq_none_iff, List.any_eq_false]
  refine forall₂_congr (fun call _ => ?_)
  unfold Call.appliedDiff Call.applied
  split <;> simp

/-- The diff of a gated record that was applied was computed for its ruleset. -/
theorem ApplyRecord.Gated.computed_of_applied {record : ApplyRecord} (h : record.Gated) {diff : RulesetDiff}
    (happlied : record.appliedDiff = some diff) :
    .computeDiff (desiredNetctlRuleset record.ruleset) (.ok diff) ∈ record.calls := by
  obtain ⟨call, hcall, heq⟩ := List.exists_of_findSome?_eq_some happlied
  have hdiff : call.diff = some diff := by
    unfold Call.appliedDiff at heq
    split at heq
    · exact heq
    · cases heq
  exact (h.computed call hcall diff hdiff).subset List.mem_cons_self

/-- **After any history of gated records the ruleset applied last is live.** -/
theorem NetctlFollows.hasLive {live : List ApplyRecord → RuleId → Option Rule} {rs : Ruleset} :
    ∀ {history : List ApplyRecord}, NetctlFollows live history → (∀ record ∈ history, record.Gated) →
      lastApplied history = some rs → HasLive (live history) rs
  | [], _, _, h => by cases h
  | record :: older, hnet, hgated, h => by
    cases happlied : record.appliedDiff with
    | none =>
      have hfailed := appliedDiff_eq_none_iff.1 happlied
      have hlast : lastApplied older = some rs := by
        have hone : ∀ r ∈ [record], r.succeeded = false := List.forall_mem_singleton.2 hfailed
        rw [← h]
        exact (lastApplied_append hone).symm
      rw [hnet.keeps record older List.suffix_rfl happlied]
      exact hnet.tail.hasLive (fun r hr => hgated r (List.mem_cons_of_mem _ hr)) hlast
    | some diff =>
      have hg := hgated record List.mem_cons_self
      have hs : record.succeeded = true := by
        by_contra hs
        rw [appliedDiff_eq_none_iff.2 (by simpa using hs)] at happlied
        cases happlied
      obtain rfl : record.ruleset = rs := by simpa [lastApplied, hs] using h
      exact hasLive_of_follows hg.accepted
        (hnet.computes record older _ diff List.suffix_rfl (hg.computed_of_applied happlied))
        (hnet.applies record older diff List.suffix_rfl happlied)

variable {fromStr : String → Except String FileConfig}

theorem Session.Inv.lastApplied_of_stored {s : Session} (hinv : s.Inv) {rs : Ruleset} (hrs : s.stored.1 = some rs) :
    lastApplied s.history = some rs := by
  rcases hinv.storedLast with ⟨hnone, -⟩ | ⟨rs', o, hrs', -, -, hlast, -⟩
  · rw [hrs] at hnone
    cases hnone
  · rw [hrs] at hrs'
    exact Option.some.inj hrs' ▸ hlast

/-- **The live rules are those of the stored ruleset**, over any sequence of operations. -/
theorem live_has_stored {ops : List (Env × Op)} {s : Session} {live : List ApplyRecord → RuleId → Option Rule}
    (h : exec (Session.step fromStr) {} ops = some s) (hnet : NetctlFollows live s.history) :
    ∀ rs, s.stored.1 = some rs → HasLive (live s.history) rs := by
  intro rs hrs
  have hinv := session_inv h
  exact hnet.hasLive hinv.gated (hinv.lastApplied_of_stored hrs)

/-! A netctl that follows its diffs, for the runs below. -/

/-- The rules live on a table that is patched, `boot` being live at first. -/
def patchedLive (boot : RuleId → Option Rule) : List ApplyRecord → RuleId → Option Rule
  | [] => boot
  | record :: older =>
    match record.appliedDiff with
    | some diff => Keyed.patch Rule.id (patchedLive boot older) diff.plan
    | none => patchedLive boot older

theorem netctlFollows_nil (live : List ApplyRecord → RuleId → Option Rule) : NetctlFollows live [] where
  computes _ _ _ _ hsuf := by cases List.suffix_nil.1 hsuf
  applies _ _ _ hsuf := by cases List.suffix_nil.1 hsuf
  keeps _ _ hsuf := by cases List.suffix_nil.1 hsuf

/-- One more apply of a documented diff. -/
theorem netctlFollows_patchedLive {boot : RuleId → Option Rule} {history : List ApplyRecord} {rs : Ruleset}
    {diff : RulesetDiff} (h : NetctlFollows (patchedLive boot) history) (hok : verify rs = .ok ())
    (hdiff : diff.Documented (patchedLive boot history) (desiredNetctlRuleset rs)) :
    NetctlFollows (patchedLive boot) (appliedRecord rs diff :: history) where
  computes record older desired diff' hsuf hmem := by
    rcases List.suffix_cons_iff.1 hsuf with heq | hsuf
    · obtain ⟨rfl, rfl⟩ := List.cons.inj heq
      obtain ⟨rfl, rfl⟩ := computeDiff_mem_appliedRecord hmem
      exact hdiff
    · exact h.computes record older desired diff' hsuf hmem
  applies record older diff' hsuf happlied := by
    rcases List.suffix_cons_iff.1 hsuf with heq | hsuf
    · obtain ⟨rfl, rfl⟩ := List.cons.inj heq
      obtain rfl : diff = diff' := Option.some.inj happlied
      exact Keyed.follows_patch (nodup_ids_desiredNetctlRuleset hok) Rule.SameEffect.refl hdiff
    · exact h.applies record older diff' hsuf happlied
  keeps record older hsuf hnone := by
    rcases List.suffix_cons_iff.1 hsuf with heq | hsuf
    · obtain ⟨rfl, rfl⟩ := List.cons.inj heq
      cases hnone
    · exact h.keeps record older hsuf hnone

def staleRule : Rule := { id := ⟨9⟩, priority := 5, matcher := { protocol := .udp }, action := .drop }

/-- The backend of a dataplane on which the rules `live` are live. -/
def tableBackend (live : List Rule) : Backend where
  computeDiff desired :=
    let plan := Keyed.planOf Rule.id Rule.SameEffect live desired.rules
    .ok ⟨plan.add, plan.update, plan.remove⟩
  validate _ := .ok ()
  apply _ := .ok ()

def startupOnStale : Env × Op :=
  ({ sampleEnv 1 (.ok ()) with backend := tableBackend [staleRule] }, .startup "fw.toml" "127.0.0.1:9753" 2)

def diffFromStale : RulesetDiff := { add := sshOnly.rules, remove := [⟨9⟩] }

/-- The dataplane the daemon starts on holds `staleRule`. -/
def liveOnStale : List ApplyRecord → RuleId → Option Rule := patchedLive (Keyed.tableOf Rule.id [staleRule])

theorem netctlFollows_startupOnStale : NetctlFollows liveOnStale [appliedRecord sshOnly diffFromStale] :=
  netctlFollows_patchedLive (netctlFollows_nil _) (by decide)
    (Keyed.plans_planOf Rule.id Rule.SameEffect [staleRule] sshOnly.rules)

theorem hasLive_startupOnStale : HasLive (liveOnStale [appliedRecord sshOnly diffFromStale]) sshOnly :=
  hasLive_of_follows (by decide)
    (netctlFollows_startupOnStale.computes _ [] _ diffFromStale List.suffix_rfl List.mem_cons_self)
    (netctlFollows_startupOnStale.applies _ [] diffFromStale List.suffix_rfl rfl)

/-- `ssh` moved to a later priority, and a rule more. -/
def sshAndWeb : Ruleset := .new [{
  name := "input"
  rules := [
    { id := ⟨1⟩, priority := 20, matcher := { protocol := .tcp, dstPort := .single 22 }, action := .accept },
    { id := ⟨2⟩, priority := 30, matcher := { protocol := .tcp, dstPort := .single 443 }, action := .accept }]
  defaultPolicy := .drop }]

def decodeSsh (_ : String) : Except String FileConfig := .ok ⟨sshOnly⟩

def decodeWeb (text : String) : Except String FileConfig :=
  if text = "web.toml" then .ok ⟨sshAndWeb⟩ else .ok ⟨sshOnly⟩

def applyWeb : Env × Op :=
  ({ sampleEnv 2 (.ok ()) with backend := tableBackend sshOnly.rules }, .request (.ok (.apply "web.toml")))

/-- One rule live with another priority, and one that is not live. -/
def diffToWeb : RulesetDiff := { add := sshAndWeb.rules.drop 1, update := sshAndWeb.rules.take 1 }

theorem netctlFollows_applyWeb :
    NetctlFollows liveOnStale [appliedRecord sshAndWeb diffToWeb, appliedRecord sshOnly diffFromStale] := by
  refine netctlFollows_patchedLive netctlFollows_startupOnStale (by decide) ?_
  have hplan : Plans Rule.id Rule.SameEffect (Keyed.tableOf Rule.id sshOnly.rules) sshAndWeb.rules diffToWeb.plan :=
    Keyed.plans_planOf Rule.id Rule.SameEffect sshOnly.rules sshAndWeb.rules
  exact hplan.of_holds hasLive_startupOnStale Rule.sameEffect_equivalence (by decide)

theorem ran_applyWeb : ∃ s : Session, exec (Session.step decodeWeb) {} [startupOnStale, applyWeb] = some s ∧
    s.stored.1 = some sshAndWeb ∧ s.history = [appliedRecord sshAndWeb diffToWeb, appliedRecord sshOnly diffFromStale] := by
  have hrun : (exec (Session.step decodeWeb) {} [startupOnStale, applyWeb]).map (fun s => (s.stored.1, s.history)) =
      some (some sshAndWeb, [appliedRecord sshAndWeb diffToWeb, appliedRecord sshOnly diffFromStale]) := by rfl
  obtain ⟨s, hs, heq⟩ := Option.map_eq_some_iff.1 hrun
  exact ⟨s, hs, Prod.mk.inj heq⟩

theorem live_has_stored_applyWeb : ∃ s : Session,
    exec (Session.step decodeWeb) {} [startupOnStale, applyWeb] = some s ∧ HasLive (liveOnStale s.history) sshAndWeb := by
  obtain ⟨s, hs, hstored, hhist⟩ := ran_applyWeb
  exact ⟨s, hs, live_has_stored hs (hhist ▸ netctlFollows_applyWeb) sshAndWeb hstored⟩

/-! ## Planned changes -/

theorem applyFile_eq_ok {env : Env} {state : DaemonState} {path : String} {o : ApplyOutcome}
    (h : (applyFile fromStr env state path).1 = .ok o) :
    ∃ rs diff, loadRuleset fromStr path (env.files path) = .ok rs ∧ o = applyOutcome rs diff ∧
      applyFile fromStr env state path =
        (.ok o, { state with rules := some rs, lastApply := some o }, [appliedRecord rs diff]) := by
  unfold applyFile at h ⊢
  cases hl : loadRuleset fromStr path (env.files path) with
  | error e =>
    rw [hl] at h
    cases h
  | ok rs =>
    rw [hl] at h
    simp only at h ⊢
    rcases apply_cases state env.backend rs with ⟨e, ha⟩ | ⟨diff, e, ha⟩ | ⟨diff, e, ha⟩ | ⟨diff, ha⟩ <;>
      rw [ha] at h ⊢ <;> cases h
    exact ⟨rs, diff, rfl, rfl, rfl⟩

/-- What an operation reports of the apply it made. -/
def Outcome.applied : Outcome → Option ApplyOutcome
  | .response r => r.applied
  | .polled (.applied o) => some o
  | _ => none

theorem applyResponse_applied {result : Except String ApplyOutcome} {o : ApplyOutcome}
    (h : (applyResponse result).applied = some o) : result = .ok o := by
  cases result with
  | error e => cases h
  | ok o' => exact congrArg Except.ok (Option.some.inj h)

theorem handleClient_applied {env : Env} {state : DaemonState} {line : Except String Request} {o : ApplyOutcome}
    (h : (handleClient fromStr env state line).1.applied = some o) :
    ∃ rs diff, verify rs = .ok () ∧ o = applyOutcome rs diff ∧ (handleClient fromStr env state line).2 =
      ({ state with rules := some rs, lastApply := some o }, [appliedRecord rs diff]) := by
  cases line with
  | error e => cases h
  | ok req =>
    cases req with
    | validate path =>
      simp only [handleClient, dispatch] at h
      split at h <;> cases h
    | apply path =>
      obtain ⟨rs, diff, hload, ho, heq⟩ := applyFile_eq_ok (applyResponse_applied h)
      exact ⟨rs, diff, verify_of_loadRuleset fromStr hload, ho, by simp [handleClient, dispatch, heq]⟩
    | reload =>
      obtain ⟨rs, diff, hload, ho, heq⟩ := applyFile_eq_ok (applyResponse_applied h)
      exact ⟨rs, diff, verify_of_loadRuleset fromStr hload, ho, by simp [handleClient, dispatch, heq]⟩
    | status => cases h

theorem watchPoll_applied {env : Env} {state : DaemonState} {lastMtime : Option Nat} {o : ApplyOutcome}
    (h : (watchPoll fromStr env state lastMtime).2.1 = .applied o) :
    ∃ rs diff, verify rs = .ok () ∧ o = applyOutcome rs diff ∧ (watchPoll fromStr env state lastMtime).2.2 =
      ({ state with rules := some rs, lastApply := some o }, [appliedRecord rs diff]) := by
  unfold watchPoll at h ⊢
  by_cases hnone : env.mtime = none
  · rw [if_pos hnone] at h
    cases h
  · by_cases hsame : env.mtime = lastMtime
    · rw [if_neg hnone, if_pos hsame] at h
      cases h
    · rw [if_neg hnone, if_neg hsame] at h ⊢
      cases hr : (applyFile fromStr env state state.configPath).1 with
      | error e =>
        rw [← Prod.mk.eta (p := applyFile fromStr env state state.configPath), hr] at h
        cases h
      | ok o' =>
        obtain ⟨rs, diff, hload, ho, heq⟩ := applyFile_eq_ok hr
        rw [heq] at h ⊢
        cases h
        exact ⟨rs, diff, verify_of_loadRuleset fromStr hload, ho, rfl⟩

/-- **An operation that reports an apply** made that apply, and stored it. -/
theorem perform_applied {s s' : Session} {env : Env} {op : Op} {outcome : Outcome} {o : ApplyOutcome}
    (h : s.perform fromStr env op = some (s', outcome)) (ho : outcome.applied = some o) :
    ∃ rs diff, verify rs = .ok () ∧ o = applyOutcome rs diff ∧ s'.stored = (some rs, some o) ∧
      s'.history = appliedRecord rs diff :: s.history := by
  cases op with
  | startup configPath controlAddr pollSecs =>
    simp only [Session.perform] at h
    split at h
    · cases h
    · split at h <;> cases h <;> cases ho
  | request line =>
    cases hd : s.daemon with
    | none => simp [Session.perform, hd] at h
    | some d =>
      simp only [Session.perform, hd, Option.some.injEq, Prod.mk.injEq] at h
      obtain ⟨rfl, rfl⟩ := h
      obtain ⟨rs, diff, hok, hout, heq⟩ := handleClient_applied ho
      exact ⟨rs, diff, hok, hout, by simp [Session.stored, heq], by simp [heq]⟩
  | poll =>
    cases hd : s.daemon with
    | none => simp [Session.perform, hd] at h
    | some d =>
      cases hw : d.watch with
      | none => simp [Session.perform, hd, hw] at h
      | some lastMtime =>
        simp only [Session.perform, hd, hw, Option.some.injEq, Prod.mk.injEq] at h
        obtain ⟨rfl, rfl⟩ := h
        have hresult : (watchPoll fromStr env d.state lastMtime).2.1 = .applied o := by
          cases hr : (watchPoll fromStr env d.state lastMtime).2.1 <;> rw [hr] at ho <;> cases ho
          rfl
        obtain ⟨rs, diff, hok, hout, heq⟩ := watchPoll_applied hresult
        exact ⟨rs, diff, hok, hout, by simp [Session.stored, heq], by simp [heq]⟩

end Portcullis
