import Portcullis.LintSpec
import Portcullis.Packet
import Portcullis.Lib.Walk
/-!
# DeadRules — acting on the dead rules of a chain

A chain fires its matching rules in evaluation order up to the first terminal one (`fired`).  Deleting at once what the
lint pass reports as unreachable or shadowed changes no firing exactly when the reports that rest on an overreaching
arm of `isSupersetOf` are covered all the same (`deadReportsSound_iff`): the reports that rest on containment are sound
however many of the rules they name are deleted too.
-/
namespace Portcullis

open SortBy
open FirstBefore
open List

/-- The rules that fire on a packet when `rules` is walked in order: every rule that matches, up to and including the
first terminal one. -/
def fired (p : Packet) (rules : List Rule) : List Rule :=
  Walk.fire (fun r => r.matcher.matchesPacket p) (fun r => r.action.isTerminal) rules

def Chain.fires (c : Chain) (p : Packet) : List Rule := fired p (evalOrder c.rules)

def LintIssue.isDead (i : LintIssue) : Bool := i.kind == .unreachable || i.kind == .shadowed

theorem isDead_of_mem_deadFrom {chain : String} {earlier l : List Rule} {i : LintIssue}
    (h : i ∈ deadFrom chain earlier l) : i.isDead = true := by
  rw [deadFrom_eq_map] at h
  obtain ⟨er, -, rfl⟩ := List.mem_map.1 h
  rw [LintIssue.isDead, deadIssue_kind]
  split <;> rfl

theorem filter_isDead_lintChain (c : Chain) :
    (lintChain c).filter LintIssue.isDead = deadFrom c.name [] (evalOrder c.rules) := by
  have h := filter_kind_lintChain (q := fun k => k == .unreachable || k == .shadowed) rfl c
  exact h.trans (List.filter_eq_self.2 (fun i hi => isDead_of_mem_deadFrom hi))

theorem filter_isDead_verify (rs : Ruleset) :
    (issuesOf (verify rs)).filter LintIssue.isDead = rs.chains.flatMap (fun c => (lintChain c).filter LintIssue.isDead) := by
  rw [issuesOf_verify]
  exact filter_kind_lintIssues (fun k => k == .unreachable || k == .shadowed) rs

def Chain.reportedDead (c : Chain) : List RuleId := ((lintChain c).filter LintIssue.isDead).filterMap LintIssue.rule

def Chain.dropReported (c : Chain) : Chain :=
  { c with rules := c.rules.filter (fun r => decide (r.id ∉ c.reportedDead)) }

theorem mem_reportedDead_iff {c : Chain} {id : RuleId} :
    id ∈ c.reportedDead ↔ ∃ e r, [e, r] <+ evalOrder c.rules ∧ kills e r = true ∧ r.id = id := by
  have hids : c.reportedDead = ((firstBefore kills [] (evalOrder c.rules)).map Prod.snd).map Rule.id := by
    rw [Chain.reportedDead, filter_isDead_lintChain, deadFrom_eq_map, List.filterMap_map, List.map_map]
    exact congrFun List.filterMap_eq_map _
  rw [hids, List.mem_map]
  simp only [mem_map_snd_firstBefore_iff]
  constructor
  · rintro ⟨r, ⟨e, h⟩, rfl⟩
    exact ⟨e, r, h.1, h.2, rfl⟩
  · rintro ⟨e, r, hsub, hk, rfl⟩
    exact ⟨r, ⟨e, hsub, hk⟩, rfl⟩

theorem nodup_of_ids {l : List Rule} (h : (l.map Rule.id).Nodup) : l.Nodup := h.of_map _

theorem eq_of_ids {l : List Rule} (h : (l.map Rule.id).Nodup) {a b : Rule} (ha : a ∈ l) (hb : b ∈ l)
    (hid : a.id = b.id) : a = b :=
  List.inj_on_of_nodup_map h ha hb hid

/-- **What fires**: a matching rule with no matching terminal rule before it. -/
theorem mem_fires_iff {c : Chain} (hid : (c.rules.map Rule.id).Nodup) {p : Packet} {r : Rule} :
    r ∈ c.fires p ↔ r ∈ c.rules ∧ r.matcher.matchesPacket p = true ∧
      ∀ t, [t, r] <+ evalOrder c.rules → t.action.isTerminal = true → ¬ t.matcher.matchesPacket p = true := by
  have hnd : (evalOrder c.rules).Nodup := (evalOrder_perm c.rules).nodup_iff.2 (nodup_of_ids hid)
  rw [Chain.fires, fired, Walk.mem_fire_iff _ _ hnd, mem_evalOrder]

/-- The reports can be acted on: deleting every reported rule changes no firing, and none of them ever fires. -/
def DeadReportsSound (c : Chain) : Prop :=
  ∀ p, c.dropReported.fires p = c.fires p ∧ ∀ r ∈ c.rules, r.id ∈ c.reportedDead → r ∉ c.fires p

/-- Wherever an earlier terminal rule claims a later one through an overreaching arm, the terminal rules before the
later one match all of its packets between them. -/
def OverreachesCovered (c : Chain) : Prop :=
  ∀ e r, [e, r] <+ evalOrder c.rules → kills e r = true → e.matcher.overreaches r.matcher = true →
    ∀ p, r.matcher.matchesPacket p = true →
      ∃ t, [t, r] <+ evalOrder c.rules ∧ t.action.isTerminal = true ∧ t.matcher.matchesPacket p = true

/-- **A covered report names a rule that never fires.** -/
theorem not_mem_fires_of_reportedDead {c : Chain} (hid : (c.rules.map Rule.id).Nodup) (hcov : OverreachesCovered c)
    (p : Packet) {r : Rule} (hr : r ∈ c.rules) (hdead : r.id ∈ c.reportedDead) : r ∉ c.fires p := by
  obtain ⟨e, r', hsub, hk, hrr⟩ := mem_reportedDead_iff.1 hdead
  obtain rfl := eq_of_ids hid (mem_evalOrder.1 (mem_of_pair_sublist hsub).2) hr hrr
  rw [mem_fires_iff hid]
  rintro ⟨-, hp, hfree⟩
  obtain ⟨ht, hsup⟩ := kills_iff.1 hk
  cases ho : e.matcher.overreaches r'.matcher with
  | false => exact hfree e hsub ht (Matcher.isSupersetOf_sound hsup ho hp)
  | true =>
    obtain ⟨t, htsub, htt, htp⟩ := hcov e r' hsub hk ho p hp
    exact hfree t htsub htt htp

/-- **Dead-rule reports can be acted on in one batch exactly when the overreaching ones are covered.** -/
theorem deadReportsSound_iff (c : Chain) (hid : (c.rules.map Rule.id).Nodup) :
    DeadReportsSound c ↔ OverreachesCovered c := by
  constructor
  · intro hsound e r hsub hk _ p hp
    have hr : r ∈ c.rules := mem_evalOrder.1 (mem_of_pair_sublist hsub).2
    have hno := (hsound p).2 r hr (mem_reportedDead_iff.2 ⟨e, r, hsub, hk, rfl⟩)
    rw [mem_fires_iff hid] at hno
    by_contra hnone
    exact hno ⟨hr, hp, fun t ht htt htp => hnone ⟨t, ht, htt, htp⟩⟩
  · intro hcov p
    refine ⟨?_, fun r hr hdead => not_mem_fires_of_reportedDead hid hcov p hr hdead⟩
    rw [Chain.fires, Chain.dropReported, ← filter_evalOrder]
    refine Walk.fire_filter _ _ (fun r hr => ?_)
    have hmem : r ∈ c.rules := mem_evalOrder.1 ((Walk.fire_sublist _ _ _).subset hr)
    simpa using fun hdead => not_mem_fires_of_reportedDead hid hcov p hmem hdead hr

def portThenRange : Chain where
  name := "input"
  rules := [
    { id := ⟨1⟩, priority := 10, matcher := { dstPort := .single 22 }, action := .accept },
    { id := ⟨2⟩, priority := 20, matcher := { dstPort := .range ⟨20, 30⟩ }, action := .drop }]
  defaultPolicy := .drop

def tcpTo (port : UInt16) : Packet := ⟨6, .v4 1, .v4 2, 1000, port, "wan0", "lan0"⟩

theorem deadReportsSound_iff_portThenRange :
    (portThenRange.rules.map Rule.id).Nodup ∧ (DeadReportsSound portThenRange ↔ OverreachesCovered portThenRange) :=
  ⟨by decide, deadReportsSound_iff portThenRange (by decide)⟩

/-- **A live rule is reported dead**: port 25 fires rule 2, which `lintChain` calls unreachable behind port 22. -/
theorem not_deadReportsSound_portThenRange :
    (portThenRange.rules.map Rule.id).Nodup ∧ ¬ DeadReportsSound portThenRange := by
  refine ⟨by decide, fun h => ?_⟩
  have hfire : portThenRange.dropReported.fires (tcpTo 25) = portThenRange.fires (tcpTo 25) := (h (tcpTo 25)).1
  exact absurd hfire (by decide)

end Portcullis
