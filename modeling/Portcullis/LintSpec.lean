import Portcullis.Lint
import Portcullis.Lib.TieScan
/-!
# LintSpec — what each lint pass reports

One lemma a pass: the dead rules reported are the ones some earlier rule kills (`deadFrom_eq_map`), the collisions
reported are the overlaps of a rule with the first of its priority (`mem_collisions_iff`), and `verify` accepts when
none of the kinds of finding is there (`verify_eq_ok_iff_clean`, with one chain in declaration order in
`lintChain_eq_nil_iff`).  Each pass reports kinds of its own (`filter_kind_lintIssues`).
-/
namespace Portcullis

open SortBy
open FirstBefore
open Repeats (repeats)
open List

/-! ## Evaluation order -/

theorem evalOrder_perm (l : List Rule) : evalOrder l ~ l := sortByKey_perm _ l

@[simp] theorem mem_evalOrder {r : Rule} {l : List Rule} : r ∈ evalOrder l ↔ r ∈ l := mem_sortByKey _

theorem pairwise_evalOrder (l : List Rule) : (evalOrder l).Pairwise (fun a b => a.priority ≤ b.priority) :=
  (pairwise_sortByKey (fun r : Rule => r.priority.toNat) l).imp UInt32.le_iff_toNat_le.2

theorem filter_evalOrder (p : Rule → Bool) (l : List Rule) : (evalOrder l).filter p = evalOrder (l.filter p) :=
  filter_sortByKey _ p l

theorem pair_sublist_evalOrder_iff {a b : Rule} {l : List Rule} :
    [a, b] <+ evalOrder l ↔ (a ∈ l ∧ b ∈ l ∧ a.priority < b.priority) ∨ (a.priority = b.priority ∧ [a, b] <+ l) := by
  rw [evalOrder, pair_sublist_sortByKey_iff, UInt32.lt_iff_toNat_lt, UInt32.toNat_inj]

theorem find?_evalOrder (q : UInt32) (l : List Rule) :
    (evalOrder l).find? (fun r => decide (r.priority = q)) = l.find? (fun r => decide (r.priority = q)) := by
  have h := find?_key_sortByKey (fun r : Rule => r.priority.toNat) q.toNat l
  simpa only [evalOrder, UInt32.toNat_inj] using h

/-! ## Dead rules -/

theorem kills_iff {e r : Rule} :
    kills e r = true ↔ e.action.isTerminal = true ∧ e.matcher.isSupersetOf r.matcher = true := by
  simp [kills]

theorem deadFrom_eq_map (chain : String) : ∀ l earlier : List Rule,
    deadFrom chain earlier l = (firstBefore kills earlier l).map (fun er => deadIssue chain er.1 er.2)
  | [], _ => rfl
  | r :: l, earlier => by
    rw [deadFrom, firstBefore_cons, deadFrom_eq_map chain l]
    cases earlier.find? (fun e => kills e r) <;> rfl

theorem deadFrom_eq_nil_iff {chain : String} {l : List Rule} :
    deadFrom chain [] l = [] ↔ ∀ e r, [e, r] <+ l → ¬ kills e r = true := by
  rw [deadFrom_eq_map, List.map_eq_nil_iff, firstBefore_eq_nil_iff]

/-! ## Collisions -/

theorem collides_iff {a b : Rule} : collides a b = true ↔ a.id ≠ b.id ∧ a.matcher.overlaps b.matcher = true := by
  simp [collides]

/-- `x` is the first of its priority and `y` a later one: the pairs the scan looks at. -/
def Scanned (l : List Rule) (x y : Rule) : Prop :=
  l.find? (fun r => decide (r.priority = y.priority)) = some x ∧ [x, y] <+ l

theorem scanned_iff {l : List Rule} {x y : Rule} :
    TieScan.Scanned (fun r : Rule => r.priority.toNat) l x y ↔ Scanned l x y := by
  simp only [TieScan.Scanned, Scanned, UInt32.toNat_inj]

/-- **The collision loops are the scan of the ties.** -/
theorem collisionsFrom_eq_map (chain : String) : ∀ (l : List Rule) (a : Rule), collisionsFrom chain a l =
    (TieScan.scanFrom (fun r : Rule => r.priority.toNat) collides a l).map (fun xy => collisionIssue chain xy.1 xy.2)
  | [], _ => rfl
  | b :: l, a => by
    rw [collisionsFrom, TieScan.scanFrom, collisionsFrom_eq_map chain l a, collisionsFrom_eq_map chain l b]
    simp only [UInt32.toNat_inj]
    split
    · split <;> rfl
    · rfl

theorem collisions_eq_map (chain : String) (l : List Rule) : collisions chain l =
    (TieScan.scan (fun r : Rule => r.priority.toNat) collides l).map (fun xy => collisionIssue chain xy.1 xy.2) := by
  cases l with
  | nil => rfl
  | cons a l => exact collisionsFrom_eq_map chain l a

/-- **The collisions reported, on a sorted list**: a rule with the first of its priority, never two later ones. -/
theorem mem_collisions_iff {chain : String} {i : LintIssue} {l : List Rule}
    (hs : l.Pairwise (fun a b => a.priority ≤ b.priority)) :
    i ∈ collisions chain l ↔ ∃ x y, Scanned l x y ∧ collides x y = true ∧ i = collisionIssue chain x y := by
  have hs' : l.Pairwise (fun a b => a.priority.toNat ≤ b.priority.toNat) := hs.imp UInt32.le_iff_toNat_le.1
  rw [collisions_eq_map, List.mem_map]
  simp only [Prod.exists, TieScan.mem_scan_iff collides hs', scanned_iff]
  constructor
  · rintro ⟨x, y, ⟨hxy, hc⟩, rfl⟩
    exact ⟨x, y, hxy, hc, rfl⟩
  · rintro ⟨x, y, hxy, hc, rfl⟩
    exact ⟨x, y, ⟨hxy, hc⟩, rfl⟩

theorem collisions_eq_nil_iff {chain : String} {l : List Rule}
    (hs : l.Pairwise (fun a b => a.priority ≤ b.priority)) :
    collisions chain l = [] ↔ ∀ x y, Scanned l x y → ¬ collides x y = true := by
  rw [List.eq_nil_iff_forall_not_mem]
  constructor
  · intro h x y hxy hc
    exact h _ ((mem_collisions_iff hs).2 ⟨x, y, hxy, hc, rfl⟩)
  · intro h i hi
    obtain ⟨x, y, hxy, hc, -⟩ := (mem_collisions_iff hs).1 hi
    exact h x y hxy hc

/-! ## Kinds -/

theorem filter_kind {q : LintKind → Bool} {k : LintKind} {l : List LintIssue} (h : ∀ i ∈ l, i.kind = k) :
    l.filter (fun i => q i.kind) = if q k then l else [] := by
  by_cases hk : q k
  · rw [if_pos hk]
    exact List.filter_eq_self.2 (fun i hi => by rw [h i hi]; exact hk)
  · rw [if_neg hk]
    exact List.filter_eq_nil_iff.2 (fun i hi => by rw [h i hi]; exact hk)

theorem deadIssue_kind (chain : String) (e r : Rule) :
    (deadIssue chain e r).kind = if e.matcher = r.matcher then .shadowed else .unreachable := by
  by_cases h : e.matcher = r.matcher <;>
    simp [deadIssue, LintIssue.new, LintIssue.inChain, LintIssue.primary, LintIssue.secondary, h]

theorem kind_of_mem_collisions {chain : String} {l : List Rule} :
    ∀ i ∈ collisions chain l, i.kind = .priorityCollision := by
  intro i hi
  rw [collisions_eq_map] at hi
  obtain ⟨xy, -, rfl⟩ := List.mem_map.1 hi
  rfl

/-- The findings of a chain that are not collisions are those of the second walk. -/
theorem filter_kind_lintChain {q : LintKind → Bool} (hq : q .priorityCollision = false) (c : Chain) :
    (lintChain c).filter (fun i => q i.kind) =
      (deadFrom c.name [] (evalOrder c.rules)).filter (fun i => q i.kind) := by
  simp only [lintChain, List.filter_append, filter_kind kind_of_mem_collisions, hq, Bool.false_eq_true, if_false,
    List.nil_append]

/-- **Each pass reports kinds of its own.** -/
theorem filter_kind_lintIssues (q : LintKind → Bool) (rs : Ruleset) :
    (lintIssues rs).filter (fun i => q i.kind) =
      (if q .unsupportedVersion then versionIssues rs else []) ++
      (if q .duplicateChain then (repeats [] (rs.chains.map Chain.name)).map duplicateChainIssue else []) ++
      (if q .duplicateRuleId then
        (repeats [] (rs.iterRules.map (fun cr => cr.2.id))).map duplicateRuleIdIssue else []) ++
      rs.chains.flatMap (fun c => (lintChain c).filter (fun i => q i.kind)) := by
  have hversion : ∀ i ∈ versionIssues rs, i.kind = .unsupportedVersion := by
    unfold versionIssues
    split <;> simp [LintIssue.new]
  have hchain (l : List String) : ∀ i ∈ l.map duplicateChainIssue, i.kind = .duplicateChain := by
    intro i hi
    obtain ⟨n, -, rfl⟩ := List.mem_map.1 hi
    rfl
  have hid (l : List RuleId) : ∀ i ∈ l.map duplicateRuleIdIssue, i.kind = .duplicateRuleId := by
    intro i hi
    obtain ⟨n, -, rfl⟩ := List.mem_map.1 hi
    rfl
  simp only [lintIssues, List.filter_append, filter_kind hversion, filter_kind (hchain _), filter_kind (hid _),
    List.filter_flatMap]

/-! ## Acceptance -/

/-- Sorting changes no scanned pair: the first of a priority is the first declared one. -/
theorem scanned_evalOrder_iff {l : List Rule} {x y : Rule} : Scanned (evalOrder l) x y ↔ Scanned l x y := by
  unfold Scanned
  rw [find?_evalOrder, pair_sublist_evalOrder_iff]
  refine and_congr_right (fun hx => ?_)
  have heq : x.priority = y.priority := by simpa using List.find?_some hx
  simp [heq, UInt32.lt_irrefl]

/-- **A chain without findings**, in declaration order. -/
theorem lintChain_eq_nil_iff (c : Chain) : lintChain c = [] ↔
    (∀ e ∈ c.rules, ∀ r ∈ c.rules, e.priority < r.priority → ¬ kills e r = true) ∧
    (∀ e r, e.priority = r.priority → [e, r] <+ c.rules → ¬ kills e r = true) ∧
    (∀ x y, c.rules.find? (fun r => decide (r.priority = y.priority)) = some x → [x, y] <+ c.rules →
      ¬ collides x y = true) := by
  simp only [lintChain, List.append_eq_nil_iff, deadFrom_eq_nil_iff, collisions_eq_nil_iff (pairwise_evalOrder c.rules),
    scanned_evalOrder_iff, pair_sublist_evalOrder_iff]
  constructor
  · rintro ⟨hcol, hdead⟩
    exact ⟨fun e he r hr hlt => hdead e r (Or.inl ⟨he, hr, hlt⟩), fun e r heq h => hdead e r (Or.inr ⟨heq, h⟩),
      fun x y hx h => hcol x y ⟨hx, h⟩⟩
  · rintro ⟨hlow, htie, hcol⟩
    refine ⟨fun x y h => hcol x y h.1 h.2, fun e r h => ?_⟩
    rcases h with ⟨he, hr, hlt⟩ | ⟨heq, h⟩
    · exact hlow e he r hr hlt
    · exact htie e r heq h

theorem iterRules_ids (rs : Ruleset) :
    rs.iterRules.map (fun cr => cr.2.id) = rs.chains.flatMap (fun c => c.rules.map Rule.id) := by
  simp [Ruleset.iterRules, List.map_flatMap, Function.comp_def]

/-- **What `verify` accepts.** -/
theorem verify_eq_ok_iff_clean (rs : Ruleset) : verify rs = .ok () ↔
    rs.version ≤ schemaVersion ∧ (rs.chains.map Chain.name).Nodup ∧
    (rs.chains.flatMap (fun c => c.rules.map Rule.id)).Nodup ∧ ∀ c ∈ rs.chains, lintChain c = [] := by
  have hversion : versionIssues rs = [] ↔ rs.version ≤ schemaVersion := by
    unfold versionIssues
    split
    · rename_i h
      simpa using h
    · rename_i h
      simpa using h
  rw [verify_eq_ok_iff, lintIssues]
  simp only [List.append_eq_nil_iff, List.map_eq_nil_iff, Repeats.repeats_eq_nil_iff, List.flatMap_eq_nil_iff,
    hversion, iterRules_ids, and_assoc]

theorem nodup_ids_of_verify {rs : Ruleset} (h : verify rs = .ok ()) {c : Chain} (hc : c ∈ rs.chains) :
    (c.rules.map Rule.id).Nodup :=
  (List.nodup_flatMap.1 ((verify_eq_ok_iff_clean rs).1 h).2.2.1).1 c hc

end Portcullis
