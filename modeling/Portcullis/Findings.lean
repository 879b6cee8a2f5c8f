import Portcullis.DeadRules
/-!
# Findings — what `verify` reports, position by position

A rule is told from its copies by its position in the declaration, and positions run in the (priority, declaration)
order (`runsBefore`).  Apart from collisions, `verify` reports each thing it looks for exactly as often as it is there
(`exactFindings`); dead rules go in one batch, as no rule left is killed by a rule left.
-/
namespace Portcullis

open SortBy
open FirstBefore
open Repeats (repeats)
open List

/-- A rule and its position in the declaration of its chain. -/
abbrev Spot : Type := Rule × Nat

def runsBefore (y x : Spot) : Prop :=
  y.1.priority < x.1.priority ∨ (y.1.priority = x.1.priority ∧ y.2 < x.2)

/-- `y` is the earliest of the terminal rules that precede `x` and cover its matcher. -/
structure EarliestKiller (rules : List Rule) (y x : Spot) : Prop where
  mem : y ∈ rules.zipIdx
  before : runsBefore y x
  terminal : y.1.action.isTerminal = true
  superset : y.1.matcher.isSupersetOf x.1.matcher = true
  earliest : ∀ z ∈ rules.zipIdx, runsBefore z x → z.1.action.isTerminal = true →
    z.1.matcher.isSupersetOf x.1.matcher = true → ¬ runsBefore z y

/-- `found` lists the dead positions of a chain, once each, with their earliest killers. -/
structure DeadSpots (rules : List Rule) (found : List (Spot × Spot)) : Prop where
  once : (found.map Prod.snd).Nodup
  dead_iff : ∀ x, x ∈ found.map Prod.snd ↔
    x ∈ rules.zipIdx ∧ ∃ y ∈ rules.zipIdx, runsBefore y x ∧ y.1.action.isTerminal = true ∧
      y.1.matcher.isSupersetOf x.1.matcher = true
  killer : ∀ y x, (y, x) ∈ found → EarliestKiller rules y x

structure NamesDead (c : Chain) (y x : Spot) (i : LintIssue) : Prop where
  chain : i.chain = some c.name
  rule : i.rule = some x.1.id
  otherRule : i.otherRule = some y.1.id
  kind : i.kind = if y.1.matcher = x.1.matcher then .shadowed else .unreachable

def Chain.dropSpots (c : Chain) (dead : List Spot) : Chain :=
  { c with rules := (c.rules.zipIdx.filter (fun x => decide (x ∉ dead))).map Prod.fst }

/-- The issues of a kind each name a key, and name every key once less than it occurs. -/
structure NamesRepeats {κ : Type} [DecidableEq κ] (issues : List LintIssue) (kind : LintKind)
    (named : LintIssue → Option κ) (keys : List κ) : Prop where
  counted : ∀ key, issues.countP (fun i => i.kind == kind && named i == some key) = keys.count key - 1
  named : ∀ i ∈ issues, i.kind = kind → ∃ key, named i = some key

/-- Every finding but the collisions, as often as it is there. -/
structure ExactFindings (rs : Ruleset) (issues : List LintIssue) : Prop where
  version : issues.countP (fun i => i.kind == .unsupportedVersion) = if rs.version > schemaVersion then 1 else 0
  chainNames : NamesRepeats issues .duplicateChain LintIssue.chain (rs.chains.map Chain.name)
  ruleIds : NamesRepeats issues .duplicateRuleId LintIssue.rule (rs.iterRules.map (fun cr => cr.2.id))
  dead : ∃ found : Chain → List (Spot × Spot), (∀ c ∈ rs.chains, DeadSpots c.rules (found c)) ∧
    Forall₂ (fun cyx i => NamesDead cyx.1 cyx.2.1 cyx.2.2 i)
      (rs.chains.flatMap (fun c => (found c).map (Prod.mk c))) (issues.filter LintIssue.isDead)
  batch : ∀ c ∈ rs.chains, ∀ found, DeadSpots c.rules found →
    (lintChain (c.dropSpots (found.map Prod.snd))).filter LintIssue.isDead = []

/-! ## Positions in evaluation order -/

def spotOrder (spots : List Spot) : List Spot := sortByKey (fun x => x.1.priority.toNat) spots

theorem map_fst_spotOrder (spots : List Spot) : (spotOrder spots).map Prod.fst = evalOrder (spots.map Prod.fst) :=
  map_sortByKey (fun r : Rule => r.priority.toNat) Prod.fst spots

theorem runsBefore_asymm (y x : Spot) (h : runsBefore y x) : ¬ runsBefore x y := by
  unfold runsBefore at *
  simp only [UInt32.lt_iff_toNat_lt, ← UInt32.toNat_inj] at *
  omega

theorem pairwise_zipIdx (rules : List Rule) : rules.zipIdx.Pairwise (fun y x => y.2 < x.2) := by
  have h : (rules.zipIdx.map Prod.snd).Pairwise (· < ·) := by
    rw [List.zipIdx_map_snd]
    exact List.pairwise_lt_range'
  exact List.pairwise_map.1 h

/-- **Positions are walked in the (priority, declaration) order.** -/
theorem pairwise_spotOrder (rules : List Rule) : (spotOrder rules.zipIdx).Pairwise runsBefore := by
  refine (pairwise_lex_sortByKey (fun x : Spot => x.1.priority.toNat) (pairwise_zipIdx rules)).imp ?_
  rintro y x (hlt | ⟨heq, hlt⟩)
  · exact Or.inl (UInt32.lt_iff_toNat_lt.2 hlt)
  · exact Or.inr ⟨UInt32.toNat_inj.1 heq, hlt⟩

theorem nodup_spotOrder (rules : List Rule) : (spotOrder rules.zipIdx).Nodup :=
  (pairwise_spotOrder rules).imp (fun {y x} (h : runsBefore y x) (heq : y = x) => runsBefore_asymm y x h (heq ▸ h))

@[simp] theorem mem_spotOrder {x : Spot} {spots : List Spot} : x ∈ spotOrder spots ↔ x ∈ spots := mem_sortByKey _

theorem pair_sublist_spotOrder_iff {y x : Spot} {rules : List Rule} :
    [y, x] <+ spotOrder rules.zipIdx ↔ y ∈ rules.zipIdx ∧ x ∈ rules.zipIdx ∧ runsBefore y x := by
  constructor
  · intro h
    have hmem := mem_of_pair_sublist h
    exact ⟨mem_spotOrder.1 hmem.1, mem_spotOrder.1 hmem.2,
      List.pairwise_iff_forall_sublist.1 (pairwise_spotOrder rules) h⟩
  · rintro ⟨hy, hx, h⟩
    exact pair_sublist_of_pairwise (pairwise_spotOrder rules) (fun heq => runsBefore_asymm y x h (heq ▸ h))
      (mem_spotOrder.2 hy) (mem_spotOrder.2 hx) (runsBefore_asymm y x h)

/-! ## Dead positions -/

def deadSpots (spots : List Spot) : List (Spot × Spot) := firstBefore (fun y x => kills y.1 x.1) [] (spotOrder spots)

/-- **The dead-rule issues are those of the dead positions.** -/
theorem deadFrom_evalOrder (chain : String) (spots : List Spot) :
    deadFrom chain [] (evalOrder (spots.map Prod.fst)) =
      (deadSpots spots).map (fun yx => deadIssue chain yx.1.1 yx.2.1) := by
  have h := firstBefore_map kills Prod.fst (spotOrder spots) []
  rw [List.map_nil, map_fst_spotOrder] at h
  rw [deadFrom_eq_map, h, List.map_map]
  rfl

theorem deadSpots_spec (rules : List Rule) : DeadSpots rules (deadSpots rules.zipIdx) where
  once := (nodup_spotOrder rules).sublist (map_snd_firstBefore_sublist _ _ _)
  dead_iff x := by
    rw [deadSpots, mem_map_snd_firstBefore_iff]
    simp only [pair_sublist_spotOrder_iff]
    constructor
    · rintro ⟨y, ⟨hy, hx, hyx⟩, hk⟩
      exact ⟨hx, y, hy, hyx, kills_iff.1 hk⟩
    · rintro ⟨hx, y, hy, hyx, hk⟩
      exact ⟨y, ⟨hy, hx, hyx⟩, kills_iff.2 hk⟩
  killer y x h := by
    rw [deadSpots, mem_firstBefore_iff_of_pairwise _ runsBefore_asymm (pairwise_spotOrder rules)] at h
    obtain ⟨-, hy, hyx, hk, hleast⟩ := h
    obtain ⟨hterminal, hsuperset⟩ := kills_iff.1 hk
    exact ⟨mem_spotOrder.1 hy, hyx, hterminal, hsuperset,
      fun z hz hzx hzt hzs => hleast z (mem_spotOrder.2 hz) hzx (kills_iff.2 ⟨hzt, hzs⟩)⟩

/-- **No rule left is killed by a rule left**: every killer of a kept rule would have made it dead. -/
theorem deadSpots_filter {rules : List Rule} {found : List (Spot × Spot)} (h : DeadSpots rules found) :
    deadSpots (rules.zipIdx.filter (fun x => decide (x ∉ found.map Prod.snd))) = [] := by
  rw [deadSpots, firstBefore_eq_nil_iff, spotOrder, ← filter_sortByKey]
  intro y x hsub hk
  obtain ⟨hy, hx, hyx⟩ := pair_sublist_spotOrder_iff.1 (hsub.trans List.filter_sublist)
  have hkept : x ∉ found.map Prod.snd := by simpa using (List.mem_filter.1 (mem_of_pair_sublist hsub).2).2
  exact hkept ((h.dead_iff x).2 ⟨hx, y, hy, hyx, kills_iff.1 hk⟩)

theorem filter_isDead_dropSpots {c : Chain} {found : List (Spot × Spot)} (h : DeadSpots c.rules found) :
    (lintChain (c.dropSpots (found.map Prod.snd))).filter LintIssue.isDead = [] := by
  rw [filter_isDead_lintChain, Chain.dropSpots, deadFrom_evalOrder, deadSpots_filter h, List.map_nil]

theorem filter_kind_lintChain_eq_nil {q : LintKind → Bool} (hcol : q .priorityCollision = false)
    (hun : q .unreachable = false) (hsh : q .shadowed = false) (c : Chain) :
    (lintChain c).filter (fun i => q i.kind) = [] := by
  rw [filter_kind_lintChain hcol, deadFrom_eq_map, List.filter_eq_nil_iff]
  intro i hi
  obtain ⟨er, -, rfl⟩ := List.mem_map.1 hi
  rw [deadIssue_kind]
  split
  · simp [hsh]
  · simp [hun]

/-- **A seen-set scan names the repeats**, its issues being all those of their kind. -/
theorem namesRepeats_of_filter {κ : Type} [DecidableEq κ] {issues : List LintIssue} {kind : LintKind}
    {named : LintIssue → Option κ} {keys : List κ} {issue : κ → LintIssue} (hnamed : ∀ key, named (issue key) = some key)
    (h : issues.filter (fun i => i.kind == kind) = (repeats [] keys).map issue) :
    NamesRepeats issues kind named keys := by
  constructor
  · intro key
    have hcount : (issues.filter (fun i => i.kind == kind)).countP (fun i => named i == some key) =
        issues.countP (fun i => i.kind == kind && named i == some key) := by
      rw [List.countP_filter]
      exact List.countP_congr (fun i _ => by rw [Bool.and_comm])
    have hkeys : (fun i => named i == some key) ∘ issue = fun k => k == key := by
      funext k
      simp [hnamed]
    rw [← hcount, h, List.countP_map, hkeys, ← List.count_eq_countP, Repeats.count_repeats]
  · intro i hi hkind
    have hmem : i ∈ issues.filter (fun i => i.kind == kind) := List.mem_filter.2 ⟨hi, by rw [hkind]; exact beq_self_eq_true _⟩
    rw [h] at hmem
    obtain ⟨key, -, rfl⟩ := List.mem_map.1 hmem
    exact ⟨key, hnamed key⟩

/-- **`verify` reports what is there.** -/
theorem exactFindings (rs : Ruleset) : ExactFindings rs (issuesOf (verify rs)) where
  version := by
    rw [issuesOf_verify, List.countP_eq_length_filter, filter_kind_lintIssues (fun k => k == .unsupportedVersion)]
    by_cases h : rs.version > schemaVersion <;>
      simp [filter_kind_lintChain_eq_nil (q := fun k => k == .unsupportedVersion) rfl rfl rfl, versionIssues, h]
  chainNames := by
    have hnamed (name : String) : (duplicateChainIssue name).chain = some name := rfl
    refine namesRepeats_of_filter hnamed ?_
    rw [issuesOf_verify, filter_kind_lintIssues (fun k => k == .duplicateChain)]
    simp [filter_kind_lintChain_eq_nil (q := fun k => k == .duplicateChain) rfl rfl rfl]
  ruleIds := by
    have hnamed (id : RuleId) : (duplicateRuleIdIssue id).rule = some id := rfl
    refine namesRepeats_of_filter hnamed ?_
    rw [issuesOf_verify, filter_kind_lintIssues (fun k => k == .duplicateRuleId)]
    simp [filter_kind_lintChain_eq_nil (q := fun k => k == .duplicateRuleId) rfl rfl rfl]
  dead := by
    refine ⟨fun c => deadSpots c.rules.zipIdx, fun c _ => deadSpots_spec c.rules, ?_⟩
    have hchain (c : Chain) : (lintChain c).filter LintIssue.isDead =
        (deadSpots c.rules.zipIdx).map (fun yx => deadIssue c.name yx.1.1 yx.2.1) := by
      rw [filter_isDead_lintChain, ← deadFrom_evalOrder, List.zipIdx_map_fst]
    have hall : (issuesOf (verify rs)).filter LintIssue.isDead =
        (rs.chains.flatMap (fun c => (deadSpots c.rules.zipIdx).map (Prod.mk c))).map
          (fun cyx => deadIssue cyx.1.name cyx.2.1.1 cyx.2.2.1) := by
      simp only [filter_isDead_verify, hchain, List.map_flatMap, List.map_map, Function.comp_def]
    rw [hall, List.forall₂_map_right_iff]
    exact List.forall₂_same.2 (fun cyx _ => ⟨rfl, rfl, rfl, deadIssue_kind _ _ _⟩)
  batch := fun _ _ _ h => filter_isDead_dropSpots h

end Portcullis
