import Portcullis.Findings
import Portcullis.Ties
/-!
# Collisions — which clashing pairs `verify` names

Two positions of a chain clash when their rules share a priority, differ in id and overlap.  The scan names the clashes
of the first declared rule of each priority, once each (`mem_scannedSpots_iff`), so `verify` names every clash exactly
when in every clash the rule declared first is the first of its priority (`exactCollisions_iff`).
-/
namespace Portcullis

open SortBy
open FirstBefore
open List

/-- Two positions of one priority whose rules must not share it, in the order of their declaration. -/
structure Clash (rules : List Rule) (y x : Spot) : Prop where
  left : y ∈ rules.zipIdx
  right : x ∈ rules.zipIdx
  before : y.2 < x.2
  priority : y.1.priority = x.1.priority
  ids : y.1.id ≠ x.1.id
  overlaps : y.1.matcher.overlaps x.1.matcher = true

/-- `found` lists the clashes of a chain, once each. -/
structure ClashSpots (rules : List Rule) (found : List (Spot × Spot)) : Prop where
  once : found.Nodup
  mem_iff : ∀ y x, (y, x) ∈ found ↔ Clash rules y x

/-- The issue names the two rules, in either order. -/
structure NamesClash (c : Chain) (y x : Spot) (i : LintIssue) : Prop where
  kind : i.kind = .priorityCollision
  chain : i.chain = some c.name
  rules : (i.rule = some y.1.id ∧ i.otherRule = some x.1.id) ∨ (i.rule = some x.1.id ∧ i.otherRule = some y.1.id)

def LintIssue.isCollision (i : LintIssue) : Bool := i.kind == .priorityCollision

/-- One collision issue for each clash of each chain, chain by chain. -/
def ExactCollisions (rs : Ruleset) (issues : List LintIssue) : Prop :=
  ∃ found : Chain → List (Spot × Spot), (∀ c ∈ rs.chains, ClashSpots c.rules (found c)) ∧
    Forall₂ (fun cyx i => NamesClash cyx.1 cyx.2.1 cyx.2.2 i)
      (rs.chains.flatMap (fun c => (found c).map (Prod.mk c))) (issues.filter LintIssue.isCollision)

/-- No rule of the priority of `y` is declared before it. -/
def FirstOfPriority (rules : List Rule) (y : Spot) : Prop :=
  ∀ z ∈ rules.zipIdx, z.1.priority = y.1.priority → ¬ z.2 < y.2

def ClashesFirst (c : Chain) : Prop := ∀ y x, Clash c.rules y x → FirstOfPriority c.rules y

/-! ## The scan, position by position -/

def scannedSpots (rules : List Rule) : List (Spot × Spot) :=
  TieScan.scan (fun s : Spot => s.1.priority.toNat) (fun y x => collides y.1 x.1) (spotOrder rules.zipIdx)

/-- **The collision issues are those of the scanned positions.** -/
theorem collisions_evalOrder (chain : String) (rules : List Rule) : collisions chain (evalOrder rules) =
    (scannedSpots rules).map (fun yx => collisionIssue chain yx.1.1 yx.2.1) := by
  have h := TieScan.scan_map (fun r : Rule => r.priority.toNat) collides Prod.fst (spotOrder rules.zipIdx)
  rw [map_fst_spotOrder, List.zipIdx_map_fst] at h
  rw [collisions_eq_map, h, List.map_map]
  rfl

theorem find?_spotOrder_iff {rules : List Rule} {y : Spot} {n : Nat} :
    (spotOrder rules.zipIdx).find? (fun z => decide (z.1.priority.toNat = n)) = some y ↔
      y ∈ rules.zipIdx ∧ y.1.priority.toNat = n ∧ ∀ z ∈ rules.zipIdx, z.1.priority.toNat = n → ¬ z.2 < y.2 := by
  rw [spotOrder, find?_key_sortByKey,
    find?_eq_some_iff_of_pairwise (fun a b h => Nat.lt_asymm h) (pairwise_zipIdx rules)]
  simp only [decide_eq_true_eq]

/-- **The scan names the clashes of the first rule of each priority.** -/
theorem mem_scannedSpots_iff {rules : List Rule} {y x : Spot} :
    (y, x) ∈ scannedSpots rules ↔ Clash rules y x ∧ FirstOfPriority rules y := by
  have hs : (spotOrder rules.zipIdx).Pairwise (fun a b => a.1.priority.toNat ≤ b.1.priority.toNat) :=
    pairwise_sortByKey _ _
  rw [scannedSpots, TieScan.mem_scan_iff _ hs, TieScan.Scanned, find?_spotOrder_iff, pair_sublist_spotOrder_iff]
  simp only [UInt32.toNat_inj]
  constructor
  · rintro ⟨⟨⟨hy, hprio, hfirst⟩, -, hx, hbefore⟩, hc⟩
    have hlt : y.2 < x.2 := by
      rcases hbefore with hlt | ⟨-, hlt⟩
      · exact absurd hlt (hprio ▸ UInt32.lt_irrefl _)
      · exact hlt
    obtain ⟨hids, ho⟩ := collides_iff.1 hc
    exact ⟨⟨hy, hx, hlt, hprio, hids, ho⟩, fun z hz hzy => hfirst z hz (hzy.trans hprio)⟩
  · rintro ⟨⟨hy, hx, hlt, hprio, hids, ho⟩, hfirst⟩
    exact ⟨⟨⟨hy, hprio, fun z hz hzx => hfirst z hz (hzx.trans hprio.symm)⟩, hy, hx, Or.inr ⟨hprio, hlt⟩⟩,
      collides_iff.2 ⟨hids, ho⟩⟩

theorem nodup_scannedSpots (rules : List Rule) : (scannedSpots rules).Nodup :=
  TieScan.nodup_scan _ _ (nodup_spotOrder rules)

/-! ## Every chain -/

theorem filter_isCollision_lintChain (c : Chain) :
    (lintChain c).filter LintIssue.isCollision = collisions c.name (evalOrder c.rules) := by
  have hdead : (deadFrom c.name [] (evalOrder c.rules)).filter LintIssue.isCollision = [] := by
    refine List.filter_eq_nil_iff.2 (fun i hi => ?_)
    rw [deadFrom_eq_map] at hi
    obtain ⟨er, -, rfl⟩ := List.mem_map.1 hi
    rw [LintIssue.isCollision, deadIssue_kind]
    split <;> decide
  have hcol : (collisions c.name (evalOrder c.rules)).filter LintIssue.isCollision =
      collisions c.name (evalOrder c.rules) :=
    List.filter_eq_self.2 (fun i hi => by rw [LintIssue.isCollision, kind_of_mem_collisions i hi]; rfl)
  rw [lintChain, List.filter_append, hdead, hcol, List.append_nil]

/-- **The collision issues of a ruleset**, chain by chain. -/
theorem filter_isCollision_verify (rs : Ruleset) : (issuesOf (verify rs)).filter LintIssue.isCollision =
    (rs.chains.flatMap (fun c => (scannedSpots c.rules).map (Prod.mk c))).map
      (fun cyx => collisionIssue cyx.1.name cyx.2.1.1 cyx.2.2.1) := by
  have h : (lintIssues rs).filter LintIssue.isCollision = _ := filter_kind_lintIssues (fun k => k == .priorityCollision) rs
  have hchain : (fun c : Chain => (lintChain c).filter (fun i => i.kind == .priorityCollision)) =
      fun c => (scannedSpots c.rules).map (fun yx => collisionIssue c.name yx.1.1 yx.2.1) :=
    funext (fun c => (filter_isCollision_lintChain c).trans (collisions_evalOrder c.name c.rules))
  rw [hchain] at h
  rw [issuesOf_verify, List.map_flatMap]
  simpa [Function.comp_def] using h

theorem length_flatMap_le {α β : Type} {f g : α → List β} : ∀ {l : List α}, (∀ x ∈ l, (f x).length ≤ (g x).length) →
    (l.flatMap f).length ≤ (l.flatMap g).length
  | [], _ => Nat.le_refl _
  | a :: l, h => by
    have ha := h a List.mem_cons_self
    have hl := length_flatMap_le (fun x hx => h x (List.mem_cons_of_mem a hx))
    rw [List.flatMap_cons, List.flatMap_cons, List.length_append, List.length_append]
    omega

/-- Lists no longer than others, of the same length in all, are each of the same length. -/
theorem length_eq_of_flatMap {α β : Type} {f g : α → List β} : ∀ {l : List α},
    (∀ x ∈ l, (f x).length ≤ (g x).length) → (l.flatMap f).length = (l.flatMap g).length →
      ∀ x ∈ l, (f x).length = (g x).length
  | [], _, _ => by simp
  | a :: l, h, heq => by
    have h' : ∀ x ∈ l, (f x).length ≤ (g x).length := fun x hx => h x (List.mem_cons_of_mem a hx)
    have ha := h a List.mem_cons_self
    have hl := length_flatMap_le h'
    rw [List.flatMap_cons, List.flatMap_cons, List.length_append, List.length_append] at heq
    intro x hx
    rcases List.mem_cons.1 hx with rfl | hx
    · omega
    · exact length_eq_of_flatMap h' (by omega) x hx

theorem scannedSpots_subperm {c : Chain} {found : List (Spot × Spot)} (h : ClashSpots c.rules found) :
    scannedSpots c.rules <+~ found :=
  List.subperm_of_subset (nodup_scannedSpots c.rules) (fun _ hyx => (h.mem_iff _ _).2 (mem_scannedSpots_iff.1 hyx).1)

/-- **`verify` names every clash of every chain, once each and nothing else, exactly when the rule declared first in
each clash is the first of its priority.** -/
theorem exactCollisions_iff (rs : Ruleset) :
    ExactCollisions rs (issuesOf (verify rs)) ↔ ∀ c ∈ rs.chains, ClashesFirst c := by
  unfold ExactCollisions
  rw [filter_isCollision_verify]
  constructor
  · rintro ⟨found, hfound, hnames⟩ c hc y x hclash
    -- the scan finds no fewer in each chain, as it finds as many in all
    have hlen := hnames.length_eq
    rw [List.length_map] at hlen
    have hle : ∀ c ∈ rs.chains, ((scannedSpots c.rules).map (Prod.mk c)).length ≤ ((found c).map (Prod.mk c)).length := by
      intro c hc
      rw [List.length_map, List.length_map]
      exact (scannedSpots_subperm (hfound c hc)).length_le
    have hsame := length_eq_of_flatMap hle hlen.symm c hc
    rw [List.length_map, List.length_map] at hsame
    have hperm := (scannedSpots_subperm (hfound c hc)).perm_of_length_le (Nat.le_of_eq hsame.symm)
    have hmem : (y, x) ∈ scannedSpots c.rules := hperm.mem_iff.2 (((hfound c hc).mem_iff y x).2 hclash)
    exact (mem_scannedSpots_iff.1 hmem).2
  · intro h
    refine ⟨fun c => scannedSpots c.rules, fun c hc => ⟨nodup_scannedSpots c.rules, fun y x => ?_⟩, ?_⟩
    · rw [mem_scannedSpots_iff]
      exact ⟨And.left, fun hclash => ⟨hclash, h c hc y x hclash⟩⟩
    · rw [List.forall₂_map_right_iff]
      exact List.forall₂_same.2 (fun cyx _ => ⟨rfl, rfl, Or.inl ⟨rfl, rfl⟩⟩)

/-- **The clash of the last two of three tied rules is not named.** -/
theorem not_exactCollisions_threeTied :
    ¬ ExactCollisions (.new [threeTied]) (issuesOf (verify (.new [threeTied]))) := by
  rintro ⟨found, hfound, hnames⟩
  have hissues : (issuesOf (verify (.new [threeTied]))).filter LintIssue.isCollision = [] := by
    rw [issuesOf_verify]
    decide
  rw [hissues, List.forall₂_nil_right_iff] at hnames
  have hempty : found threeTied = [] := by simpa [Ruleset.new] using hnames
  have hclash : ∃ y x, Clash threeTied.rules y x :=
    ⟨(threeTied.rules[1], 1), (threeTied.rules[2], 2), by decide, by decide, by decide, rfl, by decide, by decide⟩
  obtain ⟨y, x, hyx⟩ := hclash
  have hmem := ((hfound threeTied (by simp [Ruleset.new])).mem_iff y x).2 hyx
  rw [hempty] at hmem
  cases hmem

end Portcullis
