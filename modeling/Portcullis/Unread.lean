import Portcullis.Findings
import Portcullis.Lib.Pointwise
/-!
# Unread — what `verify` does not read

The lint pass reads of a rule its id, its priority, its matcher and whether its action is terminal.  Rulesets that agree
in these, rule by rule, and in their version and chain names get the same findings but for the texts
(`places_of_readAlike`): no finding depends on where a jump goes, on a policy or on a description.
-/
namespace Portcullis

open List
open SortBy (sortByKey)
open FirstBefore (firstBefore)

structure Rule.ReadAlike (r r' : Rule) : Prop where
  id : r'.id = r.id
  priority : r'.priority = r.priority
  matcher : r'.matcher = r.matcher
  isTerminal : r'.action.isTerminal = r.action.isTerminal

structure Chain.ReadAlike (c c' : Chain) : Prop where
  name : c'.name = c.name
  rules : Forall₂ Rule.ReadAlike c.rules c'.rules

/-- A finding without its text. -/
structure Place where
  kind : LintKind
  chain : Option String
  rule : Option RuleId
  otherRule : Option RuleId
  deriving DecidableEq, Repr

def LintIssue.place (i : LintIssue) : Place := ⟨i.kind, i.chain, i.rule, i.otherRule⟩

/-! ## One chain -/

section Chain

variable {ζ : Type} (f : ζ → Rule) (name : String)

def collisionPlace (xy : ζ × ζ) : Place := ⟨.priorityCollision, some name, some (f xy.1).id, some (f xy.2).id⟩

def deadPlace (er : ζ × ζ) : Place :=
  ⟨if (f er.1).matcher = (f er.2).matcher then .shadowed else .unreachable, some name, some (f er.2).id, some (f er.1).id⟩

/-- The findings of a chain, by what is read of its rules. -/
def chainPlaces (zs : List ζ) : List Place :=
  let ordered := sortByKey (fun z => (f z).priority.toNat) zs
  (TieScan.scan (fun z => (f z).priority.toNat) (fun a b => collides (f a) (f b)) ordered).map (collisionPlace f name) ++
    (firstBefore (fun a b => kills (f a) (f b)) [] ordered).map (deadPlace f name)

theorem place_deadIssue (e r : Rule) : (deadIssue name e r).place =
    ⟨if e.matcher = r.matcher then .shadowed else .unreachable, some name, some r.id, some e.id⟩ := by
  rw [← deadIssue_kind name e r]
  rfl

theorem map_place_lintChain (zs : List ζ) (policy : Policy) :
    (lintChain ⟨name, zs.map f, policy⟩).map LintIssue.place = chainPlaces f name zs := by
  have horder : evalOrder (zs.map f) = (sortByKey (fun z => (f z).priority.toNat) zs).map f :=
    (SortBy.map_sortByKey (fun r : Rule => r.priority.toNat) f zs).symm
  have hdead : (fun er : ζ × ζ => (deadIssue name (f er.1) (f er.2)).place) = deadPlace f name := by
    funext er
    exact place_deadIssue name (f er.1) (f er.2)
  have hscan := TieScan.scan_map (fun r : Rule => r.priority.toNat) collides f (sortByKey (fun z => (f z).priority.toNat) zs)
  have hfirst := FirstBefore.firstBefore_map kills f (sortByKey (fun z => (f z).priority.toNat) zs) []
  rw [List.map_nil] at hfirst
  unfold lintChain chainPlaces
  rw [horder, List.map_append, collisions_eq_map, deadFrom_eq_map, hscan, hfirst, ← hdead]
  simp only [List.map_map]
  rfl

theorem chainPlaces_congr {f g : ζ → Rule} (h : ∀ z, (f z).ReadAlike (g z)) (zs : List ζ) :
    chainPlaces g name zs = chainPlaces f name zs := by
  have hkey : (fun z => (g z).priority.toNat) = fun z => (f z).priority.toNat := by
    funext z
    rw [(h z).priority]
  have hcollides : (fun a b => collides (g a) (g b)) = fun a b => collides (f a) (f b) := by
    funext a b
    rw [collides, collides, (h a).id, (h b).id, (h a).matcher, (h b).matcher]
  have hkills : (fun a b => kills (g a) (g b)) = fun a b => kills (f a) (f b) := by
    funext a b
    rw [kills, kills, (h a).isTerminal, (h a).matcher, (h b).matcher]
  have hcollision : collisionPlace g name = collisionPlace f name := by
    funext xy
    rw [collisionPlace, collisionPlace, (h xy.1).id, (h xy.2).id]
  have hdead : deadPlace g name = deadPlace f name := by
    funext er
    rw [deadPlace, deadPlace, (h er.1).id, (h er.2).id, (h er.1).matcher, (h er.2).matcher]
  unfold chainPlaces
  rw [hkey, hcollides, hkills, hcollision, hdead]

end Chain

theorem places_lintChain {c c' : Chain} (h : c.ReadAlike c') :
    (lintChain c').map LintIssue.place = (lintChain c).map LintIssue.place := by
  obtain ⟨zs, hl, hr⟩ := Pointwise.exists_pairs h.rules
  obtain ⟨name, rules, policy⟩ := c
  obtain ⟨name', rules', policy'⟩ := c'
  obtain rfl : name' = name := h.name
  simp only at hl hr
  rw [← hl, ← hr, map_place_lintChain, map_place_lintChain]
  exact chainPlaces_congr name' (fun z => z.2) zs

/-! ## The ruleset -/

theorem map_place_lintIssues {rs rs' : Ruleset} (hversion : rs'.version = rs.version)
    (h : Forall₂ Chain.ReadAlike rs.chains rs'.chains) :
    (lintIssues rs').map LintIssue.place = (lintIssues rs).map LintIssue.place := by
  have hnames : rs'.chains.map Chain.name = rs.chains.map Chain.name := Pointwise.map_eq (fun _ _ hc => hc.name) h
  have hids : rs'.iterRules.map (fun cr => cr.2.id) = rs.iterRules.map (fun cr => cr.2.id) := by
    rw [iterRules_ids, iterRules_ids]
    exact Pointwise.flatMap_eq (fun _ _ hc => Pointwise.map_eq (fun _ _ hr => hr.id) hc.rules) h
  have hlint : (rs'.chains.flatMap lintChain).map LintIssue.place = (rs.chains.flatMap lintChain).map LintIssue.place := by
    rw [List.map_flatMap, List.map_flatMap]
    exact Pointwise.flatMap_eq (fun _ _ hc => places_lintChain hc) h
  unfold lintIssues versionIssues
  rw [hversion, hnames, hids]
  simp only [List.map_append, hlint]

/-- **Rulesets that read alike have the same findings**, each at the same place. -/
theorem places_of_readAlike {rs rs' : Ruleset} (hversion : rs'.version = rs.version)
    (h : Forall₂ Chain.ReadAlike rs.chains rs'.chains) :
    (issuesOf (verify rs')).map LintIssue.place = (issuesOf (verify rs)).map LintIssue.place := by
  rw [issuesOf_verify, issuesOf_verify]
  exact map_place_lintIssues hversion h

/-- A tie with a jump to `target`. -/
def tiedJump (target : String) (policy : Policy) : Chain where
  name := "input"
  rules := [
    { id := ⟨1⟩, priority := 10, matcher := { protocol := .tcp }, action := .jump target },
    { id := ⟨2⟩, priority := 10, matcher := { dstPort := .single 22 }, action := .drop }]
  defaultPolicy := policy

/-- A jump into its own chain reads like one to a chain that is not there. -/
theorem places_of_readAlike_tiedJump :
    (issuesOf (verify (.new [tiedJump "input" .accept]))).map LintIssue.place =
      (issuesOf (verify (.new [tiedJump "web" .drop]))).map LintIssue.place := by
  have hrules : Forall₂ Rule.ReadAlike (tiedJump "web" .drop).rules (tiedJump "input" .accept).rules :=
    .cons ⟨rfl, rfl, rfl, rfl⟩ (.cons ⟨rfl, rfl, rfl, rfl⟩ .nil)
  exact places_of_readAlike rfl (.cons ⟨rfl, hrules⟩ .nil)

/-- **Acceptance is read off the same.** -/
theorem verify_of_readAlike {rs rs' : Ruleset} (hversion : rs'.version = rs.version)
    (h : Forall₂ Chain.ReadAlike rs.chains rs'.chains) : verify rs' = .ok () ↔ verify rs = .ok () := by
  rw [verify_eq_ok_iff, verify_eq_ok_iff, ← List.map_eq_nil_iff, map_place_lintIssues hversion h, List.map_eq_nil_iff]

end Portcullis
