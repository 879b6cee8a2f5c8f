import Portcullis.Dataplane
import Portcullis.Races
/-!
# LiveRaces — the live rules under two threads

The interleaving of the control thread and the watcher, with the rules that are live beside it.  What is live after an
event is netctl's to say; of netctl it is asked that its diffs are the documented ones, that an apply does what its diff
lists and that nothing else changes what is live (`TurnFollows`).  Where applies succeed alone, the rules of the ruleset
applied last are live in every state (`live_has_last`); where the stores keep to the order of the applies too, a quiet
daemon stores what is live (`quiet_stores_live`).
-/
namespace Portcullis
namespace Threads

open Machine (exec Meets)

structure Plane where
  threads : State
  live : RuleId → Option Rule

/-- An event of a thread, and the rules that are live after it. -/
structure Turn where
  event : Thread × Act
  live : RuleId → Option Rule

variable (fromStr : String → Except String FileConfig)

def Plane.step (p : Plane) (e : Turn) : Option Plane := (event fromStr p.threads e.event).map (fun s => ⟨s, e.live⟩)

/-- Netctl over one turn: a diff it computes is the documented one, a `backend.apply` that succeeds does what its diff
lists, and no other event changes what is live. -/
structure TurnFollows (p : Plane) (e : Turn) : Prop where
  computes : ∀ backend rs diff, e.event.2 = .call backend → p.threads.pc e.event.1 = .computeDiff rs →
    backend.computeDiff (desiredNetctlRuleset rs) = .ok diff → diff.Documented p.live (desiredNetctlRuleset rs)
  applies : ∀ backend rs diff n m, e.event.2 = .call backend → p.threads.pc e.event.1 = .apply rs diff n m →
    backend.apply diff = .ok () → Keyed.Follows Rule.id Rule.SameEffect p.live diff.plan e.live
  keeps : (∀ backend rs diff n m, e.event.2 = .call backend → p.threads.pc e.event.1 = .apply rs diff n m →
    backend.apply diff ≠ .ok ()) → e.live = p.live

/-- What a thread inside an apply holds is accepted, and a diff it holds is of the rules live now. -/
def Pc.heldOf (live : RuleId → Option Rule) : Pc → Prop
  | .computeDiff rs => verify rs = .ok ()
  | .validate rs diff _ => verify rs = .ok () ∧ diff.Documented live (desiredNetctlRuleset rs)
  | .apply rs diff _ _ => verify rs = .ok () ∧ diff.Documented live (desiredNetctlRuleset rs)
  | _ => True

structure LiveInv (p : Plane) : Prop where
  last : ∀ a, p.threads.applied.head? = some a → HasLive p.live a.ruleset
  held : ∀ t, (p.threads.pc t).heldOf p.live

variable {fromStr}

/-! ## One event -/

theorem TurnFollows.live_of_not_apply {p : Plane} {t : Thread} {a : Act} {live : RuleId → Option Rule}
    (hf : TurnFollows p ⟨(t, a), live⟩) (h : ∀ rs diff n m, p.threads.pc t ≠ .apply rs diff n m) : live = p.live :=
  hf.keeps (fun _ rs diff n m _ hpc => absurd hpc (h rs diff n m))

/-- A backend call that leaves its thread idle changed nothing. -/
theorem TurnFollows.live_of_failed {p : Plane} {t : Thread} {backend : Backend} {live : RuleId → Option Rule}
    (hf : TurnFollows p ⟨(t, .call backend), live⟩)
    (h : step fromStr p.threads t (.call backend) = some (p.threads.goto t .idle)) : live = p.live := by
  refine hf.keeps (fun backend' rs diff n m ha hpc hok => ?_)
  obtain rfl : backend = backend' := Act.call.inj ha
  simp only at hpc
  simp only [step, hpc, hok, Option.some.injEq] at h
  have hsame := congrArg (fun s => s.pc t) h
  simp at hsame

/-- The step out of `compute_diff` holds what the backend answered. -/
theorem computed_of_step {s : State} {t : Thread} {backend : Backend} {rs : Ruleset} {diff : RulesetDiff} {n : Nat}
    (hpc : s.pc t = .computeDiff rs)
    (h : step fromStr s t (.call backend) = some (s.goto t (.validate rs diff n))) :
    backend.computeDiff (desiredNetctlRuleset rs) = .ok diff := by
  simp only [step, hpc] at h
  split at h
  · rename_i diff' hc
    have hsame := congrArg (fun s => s.pc t) (Option.some.inj h)
    simp only [goto_pc_self, Pc.validate.injEq] at hsame
    rw [hc, hsame.2.1]
  · have hsame := congrArg (fun s => s.pc t) (Option.some.inj h)
    simp at hsame

theorem heldOf_of_not_holdsDiff {pc : Pc} {live : RuleId → Option Rule} (live' : RuleId → Option Rule)
    (h : pc.holdsDiff = false) (hheld : pc.heldOf live) : pc.heldOf live' := by
  cases pc <;> first | exact hheld | cases h

/-! ## Invariants -/

theorem liveInv_goto {p : Plane} (t : Thread) {pc : Pc} (hinv : LiveInv p) (hpc : pc.heldOf p.live) :
    LiveInv ⟨p.threads.goto t pc, p.live⟩ := by
  refine ⟨hinv.last, fun u => ?_⟩
  by_cases hut : u = t
  · subst hut
    simpa using hpc
  · simpa [hut] using hinv.held u

/-- **A success alone** makes its ruleset live, and no thread is left with a diff of the rules before it. -/
theorem liveInv_applied {p : Plane} {t : Thread} {rs : Ruleset} {diff : RulesetDiff} {a : Applied}
    {live : RuleId → Option Rule} (hinv : LiveInv p) (hok : verify rs = .ok ())
    (hdiff : diff.Documented p.live (desiredNetctlRuleset rs))
    (hfollows : Keyed.Follows Rule.id Rule.SameEffect p.live diff.plan live) (ha : a.ruleset = rs)
    (halone : ∀ u, u ≠ t → (p.threads.pc u).holdsDiff = false) :
    LiveInv ⟨{ p.threads.goto t (.storeRules a) with applied := a :: p.threads.applied }, live⟩ := by
  refine ⟨fun b hb => ?_, fun u => ?_⟩
  · obtain rfl : a = b := Option.some.inj hb
    rw [ha]
    exact hasLive_of_follows hok hdiff hfollows
  · show Pc.heldOf _ ((p.threads.goto t (.storeRules a)).pc u)
    by_cases hut : u = t
    · subst hut
      rw [goto_pc_self]
      trivial
    · rw [goto_pc_of_ne p.threads t u _ hut]
      exact heldOf_of_not_holdsDiff _ (halone u hut) (hinv.held u)

theorem liveInv_step {p p' : Plane} {e : Turn} (hinv : LiveInv p) (hf : TurnFollows p e)
    (halone : AppliesAlone p.threads e.event) (h : p.step fromStr e = some p') : LiveInv p' := by
  obtain ⟨⟨t, a⟩, live⟩ := e
  obtain ⟨s', hs, rfl⟩ := Option.map_eq_some_iff.1 h
  cases moves_of_step hs with
  | refused path read hpc =>
    obtain rfl := hf.live_of_not_apply (by simp [hpc])
    exact hinv
  | loaded path read rs hpc hok =>
    obtain rfl := hf.live_of_not_apply (by simp [hpc])
    exact liveInv_goto t hinv hok
  | failed backend hpc =>
    obtain rfl := hf.live_of_failed hs
    exact liveInv_goto t hinv trivial
  | computed backend rs diff hpc =>
    have hok : verify rs = .ok () := by
      have hheld := hinv.held t
      rwa [hpc] at hheld
    have hdiff := hf.computes backend rs diff rfl hpc (computed_of_step hpc hs)
    obtain rfl := hf.live_of_not_apply (by simp [hpc])
    exact liveInv_goto t hinv ⟨hok, hdiff⟩
  | validated backend rs diff n hpc =>
    have hheld := hinv.held t
    rw [hpc] at hheld
    obtain rfl := hf.live_of_not_apply (by simp [hpc])
    exact liveInv_goto t hinv hheld
  | applied backend rs diff n m a hpc hok ha =>
    obtain ⟨hrs, hdiff⟩ : verify rs = .ok () ∧ diff.Documented p.live (desiredNetctlRuleset rs) := by
      have hheld := hinv.held t
      rwa [hpc] at hheld
    exact liveInv_applied hinv hrs hdiff (hf.applies backend rs diff n m rfl hpc hok) (by rw [ha])
      (halone backend rs diff n m rfl hpc hok)
  | storedRules a hpc =>
    obtain rfl := hf.live_of_not_apply (by simp [hpc])
    have h : LiveInv ⟨p.threads.goto t (.storeLastApply a), p.live⟩ := liveInv_goto t hinv trivial
    exact ⟨h.last, h.held⟩
  | storedLastApply a hpc =>
    obtain rfl := hf.live_of_not_apply (by simp [hpc])
    have h : LiveInv ⟨p.threads.goto t .idle, p.live⟩ := liveInv_goto t hinv trivial
    exact ⟨h.last, h.held⟩
  | readRules ht hpc =>
    obtain rfl := hf.live_of_not_apply (by simp [hpc])
    exact liveInv_goto t hinv trivial
  | readLastApply current due hpc =>
    obtain rfl := hf.live_of_not_apply (by simp [hpc])
    have h : LiveInv ⟨p.threads.goto t .idle, p.live⟩ := liveInv_goto t hinv trivial
    exact ⟨h.last, h.held⟩

/-! ## Runs -/

/-- Netctl follows its diffs, and applies succeed alone. -/
structure Orderly (p : Plane) (e : Turn) : Prop where
  follows : TurnFollows p e
  alone : AppliesAlone p.threads e.event

theorem liveInv_start {configPath : String} {rs : Ruleset} {diff : RulesetDiff} {live : RuleId → Option Rule}
    (hlive : HasLive live rs) : LiveInv ⟨.start configPath rs diff, live⟩ :=
  ⟨fun _ ha => Option.some.inj ha ▸ hlive, fun _ => trivial⟩

/-- **The ruleset applied last is live**, in every state of an orderly run. -/
theorem live_has_last {configPath : String} {rs : Ruleset} {diff : RulesetDiff} {live : RuleId → Option Rule}
    {es : List Turn} {p : Plane} (hlive : HasLive live rs)
    (hm : Meets (Plane.step fromStr) Orderly ⟨.start configPath rs diff, live⟩ es)
    (h : exec (Plane.step fromStr) ⟨.start configPath rs diff, live⟩ es = some p) :
    ∀ a, p.threads.applied.head? = some a → HasLive p.live a.ruleset :=
  (Machine.inv_of_meets (fun _ _ _ hs hg hstep => liveInv_step hs hg.follows hg.alone hstep)
    (liveInv_start hlive) hm h).last

theorem fieldsInv_planeStep {p p' : Plane} {e : Turn} (hinv : FieldsInv p.threads)
    (hg : StoresInOrder p.threads e.event) (h : p.step fromStr e = some p') : FieldsInv p'.threads := by
  obtain ⟨s', hs, rfl⟩ := Option.map_eq_some_iff.1 h
  exact fieldsInv_step hinv hg (moves_of_step hs)

theorem loaded_planeStep {p p' : Plane} {e : Turn} (hloaded : p.threads.rules ≠ none)
    (h : p.step fromStr e = some p') : p'.threads.rules ≠ none := by
  obtain ⟨⟨t, a⟩, live⟩ := e
  obtain ⟨s', hs, rfl⟩ := Option.map_eq_some_iff.1 h
  cases moves_of_step hs with
  | storedRules a hpc => exact Option.some_ne_none _
  | _ => exact hloaded

structure PlaneInv (p : Plane) : Prop where
  live : LiveInv p
  fields : FieldsInv p.threads
  loaded : p.threads.rules ≠ none

/-- **A quiet daemon stores what is live**, after an orderly run whose stores keep to the order of the applies. -/
theorem quiet_stores_live {configPath : String} {rs : Ruleset} {diff : RulesetDiff} {live : RuleId → Option Rule}
    {es : List Turn} {p : Plane} (hlive : HasLive live rs)
    (hm : Meets (Plane.step fromStr) (fun p e => Orderly p e ∧ StoresInOrder p.threads e.event)
      ⟨.start configPath rs diff, live⟩ es)
    (h : exec (Plane.step fromStr) ⟨.start configPath rs diff, live⟩ es = some p) (hq : p.threads.Quiet) :
    ∃ rs', p.threads.rules = some rs' ∧ HasLive p.live rs' := by
  have hinv : PlaneInv p := by
    refine Machine.inv_of_meets (fun p e p' hs hg hstep => ⟨?_, ?_, ?_⟩)
      ⟨liveInv_start hlive, ⟨Or.inl rfl, Or.inl rfl⟩, Option.some_ne_none _⟩ hm h
    · exact liveInv_step hs.live hg.1.follows hg.1.alone hstep
    · exact fieldsInv_planeStep hs.fields hg.2 hstep
    · exact loaded_planeStep hs.loaded hstep
  obtain ⟨hlast, hfields, hloaded⟩ := hinv
  obtain ⟨rs', hrs'⟩ := Option.ne_none_iff_exists'.1 hloaded
  refine ⟨rs', hrs', ?_⟩
  have heq : p.threads.rules = p.threads.applied.head?.map Applied.ruleset := by
    refine hfields.rules.resolve_right ?_
    rintro ⟨u, a, hu, -⟩
    have hquiet := hq u
    rw [hu] at hquiet
    cases hquiet
  rw [hrs'] at heq
  obtain ⟨a, ha, rfl⟩ := Option.map_eq_some_iff.1 heq.symm
  exact hlast.last a ha

/-! ## A run of both threads -/

section Sample

variable {p : Plane} {t : Thread} {backend : Backend} {rs : Ruleset} {diff : RulesetDiff} {n m : Nat}

theorem orderly_of_not_call {a : Act} (h : ∀ backend, a ≠ .call backend) : Orderly p ⟨(t, a), p.live⟩ :=
  ⟨⟨fun backend _ _ ha => absurd ha (h backend), fun backend _ _ _ _ ha => absurd ha (h backend), fun _ => rfl⟩,
    fun backend _ _ _ _ ha => absurd ha (h backend)⟩

theorem orderly_compute (hpc : p.threads.pc t = .computeDiff rs)
    (hdoc : ∀ diff, backend.computeDiff (desiredNetctlRuleset rs) = .ok diff →
      diff.Documented p.live (desiredNetctlRuleset rs)) : Orderly p ⟨(t, .call backend), p.live⟩ := by
  refine ⟨⟨fun backend' rs' diff ha hpc' hc => ?_, fun _ _ _ _ _ _ hpc' => ?_, fun _ => rfl⟩, fun _ _ _ _ _ _ hpc' => ?_⟩
  · cases ha
    obtain rfl := Pc.computeDiff.inj (hpc.symm.trans hpc')
    exact hdoc diff hc
  · cases hpc.symm.trans hpc'
  · cases hpc.symm.trans hpc'

theorem orderly_validate (hpc : p.threads.pc t = .validate rs diff n) : Orderly p ⟨(t, .call backend), p.live⟩ := by
  refine ⟨⟨fun _ _ _ _ hpc' => ?_, fun _ _ _ _ _ _ hpc' => ?_, fun _ => rfl⟩, fun _ _ _ _ _ _ hpc' => ?_⟩ <;>
    cases hpc.symm.trans hpc'

theorem orderly_apply {live : RuleId → Option Rule} (hpc : p.threads.pc t = .apply rs diff n m)
    (hok : backend.apply diff = .ok ()) (hfollows : Keyed.Follows Rule.id Rule.SameEffect p.live diff.plan live)
    (halone : ∀ u, u ≠ t → (p.threads.pc u).holdsDiff = false) : Orderly p ⟨(t, .call backend), live⟩ := by
  refine ⟨⟨fun _ _ _ _ hpc' => ?_, fun _ _ _ _ _ _ hpc' _ => ?_, fun hno => ?_⟩, fun _ _ _ _ _ _ _ _ => halone⟩
  · cases hpc.symm.trans hpc'
  · obtain ⟨-, rfl, -, -⟩ := Pc.apply.inj (hpc.symm.trans hpc')
    exact hfollows
  · exact absurd hok (hno backend rs diff n m rfl hpc)

end Sample

/-- A start with no rules, on a dataplane with none. -/
def planeSample : Plane := ⟨.start "fw.toml" noChains {}, Keyed.tableOf Rule.id []⟩

theorem hasLive_planeSample : HasLive (Keyed.tableOf Rule.id []) noChains :=
  ⟨fun _ hr => absurd hr List.not_mem_nil, fun _ _ => rfl⟩

def diffToSsh : RulesetDiff := { add := sshOnly.rules }

/-- What is live after the control thread's apply, and after the watcher's. -/
def liveSsh : RuleId → Option Rule := Keyed.patch Rule.id (Keyed.tableOf Rule.id []) diffToSsh.plan

def liveWeb : RuleId → Option Rule := Keyed.patch Rule.id liveSsh diffToWeb.plan

theorem documented_diffToSsh : diffToSsh.Documented (Keyed.tableOf Rule.id []) (desiredNetctlRuleset sshOnly) :=
  Keyed.plans_planOf Rule.id Rule.SameEffect [] sshOnly.rules

theorem follows_diffToSsh : Keyed.Follows Rule.id Rule.SameEffect (Keyed.tableOf Rule.id []) diffToSsh.plan liveSsh :=
  Keyed.follows_patch (by decide) Rule.SameEffect.refl documented_diffToSsh

theorem documented_diffToWeb : diffToWeb.Documented liveSsh (desiredNetctlRuleset sshAndWeb) := by
  have hplan : Keyed.Plans Rule.id Rule.SameEffect (Keyed.tableOf Rule.id sshOnly.rules) sshAndWeb.rules diffToWeb.plan :=
    Keyed.plans_planOf Rule.id Rule.SameEffect sshOnly.rules sshAndWeb.rules
  exact hplan.of_holds (hasLive_of_follows (by decide) documented_diffToSsh follows_diffToSsh)
    Rule.sameEffect_equivalence (by decide)

theorem follows_diffToWeb : Keyed.Follows Rule.id Rule.SameEffect liveSsh diffToWeb.plan liveWeb :=
  Keyed.follows_patch (by decide) Rule.SameEffect.refl documented_diffToWeb

/-- The control thread applies `ssh`; the watcher starts before it is done, and applies `web` while it stores. -/
def tandemLive : List Turn := [
  ⟨(.control, .load "fw.toml" (.ok "ssh.toml")), Keyed.tableOf Rule.id []⟩,
  ⟨(.watcher, .load "fw.toml" (.ok "web.toml")), Keyed.tableOf Rule.id []⟩,
  ⟨(.control, .call (tableBackend [])), Keyed.tableOf Rule.id []⟩,
  ⟨(.control, .call (tableBackend [])), Keyed.tableOf Rule.id []⟩,
  ⟨(.control, .call (tableBackend [])), liveSsh⟩,
  ⟨(.watcher, .call (tableBackend sshOnly.rules)), liveSsh⟩,
  ⟨(.watcher, .call (tableBackend sshOnly.rules)), liveSsh⟩,
  ⟨(.control, .store), liveSsh⟩,
  ⟨(.watcher, .call (tableBackend sshOnly.rules)), liveWeb⟩,
  ⟨(.control, .store), liveWeb⟩,
  ⟨(.watcher, .store), liveWeb⟩,
  ⟨(.watcher, .store), liveWeb⟩]

theorem meets_tandemLive : Meets (Plane.step decodeWeb) (fun p e => Orderly p e ∧ StoresInOrder p.threads e.event)
    planeSample tandemLive := by
  refine Machine.meets_cons ⟨orderly_of_not_call (by simp), nofun⟩ rfl
    (Machine.meets_cons ⟨orderly_of_not_call (by simp), nofun⟩ rfl
    (Machine.meets_cons ⟨orderly_compute rfl ?_, nofun⟩ rfl (Machine.meets_cons ⟨orderly_validate rfl, nofun⟩ rfl
    (Machine.meets_cons ⟨orderly_apply rfl rfl follows_diffToSsh ?_, nofun⟩ rfl
    (Machine.meets_cons ⟨orderly_compute rfl ?_, nofun⟩ rfl (Machine.meets_cons ⟨orderly_validate rfl, nofun⟩ rfl
    (Machine.meets_cons ⟨orderly_of_not_call (by simp), ?_⟩ rfl
    (Machine.meets_cons ⟨orderly_apply rfl rfl follows_diffToWeb ?_, nofun⟩ rfl
    (Machine.meets_cons ⟨orderly_of_not_call (by simp), ?_⟩ rfl
    (Machine.meets_cons ⟨orderly_of_not_call (by simp), ?_⟩ rfl
    (Machine.meets_cons ⟨orderly_of_not_call (by simp), ?_⟩ rfl trivial)))))))))))
  · intro diff hc
    cases hc
    exact documented_diffToSsh
  · intro u hu
    cases u with
    | control => exact absurd rfl hu
    | watcher => rfl
  · intro diff hc
    cases hc
    exact documented_diffToWeb
  · exact fun _ => ⟨fun _ _ => ⟨.control, _, rfl, rfl⟩, (fun _ h => by cases h)⟩
  · intro u hu
    cases u with
    | control => rfl
    | watcher => exact absurd rfl hu
  · exact fun _ => ⟨(fun _ h => by cases h), fun _ _ => ⟨.watcher, _, Or.inl rfl, rfl⟩⟩
  · exact fun _ => ⟨fun _ _ => ⟨.watcher, _, rfl, rfl⟩, (fun _ h => by cases h)⟩
  · exact fun _ => ⟨(fun _ h => by cases h), fun _ _ => ⟨.watcher, _, Or.inr rfl, rfl⟩⟩

theorem live_has_last_tandemLive : ∃ p : Plane, exec (Plane.step decodeWeb) planeSample tandemLive = some p ∧
    ∀ a, p.threads.applied.head? = some a → HasLive p.live a.ruleset := by
  obtain ⟨p, hp⟩ : ∃ p, exec (Plane.step decodeWeb) planeSample tandemLive = some p := ⟨_, rfl⟩
  exact ⟨p, hp, live_has_last hasLive_planeSample (Machine.meets_mono (fun _ _ hg => hg.1) meets_tandemLive) hp⟩

theorem quiet_stores_live_tandemLive : ∃ p : Plane, exec (Plane.step decodeWeb) planeSample tandemLive = some p ∧
    ∃ rs, p.threads.rules = some rs ∧ HasLive p.live rs := by
  have hrun : (exec (Plane.step decodeWeb) planeSample tandemLive).map
      (fun p => (p.threads.pc .control, p.threads.pc .watcher)) = some (.idle, .idle) := by rfl
  obtain ⟨p, hp, heq⟩ := Option.map_eq_some_iff.1 hrun
  obtain ⟨hcontrol, hwatcher⟩ := Prod.mk.inj heq
  exact ⟨p, hp, quiet_stores_live hasLive_planeSample meets_tandemLive hp (quiet_of_idle hcontrol hwatcher)⟩

end Threads
end Portcullis
