import Portcullis.Threads
/-!
# Races — one thread's apply against the other's

Two applies can interleave at every step.  The fields end up with the last apply as long as no field is stored again
once the last apply has stored it (`storesLast_of_quiet`), and every diff that is applied is a fresh one as long as no
`backend.apply` succeeds while the other thread holds a diff (`appliesFresh`).  Neither holds by itself, as nothing in
`DaemonState::apply` keeps the other thread out.
-/
namespace Portcullis
namespace Threads

open Machine (exec Meets)

variable {fromStr : String → Except String FileConfig}

def Pc.inApply : Pc → Bool
  | .idle => false
  | .status _ _ => false
  | _ => true

def Pc.stores : Pc → Bool
  | .storeRules _ => true
  | .storeLastApply _ => true
  | _ => false

theorem Pc.stores_of_calls {pc : Pc} (h : pc.calls = true) : pc.stores = false := by
  cases pc <;> first | rfl | cases h

/-! ## The stored fields -/

/-- `t` has yet to store `rules` for the last apply. -/
def State.OwesRules (s : State) (t : Thread) : Prop := ∃ a, s.pc t = .storeRules a ∧ s.applied.head? = some a

def State.OwesLastApply (s : State) (t : Thread) : Prop :=
  ∃ a, (s.pc t = .storeRules a ∨ s.pc t = .storeLastApply a) ∧ s.applied.head? = some a

/-- No field is stored once the last apply has stored it. -/
def StoresInOrder (s : State) (e : Thread × Act) : Prop :=
  e.2 = .store → (∀ a, s.pc e.1 = .storeRules a → ∃ u, s.OwesRules u) ∧
    ∀ a, s.pc e.1 = .storeLastApply a → ∃ u, s.OwesLastApply u

def State.Quiet (s : State) : Prop := ∀ t, (s.pc t).inApply = false

/-- The stored ruleset is the one applied last, and `last_apply` is the outcome of that apply. -/
def State.StoresLast (s : State) : Prop :=
  s.rules = s.applied.head?.map Applied.ruleset ∧ s.lastApply = s.applied.head?.map Applied.outcome

/-- Each field has the last apply, or a thread is about to store it. -/
structure FieldsInv (s : State) : Prop where
  rules : s.rules = s.applied.head?.map Applied.ruleset ∨ ∃ u, s.OwesRules u
  lastApply : s.lastApply = s.applied.head?.map Applied.outcome ∨ ∃ u, s.OwesLastApply u

theorem owesRules_goto {s : State} {t u : Thread} (pc : Pc) (ht : ∀ a, s.pc t ≠ .storeRules a)
    (h : s.OwesRules u) : (s.goto t pc).OwesRules u := by
  obtain ⟨a, hpc, ha⟩ := h
  have hne : u ≠ t := fun heq => ht a (heq ▸ hpc)
  exact ⟨a, by rw [goto_pc_of_ne s t u pc hne]; exact hpc, ha⟩

theorem owesLastApply_goto {s : State} {t u : Thread} (pc : Pc) (ht : (s.pc t).stores = false)
    (h : s.OwesLastApply u) : (s.goto t pc).OwesLastApply u := by
  obtain ⟨a, hpc, ha⟩ := h
  have hne : u ≠ t := by
    rintro rfl
    rcases hpc with hpc | hpc <;> rw [hpc] at ht <;> cases ht
  exact ⟨a, by rw [goto_pc_of_ne s t u pc hne]; exact hpc, ha⟩

/-- A step that stores nothing keeps what the fields have and what they are owed. -/
theorem fieldsInv_goto {s : State} {t : Thread} (pc : Pc) (hinv : FieldsInv s) (ht : (s.pc t).stores = false) :
    FieldsInv (s.goto t pc) := by
  have hrules : ∀ a, s.pc t ≠ .storeRules a := fun a heq => by rw [heq] at ht; cases ht
  constructor
  · exact hinv.rules.imp_right (fun ⟨u, hu⟩ => ⟨u, owesRules_goto pc hrules hu⟩)
  · exact hinv.lastApply.imp_right (fun ⟨u, hu⟩ => ⟨u, owesLastApply_goto pc ht hu⟩)

/-- A store to `rules`: the last apply's own, or the last apply still owes one. -/
theorem fieldsInv_storeRules {s : State} {t : Thread} {a : Applied} (hinv : FieldsInv s)
    (hpc : s.pc t = .storeRules a) (howes : ∃ u, s.OwesRules u) :
    FieldsInv { s.goto t (.storeLastApply a) with rules := some a.ruleset } := by
  constructor
  · obtain ⟨u, b, hub, hb⟩ := howes
    by_cases hut : u = t
    · subst hut
      rw [hub] at hpc
      cases hpc
      exact Or.inl (by simp [hb])
    · exact Or.inr ⟨u, b, by rw [← hub]; exact goto_pc_of_ne s t u _ hut, hb⟩
  · rcases hinv.lastApply with heq | ⟨v, c, hvc, hc⟩
    · exact Or.inl heq
    · by_cases hvt : v = t
      · subst hvt
        have hac : c = a := by
          rcases hvc with hvc | hvc <;> rw [hpc] at hvc <;> cases hvc
          rfl
        subst hac
        exact Or.inr ⟨v, c, Or.inr (goto_pc_self s v _), hc⟩
      · have hkeep : (s.goto t (.storeLastApply a)).pc v = s.pc v := goto_pc_of_ne s t v _ hvt
        exact Or.inr ⟨v, c, hkeep ▸ hvc, hc⟩

/-- A store to `last_apply`, in the same two ways. -/
theorem fieldsInv_storeLastApply {s : State} {t : Thread} {a : Applied} (hinv : FieldsInv s)
    (hpc : s.pc t = .storeLastApply a) (howes : ∃ u, s.OwesLastApply u) :
    FieldsInv { s.goto t .idle with lastApply := some a.outcome, stores := s.stores + 1 } := by
  constructor
  · refine hinv.rules.imp_right (fun ⟨v, hv⟩ => ⟨v, ?_⟩)
    exact owesRules_goto .idle (fun c heq => by rw [hpc] at heq; cases heq) hv
  · obtain ⟨u, b, hub, hb⟩ := howes
    by_cases hut : u = t
    · subst hut
      have hba : b = a := by
        rcases hub with hub | hub <;> rw [hpc] at hub <;> cases hub
        rfl
      subst hba
      exact Or.inl (by simp [hb])
    · have hkeep : (s.goto t .idle).pc u = s.pc u := goto_pc_of_ne s t u _ hut
      exact Or.inr ⟨u, b, hkeep ▸ hub, hb⟩

theorem fieldsInv_step {s s' : State} {t : Thread} {a : Act} (hinv : FieldsInv s) (hg : StoresInOrder s (t, a))
    (h : Moves s t a s') : FieldsInv s' := by
  cases h with
  | refused path read hpc => exact hinv
  | loaded path read rs hpc hok => exact fieldsInv_goto _ hinv (by rw [hpc]; rfl)
  | failed backend hpc => exact fieldsInv_goto _ hinv (Pc.stores_of_calls hpc)
  | computed backend rs diff hpc => exact fieldsInv_goto _ hinv (by rw [hpc]; rfl)
  | validated backend rs diff n hpc => exact fieldsInv_goto _ hinv (by rw [hpc]; rfl)
  | applied backend rs diff n m a hpc hok ha =>
    have howes : (s.goto t (.storeRules a)).pc t = .storeRules a := goto_pc_self s t _
    exact ⟨Or.inr ⟨t, a, howes, rfl⟩, Or.inr ⟨t, a, Or.inl howes, rfl⟩⟩
  | storedRules a hpc => exact fieldsInv_storeRules hinv hpc ((hg rfl).1 a hpc)
  | storedLastApply a hpc => exact fieldsInv_storeLastApply hinv hpc ((hg rfl).2 a hpc)
  | readRules ht hpc => exact fieldsInv_goto _ hinv (by rw [hpc]; rfl)
  | readLastApply current due hpc =>
    have h := fieldsInv_goto .idle hinv (by rw [hpc]; rfl : (s.pc t).stores = false)
    exact ⟨h.rules, h.lastApply⟩

/-- **With stores in order, the fields of a quiet daemon are those of the last apply.** -/
theorem storesLast_of_quiet {configPath : String} {rs : Ruleset} {diff : RulesetDiff} {es : List (Thread × Act)}
    {s : State} (hm : Meets (event fromStr) StoresInOrder (.start configPath rs diff) es)
    (h : exec (event fromStr) (.start configPath rs diff) es = some s) (hq : s.Quiet) : s.StoresLast := by
  have hinv : FieldsInv s := by
    refine Machine.inv_of_meets (fun s e s' hs hg hstep => ?_) ⟨Or.inl rfl, Or.inl rfl⟩ hm h
    exact fieldsInv_step hs hg (moves_of_step hstep)
  constructor
  · refine hinv.rules.resolve_right ?_
    rintro ⟨u, a, hu, -⟩
    have := hq u
    rw [hu] at this
    cases this
  · refine hinv.lastApply.resolve_right ?_
    rintro ⟨u, a, hu | hu, -⟩ <;>
    · have := hq u
      rw [hu] at this
      cases this

theorem quiet_of_idle {s : State} (hc : s.pc .control = .idle) (hw : s.pc .watcher = .idle) : s.Quiet := by
  intro t
  cases t
  · rw [hc]; rfl
  · rw [hw]; rfl

theorem storesLast_of_quiet_tandem : ∃ s : State, exec (event decodeSample) startSample tandem = some s ∧ s.StoresLast := by
  have hm : Meets (event decodeSample) StoresInOrder startSample tandem := by
    refine Machine.meets_cons (fun h => by cases h) rfl (Machine.meets_cons (fun h => by cases h) rfl
      (Machine.meets_cons (fun h => by cases h) rfl (Machine.meets_cons (fun h => by cases h) rfl
      (Machine.meets_cons (fun h => by cases h) rfl (Machine.meets_cons (fun h => by cases h) rfl
      (Machine.meets_cons (fun h => by cases h) rfl (Machine.meets_cons ?_ rfl
      (Machine.meets_cons (fun h => by cases h) rfl (Machine.meets_cons ?_ rfl
      (Machine.meets_cons ?_ rfl (Machine.meets_cons ?_ rfl trivial)))))))))))
    · exact fun _ => ⟨fun a _ => ⟨.control, _, rfl, rfl⟩, fun a h => by cases h⟩
    · -- the watcher applied last, and owes both fields yet
      exact fun _ => ⟨(fun a h => by cases h), fun a _ => ⟨.watcher, _, Or.inl rfl, rfl⟩⟩
    · exact fun _ => ⟨fun a _ => ⟨.watcher, _, rfl, rfl⟩, fun a h => by cases h⟩
    · exact fun _ => ⟨(fun a h => by cases h), fun a _ => ⟨.watcher, _, Or.inr rfl, rfl⟩⟩
  have hrun : (exec (event decodeSample) startSample tandem).map (fun s => (s.pc .control, s.pc .watcher)) =
      some (.idle, .idle) := by rfl
  obtain ⟨s, hs, heq⟩ := Option.map_eq_some_iff.1 hrun
  obtain ⟨hcontrol, hwatcher⟩ := Prod.mk.inj heq
  exact ⟨s, hs, storesLast_of_quiet hm hs (quiet_of_idle hcontrol hwatcher)⟩

/-- **The older apply stores last**: the watcher applies after the control thread and stores before it. -/
theorem not_storesLast_of_quiet : ¬ ∀ es s, exec (event decodeSample) startSample es = some s → s.Quiet →
    s.StoresLast := by
  intro h
  have hrun : (exec (event decodeSample) startSample (loadAndCall .control "no chain" ++ loadAndCall .watcher "one chain" ++
      [(.watcher, .store), (.watcher, .store), (.control, .store), (.control, .store)])).map
        (fun s => (s.pc .control, s.pc .watcher, s.rules, s.applied.head?.map Applied.ruleset)) =
      some (.idle, .idle, some noChains, some oneChain) := by rfl
  obtain ⟨s, hs, heq⟩ := Option.map_eq_some_iff.1 hrun
  simp only [Prod.mk.injEq] at heq
  obtain ⟨hcontrol, hwatcher, hrules, hlast⟩ := heq
  have hsame := (h _ s hs (quiet_of_idle hcontrol hwatcher)).1
  rw [hrules, hlast] at hsame
  exact absurd hsame (by decide)

/-! ## The diffs -/

def Pc.holdsDiff : Pc → Bool
  | .validate _ _ _ => true
  | .apply _ _ _ _ => true
  | _ => false

/-- No `backend.apply` succeeds while another thread holds a diff. -/
def AppliesAlone (s : State) (e : Thread × Act) : Prop :=
  ∀ backend rs diff computedAt validatedAt, e.2 = .call backend → s.pc e.1 = .apply rs diff computedAt validatedAt →
    backend.apply diff = .ok () → ∀ u, u ≠ e.1 → (s.pc u).holdsDiff = false

/-- Every diff was applied to the live state it was computed from and dry-run against. -/
def State.AppliesFresh (s : State) : Prop :=
  ∀ a ∈ s.applied, a.computedAt = a.appliedAt ∧ a.validatedAt = a.appliedAt

/-- A diff that a thread holds is of the present live state. -/
def Pc.freshAt (n : Nat) : Pc → Prop
  | .validate _ _ computedAt => computedAt = n
  | .apply _ _ computedAt validatedAt => computedAt = n ∧ validatedAt = n
  | _ => True

structure DiffsInv (s : State) : Prop where
  applied : s.AppliesFresh
  held : ∀ t, (s.pc t).freshAt s.applied.length

theorem Pc.freshAt_of_not_holdsDiff {pc : Pc} (n : Nat) (h : pc.holdsDiff = false) : pc.freshAt n := by
  cases pc <;> trivial

theorem diffsInv_goto {s : State} (t : Thread) {pc : Pc} (hinv : DiffsInv s) (hpc : pc.freshAt s.applied.length) :
    DiffsInv (s.goto t pc) := by
  refine ⟨hinv.applied, fun u => ?_⟩
  by_cases hut : u = t
  · subst hut
    rw [goto_pc_self]
    exact hpc
  · rw [goto_pc_of_ne s t u pc hut]
    exact hinv.held u

/-- **A success alone** puts a plan of the present live state on the dataplane, and no thread is left with an older
one. -/
theorem diffsInv_applied {s : State} {t : Thread} {a : Applied} (hinv : DiffsInv s)
    (hfresh : a.computedAt = a.appliedAt ∧ a.validatedAt = a.appliedAt)
    (halone : ∀ u, u ≠ t → (s.pc u).holdsDiff = false) :
    DiffsInv { s.goto t (.storeRules a) with applied := a :: s.applied } := by
  constructor
  · intro b hb
    rcases List.mem_cons.1 hb with rfl | hb
    · exact hfresh
    · exact hinv.applied b hb
  · intro u
    by_cases hut : u = t
    · subst hut
      show ((s.goto u (.storeRules a)).pc u).freshAt _
      rw [goto_pc_self]
      trivial
    · show ((s.goto t (.storeRules a)).pc u).freshAt _
      rw [goto_pc_of_ne s t u _ hut]
      exact Pc.freshAt_of_not_holdsDiff _ (halone u hut)

theorem diffsInv_step {s s' : State} {t : Thread} {a : Act} (hinv : DiffsInv s) (hg : AppliesAlone s (t, a))
    (h : Moves s t a s') : DiffsInv s' := by
  cases h with
  | refused path read hpc => exact hinv
  | loaded path read rs hpc hok => exact diffsInv_goto t hinv trivial
  | failed backend hpc => exact diffsInv_goto t hinv trivial
  | computed backend rs diff hpc => exact diffsInv_goto t hinv rfl
  | validated backend rs diff n hpc =>
    have hn : n = s.applied.length := by
      have := hinv.held t
      rwa [hpc] at this
    exact diffsInv_goto t hinv ⟨hn, rfl⟩
  | applied backend rs diff n m a hpc hok ha =>
    have hnm : n = s.applied.length ∧ m = s.applied.length := by
      have := hinv.held t
      rwa [hpc] at this
    exact diffsInv_applied hinv (by rw [ha]; exact hnm) (hg backend rs diff n m rfl hpc hok)
  | storedRules a hpc =>
    have h : DiffsInv (s.goto t (.storeLastApply a)) := diffsInv_goto t hinv trivial
    exact ⟨h.applied, h.held⟩
  | storedLastApply a hpc =>
    have h : DiffsInv (s.goto t .idle) := diffsInv_goto t hinv trivial
    exact ⟨h.applied, h.held⟩
  | readRules ht hpc => exact diffsInv_goto t hinv trivial
  | readLastApply current due hpc =>
    have h : DiffsInv (s.goto t .idle) := diffsInv_goto t hinv trivial
    exact ⟨h.applied, h.held⟩

/-- **While applies succeed alone, no stale diff reaches the dataplane.** -/
theorem appliesFresh {configPath : String} {rs : Ruleset} {diff : RulesetDiff} {es : List (Thread × Act)}
    {s : State} (hm : Meets (event fromStr) AppliesAlone (.start configPath rs diff) es)
    (h : exec (event fromStr) (.start configPath rs diff) es = some s) : s.AppliesFresh := by
  have hstart : DiffsInv (.start configPath rs diff) :=
    ⟨fun a ha => by rw [List.mem_singleton.1 ha]; exact ⟨rfl, rfl⟩, fun t => trivial⟩
  have hinv : DiffsInv s :=
    Machine.inv_of_meets (fun s e s' hs hg hstep => diffsInv_step hs hg (moves_of_step hstep)) hstart hm h
  exact hinv.applied

theorem appliesFresh_tandem : ∃ s : State, exec (event decodeSample) startSample tandem = some s ∧ s.AppliesFresh := by
  have hm : Meets (event decodeSample) AppliesAlone startSample tandem := by
    refine Machine.meets_cons nofun rfl (Machine.meets_cons nofun rfl (Machine.meets_cons ?_ rfl
      (Machine.meets_cons ?_ rfl (Machine.meets_cons ?_ rfl (Machine.meets_cons ?_ rfl (Machine.meets_cons ?_ rfl
      (Machine.meets_cons nofun rfl (Machine.meets_cons ?_ rfl (Machine.meets_cons nofun rfl
      (Machine.meets_cons nofun rfl (Machine.meets_cons nofun rfl trivial)))))))))))
    all_goals
      intro _ _ _ _ _ _ _ _ u hu
      cases u with
      | control => first | exact absurd rfl hu | rfl
      | watcher => first | exact absurd rfl hu | rfl
  obtain ⟨s, hs⟩ : ∃ s, exec (event decodeSample) startSample tandem = some s := ⟨_, rfl⟩
  exact ⟨s, hs, appliesFresh hm hs⟩

/-- **A stale diff is applied**: both threads compute and dry-run before either applies. -/
theorem not_appliesFresh : ¬ ∀ es s, exec (event decodeSample) startSample es = some s → s.AppliesFresh := by
  intro h
  have hrun : (exec (event decodeSample) startSample ((loadAndCall .control "one chain").take 3 ++
      loadAndCall .watcher "no chain" ++ [(.control, .call agreeable)])).map
        (fun s => s.applied.map (fun a => (a.computedAt, a.appliedAt))) = some [(1, 2), (1, 1), (0, 0)] := by rfl
  obtain ⟨s, hs, heq⟩ := Option.map_eq_some_iff.1 hrun
  obtain ⟨a, ha, hpair⟩ : ∃ a ∈ s.applied, (a.computedAt, a.appliedAt) = (1, 2) :=
    List.mem_map.1 (heq ▸ List.mem_cons_self)
  have hfresh := (h _ s hs a ha).1
  simp only [Prod.mk.injEq] at hpair
  omega

end Threads
end Portcullis
