import Portcullis.Threads
/-!
# Status — a status read against the watcher's stores

`Status` reads `rules` and `last_apply` one after the other, and an apply stores them one after the other.  The payload
is whole when the store of `last_apply` that belongs to the ruleset read, and no later one, comes before the second
read (`whole_of_meets`); otherwise it pairs one ruleset with the outcome of another.
-/
namespace Portcullis
namespace Threads

open Machine (exec Meets)

variable {fromStr : String → Except String FileConfig}

structure Describes (o : ApplyOutcome) (rs : Ruleset) : Prop where
  version : o.version = rs.version
  chains : o.chains = rs.chains.length
  rules : o.rules = rs.iterRules.length

def Matched (rules : Option Ruleset) (lastApply : Option ApplyOutcome) : Prop :=
  ∃ rs o, rules = some rs ∧ lastApply = some o ∧ Describes o rs

/-- A loaded payload's last apply is the apply of what it says is loaded. -/
def Whole (p : StatusPayload) : Prop :=
  p.loaded = true → ∃ o, p.lastApply = some o ∧ p.version = some o.version ∧ p.chains = some o.chains ∧
    p.rules = some o.rules

/-- The control thread only answers `Status`. -/
def StatusOnly (e : Thread × Act) : Prop := e.1 = .control → e.2 = .readRules ∨ e.2 = .readLastApply

/-- The second read finds the stores to `last_apply` that were due at the first one, and no more. -/
def ReadsDue (s : State) (e : Thread × Act) : Prop :=
  ∀ current due, e.2 = .readLastApply → s.pc e.1 = .status current due → s.stores = due

theorem describes_applyOutcome (rs : Ruleset) (diff : RulesetDiff) : Describes (applyOutcome rs diff) rs :=
  ⟨rfl, rfl, rfl⟩

theorem whole_of_matched {configPath : String} {current : Option Ruleset} {lastApply : Option ApplyOutcome}
    (h : Matched current lastApply) : Whole (statusPayload configPath current lastApply) := by
  obtain ⟨rs, o, rfl, rfl, ho⟩ := h
  intro _
  exact ⟨o, rfl, by simp [statusPayload, ho.version], by simp [statusPayload, ho.chains],
    by simp [statusPayload, ho.rules]⟩

/-- Where the watcher is between its two stores, `rules` is one store ahead of `last_apply`; a read of `rules` made
then waits for that store. -/
structure StatusInv (s : State) : Prop where
  described : ∀ a, s.pc .watcher = .storeRules a ∨ s.pc .watcher = .storeLastApply a → Describes a.outcome a.ruleset
  watcher : ∀ current due, s.pc .watcher ≠ .status current due
  ahead : ∀ a, s.pc .watcher = .storeLastApply a → s.rules = some a.ruleset
  matched : (∀ a, s.pc .watcher ≠ .storeLastApply a) → Matched s.rules s.lastApply
  reading : ∀ current due, s.pc .control = .status current due →
    (due = s.stores ∧ Matched current s.lastApply) ∨
    (due = s.stores + 1 ∧ ∃ a, s.pc .watcher = .storeLastApply a ∧ current = some a.ruleset) ∨ due < s.stores
  payloads : ∀ p ∈ s.payloads, Whole p

theorem due_of_storing {s : State} {a : Applied} (h : s.pc .watcher = .storeLastApply a) : s.due = s.stores + 1 := by
  simp [State.due, h]

theorem due_of_not_storing {s : State} (h : ∀ a, s.pc .watcher ≠ .storeLastApply a) : s.due = s.stores := by
  unfold State.due
  split
  · rename_i a ha
    exact absurd ha (h a)
  · rfl

theorem statusInv_goto {s : State} {pc : Pc} (hinv : StatusInv s) (hpc : ∀ a, s.pc .watcher ≠ .storeLastApply a)
    (hdesc : ∀ a, pc = .storeRules a → Describes a.outcome a.ruleset) (hlast : ∀ a, pc ≠ .storeLastApply a)
    (hstatus : ∀ current due, pc ≠ .status current due) : StatusInv (s.goto .watcher pc) where
  described a h := by
    rw [goto_pc_self] at h
    rcases h with h | h
    · exact hdesc a h
    · exact absurd h (hlast a)
  watcher current due := by
    rw [goto_pc_self]
    exact hstatus current due
  ahead a h := by
    rw [goto_pc_self] at h
    exact absurd h (hlast a)
  matched _ := hinv.matched hpc
  reading current due h := by
    rw [goto_pc_of_ne s .watcher .control pc (by decide)] at h
    rcases hinv.reading current due h with h | ⟨-, a, ha, -⟩ | h
    · exact Or.inl h
    · exact absurd ha (hpc a)
    · exact Or.inr (Or.inr h)
  payloads := hinv.payloads

/-- A step of the control thread changes what is being read, or what has been answered. -/
theorem statusInv_control {s : State} {pc : Pc} {payloads : List StatusPayload} (hinv : StatusInv s)
    (hreading : ∀ current due, pc = .status current due → (due = s.stores ∧ Matched current s.lastApply) ∨
      (due = s.stores + 1 ∧ ∃ a, s.pc .watcher = .storeLastApply a ∧ current = some a.ruleset) ∨ due < s.stores)
    (hwhole : ∀ p ∈ payloads, Whole p) : StatusInv { s.goto .control pc with payloads := payloads } := by
  have hsame : (s.goto .control pc).pc .watcher = s.pc .watcher := goto_pc_of_ne s .control .watcher pc (by decide)
  refine ⟨?_, ?_, ?_, ?_, ?_, hwhole⟩
  · intro a h
    exact hinv.described a (hsame ▸ h)
  · intro current due h
    exact hinv.watcher current due (hsame ▸ h)
  · intro a h
    exact hinv.ahead a (hsame ▸ h)
  · intro h
    exact hinv.matched (hsame ▸ h)
  · intro current due h
    have hself : (s.goto .control pc).pc .control = pc := goto_pc_self s .control pc
    rw [hself] at h
    rw [hsame]
    exact hreading current due h

theorem statusInv_readRules {s : State} (hinv : StatusInv s) : StatusInv (s.goto .control (.status s.rules s.due)) := by
  refine statusInv_control hinv (fun current due h => ?_) hinv.payloads
  cases h
  by_cases hstore : ∃ a, s.pc .watcher = .storeLastApply a
  · obtain ⟨a, ha⟩ := hstore
    exact Or.inr (Or.inl ⟨due_of_storing ha, a, ha, hinv.ahead a ha⟩)
  · have hnot : ∀ a, s.pc .watcher ≠ .storeLastApply a := fun a ha => hstore ⟨a, ha⟩
    exact Or.inl ⟨due_of_not_storing hnot, hinv.matched hnot⟩

theorem statusInv_readLastApply {s : State} {current : Option Ruleset} (hinv : StatusInv s)
    (hpc : s.pc .control = .status current s.stores) :
    StatusInv { s.goto .control .idle with payloads := statusPayload s.configPath current s.lastApply :: s.payloads } := by
  have hmatched : Matched current s.lastApply := by
    rcases hinv.reading current s.stores hpc with ⟨-, h⟩ | ⟨h, -⟩ | h
    · exact h
    · omega
    · omega
  refine statusInv_control hinv nofun (fun p hp => ?_)
  rcases List.mem_cons.1 hp with rfl | hp
  · exact whole_of_matched hmatched
  · exact hinv.payloads p hp

/-- The watcher's store to `rules` puts it one ahead. -/
theorem statusInv_storeRules {s : State} {a : Applied} (hinv : StatusInv s) (hpc : s.pc .watcher = .storeRules a) :
    StatusInv { s.goto .watcher (.storeLastApply a) with rules := some a.ruleset } := by
  have hsame : (s.goto .watcher (.storeLastApply a)).pc .control = s.pc .control :=
    goto_pc_of_ne s .watcher .control _ (by decide)
  have hself : (s.goto .watcher (.storeLastApply a)).pc .watcher = .storeLastApply a := goto_pc_self s .watcher _
  refine ⟨?_, ?_, ?_, ?_, ?_, hinv.payloads⟩
  · intro b hb
    rw [hself] at hb
    rcases hb with hb | hb <;> cases hb
    exact hinv.described a (Or.inl hpc)
  · simp
  · intro b hb
    rw [hself] at hb
    cases hb
    rfl
  · intro h
    exact absurd hself (h a)
  · intro current due h
    rw [hsame] at h
    rcases hinv.reading current due h with h | ⟨-, b, hb, -⟩ | h
    · exact Or.inl h
    · rw [hpc] at hb
      cases hb
    · exact Or.inr (Or.inr h)

/-- The watcher's store to `last_apply` is the one a read in between waits for. -/
theorem statusInv_storeLastApply {s : State} {a : Applied} (hinv : StatusInv s)
    (hpc : s.pc .watcher = .storeLastApply a) :
    StatusInv { s.goto .watcher .idle with lastApply := some a.outcome, stores := s.stores + 1 } := by
  have hsame : (s.goto .watcher .idle).pc .control = s.pc .control := goto_pc_of_ne s .watcher .control _ (by decide)
  have hself : (s.goto .watcher .idle).pc .watcher = .idle := goto_pc_self s .watcher _
  have hdesc := hinv.described a (Or.inr hpc)
  refine ⟨?_, ?_, ?_, ?_, ?_, hinv.payloads⟩
  · intro b hb
    rw [hself] at hb
    rcases hb with hb | hb <;> cases hb
  · simp
  · intro b hb
    rw [hself] at hb
    cases hb
  · intro _
    exact ⟨a.ruleset, a.outcome, hinv.ahead a hpc, rfl, hdesc⟩
  · intro current due h
    rw [hsame] at h
    rcases hinv.reading current due h with ⟨h, -⟩ | ⟨h, b, hb, hcur⟩ | h
    · exact Or.inr (Or.inr (h ▸ Nat.lt_succ_self _))
    · rw [hpc] at hb
      cases hb
      exact Or.inl ⟨h, a.ruleset, a.outcome, hcur, rfl, hdesc⟩
    · exact Or.inr (Or.inr (Nat.lt_succ_of_lt h))

theorem statusInv_step {s s' : State} {t : Thread} {a : Act} (hinv : StatusInv s) (hstatus : StatusOnly (t, a))
    (hg : ReadsDue s (t, a)) (h : Moves s t a s') : StatusInv s' := by
  cases t with
  | control =>
    rcases hstatus rfl with rfl | rfl
    · cases h with
      | readRules _ hpc => exact statusInv_readRules hinv
    · cases h with
      | readLastApply current due hpc =>
        obtain rfl : s.stores = due := hg current due rfl hpc
        exact statusInv_readLastApply hinv hpc
  | watcher =>
    cases h with
    | refused path read hpc => exact hinv
    | loaded path read rs hpc hok => exact statusInv_goto hinv (by simp [hpc]) (by simp) (by simp) (by simp)
    | failed backend hpc =>
      refine statusInv_goto hinv (fun a ha => ?_) (by simp) (by simp) (by simp)
      rw [ha] at hpc
      cases hpc
    | computed backend rs diff hpc => exact statusInv_goto hinv (by simp [hpc]) (by simp) (by simp) (by simp)
    | validated backend rs diff n hpc => exact statusInv_goto hinv (by simp [hpc]) (by simp) (by simp) (by simp)
    | applied backend rs diff n m a hpc hok ha =>
      have h : StatusInv (s.goto .watcher (.storeRules a)) := by
        refine statusInv_goto hinv (by simp [hpc]) (fun b hb => ?_) (by simp) (by simp)
        cases hb
        rw [ha]
        exact describes_applyOutcome rs diff
      exact ⟨h.described, h.watcher, h.ahead, h.matched, h.reading, h.payloads⟩
    | storedRules a hpc => exact statusInv_storeRules hinv hpc
    | storedLastApply a hpc => exact statusInv_storeLastApply hinv hpc
    | readRules ht hpc => cases ht
    | readLastApply current due hpc => exact absurd hpc (hinv.watcher current due)

/-- **A status whose second read finds what was due is whole.** -/
theorem whole_of_meets {configPath : String} {rs : Ruleset} {diff : RulesetDiff} {es : List (Thread × Act)} {s : State}
    (hstatus : ∀ e ∈ es, StatusOnly e) (hm : Meets (event fromStr) ReadsDue (.start configPath rs diff) es)
    (h : exec (event fromStr) (.start configPath rs diff) es = some s) : ∀ p ∈ s.payloads, Whole p := by
  have hstart : StatusInv (.start configPath rs diff) := by
    refine ⟨?_, ?_, ?_, fun _ => ⟨rs, applyOutcome rs diff, rfl, rfl, describes_applyOutcome rs diff⟩, ?_, ?_⟩ <;>
      simp [State.start]
  have hinv : StatusInv s := Machine.inv_of_meets
    (fun s e s' hs hg hstep => statusInv_step hs hg.1 hg.2 (moves_of_step hstep)) hstart
    (Machine.meets_and (Machine.meets_of_forall _ hstatus) hm) h
  exact hinv.payloads

def statusBetween : List (Thread × Act) :=
  loadAndCall .watcher "one chain" ++
    [(.watcher, .store), (.control, .readRules), (.watcher, .store), (.control, .readLastApply)]

theorem whole_of_meets_statusBetween : ∃ s : State, exec (event decodeSample) startSample statusBetween = some s ∧
    ∀ p ∈ s.payloads, Whole p := by
  have hstatus : ∀ e ∈ statusBetween, StatusOnly e := by
    simp [statusBetween, loadAndCall, StatusOnly]
  have hm : Meets (event decodeSample) ReadsDue startSample statusBetween := by
    have hskip (s : State) (t : Thread) {a : Act} (ha : a ≠ .readLastApply) : ReadsDue s (t, a) :=
      fun _ _ h => absurd h ha
    refine Machine.meets_cons (hskip _ _ nofun) rfl (Machine.meets_cons (hskip _ _ nofun) rfl
      (Machine.meets_cons (hskip _ _ nofun) rfl (Machine.meets_cons (hskip _ _ nofun) rfl
      (Machine.meets_cons (hskip _ _ nofun) rfl (Machine.meets_cons (hskip _ _ nofun) rfl
      (Machine.meets_cons (hskip _ _ nofun) rfl (Machine.meets_cons ?_ rfl trivial)))))))
    intro current due _ h
    cases h
    rfl
  obtain ⟨s, hs⟩ : ∃ s, exec (event decodeSample) startSample statusBetween = some s := ⟨_, rfl⟩
  exact ⟨s, hs, whole_of_meets hstatus hm hs⟩

/-- **A torn status**: the new ruleset with the old outcome, both reads between the watcher's two stores. -/
theorem not_whole : ¬ ∀ es s, (∀ e ∈ es, StatusOnly e) → exec (event decodeSample) startSample es = some s →
    ∀ p ∈ s.payloads, Whole p := by
  intro h
  have hrun : (exec (event decodeSample) startSample (loadAndCall .watcher "one chain" ++
      [(.watcher, .store), (.control, .readRules), (.control, .readLastApply)])).map State.payloads =
        some [statusPayload "fw.toml" (some oneChain) (some (applyOutcome noChains {}))] := by rfl
  obtain ⟨s, hs, heq⟩ := Option.map_eq_some_iff.1 hrun
  have hwhole := h _ s (by simp [loadAndCall, StatusOnly]) hs _ (heq ▸ List.mem_cons_self) rfl
  obtain ⟨o, ho, -, hchains, -⟩ := hwhole
  cases ho
  exact absurd hchains (by decide)

end Threads
end Portcullis
