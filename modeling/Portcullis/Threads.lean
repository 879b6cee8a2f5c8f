import Portcullis.Daemon
import Portcullis.Lib.Machine
import Mathlib.Logic.Function.Basic
/-!
# Threads — the control thread and the watcher, interleaved (`state.rs`, `control.rs`)

After startup two threads run through `DaemonState::apply`, which takes no lock from its first backend call to its last
store.  A step of a thread is one backend call, one store or one read of a field.  `applied` keeps, newest first, the
`backend.apply` calls that succeeded; the counts it holds are what later theorems speak about, the code has none of it.
-/
namespace Portcullis
namespace Threads

open Machine (exec)

inductive Thread where
  | control
  | watcher
  deriving DecidableEq, Repr

/-- A `backend.apply` that succeeded, with the number of earlier ones when its diff was computed, dry-run and applied. -/
structure Applied where
  ruleset : Ruleset
  outcome : ApplyOutcome
  computedAt : Nat
  validatedAt : Nat
  appliedAt : Nat
  deriving DecidableEq, Repr

/-- The next step of a thread: a backend call of `DaemonState::apply`, a store of it, or the second read of `Status`. -/
inductive Pc where
  | idle
  | computeDiff (ruleset : Ruleset)
  | validate (ruleset : Ruleset) (diff : RulesetDiff) (computedAt : Nat)
  | apply (ruleset : Ruleset) (diff : RulesetDiff) (computedAt validatedAt : Nat)
  | storeRules (a : Applied)
  | storeLastApply (a : Applied)
  | status (current : Option Ruleset) (due : Nat)
  deriving DecidableEq, Repr

structure State where
  configPath : String
  rules : Option Ruleset
  lastApply : Option ApplyOutcome
  pc : Thread → Pc
  applied : List Applied
  /-- Stores to `last_apply` so far. -/
  stores : Nat
  payloads : List StatusPayload

def State.goto (s : State) (t : Thread) (pc : Pc) : State := { s with pc := Function.update s.pc t pc }

inductive Act where
  | load (path : String) (read : Except String String)
  | call (backend : Backend)
  | store
  | readRules
  | readLastApply

/-- Stores to `last_apply` when the watcher is done with the apply it is storing. -/
def State.due (s : State) : Nat :=
  match s.pc .watcher with
  | .storeLastApply _ => s.stores + 1
  | _ => s.stores

variable (fromStr : String → Except String FileConfig)

/-- One step of a thread.  `load` is `Apply`, `Reload` or a poll up to `DaemonState::apply`; the reads are the control
thread's, as only `Status` has them. -/
def step (s : State) (t : Thread) (a : Act) : Option State :=
  match s.pc t, a with
  | .idle, .load path read =>
    match loadRuleset fromStr path read with
    | .ok rs => some (s.goto t (.computeDiff rs))
    | .error _ => some s
  | .computeDiff rs, .call backend =>
    match backend.computeDiff (desiredNetctlRuleset rs) with
    | .ok diff => some (s.goto t (.validate rs diff s.applied.length))
    | .error _ => some (s.goto t .idle)
  | .validate rs diff computedAt, .call backend =>
    match backend.validate diff with
    | .ok () => some (s.goto t (.apply rs diff computedAt s.applied.length))
    | .error _ => some (s.goto t .idle)
  | .apply rs diff computedAt validatedAt, .call backend =>
    match backend.apply diff with
    | .ok () =>
      let a : Applied := ⟨rs, applyOutcome rs diff, computedAt, validatedAt, s.applied.length⟩
      some { s.goto t (.storeRules a) with applied := a :: s.applied }
    | .error _ => some (s.goto t .idle)
  | .storeRules a, .store => some { s.goto t (.storeLastApply a) with rules := some a.ruleset }
  | .storeLastApply a, .store =>
    some { s.goto t .idle with lastApply := some a.outcome, stores := s.stores + 1 }
  | .idle, .readRules => if t = .control then some (s.goto t (.status s.rules s.due)) else none
  | .status current _, .readLastApply =>
    some { s.goto t .idle with payloads := statusPayload s.configPath current s.lastApply :: s.payloads }
  | _, _ => none

def event (s : State) (e : Thread × Act) : Option State := step fromStr s e.1 e.2

/-- The state startup leaves, its apply being the first. -/
def State.start (configPath : String) (rs : Ruleset) (diff : RulesetDiff) : State where
  configPath := configPath
  rules := some rs
  lastApply := some (applyOutcome rs diff)
  pc := fun _ => .idle
  applied := [⟨rs, applyOutcome rs diff, 0, 0, 0⟩]
  stores := 1
  payloads := []

/-! ## What a step does -/

section Goto

variable (s : State) (t u : Thread) (pc : Pc)

@[simp] theorem goto_pc_self : (s.goto t pc).pc t = pc := Function.update_self ..

@[simp] theorem goto_pc_of_ne (h : u ≠ t) : (s.goto t pc).pc u = s.pc u := Function.update_of_ne h ..

@[simp] theorem goto_goto (pc' : Pc) : (s.goto t pc).goto t pc' = s.goto t pc' := by
  simp [State.goto]

@[simp] theorem goto_rules : (s.goto t pc).rules = s.rules := rfl

@[simp] theorem goto_lastApply : (s.goto t pc).lastApply = s.lastApply := rfl

@[simp] theorem goto_applied : (s.goto t pc).applied = s.applied := rfl

end Goto

def Pc.calls : Pc → Bool
  | .computeDiff _ => true
  | .validate _ _ _ => true
  | .apply _ _ _ _ => true
  | _ => false

/-- The steps of thread `t`, one constructor for each way out of a branch. -/
inductive Moves (s : State) (t : Thread) : Act → State → Prop where
  | refused (path : String) (read : Except String String) (hpc : s.pc t = .idle) : Moves s t (.load path read) s
  | loaded (path : String) (read : Except String String) (rs : Ruleset) (hpc : s.pc t = .idle)
      (hok : verify rs = .ok ()) : Moves s t (.load path read) (s.goto t (.computeDiff rs))
  | failed (backend : Backend) (hpc : (s.pc t).calls = true) : Moves s t (.call backend) (s.goto t .idle)
  | computed (backend : Backend) (rs : Ruleset) (diff : RulesetDiff) (hpc : s.pc t = .computeDiff rs) :
      Moves s t (.call backend) (s.goto t (.validate rs diff s.applied.length))
  | validated (backend : Backend) (rs : Ruleset) (diff : RulesetDiff) (computedAt : Nat)
      (hpc : s.pc t = .validate rs diff computedAt) :
      Moves s t (.call backend) (s.goto t (.apply rs diff computedAt s.applied.length))
  | applied (backend : Backend) (rs : Ruleset) (diff : RulesetDiff) (computedAt validatedAt : Nat) (a : Applied)
      (hpc : s.pc t = .apply rs diff computedAt validatedAt) (hok : backend.apply diff = .ok ())
      (ha : a = ⟨rs, applyOutcome rs diff, computedAt, validatedAt, s.applied.length⟩) :
      Moves s t (.call backend) { s.goto t (.storeRules a) with applied := a :: s.applied }
  | storedRules (a : Applied) (hpc : s.pc t = .storeRules a) :
      Moves s t .store { s.goto t (.storeLastApply a) with rules := some a.ruleset }
  | storedLastApply (a : Applied) (hpc : s.pc t = .storeLastApply a) :
      Moves s t .store { s.goto t .idle with lastApply := some a.outcome, stores := s.stores + 1 }
  | readRules (ht : t = .control) (hpc : s.pc t = .idle) : Moves s t .readRules (s.goto t (.status s.rules s.due))
  | readLastApply (current : Option Ruleset) (due : Nat) (hpc : s.pc t = .status current due) :
      Moves s t .readLastApply
        { s.goto t .idle with payloads := statusPayload s.configPath current s.lastApply :: s.payloads }

variable {fromStr}

/-- **What a step does**, branch by branch. -/
theorem moves_of_step {s s' : State} {t : Thread} {a : Act} (h : step fromStr s t a = some s') :
    Moves s t a s' := by
  unfold step at h
  split at h
  · rename_i path read hpc
    split at h
    · rename_i rs hl
      exact Option.some.inj h ▸ .loaded path read rs hpc (verify_of_loadRuleset fromStr hl)
    · exact Option.some.inj h ▸ .refused path read hpc
  · rename_i rs backend hpc
    split at h
    · exact Option.some.inj h ▸ .computed backend rs _ hpc
    · exact Option.some.inj h ▸ .failed backend (by rw [hpc]; rfl)
  · rename_i rs diff computedAt backend hpc
    split at h
    · exact Option.some.inj h ▸ .validated backend rs diff computedAt hpc
    · exact Option.some.inj h ▸ .failed backend (by rw [hpc]; rfl)
  · rename_i rs diff computedAt validatedAt backend hpc
    split at h
    · rename_i hok
      exact Option.some.inj h ▸ .applied backend rs diff computedAt validatedAt _ hpc hok rfl
    · exact Option.some.inj h ▸ .failed backend (by rw [hpc]; rfl)
  · rename_i a hpc
    exact Option.some.inj h ▸ .storedRules a hpc
  · rename_i a hpc
    exact Option.some.inj h ▸ .storedLastApply a hpc
  · rename_i hpc
    split at h
    · rename_i ht
      exact Option.some.inj h ▸ .readRules ht hpc
    · cases h
  · rename_i current due hpc
    exact Option.some.inj h ▸ .readLastApply current due hpc
  · cases h

/-! ## One thread alone -/

def State.daemon (s : State) : DaemonState := ⟨s.configPath, s.rules, s.lastApply⟩

/-- What an apply of `rs` that `t` runs alone leaves of `s`: the fields and the applies of the sequential model. -/
structure RanApply (s : State) (t : Thread) (backend : Backend) (rs : Ruleset) (s' : State) : Prop where
  idle : s'.pc t = .idle
  others : ∀ u, u ≠ t → s'.pc u = s.pc u
  daemon : s'.daemon = (s.daemon.apply backend rs).state
  applied : s'.applied.map Applied.ruleset =
    (if (s.daemon.apply backend rs).result.isOk then [rs] else []) ++ s.applied.map Applied.ruleset
  payloads : s'.payloads = s.payloads

/-- `s` after an apply of `rs` that `t` ran alone and the backend took. -/
def State.stored (s : State) (t : Thread) (rs : Ruleset) (diff : RulesetDiff) : State :=
  { s.goto t .idle with
    rules := some rs
    lastApply := some (applyOutcome rs diff)
    applied := ⟨rs, applyOutcome rs diff, s.applied.length, s.applied.length, s.applied.length⟩ :: s.applied
    stores := s.stores + 1 }

theorem RanApply.of_failed {s : State} {t : Thread} {backend : Backend} {rs : Ruleset} {e : BridgeError}
    {calls : List Call} (h : s.daemon.apply backend rs = ⟨.error e, s.daemon, calls⟩) :
    RanApply s t backend rs (s.goto t .idle) where
  idle := goto_pc_self s t .idle
  others := fun u hu => goto_pc_of_ne s t u .idle hu
  daemon := by rw [h]; rfl
  applied := by rw [h]; rfl
  payloads := rfl

/-- **A thread left alone runs `DaemonState::apply`**, from its first backend call to its last store. -/
theorem exec_apply (s : State) (t : Thread) (backend : Backend) (rs : Ruleset) (hpc : s.pc t = .computeDiff rs) :
    ∃ (acts : List Act) (s' : State), (∀ a ∈ acts, a = .call backend ∨ a = .store) ∧
      exec (event fromStr) s (acts.map (Prod.mk t)) = some s' ∧ RanApply s t backend rs s' := by
  cases hc : backend.computeDiff (desiredNetctlRuleset rs) with
  | error e =>
    have hrun : s.daemon.apply backend rs =
        ⟨.error (.validate e), s.daemon, [.computeDiff (desiredNetctlRuleset rs) (.error e)]⟩ := by
      simp [DaemonState.apply, hc]
    exact ⟨[.call backend], s.goto t .idle, by simp, by simp [event, step, hpc, hc], .of_failed hrun⟩
  | ok diff =>
    cases hv : backend.validate diff with
    | error e =>
      have hrun : s.daemon.apply backend rs = ⟨.error (.validate e), s.daemon,
          [.computeDiff (desiredNetctlRuleset rs) (.ok diff), .validate diff (.error e)]⟩ := by
        simp [DaemonState.apply, hc, hv]
      exact ⟨[.call backend, .call backend], s.goto t .idle, by simp, by simp [event, step, hpc, hc, hv],
        .of_failed hrun⟩
    | ok _ =>
      cases ha : backend.apply diff with
      | error e =>
        have hrun : s.daemon.apply backend rs = ⟨.error (.apply e), s.daemon,
            [.computeDiff (desiredNetctlRuleset rs) (.ok diff), .validate diff (.ok ()), .apply diff (.error e)]⟩ := by
          simp [DaemonState.apply, hc, hv, ha]
        exact ⟨[.call backend, .call backend, .call backend], s.goto t .idle, by simp,
          by simp [event, step, hpc, hc, hv, ha], .of_failed hrun⟩
      | ok _ =>
        have hrun : s.daemon.apply backend rs = ⟨.ok (applyOutcome rs diff),
            { s.daemon with rules := some rs, lastApply := some (applyOutcome rs diff) },
            [.computeDiff (desiredNetctlRuleset rs) (.ok diff), .validate diff (.ok ()), .apply diff (.ok ())]⟩ := by
          simp [DaemonState.apply, hc, hv, ha]
        have hexec : exec (event fromStr) s
            ([.call backend, .call backend, .call backend, .store, .store].map (Prod.mk t)) =
              some (s.stored t rs diff) := by
          simp [event, step, hpc, hc, hv, ha, State.goto, State.stored]
        refine ⟨_, s.stored t rs diff, by simp, hexec, goto_pc_self s t .idle, fun u hu => goto_pc_of_ne s t u .idle hu,
          ?_, ?_, rfl⟩
        · rw [hrun]
          rfl
        · rw [hrun]
          rfl

/-! ## A small world -/

def noChains : Ruleset := .new []

def oneChain : Ruleset := .new [{ name := "input", rules := [], defaultPolicy := .drop }]

def decodeSample (text : String) : Except String FileConfig := .ok (if text = "one chain" then ⟨oneChain⟩ else ⟨noChains⟩)

def agreeable : Backend := ⟨fun _ => .ok {}, fun _ => .ok (), fun _ => .ok ()⟩

def startSample : State := .start "fw.toml" noChains {}

def loadAndCall (t : Thread) (text : String) : List (Thread × Act) :=
  (t, .load "fw.toml" (.ok text)) :: List.replicate 3 (t, .call agreeable)

/-- The control thread applies; the watcher starts before it is done, and applies while it stores. -/
def tandem : List (Thread × Act) := [
  (.control, .load "fw.toml" (.ok "one chain")),
  (.watcher, .load "fw.toml" (.ok "no chain")),
  (.control, .call agreeable),
  (.control, .call agreeable),
  (.control, .call agreeable),
  (.watcher, .call agreeable),
  (.watcher, .call agreeable),
  (.control, .store),
  (.watcher, .call agreeable),
  (.control, .store),
  (.watcher, .store),
  (.watcher, .store)]

end Threads
end Portcullis
