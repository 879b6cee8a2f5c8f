import Portcullis.Config
import Portcullis.Bridge
/-!
# Daemon — the daemon's state and its operations (`state.rs`, `control.rs`)

What the world answers an operation is its `Env`: the files, the config's mtime and the backend as the operation meets
them.  Each operation returns, beside its result and the daemon's state, what it said to the backend.
-/
namespace Portcullis

inductive BridgeError where
  | validate (e : String)
  | apply (e : String)
  | connect (e : String)
  deriving DecidableEq, Repr

def BridgeError.display : BridgeError → String
  | .validate e => s!"netctl validate failed: {e}"
  | .apply e => s!"netctl apply failed: {e}"
  | .connect e => s!"failed to connect dataplane backend: {e}"

structure ApplyOutcome where
  version : UInt64
  chains : Nat
  rules : Nat
  plannedChanges : Nat
  deriving DecidableEq, Repr

/-- The dataplane backend (netctl): an error is its text. -/
structure Backend where
  computeDiff : Ruleset → Except String RulesetDiff
  validate : RulesetDiff → Except String Unit
  apply : RulesetDiff → Except String Unit

inductive Call where
  | computeDiff (desired : Ruleset) (reply : Except String RulesetDiff)
  | validate (diff : RulesetDiff) (reply : Except String Unit)
  | apply (diff : RulesetDiff) (reply : Except String Unit)

structure DaemonState where
  configPath : String
  rules : Option Ruleset
  lastApply : Option ApplyOutcome

def DaemonState.new (configPath : String) (connect : Except String Unit) : Except BridgeError DaemonState :=
  match connect with
  | .error e => .error (.connect e)
  | .ok () => .ok { configPath := configPath, rules := none, lastApply := none }

def applyOutcome (ruleset : Ruleset) (diff : RulesetDiff) : ApplyOutcome where
  version := ruleset.version
  chains := ruleset.chains.length
  rules := ruleset.iterRules.length
  plannedChanges := diff.len

/-- What a call of `DaemonState::apply` returns, leaves and said to the backend. -/
structure ApplyRun where
  result : Except BridgeError ApplyOutcome
  state : DaemonState
  calls : List Call

def DaemonState.apply (state : DaemonState) (backend : Backend) (ruleset : Ruleset) : ApplyRun :=
  let desired := desiredNetctlRuleset ruleset
  match backend.computeDiff desired with
  | .error e => ⟨.error (.validate e), state, [.computeDiff desired (.error e)]⟩
  | .ok diff =>
    match backend.validate diff with
    | .error e => ⟨.error (.validate e), state, [.computeDiff desired (.ok diff), .validate diff (.error e)]⟩
    | .ok () =>
      match backend.apply diff with
      | .error e =>
        ⟨.error (.apply e), state,
          [.computeDiff desired (.ok diff), .validate diff (.ok ()), .apply diff (.error e)]⟩
      | .ok () =>
        let outcome := applyOutcome ruleset diff
        ⟨.ok outcome, { state with rules := some ruleset, lastApply := some outcome },
          [.computeDiff desired (.ok diff), .validate diff (.ok ()), .apply diff (.ok ())]⟩

/-- **The four ways out of `DaemonState::apply`.** -/
theorem apply_cases (state : DaemonState) (backend : Backend) (rs : Ruleset) :
    (∃ e, state.apply backend rs =
      ⟨.error (.validate e), state, [.computeDiff (desiredNetctlRuleset rs) (.error e)]⟩) ∨
    (∃ diff e, state.apply backend rs = ⟨.error (.validate e), state,
      [.computeDiff (desiredNetctlRuleset rs) (.ok diff), .validate diff (.error e)]⟩) ∨
    (∃ diff e, state.apply backend rs = ⟨.error (.apply e), state,
      [.computeDiff (desiredNetctlRuleset rs) (.ok diff), .validate diff (.ok ()), .apply diff (.error e)]⟩) ∨
    ∃ diff, state.apply backend rs = ⟨.ok (applyOutcome rs diff),
      { state with rules := some rs, lastApply := some (applyOutcome rs diff) },
      [.computeDiff (desiredNetctlRuleset rs) (.ok diff), .validate diff (.ok ()), .apply diff (.ok ())]⟩ := by
  cases hc : backend.computeDiff (desiredNetctlRuleset rs) with
  | error e => exact Or.inl ⟨e, by simp [DaemonState.apply, hc]⟩
  | ok diff =>
    cases hv : backend.validate diff with
    | error e => exact Or.inr (Or.inl ⟨diff, e, by simp [DaemonState.apply, hc, hv]⟩)
    | ok _ =>
      cases ha : backend.apply diff with
      | error e => exact Or.inr (Or.inr (Or.inl ⟨diff, e, by simp [DaemonState.apply, hc, hv, ha]⟩))
      | ok _ => exact Or.inr (Or.inr (Or.inr ⟨diff, by simp [DaemonState.apply, hc, hv, ha]⟩))

/-! ## The control plane -/

inductive Request where
  | validate (path : String)
  | apply (path : String)
  | reload
  | status
  deriving DecidableEq, Repr

structure StatusPayload where
  configPath : String
  loaded : Bool
  version : Option UInt64
  chains : Option Nat
  rules : Option Nat
  lastApply : Option ApplyOutcome
  deriving DecidableEq, Repr

structure Response where
  ok : Bool
  error : Option String := none
  applied : Option ApplyOutcome := none
  status : Option StatusPayload := none
  message : Option String := none
  deriving DecidableEq, Repr

def Response.okEmpty : Response := { ok := true }

def Response.err (msg : String) : Response := { ok := false, error := some msg }

/-- The payload of `Status`, from the two fields as they were read. -/
def statusPayload (configPath : String) (current : Option Ruleset) (lastApply : Option ApplyOutcome) : StatusPayload where
  configPath := configPath
  loaded := current.isSome
  version := current.map Ruleset.version
  chains := current.map (fun r => r.chains.length)
  rules := current.map (fun r => r.iterRules.length)
  lastApply := lastApply

/-- What an operation meets: file contents, the config's mtime (`none`: no metadata), the backend, and at startup the
connection and the control socket. -/
structure Env where
  files : String → Except String String
  mtime : Option Nat
  backend : Backend
  connect : Except String Unit
  bind : Except String Unit

structure ApplyRecord where
  ruleset : Ruleset
  calls : List Call

variable (fromStr : String → Except String FileConfig)

/-- The body `Apply` and `Reload` share: load, then apply. -/
def applyFile (env : Env) (state : DaemonState) (path : String) :
    Except String ApplyOutcome × DaemonState × List ApplyRecord :=
  match loadRuleset fromStr path (env.files path) with
  | .error e => (.error e.display, state, [])
  | .ok rs =>
    let run := state.apply env.backend rs
    (run.result.mapError BridgeError.display, run.state, [⟨rs, run.calls⟩])

def applyResponse : Except String ApplyOutcome → Response
  | .ok outcome => { Response.okEmpty with applied := some outcome }
  | .error e => .err e

def dispatch (env : Env) (state : DaemonState) : Request → Response × DaemonState × List ApplyRecord
  | .validate path =>
    match loadRuleset fromStr path (env.files path) with
    | .ok rs =>
      ({ Response.okEmpty with
          message := some s!"ok: version {rs.version}, {rs.chains.length} chain(s), {rs.iterRules.length} rule(s)" },
        state, [])
    | .error e => (.err e.display, state, [])
  | .apply path =>
    let (result, state', records) := applyFile fromStr env state path
    (applyResponse result, state', records)
  | .reload =>
    let (result, state', records) := applyFile fromStr env state state.configPath
    (applyResponse result, state', records)
  | .status =>
    ({ Response.okEmpty with status := some (statusPayload state.configPath state.rules state.lastApply) }, state, [])

/-- `handle_client` after the line is decoded. -/
def handleClient (env : Env) (state : DaemonState) : Except String Request → Response × DaemonState × List ApplyRecord
  | .ok req => dispatch fromStr env state req
  | .error e => (.err s!"bad request: {e}", state, [])

/-! ## Startup and the watcher -/

inductive PollResult where
  | unreadable
  | unchanged
  | applied (outcome : ApplyOutcome)
  | failed (e : String)
  deriving DecidableEq, Repr

/-- One round of `watch_config`'s loop: the new `last_mtime`, and what came of it. -/
def watchPoll (env : Env) (state : DaemonState) (lastMtime : Option Nat) :
    Option Nat × PollResult × DaemonState × List ApplyRecord :=
  if env.mtime = none then (lastMtime, .unreadable, state, [])
  else if env.mtime = lastMtime then (lastMtime, .unchanged, state, [])
  else
    match applyFile fromStr env state state.configPath with
    | (.ok outcome, state', records) => (env.mtime, .applied outcome, state', records)
    | (.error e, state', records) => (env.mtime, .failed e, state', records)

/-- The running process; `watch` is the watcher's `last_mtime`, if there is a watcher. -/
structure Daemon where
  state : DaemonState
  watch : Option (Option Nat)

/-- `run` up to its accept loop. -/
def startup (env : Env) (configPath controlAddr : String) (pollSecs : Nat) :
    Except String Daemon × List ApplyRecord :=
  match loadRuleset fromStr configPath (env.files configPath) with
  | .error e => (.error e.display, [])
  | .ok ruleset =>
    match DaemonState.new configPath env.connect with
    | .error e => (.error e.display, [])
    | .ok state =>
      let run := state.apply env.backend ruleset
      match run.result with
      | .error e => (.error e.display, [⟨ruleset, run.calls⟩])
      | .ok _ =>
        match env.bind with
        | .error e => (.error s!"failed to bind control socket {controlAddr}: {e}", [⟨ruleset, run.calls⟩])
        | .ok () => (.ok ⟨run.state, if pollSecs > 0 then some env.mtime else none⟩, [⟨ruleset, run.calls⟩])

/-- **A startup that succeeds** loaded, connected, applied and bound. -/
theorem startup_eq_ok {env : Env} {configPath controlAddr : String} {pollSecs : Nat} {d : Daemon}
    (h : (startup fromStr env configPath controlAddr pollSecs).1 = .ok d) :
    ∃ rs diff, loadRuleset fromStr configPath (env.files configPath) = .ok rs ∧ env.connect = .ok () ∧
      (DaemonState.apply ⟨configPath, none, none⟩ env.backend rs).result = .ok (applyOutcome rs diff) ∧
      (DaemonState.apply ⟨configPath, none, none⟩ env.backend rs).state = d.state ∧ env.bind = .ok () ∧
      d.state = ⟨configPath, some rs, some (applyOutcome rs diff)⟩ ∧
      d.watch = if pollSecs > 0 then some env.mtime else none := by
  unfold startup at h
  cases hl : loadRuleset fromStr configPath (env.files configPath) with
  | error e => simp [hl] at h
  | ok rs =>
    cases hc : env.connect with
    | error e => simp [hl, DaemonState.new, hc] at h
    | ok _ =>
      rcases apply_cases ⟨configPath, none, none⟩ env.backend rs with ⟨e, ha⟩ | ⟨diff, e, ha⟩ | ⟨diff, e, ha⟩ | ⟨diff, ha⟩
      · simp [hl, DaemonState.new, hc, ha] at h
      · simp [hl, DaemonState.new, hc, ha] at h
      · simp [hl, DaemonState.new, hc, ha] at h
      · cases hb : env.bind with
        | error e => simp [hl, DaemonState.new, hc, ha, hb] at h
        | ok _ =>
          simp only [hl, DaemonState.new, hc, ha, hb, Except.ok.injEq] at h
          exact ⟨rs, diff, rfl, rfl, by rw [ha], by rw [ha, ← h], rfl, by rw [← h], by rw [← h]⟩

end Portcullis
