import Portcullis.Control
import Portcullis.Dataplane
/-!
# Cli — the admin commands (`commands.rs`)

A command prints lines to its two outputs and exits with 0 or 1.  `apply` and `reload` exit with 0 only where the daemon
applied and stored the file, also over a connection that breaks (`exit_faithful`), and `status` prints the last apply of
a run (`status_after_apply`).
-/
namespace Portcullis

open Machine (exec Meets)

namespace Cli

inductive Command where
  | validate (file : String)
  | apply (file control : String)
  | reload (control : String)
  | status (control : String)

structure Ran where
  code : UInt8
  out : List String
  err : List String
  deriving DecidableEq, Repr

variable (fromStr : String → Except String FileConfig)

/-- `validate`, by `offline_validate`: `read` is what the file holds for the command itself. -/
def validate (file : String) (read : Except String String) : Ran :=
  match loadRuleset fromStr file read with
  | .ok rs =>
    ⟨0, [s!"ok: {file} (version {rs.version}, {rs.chains.length} chain(s), {rs.iterRules.length} rule(s))"], []⟩
  | .error e => ⟨1, [], [s!"error: {e.display}"]⟩

/-- What the three other commands make of an answer; `out` is what they print of a success. -/
def answered (out : Response → List String) : Except String Response → Ran
  | .ok resp =>
    let message := resp.error.getD "unknown"
    if resp.ok then ⟨0, out resp, []⟩ else ⟨1, [], [s!"error: {message}"]⟩
  | .error e => ⟨1, [], [s!"error: {e}"]⟩

def applyLines (resp : Response) : List String :=
  match resp.applied with
  | some a =>
    [s!"applied: version {a.version}, {a.chains} chain(s), {a.rules} rule(s), {a.plannedChanges} planned change(s)"]
  | none => ["applied"]

def reloadLines (resp : Response) : List String :=
  match resp.applied with
  | some a => [s!"reloaded: version {a.version}, {a.rules} rule(s), {a.plannedChanges} planned change(s)"]
  | none => ["reloaded"]

def statusLines (resp : Response) : List String :=
  match resp.status with
  | some s =>
    [s!"config:  {s.configPath}", s!"loaded:  {s.loaded}"] ++
    (match s.version with
     | some v => [s!"version: {v}"]
     | none => []) ++
    (match s.chains, s.rules with
     | some c, some r => [s!"chains:  {c}", s!"rules:   {r}"]
     | _, _ => []) ++
    (match s.lastApply with
     | some a => [s!"last apply: version {a.version}, {a.rules} rule(s), {a.plannedChanges} change(s)"]
     | none => [])
  | none => []

def apply (file : String) (send : Request → Except String Response) : Ran := answered applyLines (send (.apply file))

def reload (send : Request → Except String Response) : Ran := answered reloadLines (send .reload)

def status (send : Request → Except String Response) : Ran := answered statusLines (send .status)

/-- `run`: `send` is `send_request` to a control address. -/
def run (read : String → Except String String) (send : String → Request → Except String Response) : Command → Ran
  | .validate file => validate fromStr file (read file)
  | .apply file control => apply file (send control)
  | .reload control => reload (send control)
  | .status control => status (send control)

/-! ## Commands against a running daemon -/

def Command.request : Command → Option (String × Request)
  | .validate _ => none
  | .apply file control => some (control, .apply file)
  | .reload control => some (control, .reload)
  | .status control => some (control, .status)

variable (text : JsonText)

/-- A command run beside a daemon that sees the same files: what it does, and what becomes of the daemon. -/
def against (links : String → Link) (env : Env) (state : DaemonState) (cmd : Command) :
    Ran × DaemonState × List ApplyRecord :=
  (run fromStr env.files (fun control req => (exchange text fromStr links env state control req).1) cmd,
    match cmd.request with
    | some (control, req) => (exchange text fromStr links env state control req).2
    | none => (state, []))

/-- The JSON text carries a request and its response, whose counts are `usize`. -/
structure Carried (env : Env) (state : DaemonState) (req : Request) : Prop where
  request : text.Carries req.toJson
  response : text.Carries (dispatch fromStr env state req).1.toJson
  fits : (dispatch fromStr env state req).1.Fits

/-- The file a command has applied, and the lines it prints of that. -/
def Command.applies (state : DaemonState) : Command → Option (String × (ApplyOutcome → List String))
  | .apply file _ => some (file, fun o => applyLines { Response.okEmpty with applied := some o })
  | .reload _ => some (state.configPath, fun o => reloadLines { Response.okEmpty with applied := some o })
  | _ => none

variable {fromStr text}

/-- An apply that fails leaves the daemon as it was, and none of its calls to `backend.apply` succeeded. -/
theorem applyFile_eq_error {env : Env} {state : DaemonState} {path e : String}
    (h : (applyFile fromStr env state path).1 = .error e) :
    ∃ records, applyFile fromStr env state path = (.error e, state, records) ∧
      ∀ record ∈ records, record.succeeded = false := by
  unfold applyFile at h ⊢
  cases hl : loadRuleset fromStr path (env.files path) with
  | error e' =>
    rw [hl] at h
    cases h
    exact ⟨[], rfl, by simp⟩
  | ok rs =>
    rw [hl] at h
    simp only at h ⊢
    rcases apply_cases state env.backend rs with ⟨e', ha⟩ | ⟨diff, e', ha⟩ | ⟨diff, e', ha⟩ | ⟨diff, ha⟩ <;>
      rw [ha] at h ⊢ <;> cases h
    · exact ⟨_, rfl, by simp [ApplyRecord.succeeded, Call.applied]⟩
    · exact ⟨_, rfl, by simp [ApplyRecord.succeeded, Call.applied]⟩
    · exact ⟨_, rfl, by simp [ApplyRecord.succeeded, Call.applied]⟩

/-- Either the file was applied and stored, with this outcome, or nothing was applied and the error answered. -/
def AppliesOrFails (fromStr : String → Except String FileConfig) (env : Env) (state : DaemonState) (path : String)
    (result : Except String ApplyOutcome) (after : DaemonState × List ApplyRecord) : Prop :=
  (∃ rs diff, loadRuleset fromStr path (env.files path) = .ok rs ∧ result = .ok (applyOutcome rs diff) ∧
    after = ({ state with rules := some rs, lastApply := some (applyOutcome rs diff) }, [appliedRecord rs diff])) ∨
  ∃ e, result = .error e ∧ after.1 = state ∧ ∀ record ∈ after.2, record.succeeded = false

theorem appliesOrFails_applyFile (env : Env) (state : DaemonState) (path : String) :
    AppliesOrFails fromStr env state path (applyFile fromStr env state path).1 (applyFile fromStr env state path).2 := by
  cases h : (applyFile fromStr env state path).1 with
  | ok o =>
    obtain ⟨rs, diff, hload, rfl, heq⟩ := applyFile_eq_ok h
    exact Or.inl ⟨rs, diff, hload, rfl, by rw [heq]⟩
  | error e =>
    obtain ⟨records, heq, hfailed⟩ := applyFile_eq_error h
    exact Or.inr ⟨e, rfl, by rw [heq], by rw [heq]; exact hfailed⟩

/-- What a command prints and exits with, from how the apply it asked for went. -/
def ranOf (lines : ApplyOutcome → List String) : Except String ApplyOutcome → Ran
  | .ok o => ⟨0, lines o, []⟩
  | .error e => ⟨1, [], [s!"error: {e}"]⟩

theorem answered_applyResponse (out : Response → List String) (result : Except String ApplyOutcome) :
    answered out (.ok (applyResponse result)) =
      ranOf (fun o => out { Response.okEmpty with applied := some o }) result := by
  cases result <;> rfl

variable {links : String → Link}

/-- What `apply` and `reload` ask for, and what they make of the answer. -/
theorem against_of_applies {env : Env} {state : DaemonState} {cmd : Command} {control path : String} {req : Request}
    {lines : ApplyOutcome → List String} (happlies : cmd.applies state = some (path, lines))
    (hreq : cmd.request = some (control, req)) :
    dispatch fromStr env state req = (applyResponse (applyFile fromStr env state path).1, (applyFile fromStr env state path).2) ∧
      ∃ out, lines = (fun o => out { Response.okEmpty with applied := some o }) ∧
        against fromStr text links env state cmd =
          (answered out (exchange text fromStr links env state control req).1,
            (exchange text fromStr links env state control req).2) := by
  cases cmd with
  | validate file => cases happlies
  | status control => cases happlies
  | apply file control =>
    obtain ⟨rfl, rfl⟩ := Prod.mk.inj (Option.some.inj happlies)
    obtain ⟨rfl, rfl⟩ := Prod.mk.inj (Option.some.inj hreq)
    exact ⟨rfl, applyLines, rfl, rfl⟩
  | reload control =>
    obtain ⟨rfl, rfl⟩ := Prod.mk.inj (Option.some.inj happlies)
    obtain ⟨rfl, rfl⟩ := Prod.mk.inj (Option.some.inj hreq)
    exact ⟨rfl, reloadLines, rfl, rfl⟩

theorem code_ranOf {lines : ApplyOutcome → List String} {result : Except String ApplyOutcome}
    (h : (ranOf lines result).code = 0) : ∃ o, result = .ok o := by
  cases result with
  | error e => cases h
  | ok o => exact ⟨o, rfl⟩

/-- What `apply` or `reload` comes to of a file that may be applied: an exit with 0 tells of the apply, and whatever the
exit the daemon did nothing or loaded and applied the file once. -/
structure ExitFaithful (fromStr : String → Except String FileConfig) (env : Env) (state : DaemonState) (path : String)
    (lines : ApplyOutcome → List String) (run : Ran × DaemonState × List ApplyRecord) : Prop where
  applied : run.1.code = 0 → ∃ rs diff, loadRuleset fromStr path (env.files path) = .ok rs ∧
    run = (⟨0, lines (applyOutcome rs diff), []⟩,
      { state with rules := some rs, lastApply := some (applyOutcome rs diff) }, [appliedRecord rs diff])
  once : run.2 = (state, []) ∨ run.2 = (applyFile fromStr env state path).2

theorem exitFaithful_of_exchanged {env : Env} {state : DaemonState} {path : String} {req : Request}
    {out : Response → List String} {result : Except String Response × DaemonState × List ApplyRecord}
    (hdispatch : dispatch fromStr env state req =
      (applyResponse (applyFile fromStr env state path).1, (applyFile fromStr env state path).2))
    (h : Exchanged fromStr env state req result) :
    ExitFaithful fromStr env state path (fun o => out { Response.okEmpty with applied := some o })
      (answered out result.1, result.2) := by
  cases h with
  | lost e => exact ⟨fun hcode => (by cases hcode), Or.inl rfl⟩
  | unanswered e => exact ⟨fun hcode => (by cases hcode), Or.inr (by rw [hdispatch])⟩
  | refused e => exact ⟨fun hcode => (by cases hcode), Or.inl rfl⟩
  | answered =>
    rw [hdispatch]
    refine ⟨fun hcode => ?_, Or.inr rfl⟩
    rw [answered_applyResponse] at hcode ⊢
    obtain ⟨o, ho⟩ := code_ranOf hcode
    obtain ⟨rs, diff, hload, rfl, heq⟩ := applyFile_eq_ok ho
    exact ⟨rs, diff, hload, by rw [heq]; rfl⟩

def sampleApply : Command := .apply "fw.toml" "127.0.0.1:9753"

/-- The text of a request to a daemon, of its response and of a refusal. -/
def textWith (state : DaemonState) (req : Request) : JsonText :=
  textOf (exchangeDocs decodeSsh (sampleEnv 1 (.ok ())) state req)

/-- The command against a daemon at the end of a network. -/
def applySample (links : String → Link) : Ran × DaemonState × List ApplyRecord :=
  against decodeSsh (textWith sampleState (.apply "fw.toml")) links (sampleEnv 1 (.ok ())) sampleState sampleApply

/-- Where only the reply is lost, the command exits with 1 and the file is applied. -/
example : (applySample (fun _ => { directLink with reply := fun _ => ⟨[], .error "connection reset"⟩ })).1.code = 1 ∧
    (applySample (fun _ => { directLink with reply := fun _ => ⟨[], .error "connection reset"⟩ })).2.1.lastApply =
      some ⟨1, 1, 1, 0⟩ := by
  decide +kernel

/-! ## The status of a run -/

/-- The operation reports no apply. -/
def AppliesNothing (fromStr : String → Except String FileConfig) (s : Session) (eo : Env × Op) : Prop :=
  ∀ s' outcome, s.perform fromStr eo.1 eo.2 = some (s', outcome) → outcome.applied = none

theorem handleClient_kept {env : Env} {state : DaemonState} {line : Except String Request}
    (h : (handleClient fromStr env state line).1.applied = none) : (handleClient fromStr env state line).2.1 = state := by
  obtain ⟨-, hfail, hread⟩ := handleClient_effect fromStr env state line
  have happly (path : String) (h : (applyResponse (applyFile fromStr env state path).1).applied = none) :
      (applyResponse (applyFile fromStr env state path).1).ok = false := by
    cases hr : (applyFile fromStr env state path).1 with
    | ok o =>
      rw [hr] at h
      cases h
    | error e => rfl
  cases line with
  | error e => rfl
  | ok req =>
    cases req with
    | validate path => exact hread ⟨_, rfl, rfl⟩
    | apply path => exact hfail (happly path h)
    | reload => exact hfail (happly state.configPath h)
    | status => exact hread ⟨_, rfl, rfl⟩

theorem watchPoll_kept {env : Env} {state : DaemonState} {lastMtime : Option Nat}
    (h : ∀ o, (watchPoll fromStr env state lastMtime).2.1 ≠ .applied o) :
    (watchPoll fromStr env state lastMtime).2.2.1 = state := by
  obtain ⟨-, hfail⟩ := watchPoll_effect fromStr env state lastMtime
  unfold watchPoll at h hfail ⊢
  by_cases hnone : env.mtime = none
  · rw [if_pos hnone]
  · by_cases hsame : env.mtime = lastMtime
    · rw [if_neg hnone, if_pos hsame]
    · rw [if_neg hnone, if_neg hsame] at h hfail ⊢
      split at h
      · rename_i o state' records heq
        exact absurd rfl (h o)
      · rename_i e state' records heq
        rw [heq] at hfail
        exact hfail (Or.inl rfl)

/-- **An operation that reports no apply keeps the state of a running daemon.** -/
theorem perform_kept {s s' : Session} {d : Daemon} {env : Env} {op : Op} {outcome : Outcome} (hinv : s.Inv)
    (hd : s.daemon = some d) (h : s.perform fromStr env op = some (s', outcome)) (hnone : outcome.applied = none) :
    ∃ d', s'.daemon = some d' ∧ d'.state = d.state := by
  cases op with
  | startup configPath controlAddr pollSecs =>
    have hstarted : s.started = true := by
      by_contra hs
      rw [hinv.unstarted (by simpa using hs)] at hd
      cases hd
    simp [Session.perform, hstarted] at h
  | request line =>
    simp only [Session.perform, hd, Option.some.injEq, Prod.mk.injEq] at h
    obtain ⟨rfl, rfl⟩ := h
    exact ⟨_, rfl, handleClient_kept hnone⟩
  | poll =>
    cases hw : d.watch with
    | none => simp [Session.perform, hd, hw] at h
    | some lastMtime =>
      simp only [Session.perform, hd, hw, Option.some.injEq, Prod.mk.injEq] at h
      obtain ⟨rfl, rfl⟩ := h
      refine ⟨_, rfl, watchPoll_kept (fun o ho => ?_)⟩
      rw [ho] at hnone
      cases hnone

/-- What `status` prints of a daemon that applied `o` last. -/
def lastApplyLines (configPath : String) (o : ApplyOutcome) : List String :=
  [s!"config:  {configPath}", "loaded:  true", s!"version: {o.version}", s!"chains:  {o.chains}", s!"rules:   {o.rules}",
    s!"last apply: version {o.version}, {o.rules} rule(s), {o.plannedChanges} change(s)"]

structure KeepsState (state : DaemonState) (s : Session) : Prop where
  inv : s.Inv
  running : ∃ d, s.daemon = some d ∧ d.state = state

theorem daemon_of_stored {s : Session} {rs : Ruleset} {o : ApplyOutcome} (h : s.stored = (some rs, some o)) :
    ∃ d, s.daemon = some d ∧ d.state.rules = some rs ∧ d.state.lastApply = some o := by
  unfold Session.stored at h
  split at h
  · cases h
  · rename_i d hd
    obtain ⟨hrules, hlast⟩ := Prod.mk.inj h
    exact ⟨d, hd, hrules, hlast⟩

/-- A startup that succeeds stores what it applied. -/
theorem perform_started {s s' : Session} {env : Env} {op : Op} (h : s.perform fromStr env op = some (s', .started)) :
    ∃ rs diff, s'.stored = (some rs, some (applyOutcome rs diff)) := by
  cases op with
  | startup configPath controlAddr pollSecs =>
    simp only [Session.perform] at h
    split at h
    · cases h
    · have hok := @startup_eq_ok fromStr env configPath controlAddr pollSecs
      rcases hst : startup fromStr env configPath controlAddr pollSecs with ⟨result, records⟩
      rw [hst] at h hok
      cases result with
      | error e => cases h
      | ok d =>
        obtain ⟨rs, diff, -, -, -, -, -, hstate, -⟩ := hok rfl
        obtain ⟨rfl, -⟩ := Prod.mk.inj (Option.some.inj h)
        exact ⟨rs, diff, by simp [Session.stored, hstate]⟩
  | request line => cases hd : s.daemon <;> simp [Session.perform, hd] at h
  | poll =>
    cases hd : s.daemon with
    | none => simp [Session.perform, hd] at h
    | some d => cases hw : d.watch <;> simp [Session.perform, hd, hw] at h

/-- The operation ended with the apply `o`, its own or startup's. -/
def AppliedBy (outcome : Outcome) (s : Session) (o : ApplyOutcome) : Prop :=
  outcome.applied = some o ∨ (outcome = .started ∧ s.stored.2 = some o)

theorem stored_of_appliedBy {s s' : Session} {env : Env} {op : Op} {outcome : Outcome} {o : ApplyOutcome}
    (h : s.perform fromStr env op = some (s', outcome)) (ho : AppliedBy outcome s' o) :
    ∃ rs diff, o = applyOutcome rs diff ∧ s'.stored = (some rs, some o) := by
  rcases ho with ho | ⟨rfl, ho⟩
  · obtain ⟨rs, diff, -, heq, hstored, -⟩ := perform_applied h ho
    exact ⟨rs, diff, heq, hstored⟩
  · obtain ⟨rs, diff, hstored⟩ := perform_started h
    rw [hstored] at ho
    obtain rfl := Option.some.inj ho
    exact ⟨rs, diff, rfl, hstored⟩

/-- **Until the next apply that succeeds `status` prints the last one**, startup's or a later one, whatever requests and
polls fail or read in between. -/
theorem status_after_apply {ops ops' : List (Env × Op)} {s s₁ s₂ : Session} {env env' : Env} {op : Op}
    {outcome : Outcome} {o : ApplyOutcome} {d : Daemon} {addr : String}
    (h : exec (Session.step fromStr) {} ops = some s) (hstep : s.perform fromStr env op = some (s₁, outcome))
    (ho : AppliedBy outcome s₁ o) (hm : Meets (Session.step fromStr) (AppliesNothing fromStr) s₁ ops')
    (h' : exec (Session.step fromStr) s₁ ops' = some s₂) (hd : s₂.daemon = some d) (hlink : (links addr).Reliable)
    (hc : Carried fromStr text env' d.state .status) :
    against fromStr text links env' d.state (.status addr) =
      (⟨0, lastApplyLines d.state.configPath o, []⟩, d.state, []) := by
  obtain ⟨rs, diff, rfl, hstored⟩ := stored_of_appliedBy hstep ho
  obtain ⟨d₁, hd₁, hrules, hlast⟩ := daemon_of_stored hstored
  have hkept : KeepsState d₁.state s₂ := by
    refine Machine.inv_of_meets (fun s eo s' hs hg hstep => ?_) ⟨(perform_spec fromStr (session_inv h) hstep).1, d₁, hd₁, rfl⟩
      hm h'
    obtain ⟨⟨t, outcome⟩, ht, rfl⟩ := Option.map_eq_some_iff.1 hstep
    obtain ⟨d', hd', heq⟩ := hs.running
    obtain ⟨d'', hd'', heq'⟩ := perform_kept hs.inv hd' ht (hg t outcome ht)
    exact ⟨(perform_spec fromStr hs.inv ht).1, d'', hd'', heq'.trans heq⟩
  obtain ⟨d₂, hd₂, heq⟩ := hkept.running
  obtain rfl := Option.some.inj (hd.symm.trans hd₂)
  rw [← heq] at hrules hlast
  refine Prod.ext ?_ ?_
  · show answered statusLines (exchange text fromStr links env' d.state addr .status).1 = _
    rw [exchange_fst hlink hc.request hc.response hc.fits]
    simp only [dispatch, hrules, hlast]
    rfl
  · show (exchange text fromStr links env' d.state addr .status).2 = _
    rw [exchange_snd hlink hc.request]
    rfl

theorem appliesNothing_missing (s : Session) :
    AppliesNothing decodeSsh s (sampleEnv 1 (.ok ()), .request (.ok (.apply "missing.toml"))) := by
  intro s' outcome h
  cases hd : s.daemon with
  | none => simp [Session.perform, hd] at h
  | some d =>
    simp only [Session.perform, hd, Option.some.injEq, Prod.mk.injEq] at h
    rw [← h.2]
    rfl

theorem carried_textWith {state : DaemonState} {rs : Ruleset} {o : ApplyOutcome}
    (hstate : state = ⟨"fw.toml", some rs, some o⟩) (ho : o.Fits) (hchains : o.chains = rs.chains.length)
    (hrules : o.rules = rs.iterRules.length)
    (hline : ∀ d ∈ exchangeDocs decodeSsh (sampleEnv 1 (.ok ())) state .status, '\n' ∉ writeJson d)
    (hapart : (exchangeDocs decodeSsh (sampleEnv 1 (.ok ())) state .status).Pairwise Apart) :
    Carried decodeSsh (textWith state .status) (sampleEnv 1 (.ok ())) state .status := by
  have hfits : (dispatch decodeSsh (sampleEnv 1 (.ok ())) state .status).1.Fits := by
    refine ⟨nofun, fun p hp => ?_⟩
    obtain rfl := Option.some.inj hp
    rw [hstate]
    exact fits_statusPayload ho hchains hrules
  have hcut := carriedCut_textOf hline hapart hfits
  exact ⟨hcut.request, hcut.response, hcut.fits⟩

/-- Startup, an apply of a missing file, and the status after that. -/
theorem status_after_apply_missing : ∃ (s₂ : Session) (d : Daemon), s₂.daemon = some d ∧
    against decodeSsh (textWith d.state .status) sampleLinks (sampleEnv 1 (.ok ())) d.state (.status "127.0.0.1:9753") =
      (⟨0, lastApplyLines d.state.configPath ⟨1, 1, 1, 2⟩, []⟩, d.state, []) := by
  have hrun : (({} : Session).perform decodeSsh startupOnStale.1 startupOnStale.2).bind (fun so =>
      (exec (Session.step decodeSsh) so.1 [(sampleEnv 1 (.ok ()), .request (.ok (.apply "missing.toml")))]).map
        (fun s₂ => (so.2, so.1.stored.2, s₂.daemon.map Daemon.state))) =
      some (.started, some ⟨1, 1, 1, 2⟩, some ⟨"fw.toml", some sshOnly, some ⟨1, 1, 1, 2⟩⟩) := by rfl
  obtain ⟨⟨s₁, outcome⟩, hs₁, hrun⟩ := Option.bind_eq_some_iff.1 hrun
  obtain ⟨s₂, hs₂, heq⟩ := Option.map_eq_some_iff.1 hrun
  simp only [Prod.mk.injEq] at heq
  obtain ⟨rfl, hlast, hstate⟩ := heq
  obtain ⟨d, hd, hstate⟩ := Option.map_eq_some_iff.1 hstate
  have hm : Meets (Session.step decodeSsh) (AppliesNothing decodeSsh) s₁
      [(sampleEnv 1 (.ok ()), .request (.ok (.apply "missing.toml")))] := ⟨appliesNothing_missing s₁, fun _ _ => trivial⟩
  have hstart : exec (Session.step decodeSsh) {} [] = some {} := rfl
  refine ⟨s₂, d, hd, status_after_apply hstart hs₁ (Or.inr ⟨rfl, hlast⟩) hm hs₂ hd reliable_sampleLinks ?_⟩
  rw [hstate]
  exact carried_textWith rfl ⟨by decide, by decide, by decide⟩ rfl rfl (by decide +kernel) (by decide +kernel)

end Cli
end Portcullis
