import Portcullis.Daemon
import Portcullis.Lib.Machine
/-!
# Session — the daemon over whole runs, one operation at a time

A `Session` is a process from its start on; `history` keeps, newest first, what each call of `DaemonState::apply` said
to the backend.  An operation either leaves the stored fields alone, with no `backend.apply` that succeeded, or stores
the ruleset it applied (`Effect`); all of `session_facts` follows from that.
-/
namespace Portcullis

open List
open Machine (exec)

/-! ## What an operation does -/

def Call.diff : Call → Option RulesetDiff
  | .computeDiff _ _ => none
  | .validate diff _ => some diff
  | .apply diff _ => some diff

def Call.applied : Call → Bool
  | .apply _ (.ok _) => true
  | _ => false

def ApplyRecord.succeeded (record : ApplyRecord) : Bool := record.calls.any Call.applied

/-- Every diff validated or applied was computed, before that, from the bridged form of an accepted ruleset. -/
structure ApplyRecord.Gated (record : ApplyRecord) : Prop where
  accepted : verify record.ruleset = .ok ()
  computed : ∀ call ∈ record.calls, ∀ diff, call.diff = some diff →
    [.computeDiff (desiredNetctlRuleset record.ruleset) (.ok diff), call] <+ record.calls

/-- What an operation did to the stored fields, and said to the backend. -/
inductive Effect (state : DaemonState) : DaemonState → List ApplyRecord → Prop where
  | kept (records : List ApplyRecord) (h : ∀ record ∈ records, record.Gated ∧ record.succeeded = false) :
      Effect state state records
  | stored (record : ApplyRecord) (diff : RulesetDiff) (hgated : record.Gated) (hsucceeded : record.succeeded = true) :
      Effect state
        { state with rules := some record.ruleset, lastApply := some (applyOutcome record.ruleset diff) } [record]

variable (fromStr : String → Except String FileConfig)

/-- **`DaemonState::apply` of an accepted ruleset** stores it on success and changes nothing on failure. -/
theorem apply_effect (state : DaemonState) (backend : Backend) {rs : Ruleset} (hok : verify rs = .ok ()) :
    Effect state (state.apply backend rs).state [⟨rs, (state.apply backend rs).calls⟩] ∧
      ∀ e, (state.apply backend rs).result = .error e → (state.apply backend rs).state = state := by
  have hkept {calls : List Call} (hg : ApplyRecord.Gated ⟨rs, calls⟩) (hs : calls.any Call.applied = false) :
      Effect state state [⟨rs, calls⟩] :=
    Effect.kept _ (fun record hr => by rw [List.mem_singleton.1 hr]; exact ⟨hg, hs⟩)
  rcases apply_cases state backend rs with ⟨e, h⟩ | ⟨diff, e, h⟩ | ⟨diff, e, h⟩ | ⟨diff, h⟩ <;> rw [h]
  · exact ⟨hkept ⟨hok, by simp [Call.diff]⟩ rfl, fun _ _ => rfl⟩
  · exact ⟨hkept ⟨hok, by simp [Call.diff]⟩ rfl, fun _ _ => rfl⟩
  · exact ⟨hkept ⟨hok, by simp [Call.diff]⟩ rfl, fun _ _ => rfl⟩
  · refine ⟨Effect.stored ⟨rs, _⟩ diff ⟨hok, by simp [Call.diff]⟩ rfl, fun e he => ?_⟩
    cases he

theorem Effect.refl (state : DaemonState) : Effect state state [] := Effect.kept [] (by simp)

/-- **Loading and applying a file** passes the gate; an error leaves the fields as they were. -/
theorem applyFile_effect (env : Env) (state : DaemonState) (path : String) :
    Effect state (applyFile fromStr env state path).2.1 (applyFile fromStr env state path).2.2 ∧
      ∀ e, (applyFile fromStr env state path).1 = .error e → (applyFile fromStr env state path).2.1 = state := by
  unfold applyFile
  cases h : loadRuleset fromStr path (env.files path) with
  | error e => exact ⟨Effect.refl state, fun _ _ => rfl⟩
  | ok rs =>
    obtain ⟨heff, hfail⟩ := apply_effect state env.backend (verify_of_loadRuleset fromStr h)
    refine ⟨heff, fun e he => ?_⟩
    cases hr : (state.apply env.backend rs).result with
    | error e' => exact hfail e' hr
    | ok o => simp [hr, Except.mapError] at he

def Request.readsOnly : Request → Bool
  | .validate _ => true
  | .status => true
  | _ => false

theorem handleClient_effect (env : Env) (state : DaemonState) (line : Except String Request) :
    Effect state (handleClient fromStr env state line).2.1 (handleClient fromStr env state line).2.2 ∧
      ((handleClient fromStr env state line).1.ok = false → (handleClient fromStr env state line).2.1 = state) ∧
      ((∃ req, line = .ok req ∧ req.readsOnly = true) → (handleClient fromStr env state line).2.1 = state) := by
  have happly (path : String) :
      (applyResponse (applyFile fromStr env state path).1).ok = false →
        (applyFile fromStr env state path).2.1 = state := by
    intro hbad
    cases hr : (applyFile fromStr env state path).1 with
    | error e => exact (applyFile_effect fromStr env state path).2 e hr
    | ok o => simp [hr, applyResponse, Response.okEmpty] at hbad
  cases line with
  | error e => exact ⟨Effect.refl state, fun _ => rfl, fun _ => rfl⟩
  | ok req =>
    cases req with
    | validate path =>
      simp only [handleClient, dispatch]
      cases loadRuleset fromStr path (env.files path) <;> exact ⟨Effect.refl state, fun _ => rfl, fun _ => rfl⟩
    | apply path =>
      exact ⟨(applyFile_effect fromStr env state path).1, happly path, by simp [Request.readsOnly]⟩
    | reload =>
      exact ⟨(applyFile_effect fromStr env state _).1, happly _, by simp [Request.readsOnly]⟩
    | status => exact ⟨Effect.refl state, fun _ => rfl, fun _ => rfl⟩

/-- A poll fails whose file has no metadata, or whose reload fails. -/
def PollResult.isFailed : PollResult → Bool
  | .unreadable => true
  | .failed _ => true
  | _ => false

theorem watchPoll_effect (env : Env) (state : DaemonState) (lastMtime : Option Nat) :
    Effect state (watchPoll fromStr env state lastMtime).2.2.1 (watchPoll fromStr env state lastMtime).2.2.2 ∧
      ((watchPoll fromStr env state lastMtime).2.1.isFailed = true ∨
          (watchPoll fromStr env state lastMtime).2.1 = .unchanged →
        (watchPoll fromStr env state lastMtime).2.2.1 = state) := by
  unfold watchPoll
  split
  · exact ⟨Effect.refl state, fun _ => rfl⟩
  · split
    · exact ⟨Effect.refl state, fun _ => rfl⟩
    · obtain ⟨heff, hfail⟩ := applyFile_effect fromStr env state state.configPath
      split
      · rename_i o state' records heq
        rw [heq] at heff
        exact ⟨heff, fun h => by rcases h with h | h <;> cases h⟩
      · rename_i e state' records heq
        rw [heq] at heff hfail
        exact ⟨heff, fun _ => hfail e rfl⟩

theorem Effect.gated {state state' : DaemonState} {records : List ApplyRecord} (h : Effect state state' records) :
    ∀ record ∈ records, record.Gated := by
  cases h with
  | kept _ hr => exact fun record hrec => (hr record hrec).1
  | stored record diff hg hs =>
    intro record' hrec
    rw [List.mem_singleton.1 hrec]
    exact hg

theorem startup_effect (env : Env) (configPath controlAddr : String) (pollSecs : Nat) :
    (∀ record ∈ (startup fromStr env configPath controlAddr pollSecs).2, record.Gated) ∧
      ∀ d, (startup fromStr env configPath controlAddr pollSecs).1 = .ok d →
        Effect ⟨configPath, none, none⟩ d.state (startup fromStr env configPath controlAddr pollSecs).2 := by
  unfold startup
  cases hl : loadRuleset fromStr configPath (env.files configPath) with
  | error e => simp
  | ok ruleset =>
    cases hc : env.connect with
    | error e => simp [DaemonState.new]
    | ok _ =>
      obtain ⟨heff, -⟩ := apply_effect ⟨configPath, none, none⟩ env.backend (verify_of_loadRuleset fromStr hl)
      simp only [DaemonState.new]
      cases hr : (DaemonState.apply ⟨configPath, none, none⟩ env.backend ruleset).result with
      | error e => exact ⟨heff.gated, fun d h => by cases h⟩
      | ok o =>
        cases hb : env.bind with
        | error e => exact ⟨heff.gated, fun d h => by cases h⟩
        | ok _ =>
          refine ⟨heff.gated, fun d h => ?_⟩
          obtain rfl := Except.ok.inj h
          exact heff

/-! ## Sessions -/

inductive Op where
  | startup (configPath controlAddr : String) (pollSecs : Nat)
  | request (line : Except String Request)
  | poll

inductive Outcome where
  | started
  | exited (error : String)
  | response (r : Response)
  | polled (r : PollResult)

structure Session where
  started : Bool := false
  daemon : Option Daemon := none
  history : List ApplyRecord := []

/-- One operation, where it can happen: startup once, requests and polls while the daemon runs. -/
def Session.perform (s : Session) (env : Env) : Op → Option (Session × Outcome)
  | .startup configPath controlAddr pollSecs =>
    if s.started then none
    else
      match startup fromStr env configPath controlAddr pollSecs with
      | (.ok d, records) => some ({ started := true, daemon := some d, history := records ++ s.history }, .started)
      | (.error e, records) => some ({ started := true, daemon := none, history := records ++ s.history }, .exited e)
  | .request line =>
    match s.daemon with
    | none => none
    | some d =>
      let (response, state, records) := handleClient fromStr env d.state line
      some ({ s with daemon := some { d with state := state }, history := records ++ s.history }, .response response)
  | .poll =>
    match s.daemon with
    | none => none
    | some d =>
      match d.watch with
      | none => none
      | some lastMtime =>
        let (mtime, result, state, records) := watchPoll fromStr env d.state lastMtime
        some ({ s with daemon := some ⟨state, some mtime⟩, history := records ++ s.history }, .polled result)

def Session.step (s : Session) (eo : Env × Op) : Option Session := (s.perform fromStr eo.1 eo.2).map Prod.fst

/-- The two stored fields; a process that does not run holds none. -/
def Session.stored (s : Session) : Option Ruleset × Option ApplyOutcome :=
  match s.daemon with
  | none => (none, none)
  | some d => (d.state.rules, d.state.lastApply)

def Op.readsOnly : Op → Bool
  | .request (.ok req) => req.readsOnly
  | _ => false

def Outcome.failed : Outcome → Bool
  | .started => false
  | .exited _ => true
  | .response r => !r.ok
  | .polled r => r.isFailed

/-- The ruleset whose `backend.apply` succeeded last. -/
def lastApplied (history : List ApplyRecord) : Option Ruleset :=
  (history.find? ApplyRecord.succeeded).map ApplyRecord.ruleset

/-- Nothing stored yet, or what is stored is accepted, was applied last and is what `last_apply` records. -/
def StoredLast (fields : Option Ruleset × Option ApplyOutcome) (history : List ApplyRecord) : Prop :=
  (fields.1 = none ∧ fields.2 = none) ∨
    ∃ rs o, fields.1 = some rs ∧ fields.2 = some o ∧ verify rs = .ok () ∧ lastApplied history = some rs ∧
      o.version = rs.version ∧ o.chains = rs.chains.length ∧ o.rules = rs.iterRules.length

structure Session.Inv (s : Session) : Prop where
  unstarted : s.started = false → s.daemon = none
  loaded : ∀ d, s.daemon = some d → ∃ rs, d.state.rules = some rs
  gated : ∀ record ∈ s.history, record.Gated
  storedLast : StoredLast s.stored s.history

theorem lastApplied_append {records history : List ApplyRecord} (h : ∀ record ∈ records, record.succeeded = false) :
    lastApplied (records ++ history) = lastApplied history := by
  have hnone : records.find? ApplyRecord.succeeded = none :=
    List.find?_eq_none.2 (fun record hr => by simp [h record hr])
  rw [lastApplied, lastApplied, List.find?_append, hnone, Option.none_or]

/-- **Every effect keeps the fields in step with the history.** -/
theorem Effect.storedLast {state state' : DaemonState} {records history : List ApplyRecord}
    (h : Effect state state' records) (hlast : StoredLast (state.rules, state.lastApply) history) :
    StoredLast (state'.rules, state'.lastApply) (records ++ history) := by
  cases h with
  | kept _ hr =>
    unfold StoredLast
    rw [lastApplied_append (fun record hrec => (hr record hrec).2)]
    exact hlast
  | stored record diff hg hs =>
    refine Or.inr ⟨record.ruleset, _, rfl, rfl, hg.accepted, ?_, rfl, rfl, rfl⟩
    simp [lastApplied, hs]

theorem Effect.loaded {state state' : DaemonState} {records : List ApplyRecord} (h : Effect state state' records)
    (hrs : ∃ rs, state.rules = some rs) : ∃ rs, state'.rules = some rs := by
  cases h with
  | kept _ _ => exact hrs
  | stored record diff _ _ => exact ⟨record.ruleset, rfl⟩

theorem gated_append {records history : List ApplyRecord} (h : ∀ record ∈ records, record.Gated)
    (h' : ∀ record ∈ history, record.Gated) : ∀ record ∈ records ++ history, record.Gated :=
  fun record hr => (List.mem_append.1 hr).elim (h record) (h' record)

theorem perform_startup {s s' : Session} {env : Env} {configPath controlAddr : String} {pollSecs : Nat}
    {outcome : Outcome} (hinv : s.Inv)
    (h : s.perform fromStr env (.startup configPath controlAddr pollSecs) = some (s', outcome)) :
    s'.Inv ∧ (outcome.failed = true → s'.stored = s.stored) := by
  obtain ⟨hun, -, hgated, -⟩ := hinv
  obtain ⟨hrecs, heff⟩ := startup_effect fromStr env configPath controlAddr pollSecs
  simp only [Session.perform] at h
  by_cases hs : s.started = true
  · rw [if_pos hs] at h
    cases h
  · rw [if_neg hs] at h
    have hempty : s.stored = (none, none) := by simp [Session.stored, hun (Bool.eq_false_iff.2 hs)]
    rcases hst : startup fromStr env configPath controlAddr pollSecs with ⟨result, records⟩
    have hloaded (d : Daemon) (hok : (startup fromStr env configPath controlAddr pollSecs).1 = .ok d) :
        ∃ rs, d.state.rules = some rs := by
      obtain ⟨rs, diff, -, -, -, -, -, hstate, -⟩ := startup_eq_ok fromStr hok
      exact ⟨rs, by rw [hstate]⟩
    rw [hst] at h hrecs heff hloaded
    cases result with
    | ok d =>
      obtain ⟨rfl, rfl⟩ := Prod.mk.inj (Option.some.inj h)
      refine ⟨⟨nofun, fun d' hd' => hloaded d' (congrArg Except.ok (Option.some.inj hd')), gated_append hrecs hgated, ?_⟩,
        nofun⟩
      exact (heff d rfl).storedLast (Or.inl ⟨rfl, rfl⟩)
    | error e =>
      obtain ⟨rfl, rfl⟩ := Prod.mk.inj (Option.some.inj h)
      exact ⟨⟨nofun, nofun, gated_append hrecs hgated, Or.inl ⟨rfl, rfl⟩⟩, fun _ => hempty.symm⟩

/-- A running daemon's next session, from the effect of what it did. -/
theorem inv_of_effect {s : Session} {d d' : Daemon} {records : List ApplyRecord} (hinv : s.Inv)
    (hd : s.daemon = some d) (heff : Effect d.state d'.state records) :
    Session.Inv { s with daemon := some d', history := records ++ s.history } := by
  have hst : s.stored = (d.state.rules, d.state.lastApply) := by simp [Session.stored, hd]
  refine ⟨fun hs => ?_, fun d'' hd'' => ?_, gated_append heff.gated hinv.gated, heff.storedLast (hst ▸ hinv.storedLast)⟩
  · rw [hinv.unstarted hs] at hd
    cases hd
  · obtain rfl := Option.some.inj hd''
    exact heff.loaded (hinv.loaded d hd)

theorem perform_request {s s' : Session} {env : Env} {line : Except String Request} {outcome : Outcome} (hinv : s.Inv)
    (h : s.perform fromStr env (.request line) = some (s', outcome)) :
    s'.Inv ∧ (outcome.failed = true ∨ (Op.request line).readsOnly = true → s'.stored = s.stored) := by
  cases hd : s.daemon with
  | none => simp [Session.perform, hd] at h
  | some d =>
    obtain ⟨heff, hfail, hread⟩ := handleClient_effect fromStr env d.state line
    simp only [Session.perform, hd, Option.some.injEq, Prod.mk.injEq] at h
    obtain ⟨rfl, rfl⟩ := h
    refine ⟨inv_of_effect hinv hd heff, fun h => ?_⟩
    have hsame : (handleClient fromStr env d.state line).2.1 = d.state := by
      rcases h with h | h
      · exact hfail (by simpa [Outcome.failed] using h)
      · refine hread ?_
        cases line with
        | error e => cases h
        | ok req => exact ⟨req, rfl, h⟩
    simp only [Session.stored, hd, hsame]

theorem perform_poll {s s' : Session} {env : Env} {outcome : Outcome} (hinv : s.Inv)
    (h : s.perform fromStr env .poll = some (s', outcome)) :
    s'.Inv ∧ (outcome.failed = true ∨ outcome = .polled .unchanged → s'.stored = s.stored) := by
  cases hd : s.daemon with
  | none => simp [Session.perform, hd] at h
  | some d =>
    cases hw : d.watch with
    | none => simp [Session.perform, hd, hw] at h
    | some lastMtime =>
      obtain ⟨heff, hfail⟩ := watchPoll_effect fromStr env d.state lastMtime
      simp only [Session.perform, hd, hw, Option.some.injEq, Prod.mk.injEq] at h
      obtain ⟨rfl, rfl⟩ := h
      refine ⟨inv_of_effect hinv hd heff, fun h => ?_⟩
      have hsame : (watchPoll fromStr env d.state lastMtime).2.2.1 = d.state :=
        hfail (h.imp_right Outcome.polled.inj)
      simp only [Session.stored, hd, hsame]

/-- **What one operation does**: it keeps the invariant, and when it fails, only reads or polls a file whose mtime has
not changed it stores nothing. -/
theorem perform_spec {s s' : Session} {env : Env} {op : Op} {outcome : Outcome} (hinv : s.Inv)
    (h : s.perform fromStr env op = some (s', outcome)) :
    s'.Inv ∧ (outcome.failed = true ∨ op.readsOnly = true ∨ outcome = .polled .unchanged → s'.stored = s.stored) := by
  cases op with
  | startup configPath controlAddr pollSecs =>
    obtain ⟨hinv', hfail⟩ := perform_startup fromStr hinv h
    refine ⟨hinv', fun hquiet => hfail ?_⟩
    rcases hquiet with hf | hr | rfl
    · exact hf
    · cases hr
    · simp only [Session.perform] at h
      split at h
      · cases h
      · split at h <;> cases h
  | request line =>
    obtain ⟨hinv', hfail⟩ := perform_request fromStr hinv h
    refine ⟨hinv', fun hquiet => hfail ?_⟩
    rcases hquiet with hf | hr | rfl
    · exact Or.inl hf
    · exact Or.inr hr
    · cases hd : s.daemon <;> simp [Session.perform, hd] at h
  | poll =>
    obtain ⟨hinv', hfail⟩ := perform_poll fromStr hinv h
    refine ⟨hinv', fun hquiet => hfail ?_⟩
    rcases hquiet with hf | hr | hu
    · exact Or.inl hf
    · cases hr
    · exact Or.inr hu

/-- **The invariant holds after any session.** -/
theorem session_inv {fromStr : String → Except String FileConfig} {ops : List (Env × Op)} {s : Session}
    (h : exec (Session.step fromStr) {} ops = some s) : s.Inv := by
  refine Machine.inv_of_exec (fun s eo s' hs hstep => ?_) ⟨fun _ => rfl, by simp, by simp, Or.inl ⟨rfl, rfl⟩⟩ h
  obtain ⟨⟨t, outcome⟩, ht, rfl⟩ := Option.map_eq_some_iff.1 hstep
  exact (perform_spec fromStr hs ht).1

structure Session.Facts (s : Session) : Prop where
  gated : ∀ record ∈ s.history, record.Gated
  atomic : ∀ env op s' outcome, s.perform fromStr env op = some (s', outcome) →
    outcome.failed = true ∨ op.readsOnly = true ∨ outcome = .polled .unchanged → s'.stored = s.stored
  loaded : ∀ d, s.daemon = some d → ∃ rs, s.stored.1 = some rs
  storedLast : StoredLast s.stored s.history

/-- **The verify gate and failure atomicity**, over any sequence of operations. -/
theorem session_facts {ops : List (Env × Op)} {s : Session} (h : exec (Session.step fromStr) {} ops = some s) :
    s.Facts fromStr := by
  have hinv := session_inv h
  refine ⟨hinv.gated, fun env op s' outcome ht => (perform_spec fromStr hinv ht).2, fun d hd => ?_, hinv.storedLast⟩
  obtain ⟨rs, hrs⟩ := hinv.loaded d hd
  exact ⟨rs, by simpa only [Session.stored, hd] using hrs⟩

def sshOnly : Ruleset := .new [{
  name := "input"
  rules := [{ id := ⟨1⟩, priority := 10, matcher := { protocol := .tcp, dstPort := .single 22 }, action := .accept }]
  defaultPolicy := .drop }]

def sampleEnv (mtime : Nat) (validated : Except String Unit) : Env where
  files := fun path => if path = "missing.toml" then .error "not found" else .ok path
  mtime := some mtime
  backend := ⟨fun _ => .ok {}, fun _ => validated, fun _ => .ok ()⟩
  connect := .ok ()
  bind := .ok ()

/-- No file can be read. -/
def missingEnv (mtime : Option Nat) : Env :=
  { sampleEnv 1 (.ok ()) with files := fun _ => .error "not found", mtime := mtime }

/-- Startup, a status, an apply of a missing file, a poll whose reload the backend refuses, one whose file is missing and
one whose file goes missing after its mtime was read. -/
def sampleOps : List (Env × Op) := [
  (sampleEnv 1 (.ok ()), .startup "fw.toml" "127.0.0.1:9753" 2),
  (sampleEnv 1 (.ok ()), .request (.ok .status)),
  (sampleEnv 1 (.ok ()), .request (.ok (.apply "missing.toml"))),
  (sampleEnv 2 (.error "busy"), .poll),
  (missingEnv none, .poll),
  (missingEnv (some 3), .poll)]

theorem session_facts_sampleOps : ∃ s : Session,
    exec (Session.step (fun _ => .ok ⟨sshOnly⟩)) {} sampleOps = some s ∧ s.stored.1 = some sshOnly ∧
      s.Facts (fun _ => .ok ⟨sshOnly⟩) := by
  have hstored : (exec (Session.step (fun _ => .ok ⟨sshOnly⟩)) {} sampleOps).map (fun s => s.stored.1) =
      some (some sshOnly) := by rfl
  obtain ⟨s, hs, hs1⟩ := Option.map_eq_some_iff.1 hstored
  exact ⟨s, hs, hs1, session_facts _ hs⟩

end Portcullis
