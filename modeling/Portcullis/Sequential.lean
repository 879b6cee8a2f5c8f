import Portcullis.Session
import Portcullis.Threads
/-!
# Sequential — every session is a run of the two threads

A session takes requests and polls one at a time; the two threads of the daemon take single steps in any order.  Every
session is one of those runs: after startup each request is a block of steps of the control thread and each poll one of
the watcher's, and what is stored, what was applied and what `Status` answered are the same (`session_interleaves`).
-/
namespace Portcullis

open Machine (exec exec_append)
open Threads (Thread Act State event)

def Outcome.status : Outcome → Option StatusPayload
  | .response r => r.status
  | _ => none

/-- The thread that performs the operation, if startup is over. -/
def Op.thread : Op → Option Thread
  | .startup _ _ _ => none
  | .request _ => some .control
  | .poll => some .watcher

/-- What the step reads or calls is there in the environment. -/
def Threads.Act.In (env : Env) : Act → Prop
  | .load path read => read = env.files path
  | .call backend => backend = env.backend
  | _ => True

/-- Steps of the operation's thread, in the operation's environment. -/
def Performs (eo : Env × Op) (events : List (Thread × Act)) : Prop :=
  ∀ e ∈ events, eo.2.thread = some e.1 ∧ e.2.In eo.1

variable (fromStr : String → Except String FileConfig)

/-- A session's step, with the outcomes kept, newest first. -/
def Session.record (so : Session × List Outcome) (eo : Env × Op) : Option (Session × List Outcome) :=
  (so.1.perform fromStr eo.1 eo.2).map (fun r => (r.1, r.2 :: so.2))

/-- Between two operations: both threads idle, with the fields, the applies and the `Status` answers of a session. -/
structure Mirrors (t : State) (d : DaemonState) (history : List ApplyRecord) (answers : List StatusPayload) : Prop where
  idle : ∀ u, t.pc u = .idle
  daemon : t.daemon = d
  applied : t.applied.map Threads.Applied.ruleset = (history.filter ApplyRecord.succeeded).map ApplyRecord.ruleset
  answers : t.payloads = answers

/-- Steps of `u` alone, in `env`, lead to such a state. -/
def Reaches (u : Thread) (env : Env) (t : State) (d : DaemonState) (history : List ApplyRecord)
    (answers : List StatusPayload) : Prop :=
  ∃ (events : List (Thread × Act)) (t' : State), (∀ e ∈ events, e.1 = u ∧ e.2.In env) ∧
    exec (event fromStr) t events = some t' ∧ Mirrors t' d history answers

/-- The threads are where the session's daemon is. -/
def Session.Mirrored (so : Session × List Outcome) (t : State) : Prop :=
  so.1.started = true ∧
    ∃ d, so.1.daemon = some d ∧ Mirrors t d.state so.1.history (so.2.filterMap Outcome.status)

theorem succeeded_apply (state : DaemonState) (backend : Backend) (rs : Ruleset) :
    ApplyRecord.succeeded ⟨rs, (state.apply backend rs).calls⟩ = (state.apply backend rs).result.isOk := by
  rcases apply_cases state backend rs with ⟨e, h⟩ | ⟨diff, e, h⟩ | ⟨diff, e, h⟩ | ⟨diff, h⟩ <;> rw [h] <;> rfl

variable {fromStr} {t : State} {d : DaemonState} {history : List ApplyRecord} {answers : List StatusPayload}

theorem Mirrors.stays (h : Mirrors t d history answers) (u : Thread) (env : Env) :
    Reaches fromStr u env t d history answers := ⟨[], t, nofun, rfl, h⟩

/-! ## One operation -/

/-- **Load and apply**, by either thread. -/
theorem Mirrors.applyFile (h : Mirrors t d history answers) (u : Thread) (env : Env) (path : String) :
    Reaches fromStr u env t (applyFile fromStr env d path).2.1
      ((applyFile fromStr env d path).2.2 ++ history) answers := by
  unfold Portcullis.applyFile
  cases hl : loadRuleset fromStr path (env.files path) with
  | error e => exact h.stays u env
  | ok rs =>
    have hload : event fromStr t (u, .load path (env.files path)) = some (t.goto u (.computeDiff rs)) := by
      simp [event, Threads.step, h.idle u, hl]
    obtain ⟨acts, t', hacts, hexec, hran⟩ :=
      @Threads.exec_apply fromStr (t.goto u (.computeDiff rs)) u env.backend rs (Threads.goto_pc_self t u _)
    have hd : (t.goto u (.computeDiff rs)).daemon = d := h.daemon
    refine ⟨(u, .load path (env.files path)) :: acts.map (Prod.mk u), t', fun e he => ?_, ?_, fun v => ?_, ?_, ?_, ?_⟩
    · rcases List.mem_cons.1 he with rfl | he
      · exact ⟨rfl, rfl⟩
      · obtain ⟨a, ha, rfl⟩ := List.mem_map.1 he
        rcases hacts a ha with rfl | rfl
        · exact ⟨rfl, rfl⟩
        · exact ⟨rfl, trivial⟩
    · rw [Machine.exec_cons, hload]
      exact hexec
    · by_cases hv : v = u
      · exact hv ▸ hran.idle
      · rw [hran.others v hv, Threads.goto_pc_of_ne t u v _ hv, h.idle v]
    · rw [hran.daemon, hd]
    · rw [hran.applied, hd, Threads.goto_applied, h.applied, List.singleton_append, List.filter_cons, succeeded_apply]
      split <;> rfl
    · rw [hran.payloads]
      exact h.answers

/-- **`Status`** reads the two fields with nothing in between. -/
theorem Mirrors.status (h : Mirrors t d history answers) (env : Env) :
    Reaches fromStr .control env t d history (statusPayload d.configPath d.rules d.lastApply :: answers) := by
  obtain ⟨hidle, rfl, happlied, rfl⟩ := h
  have hexec : exec (event fromStr) t [(.control, .readRules), (.control, .readLastApply)] =
      some { t.goto .control .idle with
        payloads := statusPayload t.configPath t.rules t.lastApply :: t.payloads } := by
    simp [event, Threads.step, hidle .control, State.goto]
  refine ⟨_, _, by simp [Threads.Act.In], hexec, fun u => ?_, rfl, happlied, rfl⟩
  cases u with
  | control => exact Threads.goto_pc_self t .control .idle
  | watcher => exact (Threads.goto_pc_of_ne t .control .watcher .idle (by decide)).trans (hidle .watcher)

theorem status_applyResponse (result : Except String ApplyOutcome) : (applyResponse result).status = none := by
  cases result <;> rfl

theorem Mirrors.handleClient (h : Mirrors t d history answers) (env : Env) (line : Except String Request) :
    Reaches fromStr .control env t (handleClient fromStr env d line).2.1 ((handleClient fromStr env d line).2.2 ++ history)
      ((handleClient fromStr env d line).1.status.toList ++ answers) := by
  cases line with
  | error e => exact h.stays .control env
  | ok req =>
    cases req with
    | validate path =>
      simp only [Portcullis.handleClient, dispatch]
      cases loadRuleset fromStr path (env.files path) <;> exact h.stays .control env
    | apply path =>
      simp only [Portcullis.handleClient, dispatch, status_applyResponse]
      exact h.applyFile .control env path
    | reload =>
      simp only [Portcullis.handleClient, dispatch, status_applyResponse]
      exact h.applyFile .control env d.configPath
    | status => exact h.status env

theorem Mirrors.watchPoll (h : Mirrors t d history answers) (env : Env) (lastMtime : Option Nat) :
    Reaches fromStr .watcher env t (watchPoll fromStr env d lastMtime).2.2.1
      ((watchPoll fromStr env d lastMtime).2.2.2 ++ history) answers := by
  have happly := @Mirrors.applyFile fromStr t d history answers h .watcher env d.configPath
  unfold Portcullis.watchPoll
  split
  · exact h.stays .watcher env
  · split
    · exact h.stays .watcher env
    · split
      · rename_i heq
        rwa [heq] at happly
      · rename_i heq
        rwa [heq] at happly

/-- **Startup** leaves what the two threads start from. -/
theorem mirrors_startup {env : Env} {configPath controlAddr : String} {pollSecs : Nat} {d : Daemon}
    (h : (startup fromStr env configPath controlAddr pollSecs).1 = .ok d) :
    ∃ rs diff, loadRuleset fromStr configPath (env.files configPath) = .ok rs ∧
      Mirrors (.start configPath rs diff) d.state (startup fromStr env configPath controlAddr pollSecs).2 [] := by
  obtain ⟨rs, diff, hl, hc, hr, -, hb, hd, -⟩ := startup_eq_ok fromStr h
  have hrecords : (startup fromStr env configPath controlAddr pollSecs).2 =
      [⟨rs, (DaemonState.apply ⟨configPath, none, none⟩ env.backend rs).calls⟩] := by
    simp [startup, hl, DaemonState.new, hc, hr, hb]
  refine ⟨rs, diff, hl, fun _ => rfl, hd.symm, ?_, rfl⟩
  rw [hrecords, List.filter_singleton, succeeded_apply, hr]
  rfl

/-! ## Whole runs -/

/-- A running daemon's operation, from the steps that follow it wherever the threads mirror the daemon. -/
theorem mirrored_running {s : Session} {outcomes : List Outcome} {d d' : Daemon} {records : List ApplyRecord}
    {outcome : Outcome} {env : Env} {op : Op} {u : Thread} (hm : Session.Mirrored (s, outcomes) t)
    (hd : s.daemon = some d) (hu : op.thread = some u)
    (hnext : ∀ answers, Mirrors t d.state s.history answers →
      Reaches fromStr u env t d'.state (records ++ s.history) (outcome.status.toList ++ answers)) :
    ∃ events t', Performs (env, op) events ∧ exec (event fromStr) t events = some t' ∧
      Session.Mirrored ({ s with daemon := some d', history := records ++ s.history }, outcome :: outcomes) t' := by
  obtain ⟨hstarted, d₁, hd₁, hm⟩ := hm
  obtain rfl := Option.some.inj (hd.symm.trans hd₁)
  obtain ⟨events, t', hin, hexec, hm'⟩ := hnext _ hm
  have hcons : (outcome :: outcomes).filterMap Outcome.status =
      outcome.status.toList ++ outcomes.filterMap Outcome.status := by
    rw [List.filterMap_cons]
    cases outcome.status <;> rfl
  refine ⟨events, t', fun e he => ?_, hexec, hstarted, d', rfl, ?_⟩
  · obtain ⟨rfl, hact⟩ := hin e he
    exact ⟨hu, hact⟩
  · rw [hcons]
    exact hm'

/-- **One operation of a running daemon is a block of steps of its thread.** -/
theorem mirrored_record {so so' : Session × List Outcome} {eo : Env × Op} (hm : Session.Mirrored so t)
    (h : Session.record fromStr so eo = some so') :
    ∃ events t', Performs eo events ∧ exec (event fromStr) t events = some t' ∧ Session.Mirrored so' t' := by
  obtain ⟨s, outcomes⟩ := so
  obtain ⟨env, op⟩ := eo
  obtain ⟨⟨s', outcome⟩, hp, rfl⟩ := Option.map_eq_some_iff.1 h
  obtain ⟨d, hd⟩ : ∃ d, s.daemon = some d := hm.2.imp (fun d h => h.1)
  cases op with
  | startup configPath controlAddr pollSecs =>
    rw [Session.perform, if_pos hm.1] at hp
    cases hp
  | request line =>
    simp only [Session.perform, hd, Option.some.injEq, Prod.mk.injEq] at hp
    obtain ⟨rfl, rfl⟩ := hp
    exact mirrored_running hm hd rfl (fun answers hans => hans.handleClient env line)
  | poll =>
    cases hw : d.watch with
    | none => simp [Session.perform, hd, hw] at hp
    | some lastMtime =>
      simp only [Session.perform, hd, hw, Option.some.injEq, Prod.mk.injEq] at hp
      obtain ⟨rfl, rfl⟩ := hp
      exact mirrored_running hm hd rfl (fun answers hans => hans.watchPoll env lastMtime)

/-- A session begins with a startup. -/
theorem record_start {so' : Session × List Outcome} {eo : Env × Op}
    (h : Session.record fromStr ({}, []) eo = some so') : ∃ env configPath controlAddr pollSecs,
      eo = (env, .startup configPath controlAddr pollSecs) := by
  obtain ⟨env, op⟩ := eo
  obtain ⟨r, hp, -⟩ := Option.map_eq_some_iff.1 h
  cases op with
  | startup configPath controlAddr pollSecs => exact ⟨env, configPath, controlAddr, pollSecs, rfl⟩
  | request line => cases hp
  | poll => cases hp

/-- After a startup that fails there is no daemon. -/
theorem record_down {so so' : Session × List Outcome} {eo : Env × Op} (hstarted : so.1.started = true)
    (hd : so.1.daemon = none) : Session.record fromStr so eo ≠ some so' := by
  obtain ⟨env, op⟩ := eo
  cases op <;> simp [Session.record, Session.perform, hstarted, hd]

/-- Startup leaves a daemon that the threads mirror, or none at all. -/
theorem mirrored_startup {so' : Session × List Outcome} {env : Env} {configPath controlAddr : String} {pollSecs : Nat}
    (h : Session.record fromStr ({}, []) (env, .startup configPath controlAddr pollSecs) = some so') :
    (so'.1.started = true ∧ so'.1.daemon = none) ∨
      ∃ rs diff, loadRuleset fromStr configPath (env.files configPath) = .ok rs ∧
        Session.Mirrored so' (.start configPath rs diff) := by
  obtain ⟨⟨s', outcome⟩, hp, rfl⟩ := Option.map_eq_some_iff.1 h
  have hstart := @mirrors_startup fromStr env configPath controlAddr pollSecs
  simp only [Session.perform, Bool.false_eq_true, if_false] at hp
  rcases hst : startup fromStr env configPath controlAddr pollSecs with ⟨result, records⟩
  rw [hst] at hp hstart
  cases result with
  | error e =>
    obtain ⟨rfl, rfl⟩ := Prod.mk.inj (Option.some.inj hp)
    exact Or.inl ⟨rfl, rfl⟩
  | ok d =>
    obtain ⟨rfl, rfl⟩ := Prod.mk.inj (Option.some.inj hp)
    obtain ⟨rs, diff, hl, hm⟩ := hstart rfl
    refine Or.inr ⟨rs, diff, hl, rfl, d, rfl, ?_⟩
    rw [List.append_nil]
    exact hm

/-- **Every session is an interleaving**: taken one operation at a time, or step by step by the two threads, the same
rulesets are applied in the same order, the same fields are stored and `Status` gives the same answers. -/
theorem session_interleaves {ops : List (Env × Op)} {s : Session} {outcomes : List Outcome} {d : Daemon}
    (h : exec (Session.record fromStr) ({}, []) ops = some (s, outcomes)) (hd : s.daemon = some d) :
    ∃ env configPath controlAddr pollSecs rest rs diff blocks t,
      ops = (env, .startup configPath controlAddr pollSecs) :: rest ∧
      loadRuleset fromStr configPath (env.files configPath) = .ok rs ∧ verify rs = .ok () ∧
      List.Forall₂ Performs rest blocks ∧ exec (event fromStr) (.start configPath rs diff) blocks.flatten = some t ∧
      Mirrors t d.state s.history (outcomes.filterMap Outcome.status) := by
  cases ops with
  | nil =>
    cases h
    cases hd
  | cons eo rest =>
    obtain ⟨so₁, h₁, hrest⟩ := Option.bind_eq_some_iff.1 h
    obtain ⟨env, configPath, controlAddr, pollSecs, rfl⟩ := record_start h₁
    rcases mirrored_startup h₁ with ⟨hstarted, hdown⟩ | ⟨rs, diff, hl, hm⟩
    · -- nothing follows a startup that failed
      cases rest with
      | nil =>
        cases hrest
        cases hdown.symm.trans hd
      | cons eo rest =>
        obtain ⟨so₂, h₂, -⟩ := Option.bind_eq_some_iff.1 hrest
        exact absurd h₂ (record_down hstarted hdown)
    · obtain ⟨blocks, t, hblocks, hexec, -, d', hd', hm'⟩ :=
        Machine.sim_of_exec (fun so t eo so' hrel hstep => mirrored_record hrel hstep) hm hrest
      obtain rfl := Option.some.inj (hd.symm.trans hd')
      exact ⟨env, configPath, controlAddr, pollSecs, rest, rs, diff, blocks, t, rfl, hl, verify_of_loadRuleset fromStr hl,
        hblocks, hexec, hm'⟩

theorem session_interleaves_sampleOps : ∃ rs diff blocks t, List.Forall₂ Performs sampleOps.tail blocks ∧
    exec (event (fun _ => .ok ⟨sshOnly⟩)) (.start "fw.toml" rs diff) blocks.flatten = some t ∧ t.payloads.length = 1 := by
  have hran : (exec (Session.record (fun _ => .ok ⟨sshOnly⟩)) ({}, []) sampleOps).map
      (fun so => (so.1.daemon.isSome, (so.2.filterMap Outcome.status).length)) = some (true, 1) := by rfl
  obtain ⟨⟨s, outcomes⟩, hs, hso⟩ := Option.map_eq_some_iff.1 hran
  obtain ⟨hsome, hlength⟩ := Prod.mk.inj hso
  obtain ⟨d, hd⟩ := Option.isSome_iff_exists.1 hsome
  obtain ⟨env, configPath, controlAddr, pollSecs, rest, rs, diff, blocks, t, hops, -, -, hblocks, hexec, hm⟩ :=
    session_interleaves hs hd
  simp only [sampleOps, List.cons.injEq, Prod.mk.injEq, Op.startup.injEq] at hops
  obtain ⟨⟨-, rfl, -, -⟩, rfl⟩ := hops
  exact ⟨rs, diff, blocks, t, hblocks, hexec, hm.answers ▸ hlength⟩

end Portcullis
