import Portcullis.Daemon
import Portcullis.Lib.Machine
/-!
# Watch — config writes against startup and the watcher's polls (`control.rs`)

The file changes at any moment, and may then have any mtime, none, or no content.  Startup loads it, applies it and only
then starts the watcher, whose first metadata call takes the mtime it finds as known.  Where every write leaves the file
readable with an mtime it never had (`FreshWrites`), a write after the load and before that call goes unread until the
next write, and every other one is read (`read_iff_of_polled`).
-/
namespace Portcullis
namespace Watch

open Machine (exec Meets)

/-- The next step of startup (up to `sample`, the watcher's first metadata call), or of the watcher's loop. -/
inductive Pc where
  | load
  | connect (rs : Ruleset)
  | apply (rs : Ruleset)
  | bind
  | sample
  | sleep (polled : Bool)
  | compare (mtime : Option Nat)
  | reload
  | reapply (rs : Ruleset)
  | exited
  deriving DecidableEq, Repr

structure State where
  content : Except String String
  mtime : Option Nat
  /-- Every mtime the file has had. -/
  used : List Nat
  pc : Pc := .load
  lastMtime : Option Nat := none
  daemon : DaemonState
  /-- `load_ruleset` has read the content since it was written. -/
  readSince : Bool := false
  /-- The file was written since the last poll began. -/
  writtenSince : Bool := false
  /-- The last write came between startup's load and the watcher's first metadata call. -/
  writtenInGap : Bool := false

inductive Event where
  | write (content : Except String String) (mtime : Option Nat)
  | read
  | connect (reply : Except String Unit)
  | apply (backend : Backend)
  | bind (reply : Except String Unit)
  | metadata
  | compare

def State.start (configPath : String) (content : Except String String) (mtime : Option Nat) : State :=
  { content := content, mtime := mtime, used := mtime.toList, daemon := ⟨configPath, none, none⟩ }

def Pc.gap : Pc → Bool
  | .connect _ => true
  | .apply _ => true
  | .bind => true
  | .sample => true
  | _ => false

def State.write (s : State) (content : Except String String) (mtime : Option Nat) : State :=
  { s with
    content := content, mtime := mtime, used := mtime.toList ++ s.used, readSince := false, writtenSince := true,
    writtenInGap := s.pc.gap }

variable (fromStr : String → Except String FileConfig)

def step (s : State) (e : Event) : Option State :=
  match e, s.pc with
  | .write content mtime, _ => some (s.write content mtime)
  | .read, .load =>
    match loadRuleset fromStr s.daemon.configPath s.content with
    | .ok rs => some { s with readSince := s.content.isOk, pc := .connect rs }
    | .error _ => some { s with readSince := s.content.isOk, pc := .exited }
  | .connect reply, .connect rs =>
    match DaemonState.new s.daemon.configPath reply with
    | .ok daemon => some { s with daemon := daemon, pc := .apply rs }
    | .error _ => some { s with pc := .exited }
  | .apply backend, .apply rs =>
    let run := s.daemon.apply backend rs
    match run.result with
    | .ok _ => some { s with daemon := run.state, pc := .bind }
    | .error _ => some { s with pc := .exited }
  | .bind reply, .bind =>
    match reply with
    | .ok () => some { s with pc := .sample }
    | .error _ => some { s with pc := .exited }
  | .metadata, .sample => some { s with lastMtime := s.mtime, pc := .sleep false }
  | .metadata, .sleep _ => some { s with writtenSince := false, pc := .compare s.mtime }
  | .compare, .compare mtime =>
    if mtime = none then some { s with pc := .sleep true }
    else if mtime = s.lastMtime then some { s with pc := .sleep true }
    else some { s with lastMtime := mtime, pc := .reload }
  | .read, .reload =>
    match loadRuleset fromStr s.daemon.configPath s.content with
    | .ok rs => some { s with readSince := s.content.isOk, pc := .reapply rs }
    | .error _ => some { s with readSince := s.content.isOk, pc := .sleep true }
  | .apply backend, .reapply rs => some { s with daemon := (s.daemon.apply backend rs).state, pc := .sleep true }
  | _, _ => none

/-- A write leaves the file readable, with an mtime it never had. -/
def FreshWrites (s : State) (e : Event) : Prop :=
  ∀ content mtime, e = .write content mtime → content.isOk = true ∧ ∃ m, mtime = some m ∧ m ∉ s.used

/-- The content was read, or its mtime is news to the watcher. -/
def State.Known (s : State) : Prop := s.readSince = true ∨ s.lastMtime ≠ s.mtime

/-- The content was not read, and the watcher takes it as read. -/
def State.Lost (s : State) : Prop := s.readSince = false ∧ s.lastMtime = s.mtime

/-- What holds where the process is. -/
def State.At (s : State) : Pc → Prop
  | .load => s.writtenInGap = false
  | .connect _ => s.readSince = !s.writtenInGap
  | .apply _ => s.readSince = !s.writtenInGap
  | .bind => s.readSince = !s.writtenInGap
  | .sample => s.readSince = !s.writtenInGap
  | .sleep polled => (s.writtenInGap = false → s.Known) ∧ (s.writtenInGap = true → s.Lost) ∧
      (polled = true → s.writtenSince = false → s.writtenInGap = false → s.readSince = true)
  | .compare mtime => (s.writtenInGap = false → s.Known) ∧ (s.writtenInGap = true → s.Lost ∧ mtime = s.mtime) ∧
      (∃ m ∈ s.used, mtime = some m) ∧ (s.writtenSince = false → mtime = s.mtime)
  | .reload => s.writtenInGap = false
  | .reapply _ => s.writtenInGap = false ∧ s.Known ∧ (s.writtenSince = false → s.readSince = true)
  | .exited => True

structure Inv (s : State) : Prop where
  readable : s.content.isOk = true
  mtime : ∃ m ∈ s.used, s.mtime = some m
  lastMtime : ∀ m, s.lastMtime = some m → m ∈ s.used
  here : s.At s.pc

variable {fromStr}

/-- **A write** gives an mtime the watcher cannot know, except in the gap, where it is about to learn it. -/
theorem inv_write {s : State} (hinv : Inv s) {content : Except String String} {mtime : Nat} (hok : content.isOk = true)
    (hnew : mtime ∉ s.used) : Inv (s.write content (some mtime)) := by
  have hnews : s.lastMtime ≠ some mtime := fun h => hnew (hinv.lastMtime mtime h)
  have hhere := hinv.here
  refine ⟨hok, ⟨mtime, List.mem_cons_self, rfl⟩, fun m hm => List.mem_cons_of_mem _ (hinv.lastMtime m hm), ?_⟩
  show (s.write content (some mtime)).At s.pc
  cases hpc : s.pc with
  | load => simp [State.At, State.write, hpc, Pc.gap]
  | connect rs => simp [State.At, State.write, hpc, Pc.gap]
  | apply rs => simp [State.At, State.write, hpc, Pc.gap]
  | bind => simp [State.At, State.write, hpc, Pc.gap]
  | sample => simp [State.At, State.write, hpc, Pc.gap]
  | sleep polled => simp [State.At, State.write, State.Known, hpc, Pc.gap, hnews]
  | compare m =>
    rw [hpc] at hhere
    obtain ⟨n, hn, rfl⟩ := hhere.2.2.1
    simp [State.At, State.write, State.Known, hpc, Pc.gap, hnews, hn]
  | reload => simp [State.At, State.write, hpc, Pc.gap]
  | reapply rs => simp [State.At, State.write, State.Known, hpc, Pc.gap, hnews]
  | exited => trivial

/-- **The watcher's first metadata call** takes whatever mtime is there as known, read or not. -/
theorem inv_sample {s : State} (hinv : Inv s) (hpc : s.pc = .sample) :
    Inv { s with lastMtime := s.mtime, pc := .sleep false } := by
  have hread : s.readSince = !s.writtenInGap := by
    have hhere := hinv.here
    rwa [hpc] at hhere
  refine ⟨hinv.readable, hinv.mtime, fun m hm => ?_, fun hgap => ?_, fun hgap => ⟨?_, rfl⟩, nofun⟩
  · obtain ⟨n, hn, heq⟩ := hinv.mtime
    obtain rfl := Option.some.inj (heq.symm.trans hm)
    exact hn
  · rw [hgap] at hread
    exact Or.inl hread
  · rw [hgap] at hread
    exact hread

/-- A poll's metadata call reads the mtime the file has. -/
theorem inv_metadata {s : State} {polled : Bool} (hinv : Inv s) (hpc : s.pc = .sleep polled) :
    Inv { s with writtenSince := false, pc := .compare s.mtime } := by
  have hhere := hinv.here
  rw [hpc] at hhere
  obtain ⟨hknown, hlost, -⟩ := hhere
  exact ⟨hinv.readable, hinv.mtime, hinv.lastMtime, hknown, fun hgap => ⟨hlost hgap, rfl⟩, hinv.mtime, fun _ => rfl⟩

/-- An unchanged mtime: the content is the one read, or the one lost. -/
theorem inv_unchanged {s : State} {mtime : Option Nat} (hinv : Inv s) (hpc : s.pc = .compare mtime)
    (heq : mtime = s.lastMtime) : Inv { s with pc := .sleep true } := by
  have hhere := hinv.here
  rw [hpc] at hhere
  obtain ⟨hknown, hlost, -, hsame⟩ := hhere
  refine ⟨hinv.readable, hinv.mtime, hinv.lastMtime, hknown, fun hgap => (hlost hgap).1, fun _ hw hgap => ?_⟩
  refine (hknown hgap).resolve_right (fun hne => hne ?_)
  rw [← heq, hsame hw]

/-- A changed mtime: nothing was lost, as a lost content has the mtime the watcher knows. -/
theorem inv_changed {s : State} {mtime : Option Nat} (hinv : Inv s) (hpc : s.pc = .compare mtime)
    (hne : mtime ≠ s.lastMtime) : Inv { s with lastMtime := mtime, pc := .reload } := by
  have hhere := hinv.here
  rw [hpc] at hhere
  obtain ⟨-, hlost, ⟨n, hn, rfl⟩, -⟩ := hhere
  have hgap : s.writtenInGap = false := by
    by_contra hgap
    obtain ⟨⟨-, hm⟩, heq⟩ := hlost (by simpa using hgap)
    exact hne (heq ▸ hm.symm)
  refine ⟨hinv.readable, hinv.mtime, fun m hm => ?_, hgap⟩
  obtain rfl := Option.some.inj hm
  exact hn

/-- The reload reads the content, whatever it makes of it. -/
theorem inv_reload {s : State} {pc : Pc} (hinv : Inv s) (hpc : s.pc = .reload)
    (hnext : pc = .sleep true ∨ ∃ rs, pc = .reapply rs) : Inv { s with readSince := s.content.isOk, pc := pc } := by
  have hgap : s.writtenInGap = false := by
    have hhere := hinv.here
    rwa [hpc] at hhere
  refine ⟨hinv.readable, hinv.mtime, hinv.lastMtime, ?_⟩
  rcases hnext with rfl | ⟨rs, rfl⟩
  · refine ⟨fun _ => Or.inl hinv.readable, fun h => ?_, fun _ _ _ => hinv.readable⟩
    exact absurd (hgap.symm.trans h) Bool.false_ne_true
  · exact ⟨hgap, Or.inl hinv.readable, fun _ => hinv.readable⟩

theorem inv_reapply {s : State} {rs : Ruleset} {daemon : DaemonState} (hinv : Inv s) (hpc : s.pc = .reapply rs) :
    Inv { s with daemon := daemon, pc := .sleep true } := by
  have hhere := hinv.here
  rw [hpc] at hhere
  obtain ⟨hgap, hknown, hread⟩ := hhere
  refine ⟨hinv.readable, hinv.mtime, hinv.lastMtime, fun _ => hknown, fun h => ?_, fun _ hw _ => hread hw⟩
  exact absurd (hgap.symm.trans h) Bool.false_ne_true

theorem inv_exited {s : State} {readSince : Bool} (hinv : Inv s) :
    Inv { s with readSince := readSince, pc := .exited } :=
  ⟨hinv.readable, hinv.mtime, hinv.lastMtime, trivial⟩

/-- Startup's load reads the content that is there. -/
theorem inv_loaded {s : State} (hinv : Inv s) (hpc : s.pc = .load) (rs : Ruleset) :
    Inv { s with readSince := s.content.isOk, pc := .connect rs } := by
  have hgap : s.writtenInGap = false := by
    have hhere := hinv.here
    rwa [hpc] at hhere
  refine ⟨hinv.readable, hinv.mtime, hinv.lastMtime, ?_⟩
  show s.content.isOk = !s.writtenInGap
  rw [hgap, hinv.readable]
  rfl

theorem at_iff_of_gap {s : State} {pc : Pc} (h : pc.gap = true) : s.At pc ↔ s.readSince = !s.writtenInGap := by
  cases pc <;> first | exact Iff.rfl | cases h

/-- From there to the watcher's first metadata call startup looks at no file. -/
theorem inv_startup {s : State} (hinv : Inv s) (hgap : s.pc.gap = true) (daemon : DaemonState) {pc : Pc}
    (hgap' : pc.gap = true) : Inv { s with daemon := daemon, pc := pc } :=
  ⟨hinv.readable, hinv.mtime, hinv.lastMtime, (at_iff_of_gap hgap').2 ((at_iff_of_gap hgap).1 hinv.here)⟩

theorem inv_step {s s' : State} {e : Event} (hinv : Inv s) (hfresh : FreshWrites s e)
    (h : step fromStr s e = some s') : Inv s' := by
  unfold step at h
  split at h
  · rename_i content mtime
    cases h
    obtain ⟨hok, m, rfl, hnew⟩ := hfresh content mtime rfl
    exact inv_write hinv hok hnew
  · -- startup's load
    rename_i hpc
    split at h <;> cases h
    · exact inv_loaded hinv hpc _
    · exact inv_exited hinv
  · -- its connection
    rename_i hpc
    split at h <;> cases h
    · exact inv_startup hinv (by rw [hpc]; rfl) _ rfl
    · exact inv_exited hinv
  · -- its apply
    rename_i hpc
    simp only at h
    split at h <;> cases h
    · exact inv_startup hinv (by rw [hpc]; rfl) _ rfl
    · exact inv_exited hinv
  · -- its control socket
    rename_i hpc
    split at h <;> cases h
    · exact inv_startup hinv (by rw [hpc]; rfl) _ rfl
    · exact inv_exited hinv
  · rename_i hpc
    cases h
    exact inv_sample hinv hpc
  · rename_i polled hpc
    cases h
    exact inv_metadata hinv hpc
  · rename_i mtime hpc
    split at h
    · -- the file has an mtime
      rename_i hnone
      have hhere := hinv.here
      rw [hpc] at hhere
      obtain ⟨n, -, hsome⟩ := hhere.2.2.1
      cases hnone.symm.trans hsome
    · split at h <;> cases h
      · rename_i heq
        exact inv_unchanged hinv hpc heq
      · rename_i hne
        exact inv_changed hinv hpc hne
  · rename_i hpc
    split at h <;> cases h
    · exact inv_reload hinv hpc (Or.inr ⟨_, rfl⟩)
    · exact inv_reload hinv hpc (Or.inl rfl)
  · rename_i rs hpc
    cases h
    exact inv_reapply hinv hpc
  · cases h

theorem inv_start {configPath content : String} {mtime : Nat} : Inv (.start configPath (.ok content) (some mtime)) := by
  refine ⟨rfl, ⟨mtime, List.mem_singleton_self _, rfl⟩, fun m hm => ?_, rfl⟩
  cases hm

/-- **What a poll leaves read**: when the file was left alone during it, everything but a write in the gap. -/
theorem read_iff_of_polled {configPath content : String} {mtime : Nat} {es : List Event} {s : State}
    (hm : Meets (step fromStr) FreshWrites (.start configPath (.ok content) (some mtime)) es)
    (h : exec (step fromStr) (.start configPath (.ok content) (some mtime)) es = some s) (hpolled : s.pc = .sleep true)
    (hquiet : s.writtenSince = false) : s.readSince = true ↔ s.writtenInGap = false := by
  have hinv : Inv s := Machine.inv_of_meets (fun s e s' hs hg hstep => inv_step hs hg hstep) inv_start hm h
  have hhere := hinv.here
  rw [hpolled] at hhere
  obtain ⟨-, hlost, hread⟩ := hhere
  refine ⟨fun hr => ?_, fun hgap => hread rfl hquiet hgap⟩
  cases hgap : s.writtenInGap with
  | false => rfl
  | true => exact absurd ((hlost hgap).1.symm.trans hr) Bool.false_ne_true

/-- **Startup left alone is `startup`**, and ends in the watcher's first sleep. -/
theorem exec_startup {env : Env} {configPath controlAddr : String} {pollSecs : Nat} {d : Daemon} (hpoll : pollSecs > 0)
    (h : (startup fromStr env configPath controlAddr pollSecs).1 = .ok d) :
    ∃ es s', exec (step fromStr) (.start configPath (env.files configPath) env.mtime) es = some s' ∧ s'.pc = .sleep false ∧
      d.watch = some s'.lastMtime ∧ s'.daemon = d.state := by
  obtain ⟨rs, diff, hl, hc, hr, hs, hb, -, hwatch⟩ := startup_eq_ok fromStr h
  refine ⟨[.read, .connect env.connect, .apply env.backend, .bind env.bind, .metadata],
    { State.start configPath (env.files configPath) env.mtime with
      readSince := (env.files configPath).isOk, lastMtime := env.mtime, daemon := d.state, pc := .sleep false },
    ?_, rfl, ?_, rfl⟩
  · simp [step, State.start, hl, hc, DaemonState.new, hr, hs, hb]
  · rw [hwatch, if_pos hpoll]

/-- **A poll left alone is a round of `watch_config`'s loop**, as the sequential model performs it. -/
theorem exec_poll {s : State} {polled : Bool} {env : Env} (hpc : s.pc = .sleep polled)
    (hfile : env.files s.daemon.configPath = s.content) (hmtime : env.mtime = s.mtime) :
    ∃ es s', exec (step fromStr) s es = some s' ∧ s'.pc = .sleep true ∧
      s'.lastMtime = (watchPoll fromStr env s.daemon s.lastMtime).1 ∧
      s'.daemon = (watchPoll fromStr env s.daemon s.lastMtime).2.2.1 := by
  by_cases hnone : s.mtime = none
  · refine ⟨[.metadata, .compare], { s with writtenSince := false, pc := .sleep true }, ?_, rfl, ?_, ?_⟩
    · simp only [Machine.exec_cons, Machine.exec_nil, step, hpc, Option.bind_some, if_pos hnone]
    · simp [watchPoll, hmtime, hnone]
    · simp [watchPoll, hmtime, hnone]
  · by_cases hsame : s.mtime = s.lastMtime
    · refine ⟨[.metadata, .compare], { s with writtenSince := false, pc := .sleep true }, ?_, rfl, ?_, ?_⟩
      · simp only [Machine.exec_cons, Machine.exec_nil, step, hpc, Option.bind_some, if_neg hnone, if_pos hsame]
      · simp [watchPoll, hmtime, ← hsame, hnone]
      · simp [watchPoll, hmtime, ← hsame, hnone]
    · cases hl : loadRuleset fromStr s.daemon.configPath s.content with
      | error e =>
        refine ⟨[.metadata, .compare, .read], { s with
          writtenSince := false, lastMtime := s.mtime, readSince := s.content.isOk, pc := .sleep true }, ?_, rfl, ?_, ?_⟩
        · simp only [Machine.exec_cons, Machine.exec_nil, step, hpc, Option.bind_some, if_neg hnone, if_neg hsame, hl]
        · simp [watchPoll, applyFile, hmtime, hnone, hsame, hfile, hl]
        · simp [watchPoll, applyFile, hmtime, hnone, hsame, hfile, hl]
      | ok rs =>
        refine ⟨[.metadata, .compare, .read, .apply env.backend], { s with
          writtenSince := false, lastMtime := s.mtime, readSince := s.content.isOk,
          daemon := (s.daemon.apply env.backend rs).state, pc := .sleep true }, ?_, rfl, ?_, ?_⟩
        · simp only [Machine.exec_cons, Machine.exec_nil, step, hpc, Option.bind_some, if_neg hnone, if_neg hsame, hl]
        · cases hr : (s.daemon.apply env.backend rs).result <;>
            simp [watchPoll, applyFile, hmtime, hnone, hsame, hfile, hl, hr, Except.mapError]
        · cases hr : (s.daemon.apply env.backend rs).result <;>
            simp [watchPoll, applyFile, hmtime, hnone, hsame, hfile, hl, hr, Except.mapError]

def acceptAll : Backend := ⟨fun _ => .ok {}, fun _ => .ok (), fun _ => .ok ()⟩

def startupSteps : List Event := [.read, .connect (.ok ()), .apply acceptAll, .bind (.ok ())]

def emptyConfig (_ : String) : Except String FileConfig := .ok ⟨.new []⟩

def watchSample : State := .start "fw.toml" (.ok "first") (some 1)

/-- A write while the watcher sleeps, and the poll that reads it. -/
def rewritten (backend : Backend) : List Event :=
  (startupSteps ++ [.metadata]) ++ .write (.ok "second") (some 2) :: [.metadata, .compare, .read, .apply backend]

/-- A write after startup's load, and a poll. -/
def missed : List Event := startupSteps ++ .write (.ok "second") (some 2) :: [.metadata, .metadata, .compare]

def Event.writes : Event → Bool
  | .write _ _ => true
  | _ => false

theorem used_step {s s' : State} {e : Event} (hw : e.writes = false) (h : step fromStr s e = some s') :
    s'.used = s.used := by
  unfold step at h
  split at h
  · cases hw
  · split at h <;> cases h <;> rfl
  · split at h <;> cases h <;> rfl
  · simp only at h
    split at h <;> cases h <;> rfl
  · split at h <;> cases h <;> rfl
  · cases h
    rfl
  · cases h
    rfl
  · split at h
    · cases h
      rfl
    · split at h <;> cases h <;> rfl
  · split at h <;> cases h <;> rfl
  · cases h
    rfl
  · cases h

theorem fresh_of_unwritten {s : State} {es : List Event} (h : ∀ e ∈ es, e.writes = false) :
    Meets (step fromStr) FreshWrites s es := by
  refine Machine.meets_mono (fun s e he content mtime heq => ?_) (Machine.meets_of_forall s h)
  rw [heq] at he
  cases he

/-- A run with one write, of an mtime the file did not have. -/
theorem fresh_of_one_write {s : State} {es es' : List Event} {content : String} {mtime : Nat}
    (hes : ∀ e ∈ es, e.writes = false) (hes' : ∀ e ∈ es', e.writes = false) (hnew : mtime ∉ s.used) :
    Meets (step fromStr) FreshWrites s (es ++ .write (.ok content) (some mtime) :: es') := by
  refine Machine.meets_append (fresh_of_unwritten hes) (fun t ht => ⟨?_, fun _ _ => fresh_of_unwritten hes'⟩)
  have hused : t.used = s.used := by
    refine @Machine.inv_of_meets _ _ (step fromStr) (fun t => t.used = s.used) _ (fun a e b ha he hab => ?_) es s t rfl
      (Machine.meets_of_forall s hes) ht
    exact (used_step he hab).trans ha
  rintro _ _ ⟨⟩
  exact ⟨rfl, mtime, rfl, hused ▸ hnew⟩

theorem fresh_rewritten {backend : Backend} : Meets (step fromStr) FreshWrites watchSample (rewritten backend) :=
  fresh_of_one_write (by simp [startupSteps, Event.writes]) (by simp [Event.writes]) (by decide)

theorem read_iff_of_polled_rewritten : ∃ s : State, exec (step emptyConfig) watchSample (rewritten acceptAll) = some s ∧
    (s.readSince = true ↔ s.writtenInGap = false) := by
  have hrun : (exec (step emptyConfig) watchSample (rewritten acceptAll)).map (fun s => (s.pc, s.writtenSince)) =
      some (.sleep true, false) := by rfl
  obtain ⟨s, hs, heq⟩ := Option.map_eq_some_iff.1 hrun
  obtain ⟨hpolled, hquiet⟩ := Prod.mk.inj heq
  exact ⟨s, hs, read_iff_of_polled fresh_rewritten hs hpolled hquiet⟩

/-- **A write in the gap is missed**: the watcher starts from its mtime, and the next poll finds nothing new. -/
theorem not_read_of_polled : ¬ ∀ es s, Meets (step emptyConfig) FreshWrites watchSample es →
    exec (step emptyConfig) watchSample es = some s → s.pc = .sleep true → s.writtenSince = false → s.readSince = true := by
  intro h
  have hfresh : Meets (step emptyConfig) FreshWrites watchSample missed :=
    fresh_of_one_write (by simp [startupSteps, Event.writes]) (by simp [Event.writes]) (by decide)
  have hrun : (exec (step emptyConfig) watchSample missed).map (fun s => (s.pc, s.writtenSince, s.readSince)) =
      some (.sleep true, false, false) := by rfl
  obtain ⟨s, hs, heq⟩ := Option.map_eq_some_iff.1 hrun
  simp only [Prod.mk.injEq] at heq
  obtain ⟨hpolled, hquiet, hunread⟩ := heq
  exact Bool.false_ne_true (hunread.symm.trans (h missed s hfresh hs hpolled hquiet))

end Watch
end Portcullis
