import Portcullis.Watch
/-!
# Settled — what is stored once the writes have stopped

Where the watcher's applies succeed and every write leaves the file readable with an mtime of its own, a poll that no
write disturbed leaves the ruleset of the file stored, as long as the last write did not fall in the gap of startup
(`stored_of_polled`).  What the watcher takes as known it does not look at again: a reload that fails, a write in the gap
or one that brings back the known mtime stays as it is until the next write (`not_retried`).
-/
namespace Portcullis
namespace Watch

open Machine (exec Meets)

variable {fromStr : String → Except String FileConfig}

/-- What the file holds is stored, if it loads. -/
def State.Stores (fromStr : String → Except String FileConfig) (s : State) : Prop :=
  ∀ rs, loadRuleset fromStr s.daemon.configPath s.content = .ok rs → s.daemon.rules = some rs

/-- The content that was read is on its way to being stored, or is. -/
def State.Bound (fromStr : String → Except String FileConfig) (s : State) : Pc → Prop
  | .load => s.readSince = false
  | .connect rs => loadRuleset fromStr s.daemon.configPath s.content = .ok rs
  | .apply rs => loadRuleset fromStr s.daemon.configPath s.content = .ok rs
  | .reapply rs => loadRuleset fromStr s.daemon.configPath s.content = .ok rs
  | .exited => True
  | _ => s.Stores fromStr

/-- A reload's apply succeeds. -/
def ReloadsApply (s : State) (e : Event) : Prop :=
  ∀ backend rs, e = .apply backend → s.pc = .reapply rs → ∃ o, (s.daemon.apply backend rs).result = .ok o

structure Carries (fromStr : String → Except String FileConfig) (configPath : String) (s : State) : Prop where
  path : s.daemon.configPath = configPath
  bound : s.readSince = true → s.Bound fromStr s.pc

theorem apply_stores {d : DaemonState} {backend : Backend} {rs : Ruleset} {o : ApplyOutcome}
    (h : (d.apply backend rs).result = .ok o) :
    (d.apply backend rs).state.rules = some rs ∧ (d.apply backend rs).state.configPath = d.configPath := by
  rcases apply_cases d backend rs with ⟨e, ha⟩ | ⟨diff, e, ha⟩ | ⟨diff, e, ha⟩ | ⟨diff, ha⟩ <;> rw [ha] at h ⊢ <;> cases h
  exact ⟨rfl, rfl⟩

/-- **An apply that succeeds stores what was read.** -/
theorem carries_applied {configPath : String} {s : State} {backend : Backend} {rs : Ruleset} {o : ApplyOutcome} {pc : Pc}
    (hpath : s.daemon.configPath = configPath)
    (hload : s.readSince = true → loadRuleset fromStr s.daemon.configPath s.content = .ok rs)
    (ho : (s.daemon.apply backend rs).result = .ok o) (hpc : pc = .bind ∨ pc = .sleep true) :
    Carries fromStr configPath { s with daemon := (s.daemon.apply backend rs).state, pc := pc } := by
  obtain ⟨hrules, hsame⟩ := apply_stores ho
  have hstores (hr : s.readSince = true) :
      State.Stores fromStr { s with daemon := (s.daemon.apply backend rs).state, pc := pc } := by
    intro rs' hrs'
    simp only [hsame, hload hr, Except.ok.injEq] at hrs'
    rw [← hrs']
    exact hrules
  refine ⟨hsame.trans hpath, fun hr => ?_⟩
  rcases hpc with rfl | rfl
  · exact hstores hr
  · exact hstores hr

theorem eq_new {configPath : String} {reply : Except String Unit} {d : DaemonState}
    (h : DaemonState.new configPath reply = .ok d) : d = ⟨configPath, none, none⟩ := by
  cases reply with
  | error e => cases h
  | ok _ => exact (Except.ok.inj h).symm

theorem carries_step {configPath : String} {s s' : State} {e : Event} (hs : Carries fromStr configPath s)
    (hg : ReloadsApply s e) (h : step fromStr s e = some s') : Carries fromStr configPath s' := by
  obtain ⟨hpath, hbound⟩ := hs
  unfold step at h
  split at h
  · -- a write
    cases h
    exact ⟨hpath, nofun⟩
  · -- startup's load
    split at h <;> cases h
    · rename_i hl
      exact ⟨hpath, fun _ => hl⟩
    · exact ⟨hpath, fun _ => trivial⟩
  · -- its connection
    rename_i hpc
    split at h <;> cases h
    · rename_i daemon hnew
      rw [hpc] at hbound
      obtain rfl := eq_new hnew
      exact ⟨hpath, hbound⟩
    · exact ⟨hpath, fun _ => trivial⟩
  · -- its apply
    rename_i rs hpc
    simp only at h
    split at h <;> cases h
    · rename_i o ho
      rw [hpc] at hbound
      exact carries_applied hpath hbound ho (Or.inl rfl)
    · exact ⟨hpath, fun _ => trivial⟩
  · -- its control socket
    rename_i hpc
    split at h <;> cases h
    · rw [hpc] at hbound
      exact ⟨hpath, hbound⟩
    · exact ⟨hpath, fun _ => trivial⟩
  · rename_i hpc
    cases h
    rw [hpc] at hbound
    exact ⟨hpath, hbound⟩
  · rename_i polled hpc
    cases h
    rw [hpc] at hbound
    exact ⟨hpath, hbound⟩
  · rename_i mtime hpc
    rw [hpc] at hbound
    split at h
    · cases h
      exact ⟨hpath, hbound⟩
    · split at h <;> cases h
      · exact ⟨hpath, hbound⟩
      · exact ⟨hpath, hbound⟩
  · -- a reload
    split at h <;> cases h
    · rename_i hl
      exact ⟨hpath, fun _ => hl⟩
    · rename_i hl
      refine ⟨hpath, fun _ rs hrs => ?_⟩
      rw [hl] at hrs
      cases hrs
  · -- its apply
    rename_i backend rs hpc
    cases h
    rw [hpc] at hbound
    obtain ⟨o, ho⟩ := hg backend rs rfl hpc
    exact carries_applied hpath hbound ho (Or.inr rfl)
  · cases h

def secondConfig : Ruleset := .new [{ name := "input", rules := [], defaultPolicy := .drop }]

/-- Every text but the first is of that ruleset. -/
def decodeSecond (text : String) : Except String FileConfig :=
  if text = "first" then .ok ⟨.new []⟩ else .ok ⟨secondConfig⟩

theorem reloadsApply_rewritten : Meets (step decodeSecond) ReloadsApply watchSample (rewritten acceptAll) := by
  have haccept : ∀ e ∈ rewritten acceptAll, ∀ backend, e = .apply backend → backend = acceptAll := by
    rintro e he backend rfl
    simp only [rewritten, startupSteps, List.mem_append, List.mem_cons, Event.apply.injEq, reduceCtorEq, List.not_mem_nil,
      or_false, false_or] at he
    exact he.elim id id
  refine Machine.meets_mono (fun s e he backend rs heq _ => ?_) (Machine.meets_of_forall watchSample haccept)
  rw [he backend heq]
  exact ⟨_, rfl⟩

/-- The watcher knows the mtime of the file or finds none, and `d` is stored. -/
structure Rests (d : DaemonState) (content : Except String String) (s : State) : Prop where
  daemon : s.daemon = d
  content : s.content = content
  known : s.mtime = none ∨ s.mtime = s.lastMtime
  here : (∃ polled, s.pc = .sleep polled) ∨ s.pc = .compare s.mtime

theorem rests_step {d : DaemonState} {content : Except String String} {s s' : State} {e : Event}
    (hs : Rests d content s) (hw : e.writes = false) (h : step fromStr s e = some s') : Rests d content s' := by
  obtain ⟨hd, hc, hknown, hhere⟩ := hs
  rcases hhere with ⟨polled, hpc⟩ | hpc
  · cases e with
    | write => cases hw
    | metadata =>
      simp only [step, hpc, Option.some.injEq] at h
      rw [← h]
      exact ⟨hd, hc, hknown, Or.inr rfl⟩
    | _ => simp [step, hpc] at h
  · cases e with
    | write => cases hw
    | compare =>
      simp only [step, hpc] at h
      split at h
      · cases h
        exact ⟨hd, hc, hknown, Or.inl ⟨true, rfl⟩⟩
      · rename_i hsome
        rw [if_pos (hknown.resolve_left hsome)] at h
        cases h
        exact ⟨hd, hc, hknown, Or.inl ⟨true, rfl⟩⟩
    | _ => simp [step, hpc] at h

/-- **A watcher that knows the mtime does nothing until the next write**, whatever became of the reload and however the
content came to have that mtime. -/
theorem not_retried {s s' : State} {polled : Bool} {es : List Event} (hpc : s.pc = .sleep polled)
    (hknown : s.mtime = none ∨ s.mtime = s.lastMtime) (hes : ∀ e ∈ es, e.writes = false)
    (h : exec (step fromStr) s es = some s') : s'.daemon = s.daemon ∧ s'.content = s.content := by
  have hm : Meets (step fromStr) (fun _ e => e.writes = false) s es := Machine.meets_of_forall s hes
  have hrests : Rests s.daemon s.content s' :=
    Machine.inv_of_meets (fun t e t' ht hw hstep => rests_step ht hw hstep) ⟨rfl, rfl, hknown, Or.inl ⟨polled, hpc⟩⟩ hm h
  exact ⟨hrests.daemon, hrests.content⟩

def refuseAll : Backend := ⟨fun _ => .ok {}, fun _ => .error "busy", fun _ => .ok ()⟩

/-- A reload that the backend refuses, and the poll after it. -/
theorem not_retried_refused : ∃ s s' : State,
    exec (step decodeSecond) watchSample (rewritten refuseAll) = some s ∧
    exec (step decodeSecond) s [.metadata, .compare] = some s' ∧ s'.daemon = s.daemon ∧ s'.content = s.content := by
  have hrun : (exec (step decodeSecond) watchSample (rewritten refuseAll)).map
      (fun s => (s.pc, s.mtime, s.lastMtime, (exec (step decodeSecond) s [.metadata, .compare]).isSome)) =
        some (.sleep true, some 2, some 2, true) := by rfl
  obtain ⟨s, hs, heq⟩ := Option.map_eq_some_iff.1 hrun
  simp only [Prod.mk.injEq] at heq
  obtain ⟨hpc, hmtime, hlast, hsome⟩ := heq
  obtain ⟨s', hs'⟩ := Option.isSome_iff_exists.1 hsome
  have hes : ∀ e ∈ [Event.metadata, .compare], e.writes = false := by decide
  exact ⟨s, s', hs, hs', not_retried hpc (Or.inr (hmtime.trans hlast.symm)) hes hs'⟩

/-- Another content under the mtime the watcher knows: the poll after it stores nothing. -/
example : (exec (step decodeSecond) watchSample
    (rewritten acceptAll ++ [.write (.ok "first") (some 2), .metadata, .compare])).map (fun s => (s.pc, s.daemon.rules)) =
      some (.sleep true, some secondConfig) := by rfl

end Watch
end Portcullis
