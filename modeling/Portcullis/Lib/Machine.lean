import Mathlib.Data.List.Basic
/-!
# Machine — runs of a partial step function, and runs that keep to a guard

`exec step s es` takes the events of `es` one after the other and fails at the first that is not enabled.  A guard is a
condition on the state before a step and on the event.  What every guarded step preserves holds after every run whose
steps all meet the guard (`inv_of_meets`), and what every step preserves holds after every run (`inv_of_exec`).  A machine
each of whose steps is a block of steps of another runs as the other does (`sim_of_exec`).
-/
namespace Machine

variable {σ ε : Type} (step : σ → ε → Option σ)

def exec : σ → List ε → Option σ
  | s, [] => some s
  | s, e :: es => (step s e).bind (fun s' => exec s' es)

/-- Every step of the run meets the guard. -/
def Meets (guard : σ → ε → Prop) : σ → List ε → Prop
  | _, [] => True
  | s, e :: es => guard s e ∧ ∀ s', step s e = some s' → Meets guard s' es

@[simp] theorem exec_nil (s : σ) : exec step s [] = some s := rfl

@[simp] theorem exec_cons (s : σ) (e : ε) (es : List ε) :
    exec step s (e :: es) = (step s e).bind (fun s' => exec step s' es) := rfl

theorem exec_append (s : σ) (es es' : List ε) :
    exec step s (es ++ es') = (exec step s es).bind (fun t => exec step t es') := by
  induction es generalizing s with
  | nil => rfl
  | cons e es ih =>
    rw [List.cons_append, exec_cons, exec_cons, Option.bind_assoc]
    exact congrArg _ (funext ih)

variable {step} {Inv : σ → Prop}

theorem meets_cons {guard : σ → ε → Prop} {s s' : σ} {e : ε} {es : List ε} (hg : guard s e)
    (hstep : step s e = some s') (h : Meets step guard s' es) : Meets step guard s (e :: es) := by
  refine ⟨hg, fun t ht => ?_⟩
  rw [hstep] at ht
  exact Option.some.inj ht ▸ h

theorem meets_and {guard guard' : σ → ε → Prop} : ∀ {es : List ε} {s : σ}, Meets step guard s es →
    Meets step guard' s es → Meets step (fun s e => guard s e ∧ guard' s e) s es
  | [], _, _, _ => trivial
  | _ :: _, _, ⟨hg, hm⟩, ⟨hg', hm'⟩ => ⟨⟨hg, hg'⟩, fun s' hs' => meets_and (hm s' hs') (hm' s' hs')⟩

theorem meets_of_forall {P : ε → Prop} : ∀ {es : List ε} (s : σ), (∀ e ∈ es, P e) → Meets step (fun _ e => P e) s es
  | [], _, _ => trivial
  | e :: _, _, hP => ⟨hP e List.mem_cons_self, fun s' _ => meets_of_forall s' (fun e' he' => hP e' (List.mem_cons_of_mem e he'))⟩

theorem meets_append {guard : σ → ε → Prop} : ∀ {es es' : List ε} {s : σ}, Meets step guard s es →
    (∀ t, exec step s es = some t → Meets step guard t es') → Meets step guard s (es ++ es')
  | [], _, s, _, h => h s rfl
  | _ :: _, _, _, ⟨hg, hm⟩, h =>
    ⟨hg, fun s' hs' => meets_append (hm s' hs') (fun t ht => h t (Option.bind_eq_some_iff.2 ⟨s', hs', ht⟩))⟩

theorem meets_mono {guard guard' : σ → ε → Prop} (himp : ∀ s e, guard s e → guard' s e) : ∀ {es : List ε} {s : σ},
    Meets step guard s es → Meets step guard' s es
  | [], _, _ => trivial
  | _ :: _, _, ⟨hg, hm⟩ => ⟨himp _ _ hg, fun s' hs' => meets_mono himp (hm s' hs')⟩

/-- **The invariant rule for guarded runs.** -/
theorem inv_of_meets {guard : σ → ε → Prop}
    (hstep : ∀ s e s', Inv s → guard s e → step s e = some s' → Inv s') : ∀ {es : List ε} {s s' : σ},
    Inv s → Meets step guard s es → exec step s es = some s' → Inv s'
  | [], s, s', hs, _, h => by
    simp only [exec_nil, Option.some.injEq] at h
    exact h ▸ hs
  | e :: es, s, s', hs, ⟨hg, hm⟩, h => by
    obtain ⟨t, ht, h⟩ := Option.bind_eq_some_iff.1 h
    exact inv_of_meets hstep (hstep s e t hs hg ht) (hm t ht) h

/-- **The invariant rule.** -/
theorem inv_of_exec (hstep : ∀ s e s', Inv s → step s e = some s' → Inv s') : ∀ {es : List ε} {s s' : σ},
    Inv s → exec step s es = some s' → Inv s'
  | [], s, s', hs, h => by
    simp only [exec_nil, Option.some.injEq] at h
    exact h ▸ hs
  | e :: es, s, s', hs, h => by
    obtain ⟨t, ht, h⟩ := Option.bind_eq_some_iff.1 h
    exact inv_of_exec hstep (hstep s e t hs ht) h

/-- **The simulation rule.**  Where a block of steps of another machine matches every step, the blocks, one after the
other, match the run. -/
theorem sim_of_exec {τ δ : Type} {step' : τ → δ → Option τ} {Rel : σ → τ → Prop} {Block : ε → List δ → Prop}
    (hsim : ∀ s t e s', Rel s t → step s e = some s' →
      ∃ ds t', Block e ds ∧ exec step' t ds = some t' ∧ Rel s' t') : ∀ {es : List ε} {s s' : σ} {t : τ},
    Rel s t → exec step s es = some s' →
      ∃ blocks t', List.Forall₂ Block es blocks ∧ exec step' t blocks.flatten = some t' ∧ Rel s' t'
  | [], s, s', t, hrel, h => by
    simp only [exec_nil, Option.some.injEq] at h
    exact ⟨[], t, .nil, rfl, h ▸ hrel⟩
  | e :: es, s, s', t, hrel, h => by
    obtain ⟨s₁, hs₁, h⟩ := Option.bind_eq_some_iff.1 h
    obtain ⟨ds, t₁, hblock, hexec, hrel₁⟩ := hsim s t e s₁ hrel hs₁
    obtain ⟨blocks, t', hblocks, hexec', hrel'⟩ := sim_of_exec hsim hrel₁ h
    refine ⟨ds :: blocks, t', .cons hblock hblocks, ?_, hrel'⟩
    rw [List.flatten_cons, exec_append, hexec]
    exact hexec'

end Machine
