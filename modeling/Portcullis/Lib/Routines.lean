import Portcullis.Lib.Walk
import Mathlib.Data.Finset.Card
import Mathlib.Data.Finset.Filter
import Mathlib.Logic.Relation
/-!
# Routines — named lists of steps that call one another

A list is run by taking its hits in turn: one that stops ends the run with a result, one that calls runs the routine it
names and goes on when that returns, any other is passed.  `run` bounds how deep calls nest; it is `none` where the
bound does not suffice.  Only the hits up to the first that stops count (`run_congr`).  A routine ends at some depth
exactly when the calls it gets to do not go on for ever (`ends_iff_acc`), and then at the number of routines
(`Ends.within_card`).
-/
namespace Routines

open List
open Relation (ReflTransGen TransGen)

/-- What a step does when it is taken. -/
inductive Kind (ν ω : Type) where
  | stop (result : ω)
  | call (name : ν)
  | pass

variable {α ν ω : Type}

def Kind.stops : Kind ν ω → Bool
  | .stop _ => true
  | _ => false

/-- The steps a run took, and the result of the step that stopped it, if one did. -/
structure Trace (α ω : Type) where
  taken : List α
  result : Option ω
  deriving DecidableEq, Repr

def Trace.andThen (t : Trace α ω) (rest : Option (Trace α ω)) : Option (Trace α ω) :=
  match t.result with
  | some _ => some t
  | none => rest.map (fun r => ⟨t.taken ++ r.taken, r.result⟩)

variable (hit : α → Bool) (kind : α → Kind ν ω)

def take (callee : ν → Option (Trace α ω)) (a : α) : Option (Trace α ω) :=
  match kind a with
  | .stop result => some ⟨[a], some result⟩
  | .call name => (callee name).map (fun t => ⟨a :: t.taken, t.result⟩)
  | .pass => some ⟨[a], none⟩

/-- A list whose calls are answered by `callee`. -/
def steps (callee : ν → Option (Trace α ω)) : List α → Option (Trace α ω)
  | [] => some ⟨[], none⟩
  | a :: l => if hit a then (take kind callee a).bind (fun t => t.andThen (steps callee l)) else steps callee l

variable (body : ν → List α)

/-- What a routine answers where calls nest less than `depth` deep. -/
def answers : Nat → ν → Option (Trace α ω)
  | 0, _ => none
  | depth + 1, name => steps hit kind (answers depth) (body name)

def run (depth : Nat) (l : List α) : Option (Trace α ω) := steps hit kind (answers hit kind body depth) l

/-! ## What a run reads -/

section Steps

variable (callee : ν → Option (Trace α ω))

theorem andThen_assoc (t u : Trace α ω) (rest : Option (Trace α ω)) :
    (t.andThen (some u)).bind (fun v => v.andThen rest) = t.andThen (u.andThen rest) := by
  obtain ⟨taken, result⟩ := t
  obtain ⟨taken', result'⟩ := u
  cases result with
  | some w => rfl
  | none => cases result' <;> cases rest <;> simp [Trace.andThen]

theorem steps_append (l₂ : List α) : ∀ l₁ : List α, steps hit kind callee (l₁ ++ l₂) =
    (steps hit kind callee l₁).bind (fun t => t.andThen (steps hit kind callee l₂))
  | [] => by
    rw [List.nil_append, steps, Option.bind_some, Trace.andThen]
    simp
  | a :: l₁ => by
    rw [List.cons_append, steps, steps, steps_append l₂ l₁]
    by_cases ha : hit a
    · rw [if_pos ha, if_pos ha]
      cases take kind callee a with
      | none => rfl
      | some t =>
        rw [Option.bind_some, Option.bind_some]
        cases steps hit kind callee l₁ with
        | some u => exact (andThen_assoc t u _).symm
        | none =>
          obtain ⟨taken, result⟩ := t
          cases result <;> rfl
    · rw [if_neg ha, if_neg ha]

theorem steps_singleton_of_not_hit {a : α} (ha : ¬ hit a = true) : steps hit kind callee [a] = some ⟨[], none⟩ := by
  rw [steps, if_neg ha, steps]

theorem steps_singleton {a : α} (ha : hit a = true) : steps hit kind callee [a] = take kind callee a := by
  rw [steps, if_pos ha, steps]
  cases take kind callee a with
  | none => rfl
  | some t =>
    obtain ⟨taken, result⟩ := t
    cases result <;> simp [Trace.andThen]

/-- **Only the hits up to the first that stops are read.** -/
theorem steps_fire (l : List α) : steps hit kind callee (Walk.fire hit (fun a => (kind a).stops) l) =
    steps hit kind callee l := by
  induction l with
  | nil => rfl
  | cons a l ih =>
    rw [Walk.fire, steps]
    by_cases ha : hit a
    · rw [if_pos ha, if_pos ha]
      cases hk : kind a with
      | stop result => simp [Kind.stops, steps, ha, take, hk, Trace.andThen]
      | call name =>
        have hno : ¬ (Kind.call name : Kind ν ω).stops = true := Bool.false_ne_true
        rw [if_neg hno, steps, if_pos ha, ih]
      | pass =>
        have hno : ¬ (Kind.pass : Kind ν ω).stops = true := Bool.false_ne_true
        rw [if_neg hno, steps, if_pos ha, ih]
    · rw [if_neg ha, if_neg ha, ih]

end Steps

/-- Two lists fire alike: the same hits up to the first that stops. -/
def SameHits (l l' : List α) : Prop :=
  Walk.fire hit (fun a => (kind a).stops) l = Walk.fire hit (fun a => (kind a).stops) l'

variable {hit kind body}

theorem steps_congr {callee : ν → Option (Trace α ω)} {l l' : List α} (h : SameHits hit kind l l') :
    steps hit kind callee l = steps hit kind callee l' := by
  rw [← steps_fire hit kind callee l, h, steps_fire]

theorem answers_congr {body' : ν → List α} (h : ∀ name, SameHits hit kind (body name) (body' name)) :
    ∀ depth, answers hit kind body depth = answers hit kind body' depth
  | 0 => rfl
  | depth + 1 => by
    funext name
    rw [answers, answers, answers_congr h depth, steps_congr (h name)]

/-- **Routines that fire alike run alike.** -/
theorem run_congr {body' : ν → List α} (h : ∀ name, SameHits hit kind (body name) (body' name)) {l l' : List α}
    (hl : SameHits hit kind l l') (depth : Nat) : run hit kind body depth l = run hit kind body' depth l' := by
  rw [run, run, answers_congr h depth, steps_congr hl]

/-! ## Depth -/

theorem steps_mono {callee callee' : ν → Option (Trace α ω)}
    (h : ∀ name t, callee name = some t → callee' name = some t) : ∀ {l : List α} {t : Trace α ω},
    steps hit kind callee l = some t → steps hit kind callee' l = some t
  | [], _, hs => hs
  | a :: l, t, hs => by
    rw [steps] at hs ⊢
    by_cases ha : hit a
    · rw [if_pos ha] at hs ⊢
      obtain ⟨u, hu, hs⟩ := Option.bind_eq_some_iff.1 hs
      have hu' : take kind callee' a = some u := by
        unfold take at hu ⊢
        cases hk : kind a with
        | stop result => rwa [hk] at hu
        | pass => rwa [hk] at hu
        | call name =>
          rw [hk] at hu
          obtain ⟨v, hv, rfl⟩ := Option.map_eq_some_iff.1 hu
          exact Option.map_eq_some_iff.2 ⟨v, h name v hv, rfl⟩
      rw [hu', Option.bind_some]
      unfold Trace.andThen at hs ⊢
      split
      · rename_i w hw
        rwa [hw] at hs
      · rename_i hw
        rw [hw] at hs
        obtain ⟨v, hv, rfl⟩ := Option.map_eq_some_iff.1 hs
        exact Option.map_eq_some_iff.2 ⟨v, steps_mono h hv, rfl⟩
    · rw [if_neg ha] at hs ⊢
      exact steps_mono h hs

theorem answers_succ : ∀ {depth : Nat} {name : ν} {t : Trace α ω}, answers hit kind body depth name = some t →
    answers hit kind body (depth + 1) name = some t
  | _ + 1, _, _, h => steps_mono (fun _ _ h' => answers_succ h') h

theorem answers_mono {depth depth' : Nat} (hle : depth ≤ depth') {name : ν} {t : Trace α ω}
    (h : answers hit kind body depth name = some t) : answers hit kind body depth' name = some t := by
  induction hle with
  | refl => exact h
  | step _ ih => exact answers_succ ih

/-- **A run that ends keeps its trace at every greater depth.** -/
theorem run_mono {depth depth' : Nat} (hle : depth ≤ depth') {l : List α} {t : Trace α ω}
    (h : run hit kind body depth l = some t) : run hit kind body depth' l = some t :=
  steps_mono (fun _ _ h' => answers_mono hle h') h

theorem run_unique {depth depth' : Nat} {l : List α} {t t' : Trace α ω} (h : run hit kind body depth l = some t)
    (h' : run hit kind body depth' l = some t') : t = t' := by
  rcases Nat.le_total depth depth' with hle | hle
  · exact Option.some.inj ((run_mono hle h).symm.trans h')
  · exact Option.some.inj (h.symm.trans (run_mono hle h'))

/-! ## Which routines end -/

variable (hit kind body)

def Ends (name : ν) : Prop := ∃ depth t, answers hit kind body depth name = some t

/-- The routine `m` gets to a call of `n`: what stands before the call returns without a result. -/
def Enters (m n : ν) : Prop :=
  ∃ l₁ a l₂, body m = l₁ ++ a :: l₂ ∧ hit a = true ∧ kind a = .call n ∧
    ∃ depth t, run hit kind body depth l₁ = some t ∧ t.result = none

variable {hit kind body}

/-- **A routine that ends has every routine end that it enters**, one call less deep. -/
theorem answers_of_enters {depth : Nat} {m n : ν} {t : Trace α ω} (h : answers hit kind body (depth + 1) m = some t)
    (he : Enters hit kind body m n) : ∃ u, answers hit kind body depth n = some u := by
  obtain ⟨l₁, a, l₂, hbody, ha, hk, depth', t₁, hrun, hnone⟩ := he
  rw [answers, hbody, steps_append] at h
  obtain ⟨u₁, hu₁, h⟩ := Option.bind_eq_some_iff.1 h
  obtain rfl : u₁ = t₁ := run_unique hu₁ hrun
  rw [Trace.andThen, hnone] at h
  obtain ⟨v, hv, -⟩ := Option.map_eq_some_iff.1 h
  rw [steps, if_pos ha] at hv
  obtain ⟨u, hu, -⟩ := Option.bind_eq_some_iff.1 hv
  rw [take, hk] at hu
  obtain ⟨w, hw, -⟩ := Option.map_eq_some_iff.1 hu
  exact ⟨w, hw⟩

/-- A list runs to its end at a depth at which every call it gets to is answered. -/
theorem run_of_calls {depth : Nat} {l : List α}
    (h : ∀ l₁ a l₂ n t, l = l₁ ++ a :: l₂ → hit a = true → kind a = .call n →
      run hit kind body depth l₁ = some t → t.result = none → ∃ u, answers hit kind body depth n = some u) :
    ∃ t, run hit kind body depth l = some t := by
  induction l using List.reverseRecOn with
  | nil => exact ⟨_, rfl⟩
  | append_singleton l a ih =>
    have hbefore : ∃ t, run hit kind body depth l = some t :=
      ih (fun l₁ b l₂ n t hl => h l₁ b (l₂ ++ [a]) n t (by rw [hl, List.append_assoc, List.cons_append]))
    obtain ⟨t, ht⟩ := hbefore
    rw [run] at ht
    rw [run, steps_append, ht, Option.bind_some, Trace.andThen]
    cases hr : t.result with
    | some w => exact ⟨_, rfl⟩
    | none =>
      have hlast : ∃ u, steps hit kind (answers hit kind body depth) [a] = some u := by
        by_cases ha : hit a
        · rw [steps_singleton hit kind _ ha, take]
          cases hk : kind a with
          | stop result => exact ⟨_, rfl⟩
          | pass => exact ⟨_, rfl⟩
          | call n =>
            obtain ⟨u, hu⟩ := h l a [] n t rfl ha hk ht hr
            exact ⟨_, Option.map_eq_some_iff.2 ⟨u, hu, rfl⟩⟩
        · exact ⟨_, steps_singleton_of_not_hit hit kind _ ha⟩
      obtain ⟨u, hu⟩ := hlast
      exact ⟨_, by rw [hu]; rfl⟩

theorem acc_of_answers : ∀ {depth : Nat} {m : ν} {t : Trace α ω}, answers hit kind body depth m = some t →
    Acc (fun n m => Enters hit kind body m n) m
  | _ + 1, _, _, h => Acc.intro _ (fun _ hn => (answers_of_enters h hn).elim (fun _ hu => acc_of_answers hu))

theorem not_transGen_of_acc {β : Type} {r : β → β → Prop} {a : β} (h : Acc r a) : ¬ TransGen r a a := by
  have hacc := h.transGen
  clear h
  induction hacc with
  | intro a _ ih => exact fun haa => ih a haa haa

section Card

open scoped Classical in
/-- The routines among `names` that `m` can get to. -/
noncomputable def reached (hit : α → Bool) (kind : α → Kind ν ω) (body : ν → List α) (names : Finset ν) (m : ν) : Finset ν :=
  names.filter (fun n => ReflTransGen (Enters hit kind body) m n)

variable {names : Finset ν}

theorem mem_reached_iff {m n : ν} :
    n ∈ reached hit kind body names m ↔ n ∈ names ∧ ReflTransGen (Enters hit kind body) m n := by
  classical
  exact Finset.mem_filter

theorem mem_names_of_enters (hnames : ∀ n, n ∉ names → body n = []) {m n : ν} (he : Enters hit kind body m n) :
    m ∈ names := by
  by_contra hm
  obtain ⟨l₁, a, l₂, hbody, -⟩ := he
  rw [hnames m hm] at hbody
  exact absurd hbody.symm (by simp)

theorem reached_card_lt (hnames : ∀ n, n ∉ names → body n = []) {m n : ν}
    (hacc : Acc (fun n m => Enters hit kind body m n) m) (he : Enters hit kind body m n) :
    (reached hit kind body names n).card < (reached hit kind body names m).card := by
  refine Finset.card_lt_card (Finset.ssubset_iff_subset_ne.2 ⟨fun k hk => ?_, fun heq => ?_⟩)
  · obtain ⟨hkn, hnk⟩ := mem_reached_iff.1 hk
    exact mem_reached_iff.2 ⟨hkn, ReflTransGen.head he hnk⟩
  · -- `m` itself is lost, or the calls would lead back to it
    have hm : m ∈ reached hit kind body names n := by
      rw [heq]
      exact mem_reached_iff.2 ⟨mem_names_of_enters hnames he, ReflTransGen.refl⟩
    have hback : ReflTransGen (Enters hit kind body) n m := (mem_reached_iff.1 hm).2
    have hloop : TransGen (Enters hit kind body) m m := TransGen.head' he hback
    exact not_transGen_of_acc hacc (Relation.transGen_swap.2 hloop)

theorem answers_of_acc (hnames : ∀ n, n ∉ names → body n = []) {m : ν}
    (hacc : Acc (fun n m => Enters hit kind body m n) m) : ∀ {depth : Nat},
    (reached hit kind body names m).card < depth → ∃ t, answers hit kind body depth m = some t := by
  induction hacc with
  | intro m hm ih =>
    intro depth hdepth
    obtain ⟨depth, rfl⟩ : ∃ d, depth = d + 1 := ⟨depth - 1, by omega⟩
    refine run_of_calls (fun l₁ a l₂ n t hbody ha hk hrun hnone => ?_)
    have he : Enters hit kind body m n := ⟨l₁, a, l₂, hbody, ha, hk, depth, t, hrun, hnone⟩
    have hlt := reached_card_lt hnames (Acc.intro m hm) he
    exact ih n he (by omega)

/-- **A routine ends exactly when the calls it gets to do not go on for ever.** -/
theorem ends_iff_acc (hnames : ∀ n, n ∉ names → body n = []) {m : ν} :
    Ends hit kind body m ↔ Acc (fun n m => Enters hit kind body m n) m := by
  constructor
  · rintro ⟨depth, t, h⟩
    exact acc_of_answers h
  · intro hacc
    obtain ⟨t, ht⟩ := answers_of_acc hnames hacc (Nat.lt_succ_self _)
    exact ⟨_, t, ht⟩

/-- **A routine that ends ends within as many nested calls as there are routines.** -/
theorem Ends.within_card (hnames : ∀ n, n ∉ names → body n = []) {m : ν} (h : Ends hit kind body m) :
    ∃ t, run hit kind body names.card (body m) = some t := by
  have hacc := (ends_iff_acc hnames).1 h
  have hle : (reached hit kind body names m).card ≤ names.card :=
    Finset.card_le_card (fun _ hn => (mem_reached_iff.1 hn).1)
  exact answers_of_acc hnames hacc (Nat.lt_succ_of_le hle)

end Card

end Routines
