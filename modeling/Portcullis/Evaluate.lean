import Portcullis.Lib.Routines
import Portcullis.Lib.Keyed
import Portcullis.Lib.Pointwise
import Portcullis.Reorder
import Mathlib.Order.WellFounded
/-!
# Evaluate — whole rulesets, with their jumps and policies

A packet that enters a chain meets its rules in turn.  A jump runs the chain it names and comes back unless that chain
decided; what no rule decides the policy of the chain entered does.  An evaluation is what fired of each chain put
together (`evaluate_congr`), so what keeps the firings of every chain keeps every evaluation: the bridge
(`evaluate_desired`), deleting the rules reported dead (`evaluate_dropReported`) and reordering ties
(`evaluate_reorders`).  An evaluation that ends needs no more nested jumps than there are chains (`evaluate_ends_iff`).
-/
namespace Portcullis

open List
open Routines (Kind run SameHits Ends Enters)

/-- What an action does to the walk; an action that ends it is the verdict. -/
def Action.kind : Action → Kind String Action
  | .accept => .stop .accept
  | .drop => .stop .drop
  | .reject => .stop .reject
  | .jump target => .call target
  | .nat _ => .pass
  | .rateLimit _ => .pass
  | .continue_ => .pass

def Ruleset.chainNamed (rs : Ruleset) (name : String) : Option Chain := Keyed.tableOf Chain.name rs.chains name

/-- The rules a jump runs, in the order they are walked; a name without a chain has none. -/
def Ruleset.rulesNamed (rs : Ruleset) (order : List Rule → List Rule) (name : String) : List Rule :=
  match rs.chainNamed name with
  | some c => order c.rules
  | none => []

/-- A packet that enters `c`: the rules that fire, those of the chains jumped to among them, and what becomes of it.
`none` where jumps nest deeper than `depth`. -/
def Ruleset.evaluate (rs : Ruleset) (order : List Rule → List Rule) (depth : Nat) (p : Packet) (c : Chain) :
    Option (List Rule × Action) :=
  (run (fun r => r.matcher.matchesPacket p) (fun r => r.action.kind) (rs.rulesNamed order) depth (order c.rules)).map
    (fun t => (t.taken, t.result.getD c.defaultPolicy.toAction))

theorem stops_kind (a : Action) : a.kind.stops = a.isTerminal := by
  cases a <;> rfl

/-- Under one name and policy the same rules fire. -/
structure FiresAlike (p : Packet) (order order' : List Rule → List Rule) (c c' : Chain) : Prop where
  name : c'.name = c.name
  defaultPolicy : c'.defaultPolicy = c.defaultPolicy
  fired : fired p (order' c'.rules) = fired p (order c.rules)

variable {rs rs' : Ruleset} {order order' : List Rule → List Rule} {p : Packet}

theorem sameHits_of_fired {l l' : List Rule} (h : fired p l' = fired p l) :
    SameHits (fun r => r.matcher.matchesPacket p) (fun r => r.action.kind) l' l := by
  unfold SameHits
  simp only [stops_kind]
  exact h

/-- **Chains that fire alike evaluate alike.** -/
theorem evaluate_congr (hnamed : ∀ name, fired p (rs'.rulesNamed order' name) = fired p (rs.rulesNamed order name))
    {c c' : Chain} (hc : FiresAlike p order order' c c') (depth : Nat) :
    rs'.evaluate order' depth p c' = rs.evaluate order depth p c := by
  unfold Ruleset.evaluate
  rw [Routines.run_congr (fun name => sameHits_of_fired (hnamed name)) (sameHits_of_fired hc.fired), hc.defaultPolicy]

theorem fired_rulesNamed {cs cs' : List Chain} {version version' : UInt64} (h : Forall₂ (FiresAlike p order order') cs cs')
    (name : String) : fired p (Ruleset.rulesNamed ⟨version', cs'⟩ order' name) =
      fired p (Ruleset.rulesNamed ⟨version, cs⟩ order name) := by
  induction h with
  | nil => rfl
  | @cons c c' cs cs' hc _ ih =>
    unfold Ruleset.rulesNamed Ruleset.chainNamed Keyed.tableOf at ih ⊢
    by_cases hname : c.name = name
    · have hname' : c'.name = name := hc.name.trans hname
      simpa [List.find?_cons, hname, hname'] using hc.fired
    · have hname' : ¬ c'.name = name := fun h => hname (hc.name.symm.trans h)
      simpa [List.find?_cons, hname, hname'] using ih

theorem evaluate_of_forall₂ (h : Forall₂ (FiresAlike p order order') rs.chains rs'.chains) {c c' : Chain}
    (hc : FiresAlike p order order' c c') (depth : Nat) :
    rs'.evaluate order' depth p c' = rs.evaluate order depth p c :=
  evaluate_congr (fired_rulesNamed h) hc depth

/-! ## What keeps every evaluation -/

/-- **What is handed to the dataplane evaluates as the document**: the bridged chains as declared, the document's by
priority. -/
theorem evaluate_desired (rs : Ruleset) (p : Packet) (depth : Nat) :
    Forall₂ (fun c c' => (desiredNetctlRuleset rs).evaluate id depth p c' = rs.evaluate evalOrder depth p c)
      rs.chains (desiredNetctlRuleset rs).chains := by
  have halike : Forall₂ (FiresAlike p evalOrder id) rs.chains (desiredNetctlRuleset rs).chains :=
    List.forall₂_map_right_iff.2 (List.forall₂_same.2 (fun _ _ => ⟨rfl, rfl, rfl⟩))
  exact halike.imp (fun _ _ hc => evaluate_of_forall₂ halike hc depth)

/-- Every rule that is reported dead deleted from every chain. -/
def Ruleset.dropReported (rs : Ruleset) : Ruleset := { rs with chains := rs.chains.map Chain.dropReported }

theorem fires_dropReported {c : Chain} (hid : (c.rules.map Rule.id).Nodup) (hcov : OverreachesCovered c) (p : Packet) :
    c.dropReported.fires p = c.fires p := by
  rw [Chain.fires, Chain.dropReported, ← filter_evalOrder]
  refine Walk.fire_filter _ _ (fun r hr => ?_)
  have hmem : r ∈ c.rules := mem_evalOrder.1 ((Walk.fire_sublist _ _ _).subset hr)
  by_contra hdead
  exact not_mem_fires_of_reportedDead hid hcov p hmem (by simpa using hdead) hr

/-- **Deleting at once what is reported dead keeps every evaluation**, as long as the overreaching reports are
covered. -/
theorem evaluate_dropReported (rs : Ruleset) (hids : ∀ c ∈ rs.chains, (c.rules.map Rule.id).Nodup)
    (hcov : ∀ c ∈ rs.chains, OverreachesCovered c) (p : Packet) (depth : Nat) :
    Forall₂ (fun c c' => rs.dropReported.evaluate evalOrder depth p c' = rs.evaluate evalOrder depth p c)
      rs.chains rs.dropReported.chains := by
  have halike : Forall₂ (FiresAlike p evalOrder evalOrder) rs.chains rs.dropReported.chains := by
    refine List.forall₂_map_right_iff.2 (List.forall₂_same.2 (fun c hc => ⟨rfl, rfl, ?_⟩))
    exact fires_dropReported (hids c hc) (hcov c hc) p
  exact halike.imp (fun _ _ hc => evaluate_of_forall₂ halike hc depth)

def webInput : Chain where
  name := "input"
  rules := [
    { id := ⟨1⟩, priority := 20, matcher := { protocol := .tcp }, action := .jump "web" },
    { id := ⟨2⟩, priority := 10, matcher := { protocol := .udp }, action := .drop }]
  defaultPolicy := .accept

def webPorts : Chain where
  name := "web"
  rules := [{ id := ⟨3⟩, priority := 10, matcher := { dstPort := .single 80 }, action := .drop }]
  defaultPolicy := .drop

/-- TCP goes through `web`, and comes back from it to be accepted. -/
def webJump : Ruleset := .new [webInput, webPorts]

example : webJump.evaluate evalOrder 1 (tcpTo 22) webInput = some (webInput.rules.take 1, .accept) := by decide

/-- `web` with a rule that is dead. -/
def webSpare : Chain :=
  { webPorts with rules :=
      webPorts.rules ++ [{ id := ⟨4⟩, priority := 20, matcher := { dstPort := .single 80 }, action := .accept }] }

theorem overreachesCovered_of_forall {c : Chain}
    (h : ∀ e ∈ c.rules, ∀ r ∈ c.rules, e.matcher.overreaches r.matcher = false) : OverreachesCovered c := by
  intro e r hsub _ ho
  obtain ⟨he, hr⟩ := SortBy.mem_of_pair_sublist hsub
  rw [h e (mem_evalOrder.1 he) r (mem_evalOrder.1 hr)] at ho
  cases ho

theorem evaluate_dropReported_webSpare :
    Forall₂ (fun c c' => (Ruleset.new [webInput, webSpare]).dropReported.evaluate evalOrder 1 (tcpTo 80) c' =
        (Ruleset.new [webInput, webSpare]).evaluate evalOrder 1 (tcpTo 80) c)
      [webInput, webSpare] (Ruleset.new [webInput, webSpare]).dropReported.chains :=
  evaluate_dropReported (.new [webInput, webSpare]) (by decide)
    (fun c hc => overreachesCovered_of_forall (by revert c; decide)) _ _

/-- **Every arrangement of an accepted ruleset that its priorities allow evaluates as the document**, as long as its
unexamined ties are behind terminal rules. -/
theorem evaluate_reorders (hok : verify rs = .ok ()) (hties : ∀ c ∈ rs.chains, UnexaminedTiesBehind c)
    (h : Reorders rs rs') (hsorted : ∀ c' ∈ rs'.chains, c'.rules.Pairwise (fun a b => a.priority ≤ b.priority))
    {c c' : Chain} (hc : c ∈ rs.chains) (hc' : c' ∈ rs'.chains) (hname : c'.name = c.name) (p : Packet) (depth : Nat) :
    rs'.evaluate id depth p c' = rs.evaluate evalOrder depth p c := by
  obtain ⟨-, hnames, -, hclean⟩ := (verify_eq_ok_iff_clean rs).1 hok
  have hfree (d : Chain) (hd : d ∈ rs.chains) : OrderFree d :=
    orderFree_of_unexaminedTiesBehind (hclean d hd) (nodup_ids_of_verify hok hd) (hties d hd)
  obtain ⟨cs, hsame, hperm⟩ := h.chains
  have halike : Forall₂ (FiresAlike p evalOrder id) rs.chains cs := by
    refine (Pointwise.with_mem hsame).imp (fun d d' hd => ?_)
    obtain ⟨hd, hd', hsame⟩ := hd
    refine ⟨hsame.name, hsame.defaultPolicy, ?_⟩
    exact hfree d hd p d'.rules (evalOrder d.rules) hsame.rules (evalOrder_perm d.rules)
      (hsorted d' (hperm.mem_iff.1 hd')) (pairwise_evalOrder d.rules)
  have hnamed (name : String) : fired p (rs'.rulesNamed id name) = fired p (rs.rulesNamed evalOrder name) := by
    have hcs : (cs.map Chain.name).Nodup := by rwa [names_eq_of_forall₂ hsame]
    have heq : rs'.rulesNamed id name = Ruleset.rulesNamed ⟨rs'.version, cs⟩ id name := by
      unfold Ruleset.rulesNamed Ruleset.chainNamed
      rw [Keyed.tableOf_of_perm hcs hperm]
    rw [heq]
    exact fired_rulesNamed halike name
  obtain ⟨d, hd, hdc⟩ := Pointwise.exists_of_mem halike c' (hperm.mem_iff.2 hc')
  obtain rfl : d = c := List.inj_on_of_nodup_map hnames hd hc (hdc.name.symm.trans hname)
  exact evaluate_congr hnamed hdc depth

theorem unexaminedTiesBehind_of_priorities {c : Chain}
    (h : ∀ a ∈ c.rules, ∀ b ∈ c.rules, a ≠ b → a.priority ≠ b.priority) : UnexaminedTiesBehind c :=
  fun a ha b hb hne hprio => absurd hprio (h a ha b hb hne)

/-- `input` as the dataplane walks it. -/
def webInputSorted : Chain := { webInput with rules := webInput.rules.reverse }

theorem evaluate_reorders_webJump :
    (Ruleset.new [webPorts, webInputSorted]).evaluate id 1 (tcpTo 80) webInputSorted =
      webJump.evaluate evalOrder 1 (tcpTo 80) webInput := by
  have hsame : Forall₂ Chain.SameRules webJump.chains [webInputSorted, webPorts] :=
    .cons ⟨rfl, rfl, List.reverse_perm _⟩ (.cons ⟨rfl, rfl, List.Perm.refl _⟩ .nil)
  have hreorders : Reorders webJump (.new [webPorts, webInputSorted]) := ⟨rfl, _, hsame, List.Perm.swap _ _ _⟩
  exact evaluate_reorders (by decide) (fun c hc => unexaminedTiesBehind_of_priorities (by revert c; decide)) hreorders
    (by decide) List.mem_cons_self (List.mem_cons_of_mem _ List.mem_cons_self) rfl _ _

/-! ## Jumps without end -/

/-- A packet in chain `m` gets to a jump to chain `n`: what stands before the jump does not decide it. -/
def Ruleset.JumpsTo (rs : Ruleset) (order : List Rule → List Rule) (p : Packet) (m n : String) : Prop :=
  Enters (fun r => r.matcher.matchesPacket p) (fun r => r.action.kind) (rs.rulesNamed order) m n

theorem rulesNamed_of_mem (hnames : (rs.chains.map Chain.name).Nodup) {c : Chain} (hc : c ∈ rs.chains)
    (order : List Rule → List Rule) : rs.rulesNamed order c.name = order c.rules := by
  unfold Ruleset.rulesNamed Ruleset.chainNamed
  rw [(Keyed.tableOf_eq_some_iff hnames).2 ⟨hc, rfl⟩]

theorem rulesNamed_eq_nil (order : List Rule → List Rule) {name : String}
    (h : name ∉ (rs.chains.map Chain.name).toFinset) : rs.rulesNamed order name = [] := by
  unfold Ruleset.rulesNamed Ruleset.chainNamed
  rw [Keyed.tableOf_eq_none_iff.2 (fun hmem => h (List.mem_toFinset.2 hmem))]

theorem evaluate_eq_some_iff {depth : Nat} {c : Chain} {result : List Rule × Action} :
    rs.evaluate order depth p c = some result ↔ ∃ t, run (fun r => r.matcher.matchesPacket p) (fun r => r.action.kind)
      (rs.rulesNamed order) depth (order c.rules) = some t ∧ (t.taken, t.result.getD c.defaultPolicy.toAction) = result :=
  Option.map_eq_some_iff

theorem ends_of_evaluate (hnames : (rs.chains.map Chain.name).Nodup) {c : Chain} (hc : c ∈ rs.chains) {depth : Nat}
    {result : List Rule × Action} (h : rs.evaluate order depth p c = some result) :
    Ends (fun r : Rule => r.matcher.matchesPacket p) (fun r => r.action.kind) (rs.rulesNamed order) c.name := by
  obtain ⟨t, ht, -⟩ := evaluate_eq_some_iff.1 h
  rw [← rulesNamed_of_mem hnames hc order] at ht
  exact ⟨depth + 1, t, ht⟩

theorem exists_evaluate_of_ends (hnames : (rs.chains.map Chain.name).Nodup) {c : Chain} (hc : c ∈ rs.chains)
    (h : Ends (fun r : Rule => r.matcher.matchesPacket p) (fun r => r.action.kind) (rs.rulesNamed order) c.name) :
    ∃ result, rs.evaluate order rs.chains.length p c = some result := by
  obtain ⟨t, ht⟩ := h.within_card (fun _ hn => rulesNamed_eq_nil order hn)
  rw [rulesNamed_of_mem hnames hc order] at ht
  have hle : (rs.chains.map Chain.name).toFinset.card ≤ rs.chains.length := by
    have hcard := List.toFinset_card_le (rs.chains.map Chain.name)
    rwa [List.length_map] at hcard
  exact ⟨_, evaluate_eq_some_iff.2 ⟨t, Routines.run_mono hle ht, rfl⟩⟩

/-- **Jumps need not nest deeper than there are chains**: an evaluation that ends at some depth ends alike at that
one. -/
theorem evaluate_within_chains (hnames : (rs.chains.map Chain.name).Nodup) {c : Chain} (hc : c ∈ rs.chains) {depth : Nat}
    {result : List Rule × Action} (h : rs.evaluate order depth p c = some result) :
    rs.evaluate order rs.chains.length p c = some result := by
  obtain ⟨result', h'⟩ := exists_evaluate_of_ends hnames hc (ends_of_evaluate hnames hc h)
  obtain ⟨t, ht, rfl⟩ := evaluate_eq_some_iff.1 h
  obtain ⟨t', ht', rfl⟩ := evaluate_eq_some_iff.1 h'
  rw [h', Routines.run_unique ht ht']

theorem evaluate_within_chains_webJump :
    webJump.evaluate evalOrder 2 (tcpTo 22) webInput = some (webInput.rules.take 1, .accept) := by
  have hnames : (webJump.chains.map Chain.name).Nodup := by decide
  have h : webJump.evaluate evalOrder 7 (tcpTo 22) webInput = some (webInput.rules.take 1, .accept) := by decide
  exact evaluate_within_chains hnames List.mem_cons_self h

/-- **A packet is decided exactly when its jumps do not go on for ever.** -/
theorem evaluate_ends_iff (hnames : (rs.chains.map Chain.name).Nodup) {c : Chain} (hc : c ∈ rs.chains) :
    (∃ result, rs.evaluate order rs.chains.length p c = some result) ↔
      ¬ ∃ f : Nat → String, f 0 = c.name ∧ ∀ n, rs.JumpsTo order p (f n) (f (n + 1)) := by
  have hends : Ends (fun r : Rule => r.matcher.matchesPacket p) (fun r => r.action.kind) (rs.rulesNamed order) c.name ↔
      Acc (fun n m => rs.JumpsTo order p m n) c.name :=
    Routines.ends_iff_acc (fun _ hn => rulesNamed_eq_nil order hn)
  rw [← not_acc_iff_exists_descending_chain (r := fun n m => rs.JumpsTo order p m n), not_not]
  constructor
  · rintro ⟨result, h⟩
    exact hends.1 (ends_of_evaluate hnames hc h)
  · intro hacc
    exact exists_evaluate_of_ends hnames hc (hends.2 hacc)

theorem evaluate_ends_iff_webJump : (∃ result, webJump.evaluate evalOrder 2 (tcpTo 22) webInput = some result) ↔
    ¬ ∃ f : Nat → String, f 0 = "input" ∧ ∀ n, webJump.JumpsTo evalOrder (tcpTo 22) (f n) (f (n + 1)) := by
  have hnames : (webJump.chains.map Chain.name).Nodup := by decide
  exact evaluate_ends_iff (c := webInput) hnames List.mem_cons_self

end Portcullis
