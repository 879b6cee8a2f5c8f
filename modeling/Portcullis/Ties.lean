import Portcullis.DeadRules
/-!
# Ties — the order of rules of one priority in an accepted ruleset

The collision scan compares the first rule of a priority with the others of it, and `overlaps` compares protocols as
they are spelled.  Off these two gaps an accepted chain fires alike in every order its priorities allow; in them, two
rules that match one packet fire in either order unless a terminal rule of lower priority takes the packet first
(`orderFree_iff`).
-/
namespace Portcullis

open SortBy
open List

/-- Every order of the chain's rules that is non-decreasing in priority fires the same rules. -/
def OrderFree (c : Chain) : Prop :=
  ∀ p l l', l ~ c.rules → l' ~ c.rules → l.Pairwise (fun a b => a.priority ≤ b.priority) →
    l'.Pairwise (fun a b => a.priority ≤ b.priority) → fired p l = fired p l'

def firstOf (c : Chain) (q : UInt32) : Option Rule := c.rules.find? (fun r => decide (r.priority = q))

/-- The collision scan has no say on two rules of one priority: neither is the first declared of it, or they spell one
protocol in two ways. -/
def Unexamined (c : Chain) (a b : Rule) : Prop :=
  (firstOf c a.priority ≠ some a ∧ firstOf c a.priority ≠ some b) ∨
    a.matcher.protocol.respells b.matcher.protocol = true

/-- Two unexamined rules of one priority share no packet that the terminal rules of lower priority let through. -/
def UnexaminedTiesBehind (c : Chain) : Prop :=
  ∀ a ∈ c.rules, ∀ b ∈ c.rules, a ≠ b → a.priority = b.priority → Unexamined c a b →
    ∀ p, a.matcher.matchesPacket p = true → b.matcher.matchesPacket p = true →
      ∃ t ∈ c.rules, t.action.isTerminal = true ∧ t.matcher.matchesPacket p = true ∧ t.priority < a.priority

theorem Protocol.respells_symm (a b : Protocol) : a.respells b = b.respells a := by
  cases a <;> cases b <;> simp [respells, ipNumber, eq_comm] <;> grind

/-- **The scan catches every examined tie**: in a chain without findings two rules of one priority that share a packet
are unexamined. -/
theorem unexamined_of_common {c : Chain} (hclean : lintChain c = []) (hid : (c.rules.map Rule.id).Nodup) {a b : Rule}
    (ha : a ∈ c.rules) (hb : b ∈ c.rules) (hne : a ≠ b) (hprio : a.priority = b.priority) {p : Packet}
    (hpa : a.matcher.matchesPacket p = true) (hpb : b.matcher.matchesPacket p = true) : Unexamined c a b := by
  have hscan := ((lintChain_eq_nil_iff c).1 hclean).2.2
  -- the first of the priority is compared with every other rule of it
  have hfirst : ∀ x y : Rule, x ∈ c.rules → y ∈ c.rules → x ≠ y → x.priority = y.priority →
      x.matcher.matchesPacket p = true → y.matcher.matchesPacket p = true →
      x.matcher.protocol.respells y.matcher.protocol = false → firstOf c x.priority ≠ some x := by
    intro x y hx hy hxy hpr hpx hpy hr hf
    have hsub : [x, y] <+ c.rules := pair_sublist_of_find? hf hy (by simp [hpr]) hxy
    refine hscan x y (hpr ▸ hf) hsub ?_
    have hids : x.id ≠ y.id := fun h => hxy (eq_of_ids hid hx hy h)
    simp [collides, hids, Matcher.overlaps_of_common hr hpx hpy]
  cases hr : a.matcher.protocol.respells b.matcher.protocol with
  | true => exact Or.inr hr
  | false =>
    have hr' : b.matcher.protocol.respells a.matcher.protocol = false := by rw [Protocol.respells_symm, hr]
    exact Or.inl ⟨hfirst a b ha hb hne hprio hpa hpb hr,
      hprio ▸ hfirst b a hb ha (Ne.symm hne) hprio.symm hpb hpa hr'⟩

theorem orderFree_of_unexaminedTiesBehind {c : Chain} (hclean : lintChain c = []) (hid : (c.rules.map Rule.id).Nodup)
    (h : UnexaminedTiesBehind c) : OrderFree c := by
  intro p l l' hl hl' hs hs'
  refine Walk.fire_eq_of_perm _ _ (fun r => r.priority.toNat) (hl.trans hl'.symm)
    (hs.imp UInt32.le_iff_toNat_le.1) (hs'.imp UInt32.le_iff_toNat_le.1) ?_
  intro a ha b hb hne hkey hpa hpb
  have hprio : a.priority = b.priority := UInt32.toNat_inj.1 hkey
  have hun := unexamined_of_common hclean hid (hl.mem_iff.1 ha) (hl.mem_iff.1 hb) hne hprio hpa hpb
  obtain ⟨t, ht, htt, htp, hlt⟩ := h a (hl.mem_iff.1 ha) b (hl.mem_iff.1 hb) hne hprio hun p hpa hpb
  exact ⟨t, hl.mem_iff.2 ht, htt, htp, UInt32.lt_iff_toNat_lt.1 hlt⟩

theorem unexaminedTiesBehind_of_orderFree {c : Chain} (hid : (c.rules.map Rule.id).Nodup) (h : OrderFree c) :
    UnexaminedTiesBehind c := by
  intro a ha b hb hne hprio _ p hpa hpb
  by_contra hnone
  have hsorted (x : Rule) : (Walk.sortedWithFirst (fun r => r.priority.toNat) x c.rules).Pairwise
      (fun a b => a.priority ≤ b.priority) :=
    (pairwise_sortByKey (fun r : Rule => r.priority.toNat) (x :: c.rules.erase x)).imp UInt32.le_iff_toNat_le.2
  refine Walk.exists_fire_ne _ _ (fun r => r.priority.toNat) (nodup_of_ids hid) ha hb hne
    (UInt32.toNat_inj.2 hprio) hpa hpb (fun t ht htt htp hlt => ?_)
    (h p _ _ (Walk.sortedWithFirst_perm ha) (Walk.sortedWithFirst_perm hb) (hsorted a) (hsorted b))
  exact hnone ⟨t, ht, htt, htp, UInt32.lt_iff_toNat_lt.2 hlt⟩

/-- **An accepted ruleset leaves no order ambiguity exactly when its unexamined ties share no packet that gets to
them.** -/
theorem orderFree_iff (rs : Ruleset) (hok : verify rs = .ok ()) :
    (∀ c ∈ rs.chains, OrderFree c) ↔ ∀ c ∈ rs.chains, UnexaminedTiesBehind c := by
  have hclean := ((verify_eq_ok_iff_clean rs).1 hok).2.2.2
  constructor
  · intro h c hc
    exact unexaminedTiesBehind_of_orderFree (nodup_ids_of_verify hok hc) (h c hc)
  · intro h c hc
    exact orderFree_of_unexaminedTiesBehind (hclean c hc) (nodup_ids_of_verify hok hc) (h c hc)

/-- Three rules of one priority, of which the last two share the packets that the rule before them takes. -/
def tiedBehind : Ruleset := .new [{
  name := "input"
  rules := [
    { id := ⟨1⟩, priority := 5, matcher := { protocol := .tcp, srcPort := .single 1000, dstPort := .single 80 }, action := .drop },
    { id := ⟨2⟩, priority := 10, matcher := { protocol := .udp }, action := .accept },
    { id := ⟨3⟩, priority := 10, matcher := { protocol := .tcp, dstPort := .single 80 }, action := .accept },
    { id := ⟨4⟩, priority := 10, matcher := { protocol := .tcp, srcPort := .single 1000 }, action := .drop }]
  defaultPolicy := .drop }]

theorem unexaminedTiesBehind_tiedBehind : ∀ c ∈ tiedBehind.chains, UnexaminedTiesBehind c := by
  intro c hc a ha b hb hne hprio hun p hpa hpb
  obtain rfl := List.mem_singleton.1 hc
  refine ⟨_, List.mem_cons_self, rfl, ?_⟩
  simp only [List.mem_cons, List.not_mem_nil, or_false] at ha hb
  -- two rules at a time, of which only the last two are tied and unexamined
  rcases ha with rfl | rfl | rfl | rfl <;> rcases hb with rfl | rfl | rfl | rfl <;> first
    | exact absurd rfl hne
    | exact absurd hprio (by decide)
    | exact absurd hun (by decide)
    | simp_all [Matcher.matchesPacket, Protocol.matchesNumber, Protocol.ipNumber, PortMatcher.matchesPort]

theorem orderFree_iff_tiedBehind : verify tiedBehind = .ok () ∧ ∀ c ∈ tiedBehind.chains, OrderFree c :=
  have hok : verify tiedBehind = .ok () := (verify_eq_ok_iff tiedBehind).2 (by decide)
  ⟨hok, (orderFree_iff tiedBehind hok).2 unexaminedTiesBehind_tiedBehind⟩

def tcpTwice : Chain where
  name := "input"
  rules := [
    { id := ⟨1⟩, priority := 10, matcher := { protocol := .tcp }, action := .accept },
    { id := ⟨2⟩, priority := 10, matcher := { protocol := .number 6 }, action := .drop }]
  defaultPolicy := .drop

/-- Three rules of one priority, the last two overlapping. -/
def threeTied : Chain where
  name := "input"
  rules := [
    { id := ⟨1⟩, priority := 10, matcher := { dstPort := .single 22 }, action := .accept },
    { id := ⟨2⟩, priority := 10, matcher := { dstPort := .single 80, protocol := .tcp }, action := .accept },
    { id := ⟨3⟩, priority := 10, matcher := { dstPort := .single 80 }, action := .drop }]
  defaultPolicy := .drop

/-- **Accepted, and ambiguous**, in both ways: a protocol spelled twice, and a tie the scan steps over. -/
theorem not_orderFree_tcpTwice_threeTied :
    (verify (.new [tcpTwice]) = .ok () ∧ ¬ ∀ c ∈ (Ruleset.new [tcpTwice]).chains, OrderFree c) ∧
    (verify (.new [threeTied]) = .ok () ∧ ¬ ∀ c ∈ (Ruleset.new [threeTied]).chains, OrderFree c) := by
  refine ⟨⟨(verify_eq_ok_iff _).2 (by decide), fun h => ?_⟩, ⟨(verify_eq_ok_iff _).2 (by decide), fun h => ?_⟩⟩
  · have hfire := h tcpTwice List.mem_cons_self (tcpTo 25) tcpTwice.rules tcpTwice.rules.reverse
      (List.Perm.refl _) (List.reverse_perm _) (by decide) (by decide)
    exact absurd hfire (by decide)
  · have hfire := h threeTied List.mem_cons_self (tcpTo 80) threeTied.rules threeTied.rules.reverse
      (List.Perm.refl _) (List.reverse_perm _) (by decide) (by decide)
    exact absurd hfire (by decide)

end Portcullis
