import Portcullis.Document
/-!
# RoundTrip — decoding gives back the ruleset

From the encoding of a ruleset, and from every document that drops wildcard matcher fields and null `Option` fields in
any of its rules, decoding returns that ruleset (`document_roundtrip`).  One lemma a type: a type with nothing to drop
in it is decoded from its encoding, the others from every trimming of theirs.
-/
namespace Portcullis

open Serde

/-! ## What may be dropped -/

/-- The matcher fields of a rule, as paths from the inside out. -/
def wildcardPaths : List (List String) := matcherFields.map (fun f => [f, "matcher", "rules", "chains"])

/-- The `Option` fields of a rule. -/
def optionPaths : List (List String) :=
  [["description", "rules", "chains"],
    ["remark", "nat", "action", "rules", "chains"],
    ["address", "to", "nat", "action", "rules", "chains"],
    ["port", "to", "nat", "action", "rules", "chains"],
    ["remark", "rate_limit", "action", "rules", "chains"]]

/-- A matcher field that holds its wildcard, or an `Option` field that is null. -/
def Droppable (path : List String) (j : Json) : Prop :=
  (path ∈ wildcardPaths ∧ j = .str "any") ∨ (path ∈ optionPaths ∧ j = .null)

theorem not_droppable {path : List String} (h : path ∉ wildcardPaths ++ optionPaths) (j : Json) :
    ¬ Droppable path j := by
  rintro (⟨hp, -⟩ | ⟨hp, -⟩)
  · exact h (List.mem_append_left _ hp)
  · exact h (List.mem_append_right _ hp)

/-- No field that may be dropped lies in another. -/
theorem closed_of_mem {path : List String} (h : path ∈ wildcardPaths ++ optionPaths) : Closed Droppable path := by
  have hall : ∀ p ∈ wildcardPaths ++ optionPaths, ∀ q ∈ wildcardPaths ++ optionPaths, p <:+ q → q = p := by decide
  intro q j hq hsuf
  rcases hq with ⟨hp, -⟩ | ⟨hp, -⟩
  · exact hall path h q (List.mem_append_left _ hp) hsuf
  · exact hall path h q (List.mem_append_right _ hp) hsuf

theorem closed_of_outside {path : List String} (h : ∀ q ∈ wildcardPaths ++ optionPaths, ¬ path <:+ q) :
    Closed Droppable path := by
  intro q j hq hsuf
  rcases hq with ⟨hp, -⟩ | ⟨hp, -⟩
  · exact absurd hsuf (h q (List.mem_append_left _ hp))
  · exact absurd hsuf (h q (List.mem_append_right _ hp))

/-- The addresses of a ruleset, whose text form its documents hold. -/
def Ruleset.addresses (rs : Ruleset) : List IpAddr :=
  rs.chains.flatMap (fun c => c.rules.flatMap (fun r => r.matcher.srcAddr.addresses ++ r.matcher.dstAddr.addresses))

/-! ## Types with nothing to drop -/

theorem u8_num (n : UInt8) : u8 (.num n.toNat) = some n := by
  simp [u8, unsigned_num n.toNat_lt_size]

theorem u16_num (n : UInt16) : u16 (.num n.toNat) = some n := by
  simp [u16, unsigned_num n.toNat_lt_size]

theorem u32_num (n : UInt32) : u32 (.num n.toNat) = some n := by
  simp [u32, unsigned_num n.toNat_lt_size]

theorem u64_num (n : UInt64) : u64 (.num n.toNat) = some n := by
  simp [u64, unsigned_num n.toNat_lt_size]

theorem IpText.fromJson_toJson {ip : IpText} {a : IpAddr} (h : ip.fromStr (ip.display a) = some a) :
    ip.fromJson (ip.toJson a) = some a := h

theorem Protocol.fromJson_toJson (x : Protocol) : Protocol.fromJson x.toJson = some x := by
  cases x <;> simp [Protocol.fromJson, Protocol.toJson, variant, unit, content, u8_num]

theorem AddressMatcher.fromJson_toJson {ip : IpText} {m : AddressMatcher}
    (hip : ∀ a ∈ m.addresses, ip.fromStr (ip.display a) = some a) : AddressMatcher.fromJson ip (m.toJson ip) = some m := by
  cases m with
  | any => rfl
  | single a =>
    have ha := IpText.fromJson_toJson (hip a (by simp [addresses]))
    simp [AddressMatcher.fromJson, AddressMatcher.toJson, variant, content, ha]
  | cidr addr p =>
    have ha := IpText.fromJson_toJson (hip addr (by simp [addresses]))
    simp [AddressMatcher.fromJson, AddressMatcher.toJson, variant, content, cidrFromJson, structFields, required, values,
      ha, u8_num]
  | range s e =>
    have hs := IpText.fromJson_toJson (hip s (by simp [addresses]))
    have he := IpText.fromJson_toJson (hip e (by simp [addresses]))
    simp [AddressMatcher.fromJson, AddressMatcher.toJson, variant, content, rangeFromJson, structFields, required, values,
      hs, he]

theorem PortRange.fromJson_toJson (r : PortRange) : PortRange.fromJson r.toJson = some r := by
  simp [PortRange.fromJson, PortRange.toJson, structFields, required, values, u16_num]

theorem PortMatcher.fromJson_toJson (m : PortMatcher) : PortMatcher.fromJson m.toJson = some m := by
  cases m with
  | any => rfl
  | single p => simp [PortMatcher.fromJson, PortMatcher.toJson, variant, content, u16_num]
  | range r => simp [PortMatcher.fromJson, PortMatcher.toJson, variant, content, PortRange.fromJson_toJson]

theorem InterfaceMatcher.fromJson_toJson (m : InterfaceMatcher) : InterfaceMatcher.fromJson m.toJson = some m := by
  cases m <;> simp [InterfaceMatcher.fromJson, InterfaceMatcher.toJson, variant, unit, content, string]

theorem NatType.fromJson_toJson (t : NatType) : NatType.fromJson t.toJson = some t := by
  cases t <;> rfl

theorem RateUnit.fromJson_toJson (u : RateUnit) : RateUnit.fromJson u.toJson = some u := by
  cases u <;> rfl

theorem Policy.fromJson_toJson (p : Policy) : Policy.fromJson p.toJson = some p := by
  cases p <;> rfl

theorem RuleId.fromJson_toJson (id : RuleId) : RuleId.fromJson id.toJson = some id := by
  simp [RuleId.fromJson, RuleId.toJson, u64_num]

/-! ## Fields -/

/-- A field with nothing to drop at it or in it. -/
theorem required_closed {α : Type} {dec : Json → Option α} {path : List String} {j : Json} {x : α}
    {fs fs' : List (String × Json)} (name : String) (h : Dropped Droppable path fs fs') (hnd : (fs.map Prod.fst).Nodup)
    (hmem : (name, j) ∈ fs) (hout : ∀ q ∈ wildcardPaths ++ optionPaths, ¬ name :: path <:+ q) (hdec : dec j = some x) :
    required dec name fs' = some x := by
  have hno : name :: path ∉ wildcardPaths ++ optionPaths := fun hp => hout _ hp (List.suffix_refl _)
  exact required_of_dropped h hnd hmem (not_droppable hno j) (reads_of_closed (closed_of_outside hout) hdec)

/-- A matcher field is its wildcard where it was dropped. -/
theorem wildcard_read {α : Type} {dec : Json → Option α} {path : List String} {j : Json} {x d : α}
    {fs fs' : List (String × Json)} (name : String) (h : Dropped Droppable path fs fs') (hnd : (fs.map Prod.fst).Nodup)
    (hmem : (name, j) ∈ fs) (hpath : name :: path ∈ wildcardPaths) (hdec : dec j = some x)
    (hany : dec (.str "any") = some d) : defaulted d dec name fs' = some x := by
  have hdisj : ∀ p ∈ wildcardPaths, p ∉ optionPaths := by decide
  refine defaulted_of_dropped h hnd hmem ?_ (reads_of_closed (closed_of_mem (List.mem_append_left _ hpath)) hdec)
  rintro (⟨-, rfl⟩ | ⟨hp, -⟩)
  · exact Option.some.inj (hdec.symm.trans hany)
  · exact absurd hp (hdisj _ hpath)

/-- An `Option` field whose values are not encoded as null. -/
theorem optional_closed {α : Type} {enc : α → Json} {dec : Json → Option α} {path : List String}
    {fs fs' : List (String × Json)} (name : String) (o : Option α) (h : Dropped Droppable path fs fs')
    (hnd : (fs.map Prod.fst).Nodup) (hmem : (name, encOption enc o) ∈ fs) (hpath : name :: path ∈ optionPaths)
    (hread : ∀ x, enc x ≠ .null ∧ option dec (enc x) = some (some x)) : optional dec name fs' = some o := by
  have hdisj : ∀ p ∈ optionPaths, p ∉ wildcardPaths := by decide
  have hc : Closed Droppable (name :: path) := closed_of_mem (List.mem_append_right _ hpath)
  refine optional_of_dropped h hnd hmem (fun x _ => ⟨?_, reads_of_closed hc (hread x).2⟩)
  rintro (⟨hp, -⟩ | ⟨-, hnull⟩)
  · exact hdisj _ hpath hp
  · exact (hread x).1 hnull

theorem option_string (s : String) : Json.str s ≠ .null ∧ option string (.str s) = some (some s) :=
  ⟨by simp, rfl⟩

theorem option_u16 (n : UInt16) : encU16 n ≠ .null ∧ option u16 (encU16 n) = some (some n) := by
  refine ⟨by simp [encU16], ?_⟩
  have h : option u16 (encU16 n) = (u16 (.num n.toNat)).map some := rfl
  rw [h, u16_num, Option.map_some]

/-! ## Types with something to drop -/

theorem reads_matcher {ip : IpText} {m : Matcher}
    (hsrc : ∀ a ∈ m.srcAddr.addresses, ip.fromStr (ip.display a) = some a)
    (hdst : ∀ a ∈ m.dstAddr.addresses, ip.fromStr (ip.display a) = some a) :
    Reads Droppable (Matcher.fromJson ip) ["matcher", "rules", "chains"] (m.toJson ip) m := by
  intro j hj
  obtain ⟨fs, rfl, h⟩ := hj.obj_inv
  have h1 := wildcard_read "protocol" h (by simp) (by simp) (by decide)
    (Protocol.fromJson_toJson m.protocol) rfl
  have h2 := wildcard_read "src_addr" h (by simp) (by simp) (by decide)
    (AddressMatcher.fromJson_toJson hsrc) rfl
  have h3 := wildcard_read "dst_addr" h (by simp) (by simp) (by decide)
    (AddressMatcher.fromJson_toJson hdst) rfl
  have h4 := wildcard_read "src_port" h (by simp) (by simp) (by decide)
    (PortMatcher.fromJson_toJson m.srcPort) rfl
  have h5 := wildcard_read "dst_port" h (by simp) (by simp) (by decide)
    (PortMatcher.fromJson_toJson m.dstPort) rfl
  have h6 := wildcard_read "in_interface" h (by simp) (by simp) (by decide)
    (InterfaceMatcher.fromJson_toJson m.inInterface) rfl
  have h7 := wildcard_read "out_interface" h (by simp) (by simp) (by decide)
    (InterfaceMatcher.fromJson_toJson m.outInterface) rfl
  simp only [Matcher.fromJson, Matcher.any, structFields, h1, h2, h3, h4, h5, h6, h7, Option.bind_eq_bind,
    Option.bind_some]

theorem reads_translationTarget (t : TranslationTarget) :
    Reads Droppable TranslationTarget.fromJson ["to", "nat", "action", "rules", "chains"] t.toJson t := by
  intro j hj
  obtain ⟨fs, rfl, h⟩ := hj.obj_inv
  have h1 := optional_closed "address" t.address h (by simp) (by simp) (by decide) option_string
  have h2 := optional_closed "port" t.port h (by simp) (by simp) (by decide) option_u16
  simp only [TranslationTarget.fromJson, structFields, h1, h2, Option.bind_eq_bind, Option.bind_some]

theorem reads_natRule (r : NatRule) :
    Reads Droppable NatRule.fromJson ["nat", "action", "rules", "chains"] r.toJson r := by
  intro j hj
  obtain ⟨fs, rfl, h⟩ := hj.obj_inv
  have h1 := required_closed "nat_type" h (by simp) (by simp) (by decide) (NatType.fromJson_toJson r.natType)
  have h2 := required_of_dropped h (by simp) (by simp) (not_droppable (by decide) _) (reads_translationTarget r.to_)
  have h3 := optional_closed "remark" r.remark h (by simp) (by simp) (by decide) option_string
  simp only [NatRule.fromJson, structFields, h1, h2, h3, Option.bind_eq_bind, Option.bind_some]

theorem reads_shapingPolicy (p : ShapingPolicy) :
    Reads Droppable ShapingPolicy.fromJson ["rate_limit", "action", "rules", "chains"] p.toJson p := by
  intro j hj
  obtain ⟨fs, rfl, h⟩ := hj.obj_inv
  have h1 := required_closed "rate" h (by simp) (by simp) (by decide) (u64_num p.rate)
  have h2 := required_closed "burst" h (by simp) (by simp) (by decide) (u64_num p.burst)
  have h3 := required_closed "unit" h (by simp) (by simp) (by decide) (RateUnit.fromJson_toJson p.unit)
  have h4 := optional_closed "remark" p.remark h (by simp) (by simp) (by decide) option_string
  simp only [ShapingPolicy.fromJson, structFields, h1, h2, h3, h4, Option.bind_eq_bind, Option.bind_some]

/-- A jump to a chain called `accept` is no acceptance: the tag is read before the content. -/
theorem reads_action (a : Action) : Reads Droppable Action.fromJson ["action", "rules", "chains"] a.toJson a := by
  intro j hj
  cases a with
  | nat r =>
    obtain ⟨c, hv, hc⟩ := hj.variant_inv (not_droppable (by decide) _)
    simp [Action.fromJson, hv, content, reads_natRule r c hc]
  | rateLimit p =>
    obtain ⟨c, hv, hc⟩ := hj.variant_inv (not_droppable (by decide) _)
    simp [Action.fromJson, hv, content, reads_shapingPolicy p c hc]
  | jump target =>
    obtain ⟨c, hv, hc⟩ := hj.variant_inv (not_droppable (by decide) _)
    obtain rfl := hc.str_inv
    simp [Action.fromJson, hv, content, string]
  | accept => obtain rfl := hj.str_inv; rfl
  | drop => obtain rfl := hj.str_inv; rfl
  | reject => obtain rfl := hj.str_inv; rfl
  | continue_ => obtain rfl := hj.str_inv; rfl

theorem reads_rule {ip : IpText} {r : Rule} (hsrc : ∀ a ∈ r.matcher.srcAddr.addresses, ip.fromStr (ip.display a) = some a)
    (hdst : ∀ a ∈ r.matcher.dstAddr.addresses, ip.fromStr (ip.display a) = some a) :
    Reads Droppable (Rule.fromJson ip) ["rules", "chains"] (r.toJson ip) r := by
  intro j hj
  obtain ⟨fs, rfl, h⟩ := hj.obj_inv
  have h1 := required_closed "id" h (by simp) (by simp) (by decide) (RuleId.fromJson_toJson r.id)
  have h2 := required_closed "priority" h (by simp) (by simp) (by decide) (u32_num r.priority)
  have h3 := required_of_dropped h (by simp) (by simp) (not_droppable (by decide) _) (reads_matcher hsrc hdst)
  have h4 := required_of_dropped h (by simp) (by simp) (not_droppable (by decide) _) (reads_action r.action)
  have h5 := optional_closed "description" r.description h (by simp) (by simp) (by decide) option_string
  simp only [Rule.fromJson, structFields, h1, h2, h3, h4, h5, Option.bind_eq_bind, Option.bind_some]

theorem reads_chain {ip : IpText} {c : Chain} (hrules : ∀ r ∈ c.rules, Reads Droppable (Rule.fromJson ip)
    ["rules", "chains"] (r.toJson ip) r) : Reads Droppable (Chain.fromJson ip) ["chains"] (c.toJson ip) c := by
  intro j hj
  obtain ⟨fs, rfl, h⟩ := hj.obj_inv
  have hname : string (.str c.name) = some c.name := rfl
  have h1 := required_closed "name" h (by simp) (by simp) (by decide) hname
  have h2 := required_of_dropped h (by simp) (by simp) (not_droppable (by decide) _) (reads_array hrules)
  have h3 := required_closed "default_policy" h (by simp) (by simp) (by decide)
    (Policy.fromJson_toJson c.defaultPolicy)
  simp only [Chain.fromJson, structFields, h1, h2, h3, Option.bind_eq_bind, Option.bind_some]

theorem reads_ruleset {ip : IpText} {rs : Ruleset} (hchains : ∀ c ∈ rs.chains, Reads Droppable (Chain.fromJson ip)
    ["chains"] (c.toJson ip) c) : Reads Droppable (Ruleset.fromJson ip) [] (rs.toJson ip) rs := by
  intro j hj
  obtain ⟨fs, rfl, h⟩ := hj.obj_inv
  have h1 := required_closed "version" h (by simp) (by simp) (by decide) (u64_num rs.version)
  have h2 := required_of_dropped h (by simp) (by simp) (not_droppable (by decide) _) (reads_array hchains)
  simp only [Ruleset.fromJson, structFields, h1, h2, Option.bind_eq_bind, Option.bind_some]

/-- **The document format round-trips**, also from documents that leave out wildcards and nulls. -/
theorem document_roundtrip (ip : IpText) (rs : Ruleset) (hip : ∀ a ∈ rs.addresses, ip.fromStr (ip.display a) = some a) :
    Ruleset.fromJson ip (rs.toJson ip) = some rs ∧
      ∀ j, Trimmed Droppable [] (rs.toJson ip) j → Ruleset.fromJson ip j = some rs := by
  have hreads : Reads Droppable (Ruleset.fromJson ip) [] (rs.toJson ip) rs := by
    refine reads_ruleset (fun c hc => reads_chain (fun r hr => ?_))
    have hmem : ∀ a ∈ r.matcher.srcAddr.addresses ++ r.matcher.dstAddr.addresses, a ∈ rs.addresses :=
      fun a ha => List.mem_flatMap.2 ⟨c, hc, List.mem_flatMap.2 ⟨r, hr, ha⟩⟩
    exact reads_rule (fun a ha => hip a (hmem a (List.mem_append_left _ ha)))
      (fun a ha => hip a (hmem a (List.mem_append_right _ ha)))
  exact ⟨hreads.self, hreads⟩

/-- `192.0.2.1` and its text. -/
def docText : IpText where
  display := fun a => if a = .v4 0xC0000201 then "192.0.2.1" else ""
  fromStr := fun s => if s = "192.0.2.1" then some (.v4 0xC0000201) else none

def jumpToAccept : Ruleset := .new [{
  name := "input"
  rules := [{ id := ⟨1⟩, priority := 10, matcher := { srcAddr := .single (.v4 0xC0000201) }, action := .jump "accept" }]
  defaultPolicy := .drop }]

/-- `jumpToAccept` as one writes it. -/
def jumpToAcceptShort : Json :=
  .obj [("version", .num 1), ("chains", .arr [.obj [("name", .str "input"), ("rules", .arr [
    .obj [("id", .num 1), ("priority", .num 10), ("matcher", .obj [("src_addr", .obj [("single", .str "192.0.2.1")])]),
      ("action", .obj [("jump", .str "accept")])]]), ("default_policy", .str "drop")]])]

theorem trimmed_jumpToAcceptShort : Trimmed Droppable [] (jumpToAccept.toJson docText) jumpToAcceptShort := by
  have hmatcher : Dropped Droppable ["matcher", "rules", "chains"]
      [("protocol", .str "any"), ("src_addr", .obj [("single", .str "192.0.2.1")]), ("dst_addr", .str "any"),
        ("src_port", .str "any"), ("dst_port", .str "any"), ("in_interface", .str "any"), ("out_interface", .str "any")]
      [("src_addr", .obj [("single", .str "192.0.2.1")])] :=
    .drop _ (Or.inl ⟨by decide, rfl⟩) (.keep _ (.same _ _) (.drop _ (Or.inl ⟨by decide, rfl⟩)
      (.drop _ (Or.inl ⟨by decide, rfl⟩) (.drop _ (Or.inl ⟨by decide, rfl⟩) (.drop _ (Or.inl ⟨by decide, rfl⟩)
        (.drop _ (Or.inl ⟨by decide, rfl⟩) (.nil _)))))))
  refine .obj (.keep _ (.same _ _) (.keep _ (.arr (.cons (.obj (.keep _ (.same _ _) (.keep _ (.arr (.cons
    (.obj ?_) (.nil _))) (.keep _ (.same _ _) (.nil _))))) (.nil _))) (.nil _)))
  exact .keep _ (.same _ _) (.keep _ (.same _ _) (.keep _ (.obj hmatcher) (.keep _ (.same _ _)
    (.drop _ (Or.inr ⟨by decide, rfl⟩) (.nil _)))))

theorem document_roundtrip_jumpToAccept :
    Ruleset.fromJson docText jumpToAcceptShort = some jumpToAccept :=
  (document_roundtrip docText jumpToAccept (by decide)).2 _ trimmed_jumpToAcceptShort

end Portcullis
