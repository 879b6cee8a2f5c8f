import Portcullis.Wire
import Portcullis.Lib.Shuffle
/-!
# FieldOrder — documents in another order of fields

Every type of the ruleset document and of the control protocol is read by the names of its fields and the tags of its
variants, so permuting the fields of any objects of a document, at any depth, changes neither what is read of it nor
whether it is refused (`ruleset_shuffled`, `wire_shuffled`).  One lemma a type.
-/
namespace Portcullis

open Serde

/-! ## Leaves -/

theorem unordered_u8 : Unordered u8 := (unordered_unsigned _).map _

theorem unordered_u16 : Unordered u16 := (unordered_unsigned _).map _

theorem unordered_u32 : Unordered u32 := (unordered_unsigned _).map _

theorem unordered_u64 : Unordered u64 := (unordered_unsigned _).map _

theorem unordered_usize : Unordered usize := unordered_unsigned _

theorem unordered_ip (ip : IpText) : Unordered ip.fromJson := by
  intro j j' h
  unfold IpText.fromJson
  rw [unordered_string j j' h]

theorem unordered_ruleId : Unordered RuleId.fromJson := unordered_u64.map _

/-! ## Matchers -/

theorem unordered_protocol : Unordered Protocol.fromJson := by
  refine unordered_variant (fun tag j j' h => ?_)
  simp only
  split <;> simp only [unit_shuffled _ h, content_shuffled unordered_u8 h]

theorem unordered_cidr (ip : IpText) : Unordered (AddressMatcher.cidrFromJson ip) :=
  unordered_struct (fun _ _ h => by simp only [h.required (unordered_ip ip), h.required unordered_u8])

theorem unordered_addressRange (ip : IpText) : Unordered (AddressMatcher.rangeFromJson ip) :=
  unordered_struct (fun _ _ h => by simp only [h.required (unordered_ip ip)])

theorem unordered_addressMatcher (ip : IpText) : Unordered (AddressMatcher.fromJson ip) := by
  refine unordered_variant (fun tag j j' h => ?_)
  simp only
  split <;> simp only [unit_shuffled _ h, content_shuffled (unordered_ip ip) h, content_shuffled (unordered_cidr ip) h,
    content_shuffled (unordered_addressRange ip) h]

theorem unordered_portRange : Unordered PortRange.fromJson :=
  unordered_struct (fun _ _ h => by simp only [h.required unordered_u16])

theorem unordered_portMatcher : Unordered PortMatcher.fromJson := by
  refine unordered_variant (fun tag j j' h => ?_)
  simp only
  split <;> simp only [unit_shuffled _ h, content_shuffled unordered_u16 h, content_shuffled unordered_portRange h]

theorem unordered_interfaceMatcher : Unordered InterfaceMatcher.fromJson := by
  refine unordered_variant (fun tag j j' h => ?_)
  simp only
  split <;> simp only [unit_shuffled _ h, content_shuffled unordered_string h]

theorem unordered_matcher (ip : IpText) : Unordered (Matcher.fromJson ip) :=
  unordered_struct (fun _ _ h => by
    simp only [h.defaulted unordered_protocol, h.defaulted (unordered_addressMatcher ip), h.defaulted unordered_portMatcher,
      h.defaulted unordered_interfaceMatcher])

/-! ## Actions -/

theorem unordered_natType : Unordered NatType.fromJson := by
  refine unordered_variant (fun tag j j' h => ?_)
  simp only
  split <;> simp only [unit_shuffled _ h]

theorem unordered_translationTarget : Unordered TranslationTarget.fromJson :=
  unordered_struct (fun _ _ h => by simp only [h.optional unordered_string, h.optional unordered_u16])

theorem unordered_natRule : Unordered NatRule.fromJson :=
  unordered_struct (fun _ _ h => by
    simp only [h.required unordered_natType, h.required unordered_translationTarget, h.optional unordered_string])

theorem unordered_rateUnit : Unordered RateUnit.fromJson := by
  refine unordered_variant (fun tag j j' h => ?_)
  simp only
  split <;> simp only [unit_shuffled _ h]

theorem unordered_shapingPolicy : Unordered ShapingPolicy.fromJson :=
  unordered_struct (fun _ _ h => by
    simp only [h.required unordered_u64, h.required unordered_rateUnit, h.optional unordered_string])

theorem unordered_action : Unordered Action.fromJson := by
  refine unordered_variant (fun tag j j' h => ?_)
  simp only
  split <;> simp only [unit_shuffled _ h, content_shuffled unordered_natRule h, content_shuffled unordered_shapingPolicy h,
    content_shuffled unordered_string h]

theorem unordered_policy : Unordered Policy.fromJson := by
  refine unordered_variant (fun tag j j' h => ?_)
  simp only
  split <;> simp only [unit_shuffled _ h]

/-! ## Rulesets -/

theorem unordered_rule (ip : IpText) : Unordered (Rule.fromJson ip) :=
  unordered_struct (fun _ _ h => by
    simp only [h.required unordered_ruleId, h.required unordered_u32, h.required (unordered_matcher ip),
      h.required unordered_action, h.optional unordered_string])

theorem unordered_chain (ip : IpText) : Unordered (Chain.fromJson ip) :=
  unordered_struct (fun _ _ h => by
    simp only [h.required unordered_string, h.required (unordered_rule ip).array, h.required unordered_policy])

/-- **A ruleset document reads alike in every order of its fields**, or is refused in every one. -/
theorem ruleset_shuffled (ip : IpText) : Unordered (Ruleset.fromJson ip) :=
  unordered_struct (fun _ _ h => by simp only [h.required unordered_u64, h.required (unordered_chain ip).array])

/-- The version last, and the name of the chain behind its rules. -/
example : Ruleset.fromJson docText
    (.obj [("chains", .arr [.obj [("rules", .arr []), ("default_policy", .str "drop"), ("name", .str "input")]]),
      ("version", .num 1)]) = some ⟨1, [⟨"input", [], .drop⟩]⟩ := by rfl

/-! ## The control protocol -/

theorem unordered_path : Unordered Request.pathFromJson :=
  unordered_struct (fun _ _ h => by simp only [h.required unordered_string])

theorem unordered_request : Unordered Request.fromJson := by
  refine unordered_tagged (fun tag j j' h => ?_)
  simp only
  split <;> simp only [unordered_path _ _ h, unordered_taggedUnit _ _ _ h]

theorem unordered_applyOutcome : Unordered ApplyOutcome.fromJson :=
  unordered_struct (fun _ _ h => by simp only [h.required unordered_u64, h.required unordered_usize])

theorem unordered_statusPayload : Unordered StatusPayload.fromJson :=
  unordered_struct (fun _ _ h => by
    simp only [h.required unordered_string, h.required unordered_boolean, h.optional unordered_u64,
      h.optional unordered_usize, h.optional unordered_applyOutcome])

theorem unordered_response : Unordered Response.fromJson :=
  unordered_struct (fun _ _ h => by
    simp only [h.required unordered_boolean, h.optional unordered_string, h.optional unordered_applyOutcome,
      h.optional unordered_statusPayload])

/-- **So does every request and every response.** -/
theorem wire_shuffled : Unordered Request.fromJson ∧ Unordered Response.fromJson := ⟨unordered_request, unordered_response⟩

end Portcullis
