import Portcullis.Rule
import Portcullis.Lib.Serde
/-!
# Document — the ruleset document format

What the derived `Serialize` and `Deserialize` do for a ruleset and everything in it: enums externally tagged under
snake_case names, `RuleId` transparent, a missing `Option` `None`, a missing matcher field its wildcard, unknown fields
skipped, a repeated one refused.
-/
namespace Portcullis

open Serde

/-- The text form of `std::net::IpAddr`. -/
structure IpText where
  display : IpAddr → String
  fromStr : String → Option IpAddr

/-! ## Integers and addresses -/

def u8 (j : Json) : Option UInt8 := (unsigned UInt8.size j).map UInt8.ofNat

def u16 (j : Json) : Option UInt16 := (unsigned UInt16.size j).map UInt16.ofNat

def u32 (j : Json) : Option UInt32 := (unsigned UInt32.size j).map UInt32.ofNat

def u64 (j : Json) : Option UInt64 := (unsigned UInt64.size j).map UInt64.ofNat

def IpText.toJson (ip : IpText) (a : IpAddr) : Json := .str (ip.display a)

def IpText.fromJson (ip : IpText) (j : Json) : Option IpAddr := do
  let s ← string j
  ip.fromStr s

/-! ## Matchers -/

def Protocol.toJson : Protocol → Json
  | .any => .str "any"
  | .tcp => .str "tcp"
  | .udp => .str "udp"
  | .icmp => .str "icmp"
  | .icmpv6 => .str "icmpv6"
  | .number n => .obj [("number", .num n.toNat)]

def Protocol.fromJson (j : Json) : Option Protocol := do
  let (tag, c) ← variant j
  match tag with
  | "any" => unit .any c
  | "tcp" => unit .tcp c
  | "udp" => unit .udp c
  | "icmp" => unit .icmp c
  | "icmpv6" => unit .icmpv6 c
  | "number" => (content u8 c).map .number
  | _ => none

def AddressMatcher.toJson (ip : IpText) : AddressMatcher → Json
  | .any => .str "any"
  | .single a => .obj [("single", ip.toJson a)]
  | .cidr addr prefixLen => .obj [("cidr", .obj [("addr", ip.toJson addr), ("prefix", .num prefixLen.toNat)])]
  | .range start end_ => .obj [("range", .obj [("start", ip.toJson start), ("end", ip.toJson end_)])]

def AddressMatcher.cidrFromJson (ip : IpText) (j : Json) : Option AddressMatcher := do
  let fields ← structFields ["addr", "prefix"] false j
  let addr ← required ip.fromJson "addr" fields
  let prefixLen ← required u8 "prefix" fields
  some (.cidr addr prefixLen)

def AddressMatcher.rangeFromJson (ip : IpText) (j : Json) : Option AddressMatcher := do
  let fields ← structFields ["start", "end"] false j
  let start ← required ip.fromJson "start" fields
  let end_ ← required ip.fromJson "end" fields
  some (.range start end_)

def AddressMatcher.fromJson (ip : IpText) (j : Json) : Option AddressMatcher := do
  let (tag, c) ← variant j
  match tag with
  | "any" => unit .any c
  | "single" => (content ip.fromJson c).map .single
  | "cidr" => content (cidrFromJson ip) c
  | "range" => content (rangeFromJson ip) c
  | _ => none

def PortRange.toJson (r : PortRange) : Json := .obj [("start", .num r.start.toNat), ("end", .num r.end_.toNat)]

def PortRange.fromJson (j : Json) : Option PortRange := do
  let fields ← structFields ["start", "end"] false j
  let start ← required u16 "start" fields
  let end_ ← required u16 "end" fields
  some ⟨start, end_⟩

def PortMatcher.toJson : PortMatcher → Json
  | .any => .str "any"
  | .single p => .obj [("single", .num p.toNat)]
  | .range r => .obj [("range", r.toJson)]

def PortMatcher.fromJson (j : Json) : Option PortMatcher := do
  let (tag, c) ← variant j
  match tag with
  | "any" => unit .any c
  | "single" => (content u16 c).map .single
  | "range" => (content PortRange.fromJson c).map .range
  | _ => none

def InterfaceMatcher.toJson : InterfaceMatcher → Json
  | .any => .str "any"
  | .name n => .obj [("name", .str n)]

def InterfaceMatcher.fromJson (j : Json) : Option InterfaceMatcher := do
  let (tag, c) ← variant j
  match tag with
  | "any" => unit .any c
  | "name" => (content string c).map .name
  | _ => none

def matcherFields : List String :=
  ["protocol", "src_addr", "dst_addr", "src_port", "dst_port", "in_interface", "out_interface"]

def Matcher.toJson (ip : IpText) (m : Matcher) : Json :=
  .obj [("protocol", m.protocol.toJson), ("src_addr", m.srcAddr.toJson ip), ("dst_addr", m.dstAddr.toJson ip),
    ("src_port", m.srcPort.toJson), ("dst_port", m.dstPort.toJson), ("in_interface", m.inInterface.toJson),
    ("out_interface", m.outInterface.toJson)]

/-- `#[serde(default)]`: a missing field is that of `Matcher::default()`. -/
def Matcher.fromJson (ip : IpText) (j : Json) : Option Matcher := do
  let fields ← structFields matcherFields true j
  let protocol ← defaulted Matcher.any.protocol Protocol.fromJson "protocol" fields
  let srcAddr ← defaulted Matcher.any.srcAddr (AddressMatcher.fromJson ip) "src_addr" fields
  let dstAddr ← defaulted Matcher.any.dstAddr (AddressMatcher.fromJson ip) "dst_addr" fields
  let srcPort ← defaulted Matcher.any.srcPort PortMatcher.fromJson "src_port" fields
  let dstPort ← defaulted Matcher.any.dstPort PortMatcher.fromJson "dst_port" fields
  let inInterface ← defaulted Matcher.any.inInterface InterfaceMatcher.fromJson "in_interface" fields
  let outInterface ← defaulted Matcher.any.outInterface InterfaceMatcher.fromJson "out_interface" fields
  some ⟨protocol, srcAddr, dstAddr, srcPort, dstPort, inInterface, outInterface⟩

/-! ## Actions -/

def NatType.toJson : NatType → Json
  | .snat => .str "snat"
  | .dnat => .str "dnat"
  | .masquerade => .str "masquerade"

def NatType.fromJson (j : Json) : Option NatType := do
  let (tag, c) ← variant j
  match tag with
  | "snat" => unit .snat c
  | "dnat" => unit .dnat c
  | "masquerade" => unit .masquerade c
  | _ => none

def encU16 (n : UInt16) : Json := .num n.toNat

def TranslationTarget.toJson (t : TranslationTarget) : Json :=
  .obj [("address", encOption .str t.address), ("port", encOption encU16 t.port)]

def TranslationTarget.fromJson (j : Json) : Option TranslationTarget := do
  let fields ← structFields ["address", "port"] false j
  let address ← optional string "address" fields
  let port ← optional u16 "port" fields
  some ⟨address, port⟩

def NatRule.toJson (r : NatRule) : Json :=
  .obj [("nat_type", r.natType.toJson), ("to", r.to_.toJson), ("remark", encOption .str r.remark)]

def NatRule.fromJson (j : Json) : Option NatRule := do
  let fields ← structFields ["nat_type", "to", "remark"] false j
  let natType ← required NatType.fromJson "nat_type" fields
  let to_ ← required TranslationTarget.fromJson "to" fields
  let remark ← optional string "remark" fields
  some ⟨natType, to_, remark⟩

def RateUnit.toJson : RateUnit → Json
  | .packetsPerSecond => .str "packets_per_second"
  | .bitsPerSecond => .str "bits_per_second"
  | .bytesPerSecond => .str "bytes_per_second"

def RateUnit.fromJson (j : Json) : Option RateUnit := do
  let (tag, c) ← variant j
  match tag with
  | "packets_per_second" => unit .packetsPerSecond c
  | "bits_per_second" => unit .bitsPerSecond c
  | "bytes_per_second" => unit .bytesPerSecond c
  | _ => none

def ShapingPolicy.toJson (p : ShapingPolicy) : Json :=
  .obj [("rate", .num p.rate.toNat), ("burst", .num p.burst.toNat), ("unit", p.unit.toJson),
    ("remark", encOption .str p.remark)]

def ShapingPolicy.fromJson (j : Json) : Option ShapingPolicy := do
  let fields ← structFields ["rate", "burst", "unit", "remark"] false j
  let rate ← required u64 "rate" fields
  let burst ← required u64 "burst" fields
  let unit ← required RateUnit.fromJson "unit" fields
  let remark ← optional string "remark" fields
  some ⟨rate, burst, unit, remark⟩

def Action.toJson : Action → Json
  | .accept => .str "accept"
  | .drop => .str "drop"
  | .reject => .str "reject"
  | .nat r => .obj [("nat", r.toJson)]
  | .rateLimit p => .obj [("rate_limit", p.toJson)]
  | .jump target => .obj [("jump", .str target)]
  | .continue_ => .str "continue"

def Action.fromJson (j : Json) : Option Action := do
  let (tag, c) ← variant j
  match tag with
  | "accept" => unit .accept c
  | "drop" => unit .drop c
  | "reject" => unit .reject c
  | "nat" => (content NatRule.fromJson c).map .nat
  | "rate_limit" => (content ShapingPolicy.fromJson c).map .rateLimit
  | "jump" => (content string c).map .jump
  | "continue" => unit .continue_ c
  | _ => none

def Policy.toJson : Policy → Json
  | .accept => .str "accept"
  | .drop => .str "drop"
  | .reject => .str "reject"

def Policy.fromJson (j : Json) : Option Policy := do
  let (tag, c) ← variant j
  match tag with
  | "accept" => unit .accept c
  | "drop" => unit .drop c
  | "reject" => unit .reject c
  | _ => none

/-! ## Rules, chains, rulesets -/

def RuleId.toJson (id : RuleId) : Json := .num id.val.toNat

def RuleId.fromJson (j : Json) : Option RuleId := (u64 j).map RuleId.mk

def Rule.toJson (ip : IpText) (r : Rule) : Json :=
  .obj [("id", r.id.toJson), ("priority", .num r.priority.toNat), ("matcher", r.matcher.toJson ip),
    ("action", r.action.toJson), ("description", encOption .str r.description)]

def Rule.fromJson (ip : IpText) (j : Json) : Option Rule := do
  let fields ← structFields ["id", "priority", "matcher", "action", "description"] false j
  let id ← required RuleId.fromJson "id" fields
  let priority ← required u32 "priority" fields
  let matcher ← required (Matcher.fromJson ip) "matcher" fields
  let action ← required Action.fromJson "action" fields
  let description ← optional string "description" fields
  some ⟨id, priority, matcher, action, description⟩

def Chain.toJson (ip : IpText) (c : Chain) : Json :=
  .obj [("name", .str c.name), ("rules", .arr (c.rules.map (Rule.toJson ip))),
    ("default_policy", c.defaultPolicy.toJson)]

def Chain.fromJson (ip : IpText) (j : Json) : Option Chain := do
  let fields ← structFields ["name", "rules", "default_policy"] false j
  let name ← required string "name" fields
  let rules ← required (array (Rule.fromJson ip)) "rules" fields
  let defaultPolicy ← required Policy.fromJson "default_policy" fields
  some ⟨name, rules, defaultPolicy⟩

def Ruleset.toJson (ip : IpText) (rs : Ruleset) : Json :=
  .obj [("version", .num rs.version.toNat), ("chains", .arr (rs.chains.map (Chain.toJson ip)))]

def Ruleset.fromJson (ip : IpText) (j : Json) : Option Ruleset := do
  let fields ← structFields ["version", "chains"] false j
  let version ← required u64 "version" fields
  let chains ← required (array (Chain.fromJson ip)) "chains" fields
  some ⟨version, chains⟩

end Portcullis
