import Portcullis.Matcher
/-!
# Rule — rules, chains and rulesets (`action.rs`, `nat.rs`, `shaping.rs`, `rule.rs`, `ruleset.rs`)
-/
namespace Portcullis

inductive NatType where
  | snat
  | dnat
  | masquerade
  deriving DecidableEq, Repr

structure TranslationTarget where
  address : Option String := none
  port : Option UInt16 := none
  deriving DecidableEq, Repr

structure NatRule where
  natType : NatType
  to_ : TranslationTarget
  remark : Option String
  deriving DecidableEq, Repr

inductive RateUnit where
  | packetsPerSecond
  | bitsPerSecond
  | bytesPerSecond
  deriving DecidableEq, Repr

structure ShapingPolicy where
  rate : UInt64
  burst : UInt64
  unit : RateUnit
  remark : Option String
  deriving DecidableEq, Repr

inductive Action where
  | accept
  | drop
  | reject
  | nat (r : NatRule)
  | rateLimit (p : ShapingPolicy)
  | jump (target : String)
  | continue_
  deriving DecidableEq, Repr

def Action.isTerminal : Action → Bool
  | .accept => true
  | .drop => true
  | .reject => true
  | _ => false

inductive Policy where
  | accept
  | drop
  | reject
  deriving DecidableEq, Repr

/-- `Policy::to_action`: the terminal action a policy comes to. -/
def Policy.toAction : Policy → Action
  | .accept => .accept
  | .drop => .drop
  | .reject => .reject

structure RuleId where
  val : UInt64
  deriving DecidableEq, Repr

structure Rule where
  id : RuleId
  priority : UInt32
  matcher : Matcher
  action : Action
  description : Option String := none
  deriving DecidableEq, Repr

structure Chain where
  name : String
  rules : List Rule
  defaultPolicy : Policy
  deriving DecidableEq, Repr

def schemaVersion : UInt64 := 1

structure Ruleset where
  version : UInt64 := schemaVersion
  chains : List Chain := []
  deriving DecidableEq, Repr

def Ruleset.new (chains : List Chain) : Ruleset := { chains := chains }

/-- `Ruleset::iter_rules`: every rule with its chain, in declaration order. -/
def Ruleset.iterRules (rs : Ruleset) : List (Chain × Rule) := rs.chains.flatMap (fun c => c.rules.map (fun r => (c, r)))

structure RulesetDiff where
  add : List Rule := []
  update : List Rule := []
  remove : List RuleId := []
  deriving DecidableEq, Repr

def RulesetDiff.len (d : RulesetDiff) : Nat := d.add.length + d.update.length + d.remove.length

end Portcullis
