import Portcullis.Rule
import Portcullis.Lib.SortByKey
import Portcullis.Lib.Repeats
/-!
# Lint — the verify pass (`lint.rs`)

`verify` collects every issue: the schema version, repeated chain names, repeated rule ids, and for each chain what
`lintChain` finds on the rules sorted by priority (stable).
-/
namespace Portcullis

open SortBy (sortByKey)
open Repeats (repeats)

inductive LintKind where
  | unsupportedVersion
  | duplicateChain
  | duplicateRuleId
  | priorityCollision
  | unreachable
  | shadowed
  deriving DecidableEq, Repr

def LintKind.display : LintKind → String
  | .unsupportedVersion => "unsupported schema version"
  | .duplicateChain => "duplicate chain name"
  | .duplicateRuleId => "duplicate rule id"
  | .priorityCollision => "priority collision"
  | .unreachable => "unreachable rule"
  | .shadowed => "shadowed rule"

structure LintIssue where
  kind : LintKind
  chain : Option String
  rule : Option RuleId
  otherRule : Option RuleId
  message : String
  deriving DecidableEq, Repr

def LintIssue.new (kind : LintKind) (message : String) : LintIssue := ⟨kind, none, none, none, message⟩

def LintIssue.inChain (i : LintIssue) (chain : String) : LintIssue := { i with chain := some chain }

def LintIssue.primary (i : LintIssue) (id : RuleId) : LintIssue := { i with rule := some id }

def LintIssue.secondary (i : LintIssue) (id : RuleId) : LintIssue := { i with otherRule := some id }

def RuleId.display (id : RuleId) : String := toString id.val

def LintIssue.display (i : LintIssue) : String :=
  s!"[{i.kind.display}] " ++
  (match i.chain with
   | some c => s!"chain `{c}` "
   | none => "") ++
  (match i.rule, i.otherRule with
   | some a, some b => s!"rules {a.display} / {b.display}: "
   | some a, none => s!"rule {a.display}: "
   | _, _ => "") ++
  i.message

def actionLabel (rule : Rule) : String :=
  match rule.action with
  | .accept => "accept"
  | .drop => "drop"
  | .reject => "reject"
  | .nat _ => "nat"
  | .rateLimit _ => "rate-limit"
  | .jump target => s!"jump to `{target}`"
  | .continue_ => "continue"

/-! ## One chain -/

/-- Rules in evaluation order: priority ascending, declaration order breaking ties. -/
def evalOrder (rules : List Rule) : List Rule := sortByKey (fun r => r.priority.toNat) rules

def collisionIssue (chain : String) (a b : Rule) : LintIssue :=
  ((LintIssue.new .priorityCollision
    s!"rules share priority {a.priority} and overlapping matchers; evaluation order between them is undefined").inChain
      chain).primary a.id |>.secondary b.id

/-- The test of the collision loops on a pair of equal priority. -/
def collides (a b : Rule) : Bool := a.id ≠ b.id && a.matcher.overlaps b.matcher

/-- The two collision loops, `a` being `ordered[i]` and the list `ordered[j..]`.  The inner loop advances `j` while the
priority is that of `a`; where it stops, the outer one goes on from there (`i = j`). -/
def collisionsFrom (chain : String) (a : Rule) : List Rule → List LintIssue
  | [] => []
  | b :: rest =>
    if b.priority = a.priority then
      if collides a b then collisionIssue chain a b :: collisionsFrom chain a rest
      else collisionsFrom chain a rest
    else collisionsFrom chain b rest

def collisions (chain : String) : List Rule → List LintIssue
  | [] => []
  | a :: rest => collisionsFrom chain a rest

def kills (earlier rule : Rule) : Bool := earlier.action.isTerminal && earlier.matcher.isSupersetOf rule.matcher

def deadIssue (chain : String) (earlier rule : Rule) : LintIssue :=
  let same := earlier.matcher == rule.matcher
  let kind := if same then LintKind.shadowed else .unreachable
  let message :=
    if same then
      s!"same matcher as rule {earlier.id.display} (priority {earlier.priority}), which is terminal " ++
        s!"({actionLabel earlier}); this rule can never fire"
    else
      s!"matcher is a subset of rule {earlier.id.display} (priority {earlier.priority}, terminal " ++
        s!"{actionLabel earlier}); every packet this rule would match is already consumed"
  ((LintIssue.new kind message).inChain chain).primary rule.id |>.secondary earlier.id

/-- The unreachable / shadowed walk, `earlier` being `ordered.take(idx)`: one report per dead rule, naming the first
earlier rule that kills it. -/
def deadFrom (chain : String) (earlier : List Rule) : List Rule → List LintIssue
  | [] => []
  | rule :: rest =>
    match earlier.find? (fun e => kills e rule) with
    | some e => deadIssue chain e rule :: deadFrom chain (earlier ++ [rule]) rest
    | none => deadFrom chain (earlier ++ [rule]) rest

def lintChain (chain : Chain) : List LintIssue :=
  let ordered := evalOrder chain.rules
  collisions chain.name ordered ++ deadFrom chain.name [] ordered

/-! ## The ruleset -/

def versionIssues (ruleset : Ruleset) : List LintIssue :=
  if ruleset.version > schemaVersion then
    [LintIssue.new .unsupportedVersion
      s!"ruleset version {ruleset.version} is newer than supported version {schemaVersion}"]
  else []

def duplicateChainIssue (name : String) : LintIssue :=
  (LintIssue.new .duplicateChain s!"chain name `{name}` appears more than once").inChain name

def duplicateRuleIdIssue (id : RuleId) : LintIssue :=
  (LintIssue.new .duplicateRuleId s!"rule id {id.display} is used more than once").primary id

/-- Everything `verify` pushes, in order; the two `HashSet` scans read only names and ids. -/
def lintIssues (ruleset : Ruleset) : List LintIssue :=
  versionIssues ruleset ++
  (repeats [] (ruleset.chains.map Chain.name)).map duplicateChainIssue ++
  (repeats [] (ruleset.iterRules.map (fun cr => cr.2.id))).map duplicateRuleIdIssue ++
  ruleset.chains.flatMap lintChain

def verify (ruleset : Ruleset) : Except (List LintIssue) Unit :=
  let issues := lintIssues ruleset
  if issues.isEmpty then .ok () else .error issues

def issuesOf : Except (List LintIssue) Unit → List LintIssue
  | .ok _ => []
  | .error issues => issues

theorem issuesOf_verify (rs : Ruleset) : issuesOf (verify rs) = lintIssues rs := by
  unfold verify
  cases h : lintIssues rs <;> simp [issuesOf]

theorem verify_eq_ok_iff (rs : Ruleset) : verify rs = .ok () ↔ lintIssues rs = [] := by
  unfold verify
  cases h : lintIssues rs <;> simp

end Portcullis
