import Portcullis.Lint
/-!
# Config — read, parse, verify (`config.rs`)

The TOML decoder is a parameter: `fromStr` is what `toml::from_str` makes of a text.
-/
namespace Portcullis

structure FileConfig where
  ruleset : Ruleset
  deriving DecidableEq, Repr

inductive ConfigError where
  | io (path source : String)
  | parse (path source : String)
  | verify (issues : List LintIssue)
  deriving DecidableEq, Repr

def formatIssues (issues : List LintIssue) : String :=
  "\n".intercalate (issues.map (fun i => s!"  - {i.display}"))

def ConfigError.display : ConfigError → String
  | .io path source => s!"failed to read config {path}: {source}"
  | .parse path source => s!"failed to parse config {path}: {source}"
  | .verify issues => s!"ruleset failed verification ({issues.length} issue(s)):\n{formatIssues issues}"

theorem bind_eq_ok_iff {ε α β : Type} {x : Except ε α} {f : α → Except ε β} {b : β} :
    (x >>= f) = .ok b ↔ ∃ a, x = .ok a ∧ f a = .ok b := by
  cases x <;> simp [bind, Except.bind]

theorem mapError_eq_ok_iff {ε ε' α : Type} {x : Except ε α} {f : ε → ε'} {a : α} :
    x.mapError f = .ok a ↔ x = .ok a := by
  cases x <;> simp [Except.mapError]

variable (fromStr : String → Except String FileConfig)

/-- `parse_ruleset`; `path` is for the error text only. -/
def parseRuleset (text path : String) : Except ConfigError Ruleset := do
  let file ← (fromStr text).mapError (ConfigError.parse path)
  (verify file.ruleset).mapError ConfigError.verify
  return file.ruleset

/-- `load_ruleset`, `read` being what the file system answers. -/
def loadRuleset (path : String) (read : Except String String) : Except ConfigError Ruleset := do
  let text ← read.mapError (ConfigError.io path)
  parseRuleset fromStr text path

/-- **A ruleset that loads is one the file holds and `verify` accepts.** -/
theorem loadRuleset_eq_ok_iff {path : String} {read : Except String String} {rs : Ruleset} :
    loadRuleset fromStr path read = .ok rs ↔
      ∃ text, read = .ok text ∧ fromStr text = .ok ⟨rs⟩ ∧ verify rs = .ok () := by
  simp only [loadRuleset, parseRuleset, bind_eq_ok_iff, mapError_eq_ok_iff]
  constructor
  · rintro ⟨text, hread, ⟨rs'⟩, hparse, _, hv, hret⟩
    obtain rfl : rs' = rs := Except.ok.inj hret
    exact ⟨text, hread, hparse, hv⟩
  · rintro ⟨text, hread, hparse, hv⟩
    exact ⟨text, hread, ⟨rs⟩, hparse, (), hv, rfl⟩

theorem verify_of_loadRuleset {path : String} {read : Except String String} {rs : Ruleset}
    (h : loadRuleset fromStr path read = .ok rs) : verify rs = .ok () := by
  obtain ⟨-, -, -, hv⟩ := (loadRuleset_eq_ok_iff fromStr).1 h
  exact hv

end Portcullis
