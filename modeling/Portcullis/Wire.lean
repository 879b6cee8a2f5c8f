import Portcullis.Daemon
import Portcullis.RoundTrip
/-!
# Wire — the documents of the control protocol (`control.rs`)

A request is tagged by its `cmd` field; a response writes no field that is `None`, a status payload writes null.  A
document is taken for a request exactly when it asks for that request (`request_fromJson_iff`), and a response is read
back from what the daemon writes, whichever null fields it leaves out (`response_roundtrip`).
-/
namespace Portcullis

open Serde

/-- `usize` on a 64-bit machine. -/
def usize (j : Json) : Option Nat := unsigned UInt64.size j

def encUsize (n : Nat) : Json := .num n

def encU64 (n : UInt64) : Json := .num n.toNat

/-! ## Requests -/

def Request.toJson : Request → Json
  | .validate path => .obj [("cmd", .str "validate"), ("path", .str path)]
  | .apply path => .obj [("cmd", .str "apply"), ("path", .str path)]
  | .reload => .obj [("cmd", .str "reload")]
  | .status => .obj [("cmd", .str "status")]

def Request.pathFromJson (j : Json) : Option String := do
  let fields ← structFields ["path"] false j
  required string "path" fields

def Request.fromJson (j : Json) : Option Request := do
  let (cmd, rest) ← tagged "cmd" j
  match cmd with
  | "validate" => (pathFromJson rest).map .validate
  | "apply" => (pathFromJson rest).map .apply
  | "reload" => taggedUnit .reload rest
  | "status" => taggedUnit .status rest
  | _ => none

def Request.cmd : Request → String
  | .validate _ => "validate"
  | .apply _ => "apply"
  | .reload => "reload"
  | .status => "status"

def Request.file : Request → Option String
  | .validate path => some path
  | .apply path => some path
  | _ => none

/-- The documents that ask for a request: its command once, its path once if it has one, in any fields, or the two in
order. -/
inductive Asks (req : Request) : Json → Prop where
  | fields (fs : List (String × Json)) (hcmd : values "cmd" fs = [.str req.cmd])
      (hpath : ∀ path, req.file = some path → values "path" fs = [.str path]) : Asks req (.obj fs)
  | items : Asks req (.arr (.str req.cmd :: req.file.toList.map .str))

theorem pathFromJson_obj {fs : List (String × Json)} {path : String} :
    Request.pathFromJson (.obj (fs.filter (fun f => f.1 != "cmd"))) = some path ↔ values "path" fs = [.str path] := by
  have hvalues := values_filter_ne (by decide : "path" ≠ "cmd") fs
  simp only [Request.pathFromJson, structFields, required, hvalues, Option.bind_eq_bind, Option.bind_some]
  cases values "path" fs with
  | nil => simp
  | cons j js =>
    cases js with
    | nil => cases j <;> simp [string]
    | cons _ _ => simp

theorem pathFromJson_arr {items : List Json} {path : String} :
    Request.pathFromJson (.arr items) = some path ↔ items = [.str path] := by
  cases items with
  | nil => simp [Request.pathFromJson, structFields]
  | cons j rest =>
    cases rest with
    | nil => cases j <;> simp [Request.pathFromJson, structFields, required, values, string]
    | cons _ _ => simp [Request.pathFromJson, structFields]

theorem asks_of_fromJson {j : Json} {req : Request} (h : Request.fromJson j = some req) : Asks req j := by
  obtain ⟨⟨cmd, rest⟩, htag, h⟩ := Option.bind_eq_some_iff.1 h
  rcases tagged_eq_some htag with ⟨fs, rfl, hcmd, rfl⟩ | ⟨items, rfl, rfl⟩
  · -- an object
    simp only at h
    split at h
    · obtain ⟨path, hpath, rfl⟩ := Option.map_eq_some_iff.1 h
      exact .fields fs hcmd (fun _ heq => Option.some.inj heq ▸ pathFromJson_obj.1 hpath)
    · obtain ⟨path, hpath, rfl⟩ := Option.map_eq_some_iff.1 h
      exact .fields fs hcmd (fun _ heq => Option.some.inj heq ▸ pathFromJson_obj.1 hpath)
    · cases h
      exact .fields fs hcmd nofun
    · cases h
      exact .fields fs hcmd nofun
    · cases h
  · -- an array
    simp only at h
    split at h
    · obtain ⟨path, hpath, rfl⟩ := Option.map_eq_some_iff.1 h
      exact pathFromJson_arr.1 hpath ▸ .items
    · obtain ⟨path, hpath, rfl⟩ := Option.map_eq_some_iff.1 h
      exact pathFromJson_arr.1 hpath ▸ .items
    · obtain ⟨rfl, rfl⟩ := taggedUnit_arr h
      exact .items
    · obtain ⟨rfl, rfl⟩ := taggedUnit_arr h
      exact .items
    · cases h

theorem fromJson_of_asks {j : Json} {req : Request} (h : Asks req j) : Request.fromJson j = some req := by
  rcases h with ⟨fs, hcmd, hpath⟩ | _
  · cases req <;> simp_all [Request.fromJson, tagged, Request.cmd, Request.file, taggedUnit, pathFromJson_obj]
  · cases req <;> simp [Request.fromJson, tagged, Request.cmd, Request.file, taggedUnit, pathFromJson_arr]

theorem request_fromJson_toJson (req : Request) : Request.fromJson req.toJson = some req := by
  cases req <;> exact fromJson_of_asks (.fields _ (by rfl) (fun path h => by cases h <;> rfl))

/-! ## Responses -/

def ApplyOutcome.toJson (o : ApplyOutcome) : Json :=
  .obj [("version", encU64 o.version), ("chains", encUsize o.chains), ("rules", encUsize o.rules),
    ("planned_changes", encUsize o.plannedChanges)]

def ApplyOutcome.fromJson (j : Json) : Option ApplyOutcome := do
  let fields ← structFields ["version", "chains", "rules", "planned_changes"] false j
  let version ← required u64 "version" fields
  let chains ← required usize "chains" fields
  let rules ← required usize "rules" fields
  let plannedChanges ← required usize "planned_changes" fields
  some ⟨version, chains, rules, plannedChanges⟩

def StatusPayload.toJson (p : StatusPayload) : Json :=
  .obj [("config_path", .str p.configPath), ("loaded", .bool p.loaded), ("version", encOption encU64 p.version),
    ("chains", encOption encUsize p.chains), ("rules", encOption encUsize p.rules),
    ("last_apply", encOption ApplyOutcome.toJson p.lastApply)]

def StatusPayload.fromJson (j : Json) : Option StatusPayload := do
  let fields ← structFields ["config_path", "loaded", "version", "chains", "rules", "last_apply"] false j
  let configPath ← required string "config_path" fields
  let loaded ← required boolean "loaded" fields
  let version ← optional u64 "version" fields
  let chains ← optional usize "chains" fields
  let rules ← optional usize "rules" fields
  let lastApply ← optional ApplyOutcome.fromJson "last_apply" fields
  some ⟨configPath, loaded, version, chains, rules, lastApply⟩

/-- `skip_serializing_if`: a field that is `None` is not written. -/
def Response.toJson (r : Response) : Json :=
  .obj (("ok", .bool r.ok) :: (skipNone "error" .str r.error ++ (skipNone "applied" ApplyOutcome.toJson r.applied ++
    (skipNone "status" StatusPayload.toJson r.status ++ (skipNone "message" .str r.message ++ [])))))

def Response.fromJson (j : Json) : Option Response := do
  let fields ← structFields ["ok", "error", "applied", "status", "message"] false j
  let ok ← required boolean "ok" fields
  let error ← optional string "error" fields
  let applied ← optional ApplyOutcome.fromJson "applied" fields
  let status ← optional StatusPayload.fromJson "status" fields
  let message ← optional string "message" fields
  some ⟨ok, error, applied, status, message⟩

/-- The response with its `None` fields written as null. -/
def Response.document (r : Response) : Json :=
  .obj [("ok", .bool r.ok), ("error", encOption .str r.error), ("applied", encOption ApplyOutcome.toJson r.applied),
    ("status", encOption StatusPayload.toJson r.status), ("message", encOption .str r.message)]

/-- The `Option` fields of a response, as paths from the inside out. -/
def responseNulls : List (List String) :=
  [["error"], ["applied"], ["status"], ["message"], ["version", "status"], ["chains", "status"], ["rules", "status"],
    ["last_apply", "status"]]

/-- The counts are `usize`. -/
structure ApplyOutcome.Fits (o : ApplyOutcome) : Prop where
  chains : o.chains < UInt64.size
  rules : o.rules < UInt64.size
  plannedChanges : o.plannedChanges < UInt64.size

structure StatusPayload.Fits (p : StatusPayload) : Prop where
  chains : ∀ n ∈ p.chains, n < UInt64.size
  rules : ∀ n ∈ p.rules, n < UInt64.size
  lastApply : ∀ o ∈ p.lastApply, o.Fits

structure Response.Fits (r : Response) : Prop where
  applied : ∀ o ∈ r.applied, o.Fits
  status : ∀ p ∈ r.status, p.Fits

theorem usize_num {n : Nat} (h : n < UInt64.size) : usize (.num n) = some n := unsigned_num h

theorem ApplyOutcome.fromJson_toJson {o : ApplyOutcome} (h : o.Fits) : fromJson o.toJson = some o := by
  simp [fromJson, toJson, structFields, required, values, encU64, encUsize, u64_num, usize_num h.chains,
    usize_num h.rules, usize_num h.plannedChanges]

theorem dropped_response (r : Response) : Trimmed (NullAt responseNulls) [] r.document r.toJson :=
  .obj (.keep "ok" (.same _ _) (dropped_skipNone r.error (by decide) (dropped_skipNone r.applied (by decide)
    (dropped_skipNone r.status (by decide) (dropped_skipNone r.message (by decide) (.nil _))))))

theorem reads_statusPayload {p : StatusPayload} (h : p.Fits) :
    Reads (NullAt responseNulls) StatusPayload.fromJson ["status"] p.toJson p := by
  intro j hj
  obtain ⟨fs, rfl, hd⟩ := hj.obj_inv
  have hpath : string (.str p.configPath) = some p.configPath := rfl
  have hloaded : boolean (.bool p.loaded) = some p.loaded := rfl
  have h1 : required string "config_path" fs = some p.configPath :=
    required_nullAt hd (by simp) (by simp) (by decide) hpath
  have h2 : required boolean "loaded" fs = some p.loaded := required_nullAt hd (by simp) (by simp) (by decide) hloaded
  have h3 : optional u64 "version" fs = some p.version :=
    optional_nullAt_closed encU64 hd (by simp) (by simp) (by decide) (fun n _ => ⟨nofun, u64_num n⟩)
  have h4 : optional usize "chains" fs = some p.chains :=
    optional_nullAt_closed encUsize hd (by simp) (by simp) (by decide) (fun n hn => ⟨nofun, usize_num (h.chains n hn)⟩)
  have h5 : optional usize "rules" fs = some p.rules :=
    optional_nullAt_closed encUsize hd (by simp) (by simp) (by decide) (fun n hn => ⟨nofun, usize_num (h.rules n hn)⟩)
  have h6 : optional ApplyOutcome.fromJson "last_apply" fs = some p.lastApply :=
    optional_nullAt_closed ApplyOutcome.toJson hd (by simp) (by simp) (by decide)
      (fun o ho => ⟨nofun, ApplyOutcome.fromJson_toJson (h.lastApply o ho)⟩)
  simp only [StatusPayload.fromJson, structFields, h1, h2, h3, h4, h5, h6, Option.bind_eq_bind, Option.bind_some]

theorem reads_option_statusPayload {p : StatusPayload} (h : p.Fits) :
    p.toJson ≠ .null ∧ Reads (NullAt responseNulls) (option StatusPayload.fromJson) ["status"] p.toJson (some p) := by
  refine ⟨nofun, fun j hj => ?_⟩
  have hread := reads_statusPayload h j hj
  obtain ⟨fs, rfl, -⟩ := hj.obj_inv
  rw [option_of_ne_null (j := .obj fs) nofun, hread, Option.map_some]

theorem reads_response {r : Response} (h : r.Fits) :
    Reads (NullAt responseNulls) Response.fromJson [] r.document r := by
  intro j hj
  obtain ⟨fs, rfl, hd⟩ := hj.obj_inv
  have hok : boolean (.bool r.ok) = some r.ok := rfl
  have h1 : required boolean "ok" fs = some r.ok := required_nullAt hd (by simp) (by simp) (by decide) hok
  have h2 : optional string "error" fs = some r.error :=
    optional_nullAt_closed Json.str hd (by simp) (by simp) (by decide) (fun _ _ => ⟨nofun, rfl⟩)
  have h3 : optional ApplyOutcome.fromJson "applied" fs = some r.applied :=
    optional_nullAt_closed ApplyOutcome.toJson hd (by simp) (by simp) (by decide)
      (fun o ho => ⟨nofun, ApplyOutcome.fromJson_toJson (h.applied o ho)⟩)
  have h4 : optional StatusPayload.fromJson "status" fs = some r.status :=
    optional_nullAt StatusPayload.toJson hd (by simp) (by simp) (fun p hp => reads_option_statusPayload (h.status p hp))
  have h5 : optional string "message" fs = some r.message :=
    optional_nullAt_closed Json.str hd (by simp) (by simp) (by decide) (fun _ _ => ⟨nofun, rfl⟩)
  simp only [Response.fromJson, structFields, h1, h2, h3, h4, h5, Option.bind_eq_bind, Option.bind_some]

/-- **A response round-trips**, as the daemon writes it and with any of its null fields written out. -/
theorem response_roundtrip {r : Response} (h : r.Fits) : Response.fromJson r.toJson = some r ∧
    ∀ j, Trimmed (NullAt responseNulls) [] r.document j → Response.fromJson j = some r :=
  ⟨reads_response h _ (dropped_response r), reads_response h⟩

def sampleResponse : Response :=
  { Response.okEmpty with status := some ⟨"fw.toml", true, some 1, some 1, some 2, some ⟨1, 1, 2, 2⟩⟩ }

theorem response_roundtrip_sample : Response.fromJson sampleResponse.toJson = some sampleResponse := by
  have hfits : sampleResponse.Fits := by
    refine ⟨nofun, fun p hp => ?_⟩
    obtain rfl := Option.some.inj hp
    refine ⟨fun n hn => ?_, fun n hn => ?_, fun o ho => ?_⟩
    · obtain rfl := Option.some.inj hn
      decide
    · obtain rfl := Option.some.inj hn
      decide
    · obtain rfl := Option.some.inj ho
      exact ⟨by decide, by decide, by decide⟩
  exact (response_roundtrip hfits).1

end Portcullis
