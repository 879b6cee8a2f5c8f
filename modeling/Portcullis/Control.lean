import Portcullis.Wire
import Portcullis.Session
import Portcullis.Lib.Lines
import Mathlib.Data.List.Pairwise
/-!
# Control — one line each way (`control.rs`)

A client writes its request as one line of JSON and reads one line back; the daemon reads one line, answers it with one
line, or with none where the line is blank or cannot be read (`connection_cases`).  Over a connection that loses nothing
an exchange is a `dispatch` (`exchange_eq_dispatch`); over one that may break at any byte, either way, the client gets
the response of the `dispatch`, a refusal or an error, and never one thing for another (`exchange_cut`).  The text format
is a parameter, `serde_json`'s, and so is the connection.
-/
namespace Portcullis

open Serde
open List
open Lines (Incoming readLine encode)

structure JsonText where
  render : Json → List Char
  parse : List Char → Except String Json
  /-- What is said of a line whose document has another type. -/
  mismatch : List Char → String

/-! ## Lines -/

/-- `char::is_whitespace`. -/
def isWhitespace (c : Char) : Bool :=
  let n := c.toNat
  (9 ≤ n && n ≤ 13) || n == 32 || n == 0x85 || n == 0xA0 || n == 0x1680 || (0x2000 ≤ n && n ≤ 0x200A) || n == 0x2028 ||
    n == 0x2029 || n == 0x202F || n == 0x205F || n == 0x3000

/-- `str::trim`. -/
def trim (line : List Char) : List Char :=
  ((line.dropWhile isWhitespace).reverse.dropWhile isWhitespace).reverse

/-- `serde_json::from_str`. -/
def JsonText.decode {α : Type} (text : JsonText) (dec : Json → Option α) (line : List Char) : Except String α :=
  match text.parse line with
  | .error e => .error e
  | .ok j =>
    match dec j with
    | some x => .ok x
    | none => .error (text.mismatch line)

/-- A document as it is sent: its text and a newline, as bytes. -/
def JsonText.line (text : JsonText) (j : Json) : List UInt8 := encode (text.render j ++ ['\n'])

/-! ## The daemon and its client -/

variable (text : JsonText) (fromStr : String → Except String FileConfig)

/-- A connection at the daemon's end: how `try_clone` goes, what there is to read, and how writing a reply goes. -/
structure Conn where
  clone : Except String Unit
  incoming : Incoming
  written : Except String Unit

/-- What `handle_client` returns and the reply it writes, and what became of the daemon. -/
structure Served where
  result : Except String Unit
  reply : Option (List UInt8)
  state : DaemonState
  records : List ApplyRecord

/-- `handle_client`. -/
def handleClientStream (env : Env) (state : DaemonState) (conn : Conn) : Served :=
  match conn.clone with
  | .error e => ⟨.error e, none, state, []⟩
  | .ok () =>
    match readLine conn.incoming with
    | .error e => ⟨.error e, none, state, []⟩
    | .ok line =>
      if (trim line).isEmpty then ⟨.ok (), none, state, []⟩
      else
        let (response, state', records) := handleClient fromStr env state (text.decode Request.fromJson line)
        ⟨conn.written, some (text.line response.toJson), state', records⟩

/-- The end of `send_request`: one line back, as a response. -/
def readResponse (reply : Incoming) : Except String Response :=
  match readLine reply with
  | .error e => .error e
  | .ok line => (text.decode Response.fromJson (trim line)).mapError (fun e => s!"bad response: {e}")

/-- `send_request`; `connect` is the connection, as a function from what is written to what can be read back. -/
def sendRequest (addr : String) (connect : Except String (List UInt8 → Except String Incoming)) (req : Request) :
    Except String Response :=
  match connect with
  | .error e => .error s!"connect {addr}: {e}"
  | .ok peer =>
    match peer (text.line req.toJson) with
    | .error e => .error e
    | .ok reply => readResponse text reply

/-- What the network makes of one connection: whether it comes about, how the writes at either end go, and what either
end can read of what the other wrote, the daemon's end having written nothing where it sends no reply. -/
structure Link where
  connect : Except String Unit
  sent : List UInt8 → Except String Unit
  request : List UInt8 → Incoming
  clone : Except String Unit
  written : Except String Unit
  reply : Option (List UInt8) → Incoming

def Link.conn (link : Link) (sent : List UInt8) : Conn := ⟨link.clone, link.request sent, link.written⟩

/-- A request sent to a running daemon over the connection to a control address: what the client gets, and what became
of the daemon. -/
def exchange (links : String → Link) (env : Env) (state : DaemonState) (addr : String) (req : Request) :
    Except String Response × DaemonState × List ApplyRecord :=
  let link := links addr
  let serve (sent : List UInt8) := handleClientStream text fromStr env state (link.conn sent)
  match link.connect with
  | .error e => (sendRequest text addr (.error e) req, state, [])
  | .ok () =>
    let served := serve (text.line req.toJson)
    (sendRequest text addr (.ok (fun sent => (link.sent sent).map (fun _ => link.reply (serve sent).reply))) req,
      served.state, served.records)

/-- Nothing that is written is lost, and no call fails. -/
structure Link.Reliable (link : Link) : Prop where
  connect : link.connect = .ok ()
  sent : ∀ bytes, link.sent bytes = .ok ()
  request : ∀ bytes, (link.request bytes).bytes = bytes
  clone : link.clone = .ok ()
  reply : ∀ bytes, (link.reply (some bytes)).bytes = bytes

/-- Bytes arrive in order, up to where the connection breaks. -/
structure Link.InOrder (link : Link) : Prop where
  request : ∀ bytes, (link.request bytes).bytes <+: bytes
  reply : ∀ bytes, (link.reply (some bytes)).bytes <+: bytes
  noReply : (link.reply none).bytes = []

/-- The text of a document is one line of JSON, which reads back, also with the newline after it. -/
structure JsonText.Carries (j : Json) : Prop where
  parse : text.parse (text.render j) = .ok j
  parseLine : text.parse (text.render j ++ ['\n']) = .ok j
  oneLine : '\n' ∉ text.render j
  first : ∃ c l, text.render j = c :: l ∧ isWhitespace c = false
  last : ∃ l c, text.render j = l ++ [c] ∧ isWhitespace c = false

/-- No beginning of the text of a document is a document. -/
def JsonText.ReadWhole (j : Json) : Prop :=
  ∀ part, part <+: text.render j → part ≠ text.render j → ∃ e, text.parse part = .error e

variable {text fromStr}

theorem trim_append_newline {l : List Char} (hfirst : ∃ c l', l = c :: l' ∧ isWhitespace c = false)
    (hlast : ∃ l' c, l = l' ++ [c] ∧ isWhitespace c = false) : trim (l ++ ['\n']) = l := by
  have hdrop : (l ++ ['\n']).dropWhile isWhitespace = l ++ ['\n'] := by
    obtain ⟨c, l', rfl, hc⟩ := hfirst
    simp [hc]
  obtain ⟨l', c, rfl, hc⟩ := hlast
  have hnewline : isWhitespace '\n' = true := by decide
  rw [trim, hdrop]
  simp [hnewline, hc]

/-- A part of a text that starts with no blank is trimmed at its end only. -/
theorem trim_part {l part : List Char} (hfirst : ∃ c l', l = c :: l' ∧ isWhitespace c = false) (h : part <+: l) :
    trim part <+: l := by
  have hdrop : part.dropWhile isWhitespace = part := by
    obtain ⟨c, l', rfl, hc⟩ := hfirst
    rcases List.prefix_cons_iff.1 h with rfl | ⟨part', rfl, -⟩
    · rfl
    · simp [hc]
  have hend : (part.reverse.dropWhile isWhitespace).reverse <+: part := by
    rw [← List.reverse_suffix, List.reverse_reverse]
    exact List.dropWhile_suffix isWhitespace
  rw [trim, hdrop]
  exact hend.trans h

theorem JsonText.Carries.trim_line {j : Json} (h : text.Carries j) : (trim (text.render j ++ ['\n'])).isEmpty = false := by
  obtain ⟨c, l, hrender, -⟩ := h.first
  rw [trim_append_newline h.first h.last, hrender]
  rfl

theorem JsonText.Carries.decode_line {req : Request} (h : text.Carries req.toJson) :
    text.decode Request.fromJson (text.render req.toJson ++ ['\n']) = .ok req := by
  simp only [JsonText.decode, h.parseLine, request_fromJson_toJson]

theorem JsonText.Carries.decode {resp : Response} (h : text.Carries resp.toJson) (hfits : resp.Fits) :
    text.decode Response.fromJson (text.render resp.toJson) = .ok resp := by
  simp only [JsonText.decode, h.parse, reads_response hfits _ (dropped_response resp)]

/-! ## What a connection does -/

section Exchange

variable {links : String → Link} {env : Env} {state : DaemonState} {addr : String} {req : Request}

/-- **The daemon serves the request it reads.** -/
theorem handleClientStream_line {conn : Conn} (hclone : conn.clone = .ok ()) (hreq : text.Carries req.toJson)
    (hread : readLine conn.incoming = .ok (text.render req.toJson ++ ['\n'])) :
    handleClientStream text fromStr env state conn =
      ⟨conn.written, some (text.line (dispatch fromStr env state req).1.toJson), (dispatch fromStr env state req).2.1,
        (dispatch fromStr env state req).2.2⟩ := by
  simp only [handleClientStream, hclone, hread, hreq.trim_line, hreq.decode_line, handleClient, Bool.false_eq_true, if_false]

theorem exchange_of_connect {served : Served} (hconnect : (links addr).connect = .ok ())
    (hserved : handleClientStream text fromStr env state ((links addr).conn (text.line req.toJson)) = served) :
    exchange text fromStr links env state addr req =
      (((links addr).sent (text.line req.toJson)).bind (fun _ => readResponse text ((links addr).reply served.reply)),
        served.state, served.records) := by
  subst hserved
  simp only [exchange, hconnect, sendRequest]
  cases (links addr).sent (text.line req.toJson) <;> rfl

/-! ### Nothing is lost -/

theorem readLine_of_bytes {s : Incoming} {j : Json} (hj : text.Carries j) (hs : s.bytes = text.line j) :
    readLine s = .ok (text.render j ++ ['\n']) := by
  obtain ⟨bytes, ending⟩ := s
  obtain rfl : bytes = text.line j := hs
  have hread := Lines.readLine_line hj.oneLine [] ending
  rwa [List.append_nil] at hread

/-- **The client reads the response it is sent.** -/
theorem readResponse_line {reply : Incoming} {resp : Response} (hres : text.Carries resp.toJson) (hfits : resp.Fits)
    (hreply : reply.bytes = text.line resp.toJson) : readResponse text reply = .ok resp := by
  simp only [readResponse, readLine_of_bytes hres hreply, trim_append_newline hres.first hres.last, hres.decode hfits,
    Except.mapError]

theorem exchange_reliable (hlink : (links addr).Reliable) (hreq : text.Carries req.toJson) :
    ∃ reply : Incoming, reply.bytes = text.line (dispatch fromStr env state req).1.toJson ∧
      exchange text fromStr links env state addr req = (readResponse text reply, (dispatch fromStr env state req).2) := by
  have hread := readLine_of_bytes hreq (hlink.request (text.line req.toJson))
  have hserved := @handleClientStream_line text fromStr env state req ((links addr).conn (text.line req.toJson)) hlink.clone
    hreq hread
  have heq := exchange_of_connect hlink.connect hserved
  rw [hlink.sent] at heq
  exact ⟨_, hlink.reply _, heq⟩

/-- What becomes of the daemon is what the request does. -/
theorem exchange_snd (hlink : (links addr).Reliable) (hreq : text.Carries req.toJson) :
    (exchange text fromStr links env state addr req).2 = (dispatch fromStr env state req).2 := by
  obtain ⟨reply, -, heq⟩ := @exchange_reliable text fromStr links env state addr req hlink hreq
  rw [heq]

theorem exchange_fst (hlink : (links addr).Reliable) (hreq : text.Carries req.toJson)
    (hres : text.Carries (dispatch fromStr env state req).1.toJson) (hfits : (dispatch fromStr env state req).1.Fits) :
    (exchange text fromStr links env state addr req).1 = .ok (dispatch fromStr env state req).1 := by
  obtain ⟨reply, hreply, heq⟩ := @exchange_reliable text fromStr links env state addr req hlink hreq
  rw [heq]
  exact readResponse_line hres hfits hreply

/-! ### A connection that may break -/

variable (text fromStr env state req) in
/-- The JSON text of a request, of its response and of a refusal, cut short or whole. -/
structure CarriedCut : Prop where
  request : text.Carries req.toJson
  response : text.Carries (dispatch fromStr env state req).1.toJson
  fits : (dispatch fromStr env state req).1.Fits
  requestWhole : text.ReadWhole req.toJson
  responseWhole : text.ReadWhole (dispatch fromStr env state req).1.toJson
  refusal : ∀ part e, part <+: text.render req.toJson → text.parse part = .error e →
    text.Carries (Response.err s!"bad request: {e}").toJson ∧ text.ReadWhole (Response.err s!"bad request: {e}").toJson

/-- What the daemon makes of a request that may be cut short: nothing, a refusal, or what the request asks for. -/
theorem handleClientStream_cut {conn : Conn} (hc : CarriedCut text fromStr env state req)
    (hconn : conn.incoming.bytes <+: text.line req.toJson) :
    (∃ result reply, handleClientStream text fromStr env state conn = ⟨result, reply, state, []⟩ ∧
      (reply = none ∨ ∃ part e, part <+: text.render req.toJson ∧ text.parse part = .error e ∧
        reply = some (text.line (Response.err s!"bad request: {e}").toJson))) ∨
    ∃ result, handleClientStream text fromStr env state conn =
      ⟨result, some (text.line (dispatch fromStr env state req).1.toJson), (dispatch fromStr env state req).2.1,
        (dispatch fromStr env state req).2.2⟩ := by
  cases hclone : conn.clone with
  | error e => exact Or.inl ⟨.error e, none, by simp [handleClientStream, hclone], Or.inl rfl⟩
  | ok _ =>
    rcases Lines.readLine_cut hc.request.oneLine hconn with hread | ⟨e, hread⟩ | ⟨part, hread, hpart⟩
    · exact Or.inr ⟨_, handleClientStream_line hclone hc.request hread⟩
    · exact Or.inl ⟨.error e, none, by simp [handleClientStream, hclone, hread], Or.inl rfl⟩
    · by_cases hblank : trim part = []
      · exact Or.inl ⟨.ok (), none, by simp [handleClientStream, hclone, hread, hblank], Or.inl rfl⟩
      · by_cases hwhole : part = text.render req.toJson
        · refine Or.inr ⟨conn.written, ?_⟩
          have hdec : text.decode Request.fromJson part = .ok req := by
            simp only [JsonText.decode, hwhole, hc.request.parse, request_fromJson_toJson]
          simp [handleClientStream, hclone, hread, hblank, hdec, handleClient]
        · obtain ⟨e, he⟩ := hc.requestWhole part hpart hwhole
          refine Or.inl ⟨conn.written, _, ?_, Or.inr ⟨part, e, hpart, he, rfl⟩⟩
          simp [handleClientStream, hclone, hread, hblank, JsonText.decode, he, handleClient]

/-- A reply that may be cut short is read as the response it is, or not at all. -/
theorem readResponse_cut {reply : Incoming} {resp : Response} (hres : text.Carries resp.toJson) (hfits : resp.Fits)
    (hwhole : text.ReadWhole resp.toJson) (hreply : reply.bytes <+: text.line resp.toJson) :
    readResponse text reply = .ok resp ∨ ∃ e, readResponse text reply = .error e := by
  unfold readResponse
  rcases Lines.readLine_cut hres.oneLine hreply with hread | ⟨e, hread⟩ | ⟨part, hread, hpart⟩
  · left
    simp only [hread, trim_append_newline hres.first hres.last, hres.decode hfits, Except.mapError]
  · exact Or.inr ⟨e, by simp only [hread]⟩
  · simp only [hread]
    by_cases heq : trim part = text.render resp.toJson
    · exact Or.inl (by simp only [heq, hres.decode hfits, Except.mapError])
    · obtain ⟨e, he⟩ := hwhole (trim part) (trim_part hres.first hpart) heq
      exact Or.inr ⟨_, by simp only [JsonText.decode, he, Except.mapError]; rfl⟩

/-- No reply is read as a response. -/
theorem readResponse_nothing {reply : Incoming} (hc : CarriedCut text fromStr env state req) (hreply : reply.bytes = []) :
    ∃ e, readResponse text reply = .error e := by
  obtain ⟨bytes, ending⟩ := reply
  obtain rfl : bytes = [] := hreply
  cases ending with
  | error e => exact ⟨e, rfl⟩
  | ok _ =>
    have hline : readLine ⟨[], .ok ()⟩ = .ok [] := by
      have hdec := Lines.decode_encode []
      simp only [Lines.encode, List.flatMap_nil] at hdec
      simp [readLine, Lines.decodeLine, hdec]
    have hempty : ∃ e, text.parse [] = .error e := by
      refine hc.responseWhole [] List.nil_prefix ?_
      obtain ⟨c, l, hrender, -⟩ := hc.response.first
      rw [hrender]
      exact (List.cons_ne_nil c l).symm
    obtain ⟨e, he⟩ := hempty
    refine ⟨s!"bad response: {e}", ?_⟩
    simp only [readResponse, hline, trim, List.dropWhile_nil, List.reverse_nil, JsonText.decode, he, Except.mapError]

variable (fromStr env state req) in
/-- How an exchange over a connection that may break can end: with an error, the daemon having done nothing or what was
asked of it; with a refusal, the daemon having done nothing; or with the response to what was asked and done. -/
inductive Exchanged : Except String Response × DaemonState × List ApplyRecord → Prop where
  | lost (e : String) : Exchanged (.error e, state, [])
  | unanswered (e : String) : Exchanged (.error e, (dispatch fromStr env state req).2)
  | refused (e : String) : Exchanged (.ok (Response.err e), state, [])
  | answered : Exchanged (.ok (dispatch fromStr env state req).1, (dispatch fromStr env state req).2)

/-- **Over a connection that may break** the client never gets one thing for another. -/
theorem exchange_cut (hlink : (links addr).InOrder) (hc : CarriedCut text fromStr env state req) :
    Exchanged fromStr env state req (exchange text fromStr links env state addr req) := by
  cases hconnect : (links addr).connect with
  | error e =>
    have heq : exchange text fromStr links env state addr req = (.error s!"connect {addr}: {e}", state, []) := by
      simp only [exchange, hconnect, sendRequest]
    exact heq ▸ .lost _
  | ok _ =>
    have hcut := @handleClientStream_cut text fromStr env state req ((links addr).conn (text.line req.toJson)) hc
      (hlink.request _)
    rcases hcut with ⟨result, reply, hserved, hreply⟩ | ⟨result, hserved⟩
    · rw [exchange_of_connect hconnect hserved]
      -- the client's write may fail whatever arrived
      cases (links addr).sent (text.line req.toJson) with
      | error e => exact .lost e
      | ok _ =>
        show Exchanged fromStr env state req (readResponse text ((links addr).reply reply), state, [])
        rcases hreply with rfl | ⟨part, e, hpart, he, rfl⟩
        · obtain ⟨e, he⟩ := readResponse_nothing hc hlink.noReply
          exact he ▸ .lost e
        · obtain ⟨hcar, hwhole⟩ := hc.refusal part e hpart he
          rcases readResponse_cut hcar ⟨nofun, nofun⟩ hwhole (hlink.reply _) with hok | ⟨e', he'⟩
          · exact hok ▸ .refused _
          · exact he' ▸ .lost e'
    · rw [exchange_of_connect hconnect hserved]
      cases (links addr).sent (text.line req.toJson) with
      | error e => exact .unanswered e
      | ok _ =>
        show Exchanged fromStr env state req (readResponse text ((links addr).reply (some (text.line
          (dispatch fromStr env state req).1.toJson))), (dispatch fromStr env state req).2)
        rcases readResponse_cut hc.response hc.fits hc.responseWhole (hlink.reply _) with hok | ⟨e, he⟩
        · exact hok ▸ .answered
        · exact he ▸ .unanswered e

end Exchange

/-- **What is sent is what is dispatched**, and its response what comes back, where nothing is lost. -/
theorem exchange_eq_dispatch {links : String → Link} {env : Env} {state : DaemonState} {addr : String} {req : Request}
    (hlink : (links addr).Reliable) (hreq : text.Carries req.toJson)
    (hres : text.Carries (dispatch fromStr env state req).1.toJson) (hfits : (dispatch fromStr env state req).1.Fits) :
    exchange text fromStr links env state addr req =
      (.ok (dispatch fromStr env state req).1, (dispatch fromStr env state req).2) :=
  Prod.ext (exchange_fst hlink hreq hres hfits) (exchange_snd hlink hreq)

/-! ## A small text and a small network -/

mutual

/-- What `serde_json` writes of a document whose strings need no escapes. -/
def writeJson : Json → List Char
  | .null => "null".toList
  | .bool b => (toString b).toList
  | .num n => (toString n).toList
  | .float text => text.toList
  | .str s => '"' :: s.toList ++ ['"']
  | .arr items => '[' :: writeItems items ++ [']']
  | .obj fields => '{' :: writeFields fields ++ ['}']

def writeItems : List Json → List Char
  | [] => []
  | [j] => writeJson j
  | j :: rest => writeJson j ++ ',' :: writeItems rest

def writeFields : List (String × Json) → List Char
  | [] => []
  | [(name, j)] => '"' :: name.toList ++ '"' :: ':' :: writeJson j
  | (name, j) :: rest => '"' :: name.toList ++ '"' :: ':' :: writeJson j ++ ',' :: writeFields rest

end

/-- The text of some documents: others are not read. -/
def textOf (docs : List Json) : JsonText where
  render := writeJson
  parse line :=
    match docs.find? (fun j => decide (writeJson j = line ∨ writeJson j ++ ['\n'] = line)) with
    | some j => .ok j
    | none => .error "expected value"
  mismatch _ := "unknown variant"

/-- No two texts of which one begins the other. -/
def Apart (a b : Json) : Prop := ¬ writeJson a <+: writeJson b ∧ ¬ writeJson b <+: writeJson a

instance decidableApart : DecidableRel Apart := fun a b =>
  inferInstanceAs (Decidable (¬ writeJson a <+: writeJson b ∧ ¬ writeJson b <+: writeJson a))

section TextOf

variable {docs : List Json}

theorem eq_of_prefix (hapart : docs.Pairwise Apart) {a b : Json} (ha : a ∈ docs) (hb : b ∈ docs)
    (h : writeJson a <+: writeJson b) : a = b := by
  have hsymm : Std.Symm Apart := ⟨fun _ _ h => ⟨h.2, h.1⟩⟩
  by_contra hne
  exact (hapart.forall ha hb hne).1 h

theorem parse_textOf (hline : ∀ d ∈ docs, '\n' ∉ writeJson d) (hapart : docs.Pairwise Apart) {d : Json} (hd : d ∈ docs)
    {line : List Char} (hl : line = writeJson d ∨ line = writeJson d ++ ['\n']) : (textOf docs).parse line = .ok d := by
  have hsome : (docs.find? (fun j => decide (writeJson j = line ∨ writeJson j ++ ['\n'] = line))).isSome = true := by
    refine List.find?_isSome.2 ⟨d, hd, ?_⟩
    rcases hl with rfl | rfl <;> simp
  obtain ⟨j, hj⟩ := Option.isSome_iff_exists.1 hsome
  have hjm := List.mem_of_find?_eq_some hj
  have htext : writeJson j = line ∨ writeJson j ++ ['\n'] = line := by simpa using List.find?_some hj
  have hjd : writeJson j = writeJson d := by
    rcases hl with rfl | rfl <;> rcases htext with h | h
    · exact h
    · exact absurd (h ▸ List.mem_append_right _ List.mem_cons_self) (hline d hd)
    · exact absurd (h ▸ List.mem_append_right _ List.mem_cons_self) (hline j hjm)
    · exact List.append_cancel_right h
  obtain rfl := eq_of_prefix hapart hjm hd (hjd ▸ List.prefix_rfl)
  simp only [textOf, hj]

/-- Objects of one line, no text of which begins another's, are carried. -/
theorem carries_textOf (hline : ∀ d ∈ docs, '\n' ∉ writeJson d) (hapart : docs.Pairwise Apart)
    {fields : List (String × Json)} (hd : .obj fields ∈ docs) : (textOf docs).Carries (.obj fields) := by
  have hwrite : writeJson (.obj fields) = '{' :: (writeFields fields ++ ['}']) := by simp [writeJson]
  exact ⟨parse_textOf hline hapart hd (Or.inl rfl), parse_textOf hline hapart hd (Or.inr rfl), hline _ hd,
    ⟨'{', _, hwrite, by decide⟩, ⟨'{' :: writeFields fields, '}', hwrite, by decide⟩⟩

theorem readWhole_textOf (hline : ∀ d ∈ docs, '\n' ∉ writeJson d) (hapart : docs.Pairwise Apart) {d : Json} (hd : d ∈ docs) :
    (textOf docs).ReadWhole d := by
  intro part hpart hne
  have hnone : docs.find? (fun j => decide (writeJson j = part ∨ writeJson j ++ ['\n'] = part)) = none := by
    refine List.find?_eq_none.2 (fun j hj htext => ?_)
    rcases of_decide_eq_true htext with h | h
    · obtain rfl := eq_of_prefix hapart hj hd (h ▸ hpart)
      exact hne h.symm
    · have hmem : '\n' ∈ part := h ▸ List.mem_append_right _ List.mem_cons_self
      exact hline d hd (hpart.subset hmem)
  exact ⟨"expected value", by simp only [textOf, hnone]⟩

end TextOf

/-- The documents of a request to a daemon: its own, its response's and a refusal's. -/
def exchangeDocs (fromStr : String → Except String FileConfig) (env : Env) (state : DaemonState) (req : Request) :
    List Json :=
  [req.toJson, (dispatch fromStr env state req).1.toJson, (Response.err "bad request: expected value").toJson]

/-- Their text carries them, cut short or whole. -/
theorem carriedCut_textOf {env : Env} {state : DaemonState} {req : Request}
    (hline : ∀ d ∈ exchangeDocs fromStr env state req, '\n' ∉ writeJson d)
    (hapart : (exchangeDocs fromStr env state req).Pairwise Apart) (hfits : (dispatch fromStr env state req).1.Fits) :
    CarriedCut (textOf (exchangeDocs fromStr env state req)) fromStr env state req := by
  have hreq : req.toJson ∈ exchangeDocs fromStr env state req := List.mem_cons_self
  have hres : (dispatch fromStr env state req).1.toJson ∈ exchangeDocs fromStr env state req :=
    List.mem_cons_of_mem _ List.mem_cons_self
  have hrefusal : (Response.err "bad request: expected value").toJson ∈ exchangeDocs fromStr env state req :=
    List.mem_cons_of_mem _ (List.mem_cons_of_mem _ List.mem_cons_self)
  have hobj : ∃ fields, req.toJson = .obj fields := by cases req <;> exact ⟨_, rfl⟩
  obtain ⟨fields, hfields⟩ := hobj
  refine ⟨?_, carries_textOf hline hapart hres, hfits, readWhole_textOf hline hapart hreq,
    readWhole_textOf hline hapart hres, fun part e _ he => ?_⟩
  · rw [hfields] at hreq ⊢
    exact carries_textOf hline hapart hreq
  · have hmsg : e = "expected value" := by
      simp only [textOf] at he
      split at he
      · cases he
      · exact (Except.error.inj he).symm
    subst hmsg
    exact ⟨carries_textOf hline hapart hrefusal, readWhole_textOf hline hapart hrefusal⟩

/-- A connection that delivers everything. -/
def directLink : Link where
  connect := .ok ()
  sent _ := .ok ()
  request bytes := ⟨bytes, .ok ()⟩
  clone := .ok ()
  written := .ok ()
  reply bytes := ⟨bytes.getD [], .ok ()⟩

/-- The daemon listens at one address. -/
def sampleLinks (addr : String) : Link :=
  if addr = "127.0.0.1:9753" then directLink else { directLink with connect := .error "connection refused" }

theorem reliable_sampleLinks : (sampleLinks "127.0.0.1:9753").Reliable :=
  ⟨rfl, fun _ => rfl, fun _ => rfl, rfl, fun _ => rfl⟩

theorem inOrder_sampleLinks : (sampleLinks "127.0.0.1:9753").InOrder :=
  ⟨fun _ => List.prefix_rfl, fun _ => List.prefix_rfl, rfl⟩

/-- The response to `Status` fits where the outcome stored does, and is that of the ruleset stored. -/
theorem fits_statusPayload {configPath : String} {rs : Ruleset} {o : ApplyOutcome} (ho : o.Fits)
    (hchains : o.chains = rs.chains.length) (hrules : o.rules = rs.iterRules.length) :
    (statusPayload configPath (some rs) (some o)).Fits := by
  refine ⟨fun n hn => ?_, fun n hn => ?_, fun o' ho' => ?_⟩
  · obtain rfl := Option.some.inj hn
    exact hchains.symm.trans_lt ho.chains
  · obtain rfl := Option.some.inj hn
    exact hrules.symm.trans_lt ho.rules
  · exact Option.some.inj ho' ▸ ho

def decodeNothing (_ : String) : Except String FileConfig := .error "expected a table"

def sampleState : DaemonState := ⟨"fw.toml", some sshOnly, some ⟨1, 1, 1, 1⟩⟩

/-- A status request to a daemon with one rule loaded. -/
theorem exchange_eq_dispatch_status :
    exchange (textOf (exchangeDocs decodeNothing (sampleEnv 1 (.ok ())) sampleState .status)) decodeNothing sampleLinks
      (sampleEnv 1 (.ok ())) sampleState "127.0.0.1:9753" .status =
        (.ok { Response.okEmpty with status := some ⟨"fw.toml", true, some 1, some 1, some 1, some ⟨1, 1, 1, 1⟩⟩ },
          sampleState, []) := by
  have hfits : (dispatch decodeNothing (sampleEnv 1 (.ok ())) sampleState .status).1.Fits := by
    refine ⟨nofun, fun p hp => ?_⟩
    obtain rfl := Option.some.inj hp
    exact fits_statusPayload ⟨by decide, by decide, by decide⟩ rfl rfl
  have hcut := @carriedCut_textOf decodeNothing (sampleEnv 1 (.ok ())) sampleState .status (by decide +kernel)
    (by decide +kernel) hfits
  exact exchange_eq_dispatch reliable_sampleLinks hcut.request hcut.response hfits

end Portcullis
