import CoWq.Net.WebSocket.Accept

/-!
# The list headers of the handshake

The `Connection` and `Sec-WebSocket-Protocol` headers of an upgrade request are comma-separated
lists.  The callbacks keep one value for a name, so of several lines with one name `accept` reads
the last.

* `headerLines`: the header lines that a parser has reported.
* `elements`: the list that a value stands for; `combined`: the list of all lines of a name;
  `lastList`: that of the last line.
* `AsLists`: the handshake reads its list headers by way of such a list.
* `onlyLastLine`: it does so with `lastList`, and with `combined` where a name has one line;
  `splitLines_differ` shows where it does not.
-/

namespace CoWq.WebSocket.Accept

/-! ## Reported lines -/

/-- The line that is being reported, and the name and value of every line before. -/
structure Report where
  field : Bytes := []
  value : Bytes := []
  lines : List (Bytes × Bytes) := []

namespace Report

/-- The line has ended. -/
def finish (r : Report) : Report :=
  if r.field ≠ [] then { lines := r.lines ++ [(r.field, r.value)] } else r

/-- What the parser calls for a line: its name and its value in pieces, and then its end; the end
of the headers ends a line too. -/
def on (r : Report) : Callback → Report
  | .messageBegin => {}
  | .headerField data => { r with field := r.field ++ data }
  | .headerValue data => { r with value := r.value ++ data }
  | .headerValueComplete => { r.finish with field := [], value := [] }
  | .headersComplete => r.finish
  | .method _ | .url _ | .body _ | .messageComplete => r

end Report

/-- The header lines of these calls. -/
def headerLines (calls : List Callback) : List (Bytes × Bytes) :=
  (calls.foldl Report.on {}).lines

/-- The values of the lines with this name, in any letter case. -/
def values (lines : List (Bytes × Bytes)) (name : Bytes) : List Bytes :=
  (lines.filter fun line => toLower line.1 = name).map Prod.snd

theorem values_append (lines : List (Bytes × Bytes)) (field value name : Bytes) :
    values (lines ++ [(field, value)]) name =
      values lines name ++ if toLower field = name then [value] else [] := by
  by_cases same : toLower field = name
  · simp [values, same]
  · simp [values, same]

/-- The map holds the last value of a name. -/
structure Keeps (ctx : HttpRequestContext) (r : Report) : Prop where
  field : ctx.currentField = r.field
  value : ctx.currentValue = r.value
  headers : ∀ name, ctx.headers name = (values r.lines name).getLast?

namespace Keeps

variable {ctx : HttpRequestContext} {r : Report}

theorem fresh : Keeps {} {} := ⟨rfl, rfl, fun _ => rfl⟩

/-- A line that ends takes the place of an earlier one. -/
theorem storeHeader (keeps : Keeps ctx r) (name : Bytes) :
    ctx.storeHeader.headers name =
      (values (r.lines ++ [(r.field, r.value)]) name).getLast? := by
  rw [values_append]
  simp only [HttpRequestContext.storeHeader, keeps.field, keeps.value]
  by_cases same : name = toLower r.field
  · rw [if_pos same, if_pos same.symm, List.getLast?_concat]
  · rw [if_neg same, if_neg (Ne.symm same), List.append_nil, keeps.headers]

theorem on (keeps : Keeps ctx r) (call : Callback) : Keeps (ctx.on call) (r.on call) := by
  have field := keeps.field
  have value := keeps.value
  cases call with
  | messageBegin => exact fresh
  | headerField data => exact ⟨congrArg (· ++ data) field, value, keeps.headers⟩
  | headerValue data => exact ⟨field, congrArg (· ++ data) value, keeps.headers⟩
  | headerValueComplete =>
      by_cases named : r.field ≠ []
      · refine ⟨rfl, rfl, fun name => ?_⟩
        simp only [HttpRequestContext.on, Report.on, Report.finish, field, if_pos named]
        exact keeps.storeHeader name
      · refine ⟨rfl, rfl, fun name => ?_⟩
        simp only [HttpRequestContext.on, Report.on, Report.finish, field, if_neg named]
        exact keeps.headers name
  | headersComplete =>
      by_cases named : r.field ≠ []
      · refine ⟨?_, ?_, fun name => ?_⟩ <;>
          simp only [HttpRequestContext.on, Report.on, Report.finish, field, if_pos named]
        exact keeps.storeHeader name
      · refine ⟨?_, ?_, fun name => ?_⟩ <;>
          simp only [HttpRequestContext.on, Report.on, Report.finish, field, if_neg named]
        · exact value
        · exact keeps.headers name
  | method | url | body | messageComplete => exact ⟨field, value, keeps.headers⟩

theorem foldl (keeps : Keeps ctx r) (calls : List Callback) :
    Keeps (calls.foldl HttpRequestContext.on ctx) (calls.foldl Report.on r) := by
  induction calls generalizing ctx r with
  | nil => exact keeps
  | cons call calls ih => exact ih (keeps.on call)

end Keeps

/-! ## Lists -/

/-- The elements of a list: what stands between commas, without the whitespace around it, where
something is left. -/
def elements (value : Bytes) : List Bytes :=
  ((value.splitOn 0x2C).map trim).filter (· ≠ [])

/-- The list of all lines with this name. -/
def combined (lines : List (Bytes × Bytes)) (name : Bytes) : List Bytes :=
  (values lines name).flatMap elements

/-- The list of the last line with this name. -/
def lastList (lines : List (Bytes × Bytes)) (name : Bytes) : List Bytes :=
  ((values lines name).getLast?.map elements).getD []

theorem lastList_eq_combined {lines : List (Bytes × Bytes)} {name : Bytes}
    (single : (values lines name).length ≤ 1) : lastList lines name = combined lines name := by
  rw [lastList, combined]
  generalize values lines name = all at single ⊢
  rcases all with _ | ⟨value, _ | ⟨other, rest⟩⟩
  · rfl
  · exact (List.append_nil (elements value)).symm
  · rw [List.length_cons, List.length_cons] at single
    omega

/-- The scanner cuts at the commas; it leaves out an empty piece at the end. -/
theorem splitOn_commaPieces (begun : Option Bytes) (value : Bytes) :
    ∃ left, (left = [] ∨ left = [[]]) ∧
      (value.splitOn 0x2C).modifyHead (begun.getD [] ++ ·) = commaPieces begun value ++ left := by
  induction value generalizing begun with
  | nil =>
      cases begun with
      | none => exact ⟨[[]], .inr rfl, rfl⟩
      | some piece =>
          refine ⟨[], .inl rfl, ?_⟩
          simp [commaPieces]
  | cons c rest ih =>
      by_cases comma : c = 0x2C
      · obtain ⟨left, which, split⟩ := ih none
        have onward : rest.splitOn 0x2C = commaPieces none rest ++ left := by
          rw [← split]
          cases rest.splitOn 0x2C <;> rfl
        refine ⟨left, which, ?_⟩
        rw [List.splitOn_cons_eq_if_modifyHead, commaPieces, if_pos comma,
          if_pos (by simpa using comma), onward, List.modifyHead_cons, List.append_nil,
          List.cons_append]
      · obtain ⟨left, which, split⟩ := ih (some (begun.getD [] ++ [c]))
        refine ⟨left, which, ?_⟩
        rw [List.splitOn_cons_eq_if_modifyHead, commaPieces, if_neg comma,
          if_neg (by simpa using comma), ← split, List.modifyHead_modifyHead]
        congr 1
        funext piece
        simp

/-- What the scanners see of a value, but for empty pieces, are its elements. -/
theorem elements_eq (value : Bytes) :
    elements value = ((commaPieces none value).map trim).filter (· ≠ []) := by
  obtain ⟨left, which, split⟩ := splitOn_commaPieces none value
  have pieces : value.splitOn 0x2C = commaPieces none value ++ left := by
    rw [← split]
    cases value.splitOn 0x2C <;> rfl
  rw [elements, pieces, List.map_append, List.filter_append]
  rcases which with rfl | rfl
  · exact List.append_nil _
  · exact List.append_nil _

/-- `connection_contains_upgrade` looks for an element. -/
theorem connectionContainsUpgrade_iff (value : Bytes) :
    connectionContainsUpgrade value = true ↔
      ∃ e ∈ elements value, toLower e = ascii "upgrade" := by
  rw [elements_eq]
  simp only [connectionContainsUpgrade, List.any_eq_true, decide_eq_true_eq, List.mem_filter,
    List.mem_map]
  constructor
  · rintro ⟨token, mem, same⟩
    have some' : trim token ≠ [] := by
      intro none'
      rw [none'] at same
      cases same
    exact ⟨trim token, ⟨⟨token, mem, rfl⟩, some'⟩, same⟩
  · rintro ⟨_, ⟨⟨token, mem, rfl⟩, -⟩, same⟩
    exact ⟨token, mem, same⟩

/-- `selected` is the server's spelling of the first of these elements that the server has, and
empty if it has none. -/
def Selects (server list : List Bytes) (selected : Bytes) : Prop :=
  (selected = [] ∧ ∀ e ∈ list, ∀ protocol ∈ server, toLower e ≠ toLower protocol) ∨
    ∃ before e after earlier later, list = before ++ e :: after ∧
      server = earlier ++ selected :: later ∧ toLower e = toLower selected ∧
      (∀ e' ∈ before, ∀ protocol ∈ server, toLower e' ≠ toLower protocol) ∧
      ∀ protocol ∈ earlier, toLower e ≠ toLower protocol

/-- What `pick_subprotocol` does. -/
theorem pickSubprotocol_selects (client server : List Bytes) :
    Selects server client (pickSubprotocol client server) := by
  induction client with
  | nil => exact .inl ⟨rfl, fun e mem => absurd mem List.not_mem_nil⟩
  | cons e rest ih =>
      cases found : server.find? fun supported => toLower e = toLower supported with
      | some selected =>
          have picked : pickSubprotocol (e :: rest) server = selected := by
            simp only [pickSubprotocol, List.findSome?_cons, found, Option.getD_some]
          obtain ⟨same, earlier, later, whole, before⟩ := List.find?_eq_some_iff_append.mp found
          rw [picked]
          refine .inr ⟨[], e, rest, earlier, later, rfl, whole, by simpa using same,
            fun e' mem => absurd mem List.not_mem_nil, fun protocol mem => ?_⟩
          simpa using before protocol mem
      | none =>
          have picked : pickSubprotocol (e :: rest) server = pickSubprotocol rest server := by
            simp only [pickSubprotocol, List.findSome?_cons, found]
          have absent : ∀ protocol ∈ server, toLower e ≠ toLower protocol := by
            simpa using List.find?_eq_none.mp found
          rw [picked]
          rcases ih with ⟨empty, none'⟩ |
              ⟨before, e', after, earlier, later, whole, own, same, none', first⟩
          · exact .inl ⟨empty, List.forall_mem_cons.mpr ⟨absent, none'⟩⟩
          · exact .inr ⟨e :: before, e', after, earlier, later, by rw [whole, List.cons_append],
              own, same, List.forall_mem_cons.mpr ⟨absent, none'⟩, first⟩

/-- An empty piece matches an empty protocol only. -/
theorem pickSubprotocol_elements {server : List Bytes} (named : [] ∉ server) (value : Bytes) :
    pickSubprotocol (parseHeaderCsv value) server = pickSubprotocol (elements value) server := by
  have empty : (server.find? fun supported => toLower [] = toLower supported) = none := by
    refine List.find?_eq_none.mpr fun protocol mem same => named ?_
    have none' : protocol = [] := by simpa [toLower] using same
    exact none' ▸ mem
  rw [elements_eq, parseHeaderCsv]
  generalize (commaPieces none value).map trim = pieces
  induction pieces with
  | nil => rfl
  | cons piece rest ih =>
      by_cases blank : piece = []
      · subst blank
        have skipped : pickSubprotocol ([] :: rest) server = pickSubprotocol rest server := by
          simp only [pickSubprotocol, List.findSome?_cons, empty]
        rw [skipped, ih, List.filter_cons_of_neg (by simp)]
      · rw [List.filter_cons_of_pos (by simpa using blank)]
        simp only [pickSubprotocol, List.findSome?_cons] at ih ⊢
        cases server.find? fun supported => toLower piece = toLower supported with
        | some selected => rfl
        | none => exact ih

/-! ## What the checks look at -/

/-- The connection check of `accept`. -/
def connectionOk (headers : Bytes → Option Bytes) : Bool :=
  (headers (ascii "connection")).any connectionContainsUpgrade

/-- The protocol that `accept` chooses. -/
def chosen (server : List Bytes) (headers : Bytes → Option Bytes) : Bytes :=
  let clientProtocols :=
    ((headers (ascii "sec-websocket-protocol")).map parseHeaderCsv).getD []
  if !server.isEmpty && !clientProtocols.isEmpty then pickSubprotocol clientProtocols server else []

theorem chosen_eq (server : List Bytes) (headers : Bytes → Option Bytes) :
    chosen server headers =
      pickSubprotocol (((headers (ascii "sec-websocket-protocol")).map parseHeaderCsv).getD [])
        server := by
  simp only [chosen]
  generalize ((headers (ascii "sec-websocket-protocol")).map parseHeaderCsv).getD [] = client
  cases server with
  | nil =>
      have none' : client.findSome? (fun _ => (none : Option Bytes)) = none :=
        List.findSome?_eq_none_iff.mpr fun _ _ => rfl
      simp [pickSubprotocol, none']
  | cons protocol server =>
      cases client with
      | nil => rfl
      | cons e client => rfl

section Decision

variable {headers headers' : Bytes → Option Bytes}

theorem upgradeKey_congr (upgrade : headers (ascii "upgrade") = headers' (ascii "upgrade"))
    (connection : connectionOk headers = connectionOk headers')
    (version :
      headers (ascii "sec-websocket-version") = headers' (ascii "sec-websocket-version"))
    (key : headers (ascii "sec-websocket-key") = headers' (ascii "sec-websocket-key")) :
    upgradeKey headers = upgradeKey headers' := by
  simp only [connectionOk] at connection
  simp only [upgradeKey, upgrade, version, key]
  generalize headers (ascii "connection") = mine at connection ⊢
  generalize headers' (ascii "connection") = other at connection ⊢
  cases headers' (ascii "upgrade") with
  | none => rfl
  | some upgrade =>
      cases headers' (ascii "sec-websocket-version") with
      | none => cases mine <;> cases other <;> rfl
      | some version =>
          cases headers' (ascii "sec-websocket-key") with
          | none => cases mine <;> cases other <;> rfl
          | some key =>
              rcases mine with _ | mine <;> rcases other with _ | other
              · rfl
              · simp [← show false = connectionContainsUpgrade other from connection]
              · simp [show connectionContainsUpgrade mine = false from connection]
              · simp [show connectionContainsUpgrade mine = connectionContainsUpgrade other from
                  connection]

/-- All that the checks depend on. -/
theorem decideRequest_congr (env : Env) (opts : ServerOptions) {r r' : HttpRequestContext}
    (method : r.method = r'.method) (key : upgradeKey r.headers = upgradeKey r'.headers)
    (origin : r.headers (ascii "origin") = r'.headers (ascii "origin"))
    (protocol : chosen opts.subprotocols r.headers = chosen opts.subprotocols r'.headers) :
    decideRequest env opts r = decideRequest env opts r' := by
  simp only [chosen] at protocol
  simp only [decideRequest, method, key, origin, protocol]

end Decision

/-- The outcome of the handshake. -/
def outcome (result : AcceptResult) : Bool × Bytes := (result.ok, result.selectedSubprotocol)

theorem outcome_congr {env : Env} {opts : ServerOptions} {r r' : HttpRequestContext}
    (same : decideRequest env opts r = decideRequest env opts r') (s s' : Inbound UInt8) :
    outcome (answerRequest env opts r s).1 = outcome (answerRequest env opts r' s').1 := by
  rcases decided : decideRequest env opts r' with ⟨code, reason, body⟩ | ⟨proto, key⟩
  · simp only [outcome, answerRequest, same, decided]
  · by_cases failed : env.sendAll (switchingProtocols proto key) < 0
    · simp only [outcome, answerRequest, same, decided, if_pos failed]
    · simp only [outcome, answerRequest, same, decided, if_neg failed]

theorem decideRequest_proto {env : Env} {opts : ServerOptions} {r : HttpRequestContext}
    {proto key : Bytes} (decided : decideRequest env opts r = .switchProtocols proto key) :
    proto = chosen opts.subprotocols r.headers := by
  rw [decideRequest] at decided
  split at decided
  · cases decided
  · split at decided
    · cases decided
    · split at decided
      · cases decided
      · simp only at decided
        split at decided
        · cases decided
        · exact (Decision.switchProtocols.inj decided).1.symm

/-- A successful handshake has chosen its protocol by that. -/
theorem selected_eq {env : Env} {opts : ServerOptions} {r : HttpRequestContext}
    {s : Inbound UInt8} (ok : (answerRequest env opts r s).1.ok = true) :
    (answerRequest env opts r s).1.selectedSubprotocol = chosen opts.subprotocols r.headers := by
  rcases decided : decideRequest env opts r with ⟨code, reason, body⟩ | ⟨proto, key⟩
  · simp only [answerRequest, decided] at ok
    cases ok
  · by_cases failed : env.sendAll (switchingProtocols proto key) < 0
    · simp only [answerRequest, decided, if_pos failed] at ok
      cases ok
    · simp only [answerRequest, decided, if_neg failed]
      exact decideRequest_proto decided

/-! ## What the loop hands over -/

/-- The request without what depends on the chunks. -/
def HttpRequestContext.core (ctx : HttpRequestContext) : HttpRequestContext :=
  { ctx with rawData := [], messageComplete := false }

namespace HttpRequestContext

theorem core_on (ctx : HttpRequestContext) (call : Callback) :
    (ctx.on call).core = (ctx.core.on call).core := by
  cases call with
  | headerValueComplete | headersComplete =>
      have same : ctx.core.currentField = ctx.currentField := rfl
      by_cases named : ctx.currentField ≠ []
      · simp only [on, same, if_pos named]
        rfl
      · simp only [on, same, if_neg named]
        rfl
  | messageBegin | method | url | headerField | headerValue | body | messageComplete => rfl

theorem core_foldl (calls : List Callback) {ctx ctx' : HttpRequestContext}
    (same : ctx.core = ctx'.core) : (calls.foldl on ctx).core = (calls.foldl on ctx').core := by
  induction calls generalizing ctx ctx' with
  | nil => exact same
  | cons call calls ih => exact ih (by rw [core_on, same, ← core_on])

end HttpRequestContext

section Loop

variable {p : Llhttp} {maxRequestSize : Nat}

/-- When the loop ends with a request, the callbacks have made it of the bytes that were taken. -/
theorem receiveRequest_core {before : Bytes} {ctx : HttpRequestContext} {total : Nat}
    {s : Inbound UInt8} (going : (p.execute p.init before).2.1 = none)
    (same : ctx.core = (p.context before).core)
    (complete : (receiveRequest p maxRequestSize (p.execute p.init before).2.2 ctx total s).1 =
      none) :
    ∃ bytes,
      s.pending = bytes ++
        (receiveRequest p maxRequestSize (p.execute p.init before).2.2 ctx total s).2.2.pending ∧
      (receiveRequest p maxRequestSize (p.execute p.init before).2.2 ctx total s).2.1.core =
        (p.context (before ++ bytes)).core := by
  induction size : s.pending.length using Nat.strongRecOn generalizing before ctx total s with
  | ind n ih =>
      subst size
      rw [receiveRequest] at complete ⊢
      by_cases ended : ctx.messageComplete = true
      · rw [if_pos ended]
        exact ⟨[], rfl, by rw [List.append_nil]; exact same⟩
      · rw [if_neg ended] at complete ⊢
        by_cases failed : (s.recv bufferSize).1 < 0
        · rw [if_pos failed] at complete
          cases complete
        · rw [if_neg failed] at complete ⊢
          by_cases closed : (s.recv bufferSize).1 = 0
          · rw [if_pos closed] at complete
            cases complete
          · rw [if_neg closed] at complete ⊢
            have progress : 0 < (s.recv bufferSize).1 := by omega
            have taken := Inbound.recv_taken progress
            have answer := Inbound.recv_answer progress
            generalize (s.recv bufferSize).2.1 = data at complete taken answer ⊢
            generalize (s.recv bufferSize).2.2 = after at complete taken ⊢
            simp only at complete ⊢
            by_cases big : maxRequestSize < total + data.length
            · rw [if_pos big] at complete
              cases complete
            · rw [if_neg big] at complete ⊢
              have some' : 0 < data.length := by omega
              have begun : HttpRequestContext.core { ctx with rawData := ctx.rawData ++ data } =
                  (p.context before).core := same
              have calls := HttpRequestContext.core_foldl
                (p.execute (p.execute p.init before).2.2 data).1 begun
              have whole := Llhttp.execute_append going data
              rw [Llhttp.context, ← List.foldl_append,
                ← show _ = _ ++ _ from congrArg Prod.fst whole] at calls
              rcases run : p.execute (p.execute p.init before).2.2 data with
                ⟨later, _ | _ | name, state⟩
              · -- the loop goes on behind the chunk
                rw [run] at whole calls complete
                have going' := congrArg (fun r => r.2.1) whole
                have state' := congrArg (fun r => r.2.2) whole
                simp only at going' state' calls complete ⊢
                rw [← state'] at complete ⊢
                obtain ⟨bytes, cut, core⟩ := ih after.pending.length
                  (by rw [taken, List.length_append]; omega) going' calls complete rfl
                exact ⟨data ++ bytes, by rw [taken, List.append_assoc, ← cut],
                  by rw [← List.append_assoc]; exact core⟩
              · rw [run] at calls
                exact ⟨data, taken, calls⟩
              · rw [run] at complete
                cases complete

/-- An upgrade request that was received whole, with the header lines that the parser found in
what was taken. -/
structure Parsed (p : Llhttp) (maxRequestSize : Nat) (s : Inbound UInt8)
    (request : HttpRequestContext) (lines : List (Bytes × Bytes)) : Prop where
  complete : (receiveRequest p maxRequestSize p.init {} 0 s).1 = none
  request : request = (receiveRequest p maxRequestSize p.init {} 0 s).2.1
  lines : ∃ bytes,
    s.pending = bytes ++ (receiveRequest p maxRequestSize p.init {} 0 s).2.2.pending ∧
      lines = headerLines (p.execute p.init bytes).1

namespace Parsed

variable {s : Inbound UInt8} {request : HttpRequestContext} {lines : List (Bytes × Bytes)}

/-- **The map holds the last line of a name.** -/
theorem headers (parsed : Parsed p maxRequestSize s request lines) (name : Bytes) :
    request.headers name = (values lines name).getLast? := by
  obtain ⟨bytes, cut, found⟩ := parsed.lines
  obtain ⟨bytes', cut', core⟩ :=
    @receiveRequest_core p maxRequestSize [] {} 0 s rfl rfl parsed.complete
  obtain rfl : bytes = bytes' := List.append_cancel_right (cut.symm.trans cut')
  rw [List.nil_append] at core
  have keeps := Keeps.fresh.foldl (p.execute p.init bytes).1
  have same : request.headers = (p.context bytes).headers := by
    rw [parsed.request]
    have headers := congrArg HttpRequestContext.headers core
    exact headers
  rw [same, found]
  exact keeps.headers name

theorem accept_eq {opts : ServerOptions} (parsed : Parsed p opts.maxRequestSize s request lines)
    (env : Env) : ∃ rest, accept p env opts s = answerRequest env opts request rest := by
  refine ⟨(receiveRequest p opts.maxRequestSize p.init {} 0 s).2.2, ?_⟩
  have complete := parsed.complete
  rw [accept, parsed.request]
  generalize receiveRequest p opts.maxRequestSize p.init {} 0 s = done at complete ⊢
  rcases done with ⟨_ | e, request, rest⟩
  · rfl
  · cases complete

end Parsed

end Loop

/-! ## Requests with the same lists -/

/-- The same header lines but for the two lists, and the same lists when they are read so. -/
structure SameLists (list : List (Bytes × Bytes) → Bytes → List Bytes)
    (lines lines' : List (Bytes × Bytes)) : Prop where
  connection : list lines (ascii "connection") = list lines' (ascii "connection")
  protocols :
    list lines (ascii "sec-websocket-protocol") = list lines' (ascii "sec-websocket-protocol")
  others : ∀ name, name ≠ ascii "connection" → name ≠ ascii "sec-websocket-protocol" →
    values lines name = values lines' name

/-- The handshake goes by the lists that `list` reads from the header lines: its connection check
looks for an element, it selects the first element that the server has, and requests with the same
lists have the same outcome. -/
structure AsLists (list : List (Bytes × Bytes) → Bytes → List Bytes) (p : Llhttp) (env : Env)
    (opts : ServerOptions) : Prop where
  connection : ∀ {s request lines}, Parsed p opts.maxRequestSize s request lines →
    (connectionOk request.headers = true ↔
      ∃ e ∈ list lines (ascii "connection"), toLower e = ascii "upgrade")
  selects : ∀ {s request lines}, Parsed p opts.maxRequestSize s request lines →
    (accept p env opts s).1.ok = true →
    Selects opts.subprotocols (list lines (ascii "sec-websocket-protocol"))
      (accept p env opts s).1.selectedSubprotocol
  unchanged : ∀ {s s' request request' lines lines'},
    Parsed p opts.maxRequestSize s request lines →
    Parsed p opts.maxRequestSize s' request' lines' → request.method = request'.method →
    SameLists list lines lines' →
    outcome (accept p env opts s).1 = outcome (accept p env opts s').1

section LastLine

variable {p : Llhttp} {maxRequestSize : Nat} {s : Inbound UInt8} {request : HttpRequestContext}
  {lines : List (Bytes × Bytes)}

theorem connectionOk_lastList (parsed : Parsed p maxRequestSize s request lines) :
    connectionOk request.headers = true ↔
      ∃ e ∈ lastList lines (ascii "connection"), toLower e = ascii "upgrade" := by
  rw [connectionOk, parsed.headers, lastList]
  cases (values lines (ascii "connection")).getLast? with
  | none => simp
  | some value => simpa using connectionContainsUpgrade_iff value

theorem chosen_lastList {server : List Bytes} (named : [] ∉ server)
    (parsed : Parsed p maxRequestSize s request lines) :
    chosen server request.headers =
      pickSubprotocol (lastList lines (ascii "sec-websocket-protocol")) server := by
  rw [chosen_eq, parsed.headers, lastList]
  cases (values lines (ascii "sec-websocket-protocol")).getLast? with
  | none => rfl
  | some value => exact pickSubprotocol_elements named value

/-- **The last line of a name is read as a list**, whatever the lines before it hold.  With one
line for each name that is the list of the request. -/
theorem onlyLastLine {opts : ServerOptions} (named : [] ∉ opts.subprotocols) (p : Llhttp)
    (env : Env) :
    AsLists lastList p env opts ∧
      ∀ lines name, (values lines name).length ≤ 1 → lastList lines name = combined lines name := by
  refine ⟨⟨fun parsed => connectionOk_lastList parsed, ?_, ?_⟩,
    fun lines name single => lastList_eq_combined single⟩
  · intro s request lines parsed ok
    obtain ⟨rest, run⟩ := parsed.accept_eq env
    rw [run] at ok ⊢
    rw [selected_eq ok, chosen_lastList named parsed]
    exact pickSubprotocol_selects _ _
  · intro s s' request request' lines lines' parsed parsed' method same
    obtain ⟨rest, run⟩ := parsed.accept_eq env
    obtain ⟨rest', run'⟩ := parsed'.accept_eq env
    have others : ∀ name, name ≠ ascii "connection" → name ≠ ascii "sec-websocket-protocol" →
        request.headers name = request'.headers name := by
      intro name first second
      rw [parsed.headers, parsed'.headers, same.others name first second]
    have connection : connectionOk request.headers = connectionOk request'.headers := by
      rw [Bool.eq_iff_iff, connectionOk_lastList parsed, connectionOk_lastList parsed',
        same.connection]
    have protocol : chosen opts.subprotocols request.headers =
        chosen opts.subprotocols request'.headers := by
      rw [chosen_lastList named parsed, chosen_lastList named parsed', same.protocols]
    have key := upgradeKey_congr (others _ (by decide) (by decide)) connection
      (others _ (by decide) (by decide)) (others _ (by decide) (by decide))
    rw [run, run']
    exact outcome_congr
      (decideRequest_congr env opts method key (others _ (by decide) (by decide)) protocol) _ _

end LastLine

/-! ## Requests that differ in their lines -/

/-- A request with these lines behind the others, in one chunk. -/
def upgradeWith (lines : String) : Inbound UInt8 where
  chunks :=
    [ascii "GET /chat HTTP/1.1\r\nUpgrade: websocket\r\nSec-WebSocket-Version: 13\r\n" ++
      ascii "Sec-WebSocket-Key: dGhlIHNhbXBsZSBub25jZQ==\r\n" ++ ascii lines ++ ascii "\r\n"]
  ending := 0
  positive := by
    intro c mem
    rw [List.mem_singleton.mp mem]
    exact List.cons_ne_nil _ _
  stops := Inbound.orderly_stops

/-- The lines in front. -/
def fixedLines : List (Bytes × Bytes) :=
  [(ascii "Upgrade", ascii "websocket"), (ascii "Sec-WebSocket-Version", ascii "13"),
    (ascii "Sec-WebSocket-Key", ascii "dGhlIHNhbXBsZSBub25jZQ==")]

/-- The context that the loop hands over. -/
def requestOf (s : Inbound UInt8) : HttpRequestContext :=
  (receiveRequest requestLines 16384 requestLines.init {} 0 s).2.1

/-- A request that the loop takes completely. -/
theorem parsed_of_taken {s : Inbound UInt8} {lines : List (Bytes × Bytes)}
    (taken :
      (receiveRequest requestLines 16384 requestLines.init {} 0 s).1 = none ∧
        (receiveRequest requestLines 16384 requestLines.init {} 0 s).2.2.pending = [] ∧
        (receiveRequest requestLines 16384 requestLines.init {} 0 s).2.1.method = ascii "GET")
    (found : lines = headerLines (requestLines.execute requestLines.init s.pending).1) :
    Parsed requestLines 16384 s (requestOf s) lines ∧ (requestOf s).method = ascii "GET" :=
  ⟨⟨taken.1, rfl, s.pending, by rw [taken.2.1, List.append_nil], found⟩, taken.2.2⟩

/-- One line with a list of two elements. -/
def joinedLine : Inbound UInt8 := upgradeWith "Connection: Upgrade, keep-alive\r\n"

/-- The same with whitespace and empty elements. -/
def spacedLine : Inbound UInt8 := upgradeWith "CONNECTION: ,Upgrade\t,, keep-alive ,\r\n"

/-- One line for each of the elements. -/
def splitLines : Inbound UInt8 :=
  upgradeWith "Connection: Upgrade\r\nconnection: keep-alive\r\n"

/-- A list with one protocol, and the same with an empty element. -/
def oneProtocol : Inbound UInt8 :=
  upgradeWith "Connection: Upgrade\r\nSec-WebSocket-Protocol: chat\r\n"

def emptyElement : Inbound UInt8 :=
  upgradeWith "Connection: Upgrade\r\nSec-WebSocket-Protocol: ,chat\r\n"

/-- The parser and the loop on each of these requests. -/
theorem parsed_requests :
    (Parsed requestLines 16384 joinedLine (requestOf joinedLine)
        (fixedLines ++ [(ascii "Connection", ascii "Upgrade, keep-alive")]) ∧
      (requestOf joinedLine).method = ascii "GET") ∧
    (Parsed requestLines 16384 spacedLine (requestOf spacedLine)
        (fixedLines ++ [(ascii "CONNECTION", ascii ",Upgrade\t,, keep-alive ,")]) ∧
      (requestOf spacedLine).method = ascii "GET") ∧
    (Parsed requestLines 16384 splitLines (requestOf splitLines)
        (fixedLines ++ [(ascii "Connection", ascii "Upgrade")] ++
          [(ascii "connection", ascii "keep-alive")]) ∧
      (requestOf splitLines).method = ascii "GET") ∧
    (Parsed requestLines 16384 oneProtocol (requestOf oneProtocol)
        (fixedLines ++ [(ascii "Connection", ascii "Upgrade")] ++
          [(ascii "Sec-WebSocket-Protocol", ascii "chat")]) ∧
      (requestOf oneProtocol).method = ascii "GET") ∧
    Parsed requestLines 16384 emptyElement (requestOf emptyElement)
        (fixedLines ++ [(ascii "Connection", ascii "Upgrade")] ++
          [(ascii "Sec-WebSocket-Protocol", ascii ",chat")]) ∧
      (requestOf emptyElement).method = ascii "GET" := by
  refine ⟨parsed_of_taken ?_ ?_, parsed_of_taken ?_ ?_, parsed_of_taken ?_ ?_,
    parsed_of_taken ?_ ?_, parsed_of_taken ?_ ?_⟩
  all_goals
    simp only [joinedLine, spacedLine, splitLines, oneProtocol, emptyElement, upgradeWith,
      fixedLines, ascii_literal rfl]
    try rw [receiveRequest]
    decide +kernel

theorem parsed_joinedLine : Parsed requestLines 16384 joinedLine (requestOf joinedLine)
    (fixedLines ++ [(ascii "Connection", ascii "Upgrade, keep-alive")]) ∧
    (requestOf joinedLine).method = ascii "GET" :=
  parsed_requests.1

theorem parsed_spacedLine : Parsed requestLines 16384 spacedLine (requestOf spacedLine)
    (fixedLines ++ [(ascii "CONNECTION", ascii ",Upgrade\t,, keep-alive ,")]) ∧
    (requestOf spacedLine).method = ascii "GET" :=
  parsed_requests.2.1

theorem parsed_splitLines : Parsed requestLines 16384 splitLines (requestOf splitLines)
    (fixedLines ++ [(ascii "Connection", ascii "Upgrade")] ++
      [(ascii "connection", ascii "keep-alive")]) ∧
    (requestOf splitLines).method = ascii "GET" :=
  parsed_requests.2.2.1

theorem values_other {lines : List (Bytes × Bytes)} {field own name : Bytes} (value : Bytes)
    (same : toLower field = own) (other : name ≠ own) :
    values (lines ++ [(field, value)]) name = values lines name := by
  rw [values_append, if_neg (by rw [same]; exact Ne.symm other), List.append_nil]

theorem sameLists_spacedLine : SameLists lastList
    (fixedLines ++ [(ascii "Connection", ascii "Upgrade, keep-alive")])
    (fixedLines ++ [(ascii "CONNECTION", ascii ",Upgrade\t,, keep-alive ,")]) where
  connection := by
    simp only [fixedLines, ascii_literal rfl]
    decide
  protocols := by
    simp only [fixedLines, ascii_literal rfl]
    decide
  others name other _ := by
    rw [values_other _ (by decide) other, values_other _ (by decide) other]

theorem sameLists_splitLines : SameLists combined
    (fixedLines ++ [(ascii "Connection", ascii "Upgrade, keep-alive")])
    (fixedLines ++ [(ascii "Connection", ascii "Upgrade")] ++
      [(ascii "connection", ascii "keep-alive")]) where
  connection := by
    simp only [fixedLines, ascii_literal rfl]
    decide
  protocols := by
    simp only [fixedLines, ascii_literal rfl]
    decide
  others name other _ := by
    rw [values_other _ (by decide) other, values_other _ (by decide) other,
      values_other _ (by decide) other]

theorem onlyLastLine_spacedLine :
    [] ∉ ([] : List Bytes) ∧
      outcome (accept requestLines browserEnv {} joinedLine).1 =
        outcome (accept requestLines browserEnv {} spacedLine).1 :=
  ⟨List.not_mem_nil, (onlyLastLine List.not_mem_nil requestLines browserEnv).1.unchanged
    parsed_joinedLine.1 parsed_spacedLine.1 (parsed_joinedLine.2.trans parsed_spacedLine.2.symm)
    sameLists_spacedLine⟩

/-! ## Where the list of the request does not decide -/

/-- A server with an empty protocol, and one that takes requests of this length. -/
def emptyProtocol : ServerOptions := { subprotocols := [[], ascii "chat"] }

def justFits : ServerOptions := { maxRequestSize := joinedLine.pending.length }

theorem parsed_oneProtocol : Parsed requestLines 16384 oneProtocol (requestOf oneProtocol)
    (fixedLines ++ [(ascii "Connection", ascii "Upgrade")] ++
      [(ascii "Sec-WebSocket-Protocol", ascii "chat")]) ∧
    (requestOf oneProtocol).method = ascii "GET" :=
  parsed_requests.2.2.2.1

theorem parsed_emptyElement : Parsed requestLines 16384 emptyElement (requestOf emptyElement)
    (fixedLines ++ [(ascii "Connection", ascii "Upgrade")] ++
      [(ascii "Sec-WebSocket-Protocol", ascii ",chat")]) ∧
    (requestOf emptyElement).method = ascii "GET" :=
  parsed_requests.2.2.2.2

theorem sameLists_emptyElement : SameLists lastList
    (fixedLines ++ [(ascii "Connection", ascii "Upgrade")] ++
      [(ascii "Sec-WebSocket-Protocol", ascii "chat")])
    (fixedLines ++ [(ascii "Connection", ascii "Upgrade")] ++
      [(ascii "Sec-WebSocket-Protocol", ascii ",chat")]) where
  connection := by
    simp only [fixedLines, ascii_literal rfl]
    decide
  protocols := by
    simp only [fixedLines, ascii_literal rfl]
    decide
  others name _ other := by
    rw [values_other (ascii "chat") (by decide) other,
      values_other (ascii ",chat") (by decide) other]

theorem outcomes :
    (outcome (accept requestLines browserEnv {} joinedLine).1 = (true, []) ∧
        outcome (accept requestLines browserEnv {} splitLines).1 = (false, [])) ∧
      (outcome (accept requestLines browserEnv emptyProtocol oneProtocol).1 =
          (true, ascii "chat") ∧
        outcome (accept requestLines browserEnv emptyProtocol emptyElement).1 = (true, [])) ∧
      outcome (accept requestLines browserEnv justFits joinedLine).1 = (true, []) ∧
      outcome (accept requestLines browserEnv justFits spacedLine).1 = (false, []) := by
  refine ⟨⟨?_, ?_⟩, ⟨?_, ?_⟩, ?_, ?_⟩ <;>
    rw [accept, receiveRequest] <;>
    simp only [joinedLine, splitLines, oneProtocol, emptyElement, spacedLine, upgradeWith,
      justFits, emptyProtocol, browserEnv, answerRequest, decideRequest, upgradeKey,
      connectionContainsUpgrade, ascii_literal rfl] <;>
    decide +kernel

/-- **The list of all lines does not decide**: the line behind `Connection: Upgrade` takes its
place.  Nor does the last list where the server has an empty protocol, which an empty element
matches; and whitespace counts towards `max_request_size`. -/
theorem splitLines_differ :
    ¬ AsLists combined requestLines browserEnv {} ∧
      ¬ AsLists lastList requestLines browserEnv emptyProtocol ∧
      outcome (accept requestLines browserEnv justFits joinedLine).1 = (true, []) ∧
      outcome (accept requestLines browserEnv justFits spacedLine).1 = (false, []) := by
  obtain ⟨⟨joined, split⟩, ⟨one, other⟩, sizes⟩ := outcomes
  refine ⟨fun lists => ?_, fun lists => ?_, sizes⟩
  · have same := lists.unchanged parsed_joinedLine.1 parsed_splitLines.1
      (parsed_joinedLine.2.trans parsed_splitLines.2.symm) sameLists_splitLines
    rw [joined, split] at same
    cases same
  · have same := lists.unchanged parsed_oneProtocol.1 parsed_emptyElement.1
      (parsed_oneProtocol.2.trans parsed_emptyElement.2.symm) sameLists_emptyElement
    rw [one, other] at same
    cases same

end CoWq.WebSocket.Accept
