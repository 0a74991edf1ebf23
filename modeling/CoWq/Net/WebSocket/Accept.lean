import CoWq.Lib.Inbound

/-!
# The opening handshake

`accept` receives an HTTP request into a buffer of 4096 bytes, hands every chunk to llhttp, whose
callbacks fill an `HttpRequestContext`, and answers it.

* `Llhttp`: the parser, which is not part of the repository, as a machine over the bytes.  A
  chunk is given to it byte by byte; the callbacks with data only append.
* `HttpRequestContext.on`: the callbacks of `install_http_settings`.
* `receiveRequest`: the receive loop; `decideRequest`: the checks behind it; `accept`: the whole.
-/

namespace CoWq.WebSocket.Accept

/-- The bytes of a `std::string`. -/
abbrev Bytes := List UInt8

/-- The bytes of a literal. -/
def ascii (s : String) : Bytes := s.toList.map fun c => UInt8.ofNat c.toNat

/-- By its characters: the kernel would decode the bytes of the literal. -/
theorem ascii_literal {text : String} {chars : List Char} (same : text = String.ofList chars) :
    ascii text = chars.map fun c => UInt8.ofNat c.toNat := by
  rw [same, ascii, String.toList_ofList]

/-! ## Strings -/

/-- `std::tolower` -/
def toLowerChar (c : UInt8) : UInt8 := if 0x41 ≤ c ∧ c ≤ 0x5A then c + 0x20 else c

/-- `to_lower` -/
def toLower (input : Bytes) : Bytes := input.map toLowerChar

/-- `std::isspace` -/
def isSpace (c : UInt8) : Bool := c = 0x20 ∨ 0x09 ≤ c ∧ c ≤ 0x0D

/-- `trim` -/
def trim (input : Bytes) : Bytes :=
  ((input.dropWhile isSpace).reverse.dropWhile isSpace).reverse

/-- The pieces between the commas, with the piece that has been begun; nothing follows a comma at
the end. -/
def commaPieces : Option Bytes → Bytes → List Bytes
  | none, [] => []
  | some piece, [] => [piece]
  | begun, c :: rest =>
      if c = 0x2C then begun.getD [] :: commaPieces none rest
      else commaPieces (some (begun.getD [] ++ [c])) rest

/-- `connection_contains_upgrade` -/
def connectionContainsUpgrade (connectionHeader : Bytes) : Bool :=
  (commaPieces none connectionHeader).any fun token => toLower (trim token) = ascii "upgrade"

/-- `parse_header_csv` -/
def parseHeaderCsv (value : Bytes) : List Bytes := (commaPieces none value).map trim

/-- `pick_subprotocol` -/
def pickSubprotocol (clientProtocols serverProtocols : List Bytes) : Bytes :=
  (clientProtocols.findSome? fun sp =>
    serverProtocols.find? fun supported => toLower sp = toLower supported).getD []

/-- `build_http_response`, with its default content type. -/
def buildHttpResponse (statusCode : Nat) (reason body : Bytes) : Bytes :=
  ascii "HTTP/1.1 " ++ ascii (toString statusCode) ++ ascii " " ++ reason ++ ascii "\r\n" ++
    ascii "Content-Type: text/plain; charset=utf-8\r\n" ++
    ascii "Content-Length: " ++ ascii (toString body.length) ++
    ascii "\r\nConnection: close\r\n\r\n" ++ body

/-! ## The parser and its callbacks -/

structure HttpRequestContext where
  method : Bytes := []
  url : Bytes := []
  headers : Bytes → Option Bytes := fun _ => none
  currentField : Bytes := []
  currentValue : Bytes := []
  body : Bytes := []
  rawData : Bytes := []
  headersComplete : Bool := false
  messageComplete : Bool := false

/-- `reset` -/
def HttpRequestContext.reset (_ : HttpRequestContext) : HttpRequestContext := {}

/-- `headers[to_lower(current_field)] = current_value` -/
def HttpRequestContext.storeHeader (ctx : HttpRequestContext) : HttpRequestContext :=
  { ctx with
    headers := fun key =>
      if key = toLower ctx.currentField then some ctx.currentValue else ctx.headers key }

/-- The callbacks; the data of one may come in several calls. -/
inductive Callback
  | messageBegin
  | method (data : Bytes)
  | url (data : Bytes)
  | headerField (data : Bytes)
  | headerValue (data : Bytes)
  | headerValueComplete
  | headersComplete
  | body (data : Bytes)
  | messageComplete
  deriving DecidableEq, Repr

/-- The functions of `install_http_settings`. -/
def HttpRequestContext.on (ctx : HttpRequestContext) : Callback → HttpRequestContext
  | .messageBegin => ctx.reset
  | .method data => { ctx with method := ctx.method ++ data }
  | .url data => { ctx with url := ctx.url ++ data }
  | .headerField data => { ctx with currentField := ctx.currentField ++ data }
  | .headerValue data => { ctx with currentValue := ctx.currentValue ++ data }
  | .headerValueComplete =>
      let ctx := if ctx.currentField ≠ [] then ctx.storeHeader else ctx
      { ctx with currentField := [], currentValue := [] }
  | .headersComplete =>
      let ctx :=
        if ctx.currentField ≠ [] then
          { ctx.storeHeader with currentField := [], currentValue := [] }
        else ctx
      { ctx with headersComplete := true }
  | .body data => { ctx with body := ctx.body ++ data }
  | .messageComplete => { ctx with messageComplete := true }

/-- `llhttp_errno_t` without `HPE_OK`. -/
inductive Errno
  | pausedUpgrade
  | other (name : Bytes)
  deriving DecidableEq, Repr

/-- llhttp: what a byte makes it call, and the error it stops with. -/
structure Llhttp where
  State : Type
  init : State
  step : State → UInt8 → List Callback × Option Errno × State

/-- `llhttp_execute`: the calls, in order, up to the byte the parser stops at. -/
def Llhttp.execute (p : Llhttp) : p.State → Bytes → List Callback × Option Errno × p.State
  | state, [] => ([], none, state)
  | state, b :: rest =>
      match p.step state b with
      | (calls, some err, state) => (calls, some err, state)
      | (calls, none, state) =>
          let (later, err, state) := p.execute state rest
          (calls ++ later, err, state)

/-! ## The receive loop -/

/-- `server_options`, with its defaults. -/
structure ServerOptions where
  subprotocols : List Bytes := []
  allowedOrigins : List Bytes := []
  checkOrigin : Bool := false
  closeOnFailure : Bool := true
  maxRequestSize : Nat := 16 * 1024

/-- What the loop leaves in `result` and its flags when it ends with `parse_error`. -/
structure ParseError where
  statusCode : Nat
  reason : Bytes
  parseErrorReason : Bytes
  clientClosedEarly : Bool := false
  deriving DecidableEq, Repr

/-- `buffer.size()` -/
def bufferSize : Nat := 4096

/-- The loop up to `message_complete` or an error. -/
def receiveRequest (p : Llhttp) (maxRequestSize : Nat) (state : p.State) (ctx : HttpRequestContext)
    (totalBytes : Nat) (s : Inbound UInt8) :
    Option ParseError × HttpRequestContext × Inbound UInt8 :=
  if ctx.messageComplete then (none, ctx, s)
  else if (s.recv bufferSize).1 < 0 then
    (some
      { statusCode := 500
        reason := ascii "Socket Error"
        parseErrorReason := ascii "socket read error" }, ctx, (s.recv bufferSize).2.2)
  else if (s.recv bufferSize).1 = 0 then
    (some
      { statusCode := 0
        reason := ascii "client closed connection"
        parseErrorReason := ascii "client closed connection"
        clientClosedEarly := true }, ctx, (s.recv bufferSize).2.2)
  else
    let data := (s.recv bufferSize).2.1
    let ctx := { ctx with rawData := ctx.rawData ++ data }
    if maxRequestSize < totalBytes + data.length then
      (some
        { statusCode := 431
          reason := ascii "Request Header Fields Too Large"
          parseErrorReason := ascii "request header too large" }, ctx, (s.recv bufferSize).2.2)
    else
      match p.execute state data with
      | (calls, none, state) =>
          receiveRequest p maxRequestSize state (calls.foldl HttpRequestContext.on ctx)
            (totalBytes + data.length) (s.recv bufferSize).2.2
      | (calls, some .pausedUpgrade, _) =>
          (none, { calls.foldl HttpRequestContext.on ctx with messageComplete := true },
            (s.recv bufferSize).2.2)
      | (calls, some (.other name), _) =>
          (some { statusCode := 400, reason := ascii "Bad Request", parseErrorReason := name },
            calls.foldl HttpRequestContext.on ctx, (s.recv bufferSize).2.2)
termination_by s.pending.length
decreasing_by
  rename_i failed closed _
  have progress : 0 < (s.recv bufferSize).1 := by omega
  have taken := congrArg List.length (Inbound.recv_taken progress)
  have answer := Inbound.recv_answer progress
  rw [List.length_append] at taken
  omega

/-! ## The answer -/

structure AcceptResult where
  ok : Bool := false
  statusCode : Nat := 500
  reason : Bytes := ascii "Internal Server Error"
  selectedSubprotocol : Bytes := []
  request : HttpRequestContext := {}

/-- What the checks behind the loop come to. -/
inductive Decision
  | refuse (statusCode : Nat) (reason body : Bytes)
  | switchProtocols (selectedProto acceptKey : Bytes)
  deriving DecidableEq, Repr

/-- What `accept` uses of OpenSSL and of the sending side of the socket: `compute_accept_key`
(empty when it fails) and the answer of `send_all`. -/
structure Env where
  computeAcceptKey : Bytes → Bytes
  sendAll : Bytes → Int

/-- The origin is one of the allowed ones, or not checked. -/
def originOk (opts : ServerOptions) (origin : Option Bytes) : Bool :=
  if opts.checkOrigin && !opts.allowedOrigins.isEmpty then
    match origin with
    | some origin => opts.allowedOrigins.any fun allowed => toLower origin = toLower allowed
    | none => false
  else true

/-- The headers ask for version 13 of the protocol; the key. -/
def upgradeKey (headers : Bytes → Option Bytes) : Option Bytes :=
  match headers (ascii "upgrade"), headers (ascii "connection"),
      headers (ascii "sec-websocket-version"), headers (ascii "sec-websocket-key") with
  | some upgrade, some connection, some version, some key =>
      if toLower upgrade = ascii "websocket" ∧ connectionContainsUpgrade connection ∧
          trim version = ascii "13" then some key
      else none
  | _, _, _, _ => none

/-- The checks of `accept` on a complete request, in their order. -/
def decideRequest (env : Env) (opts : ServerOptions) (request : HttpRequestContext) : Decision :=
  if toLower request.method ≠ ascii "get" then
    .refuse 405 (ascii "Method Not Allowed") (ascii "WebSocket requires GET\n")
  else
    match upgradeKey request.headers with
    | none => .refuse 400 (ascii "Bad Request") (ascii "Missing or invalid WebSocket headers\n")
    | some key =>
        if !originOk opts (request.headers (ascii "origin")) then
          .refuse 403 (ascii "Forbidden") (ascii "Origin not allowed\n")
        else
          let clientProtocols :=
            ((request.headers (ascii "sec-websocket-protocol")).map parseHeaderCsv).getD []
          let selectedProto :=
            if !opts.subprotocols.isEmpty && !clientProtocols.isEmpty then
              pickSubprotocol clientProtocols opts.subprotocols
            else []
          let acceptKey := env.computeAcceptKey key
          if acceptKey = [] then
            .refuse 500 (ascii "Internal Server Error") (ascii "Failed to compute accept key\n")
          else .switchProtocols selectedProto acceptKey

/-- The response of a successful handshake; `response_headers` is never filled. -/
def switchingProtocols (selectedProto acceptKey : Bytes) : Bytes :=
  ascii "HTTP/1.1 101 Switching Protocols\r\n" ++ ascii "Upgrade: websocket\r\n" ++
    ascii "Connection: Upgrade\r\n" ++ ascii "Sec-WebSocket-Accept: " ++ acceptKey ++
    ascii "\r\n" ++
    (if selectedProto ≠ [] then ascii "Sec-WebSocket-Protocol: " ++ selectedProto ++ ascii "\r\n"
      else []) ++
    ascii "\r\n"

/-- The socket behind `accept`: what is still to be received, what was sent, and whether `accept`
has closed it. -/
structure Socket where
  inbound : Inbound UInt8
  sent : List Bytes := []
  closed : Bool := false

/-- The answer to a request that was not received completely. -/
def rejectRequest (opts : ServerOptions) (e : ParseError) (request : HttpRequestContext)
    (s : Inbound UInt8) : AcceptResult × Socket :=
  let reason := if e.parseErrorReason ≠ [] then e.parseErrorReason else e.reason
  let detail :=
    if e.parseErrorReason = [] then ascii "incomplete request" else e.parseErrorReason
  let body := ascii "WebSocket handshake failed: " ++ detail ++ ascii "\n"
  let response := buildHttpResponse e.statusCode reason body
  ({ statusCode := e.statusCode, reason, request },
    { inbound := s
      sent := if !e.clientClosedEarly && e.statusCode ≠ 0 then [response] else []
      closed := opts.closeOnFailure || e.clientClosedEarly })

/-- The answer to a complete request. -/
def answerRequest (env : Env) (opts : ServerOptions) (request : HttpRequestContext)
    (s : Inbound UInt8) : AcceptResult × Socket :=
  match decideRequest env opts request with
  | .refuse statusCode reason body =>
      ({ statusCode, reason, request },
        { inbound := s
          sent := [buildHttpResponse statusCode reason body]
          closed := opts.closeOnFailure })
  | .switchProtocols selectedProto acceptKey =>
      let response := switchingProtocols selectedProto acceptKey
      if env.sendAll response < 0 then
        ({ statusCode := 500, reason := ascii "Socket Error", request },
          { inbound := s, sent := [response], closed := opts.closeOnFailure })
      else
        ({ ok := true
           statusCode := 101
           reason := ascii "Switching Protocols"
           selectedSubprotocol := selectedProto
           request }, { inbound := s, sent := [response] })

/-- `accept` -/
def accept (p : Llhttp) (env : Env) (opts : ServerOptions) (s : Inbound UInt8) :
    AcceptResult × Socket :=
  match receiveRequest p opts.maxRequestSize p.init {} 0 s with
  | (some e, request, s) => rejectRequest opts e request s
  | (none, request, s) => answerRequest env opts request s

/-! ## The parser over pieces -/

namespace Llhttp

variable {p : Llhttp} {state : p.State}

theorem execute_cons {b : UInt8} {calls : List Callback} {next : p.State}
    (run : p.step state b = (calls, none, next)) (rest : Bytes) :
    p.execute state (b :: rest) = (calls ++ (p.execute next rest).1, (p.execute next rest).2) := by
  rw [execute, run]

theorem execute_cons_stopped {b : UInt8} {calls : List Callback} {err : Errno} {next : p.State}
    (run : p.step state b = (calls, some err, next)) (rest : Bytes) :
    p.execute state (b :: rest) = (calls, some err, next) := by
  rw [execute, run]

/-- A parser that runs through a piece goes on behind it as over the whole. -/
theorem execute_append {bs : Bytes} (going : (p.execute state bs).2.1 = none) (rest : Bytes) :
    p.execute state (bs ++ rest) =
      ((p.execute state bs).1 ++ (p.execute (p.execute state bs).2.2 rest).1,
        (p.execute (p.execute state bs).2.2 rest).2) := by
  induction bs generalizing state with
  | nil => rfl
  | cons b bs ih =>
      rcases run : p.step state b with ⟨calls, _ | err, next⟩
      · rw [execute_cons run] at going
        rw [List.cons_append, execute_cons run, execute_cons run, ih going, List.append_assoc]
      · rw [execute_cons_stopped run] at going
        cases going

/-- A parser that stopped does not see what follows. -/
theorem execute_stopped {bs : Bytes} {err : Errno} (stop : (p.execute state bs).2.1 = some err)
    (rest : Bytes) : p.execute state (bs ++ rest) = p.execute state bs := by
  induction bs generalizing state with
  | nil => cases stop
  | cons b bs ih =>
      rcases run : p.step state b with ⟨calls, _ | err, next⟩
      · rw [execute_cons run] at stop
        rw [List.cons_append, execute_cons run, execute_cons run, ih stop]
      · rw [List.cons_append, execute_cons_stopped run, execute_cons_stopped run]

/-- The calls for a piece are the first ones for the whole. -/
theorem execute_prefix (state : p.State) (bs rest : Bytes) :
    (p.execute state bs).1 <+: (p.execute state (bs ++ rest)).1 := by
  cases stop : (p.execute state bs).2.1 with
  | none =>
      rw [execute_append stop]
      exact List.prefix_append _ _
  | some err =>
      rewrite [execute_stopped stop]
      exact List.prefix_refl _

/-- What the callbacks make of a new context over these bytes. -/
def context (p : Llhttp) (bs : Bytes) : HttpRequestContext :=
  (p.execute p.init bs).1.foldl HttpRequestContext.on {}

end Llhttp

namespace HttpRequestContext

/-- Only `on_message_begin` touches the raw data, which no other callback looks at. -/
theorem on_rawData {ctx : HttpRequestContext} {call : Callback} (later : call ≠ .messageBegin)
    (raw : Bytes) : { ctx with rawData := raw }.on call = { ctx.on call with rawData := raw } := by
  cases call with
  | messageBegin => exact absurd rfl later
  | headerValueComplete | headersComplete =>
      simp only [on, storeHeader]
      split <;> rfl
  | method | url | headerField | headerValue | body | messageComplete => rfl

theorem foldl_rawData {calls : List Callback} (later : .messageBegin ∉ calls)
    (ctx : HttpRequestContext) (raw : Bytes) :
    calls.foldl on { ctx with rawData := raw } = { calls.foldl on ctx with rawData := raw } := by
  induction calls generalizing ctx with
  | nil => rfl
  | cons call calls ih =>
      rw [List.mem_cons, not_or] at later
      rw [List.foldl_cons, List.foldl_cons, on_rawData (Ne.symm later.1), ih later.2]

/-- The message is complete through `on_message_complete` only. -/
theorem on_incomplete {ctx : HttpRequestContext} {call : Callback}
    (running : ctx.messageComplete = false) (other : call ≠ .messageComplete) :
    (ctx.on call).messageComplete = false := by
  cases call with
  | messageComplete => exact absurd rfl other
  | messageBegin => rfl
  | headerValueComplete | headersComplete =>
      simp only [on, storeHeader]
      split <;> exact running
  | method | url | headerField | headerValue | body => exact running

theorem foldl_incomplete {calls : List Callback} (other : .messageComplete ∉ calls)
    {ctx : HttpRequestContext} (running : ctx.messageComplete = false) :
    (calls.foldl on ctx).messageComplete = false := by
  induction calls generalizing ctx with
  | nil => exact running
  | cons call calls ih =>
      rw [List.mem_cons, not_or] at other
      exact ih other.2 (on_incomplete running (Ne.symm other.1))

end HttpRequestContext

/-! ## A valid upgrade request -/

/-- What llhttp is relied on for: it calls `on_message_begin` at the first byte of the request and
not again, goes through the request without completing it before its end, and pauses there. -/
structure UpgradeRequest (p : Llhttp) where
  first : UInt8
  more : Bytes
  calls : List Callback
  begins : (p.step p.init first).1.head? = some .messageBegin
  called : (p.execute p.init (first :: more)).1 = .messageBegin :: calls
  once : .messageBegin ∉ calls
  paused : (p.execute p.init (first :: more)).2.1 = some .pausedUpgrade
  incremental : ∀ bs rest, first :: more = bs ++ rest → rest ≠ [] →
    (p.execute p.init bs).2.1 = none ∧ .messageComplete ∉ (p.execute p.init bs).1

namespace UpgradeRequest

variable {p : Llhttp} (r : UpgradeRequest p)

def bytes : Bytes := r.first :: r.more

/-- The request as the parser hands it over, without its raw data. -/
def context : HttpRequestContext := { p.context r.bytes with messageComplete := true }

variable {r}

/-- The calls for the first bytes start with `on_message_begin`. -/
theorem calls_begin {bs rest : Bytes} (whole : r.bytes = bs ++ rest) (some' : bs ≠ []) :
    ∃ later, (p.execute p.init bs).1 = .messageBegin :: later := by
  obtain ⟨b, bs, rfl⟩ := List.exists_cons_of_ne_nil some'
  obtain ⟨rfl, -⟩ := List.cons_eq_cons.mp whole
  obtain ⟨later, start⟩ := List.head?_eq_some_iff.mp r.begins
  rcases run : p.step p.init r.first with ⟨calls, _ | err, next⟩
  all_goals
    rw [run] at start
    cases start
  · exact ⟨later ++ (p.execute next bs).1, by rw [Llhttp.execute_cons run, List.cons_append]⟩
  · exact ⟨later, by rw [Llhttp.execute_cons_stopped run]⟩

/-- No call for bytes behind the first ones is `on_message_begin`. -/
theorem calls_later {before piece rest : Bytes} (whole : r.bytes = before ++ (piece ++ rest))
    (begun : before ≠ []) (going : (p.execute p.init before).2.1 = none) :
    .messageBegin ∉ (p.execute (p.execute p.init before).2.2 piece).1 := by
  intro mem
  obtain ⟨earlier, start⟩ := calls_begin whole begun
  have some' := Llhttp.execute_prefix p.init (before ++ piece) rest
  rw [List.append_assoc, ← whole, Llhttp.execute_append going, start, bytes, r.called,
    List.cons_append] at some'
  have inside := (List.cons_prefix_cons.mp some').2.subset
  exact r.once (inside (List.mem_append_right earlier mem))

/-- What the callbacks make of the next piece: the context of the bytes so far, whose raw data is
lost if the piece is the first. -/
theorem foldl_piece {before piece rest : Bytes} (whole : r.bytes = before ++ (piece ++ rest))
    (some' : piece ≠ []) (going : (p.execute p.init before).2.1 = none) (raw : Bytes) :
    (p.execute (p.execute p.init before).2.2 piece).1.foldl HttpRequestContext.on
        { p.context before with rawData := raw } =
      { p.context (before ++ piece) with rawData := if before = [] then [] else raw } := by
  by_cases begun : before = []
  · -- the reset of `on_message_begin`
    subst begun
    rw [List.nil_append] at whole
    obtain ⟨later, start⟩ := calls_begin whole some'
    have after : Callback.messageBegin ∉ later := by
      have known := Llhttp.execute_prefix p.init piece rest
      rw [← whole, start, bytes, r.called] at known
      exact fun mem => r.once ((List.cons_prefix_cons.mp known).2.subset mem)
    have fresh : p.context piece = later.foldl HttpRequestContext.on {} := by
      rw [Llhttp.context, start, List.foldl_cons]
      rfl
    simp only [Llhttp.execute, List.nil_append, if_true]
    rw [start, List.foldl_cons, fresh]
    exact HttpRequestContext.foldl_rawData after {} []
  · rw [if_neg begun, HttpRequestContext.foldl_rawData (calls_later whole begun going),
      Llhttp.context, Llhttp.context, Llhttp.execute_append going, List.foldl_append]

/-- Within the request the loop goes on. -/
theorem context_incomplete {bs rest : Bytes} (whole : r.bytes = bs ++ rest) (more : rest ≠ []) :
    (p.context bs).messageComplete = false :=
  HttpRequestContext.foldl_incomplete (r.incremental bs rest whole more).2 rfl

end UpgradeRequest

/-! ## What the loop takes -/

/-- The end of the loop for a request above `max_request_size`. -/
def tooLarge : ParseError where
  statusCode := 431
  reason := ascii "Request Header Fields Too Large"
  parseErrorReason := ascii "request header too large"

section Loop

variable {p : Llhttp} {r : UpgradeRequest p} {maxRequestSize : Nat}

/-- One round of the loop within the request. -/
theorem receiveRequest_cons {before todo data raw : Bytes} {s s' : Inbound UInt8}
    (whole : r.bytes = before ++ todo) (left : todo ≠ []) (some' : data ≠ [])
    (run : s.recv bufferSize = ((data.length : Int), data, s')) :
    receiveRequest p maxRequestSize (p.execute p.init before).2.2
        { p.context before with rawData := raw } before.length s =
      if maxRequestSize < before.length + data.length then
        (some tooLarge, { p.context before with rawData := raw ++ data }, s')
      else
        match p.execute (p.execute p.init before).2.2 data with
        | (calls, none, state) =>
            receiveRequest p maxRequestSize state
              (calls.foldl HttpRequestContext.on
                { p.context before with rawData := raw ++ data })
              (before.length + data.length) s'
        | (calls, some .pausedUpgrade, _) =>
            (none, { calls.foldl HttpRequestContext.on
                { p.context before with rawData := raw ++ data } with messageComplete := true }, s')
        | (calls, some (.other name), _) =>
            (some { statusCode := 400, reason := ascii "Bad Request", parseErrorReason := name },
              calls.foldl HttpRequestContext.on
                { p.context before with rawData := raw ++ data }, s') := by
  have running := UpgradeRequest.context_incomplete whole left
  have length := List.length_pos_of_ne_nil some'
  rw [receiveRequest]
  simp only [running, run]
  rw [if_neg Bool.false_ne_true, if_neg (by omega), if_neg (by omega)]
  rfl

/-- **The loop** takes the chunks up to the one with the end of the request, and what that one
holds behind it.  The raw data is what it took without the first chunk. -/
theorem receiveRequest_spec (small : r.bytes.length ≤ maxRequestSize)
    (raw : Bytes) {before todo rest : Bytes} {s : Inbound UInt8}
    (whole : r.bytes = before ++ todo) (left : todo ≠ []) (here : s.pending = todo ++ rest) :
    ∃ taken after, s.pending = taken ++ after.pending ∧ todo <+: taken ∧
      (maxRequestSize < before.length + taken.length ∧
          (∃ ctx, receiveRequest p maxRequestSize (p.execute p.init before).2.2
            { p.context before with rawData := raw } before.length s =
              (some tooLarge, ctx, after)) ∨
        before.length + taken.length ≤ maxRequestSize ∧
          receiveRequest p maxRequestSize (p.execute p.init before).2.2
              { p.context before with rawData := raw } before.length s =
            (none,
              { r.context with
                rawData :=
                  if before = [] then taken.drop (s.recv bufferSize).2.1.length
                  else raw ++ taken }, after)) := by
  induction size : todo.length using Nat.strongRecOn generalizing before todo raw s with
  | ind n ih =>
      subst size
      have going := (r.incremental before todo whole left).1
      have progress : 0 < (s.recv bufferSize).1 :=
        Inbound.recv_pos (by rw [here]; simp [left]) (by decide)
      have taken := Inbound.recv_taken progress
      have answer := Inbound.recv_answer progress
      rcases run : s.recv bufferSize with ⟨n, data, s'⟩
      rw [run] at taken answer progress
      simp only at taken answer progress
      subst answer
      have some' : data ≠ [] := by
        rintro rfl
        simp at progress
      rw [receiveRequest_cons whole left some' run]
      by_cases last : todo.length ≤ data.length
      · -- the chunk with the end of the request
        obtain ⟨extra, rfl⟩ : todo <+: data :=
          List.prefix_of_prefix_length_le (here ▸ List.prefix_append todo rest)
            (taken ▸ List.prefix_append data s'.pending) last
        refine ⟨todo ++ extra, s', taken, List.prefix_append todo extra, ?_⟩
        by_cases big : maxRequestSize < before.length + (todo ++ extra).length
        · exact Or.inl ⟨big, _, if_pos big⟩
        · have whole' : r.bytes = before ++ (todo ++ []) := by rw [List.append_nil, whole]
          have paused : (p.execute (p.execute p.init before).2.2 todo).2.1 =
              some .pausedUpgrade := by
            have whole'' := r.paused
            rw [show r.first :: r.more = before ++ todo from whole,
              Llhttp.execute_append going] at whole''
            exact whole''
          have calls := UpgradeRequest.foldl_piece whole' left going (raw ++ (todo ++ extra))
          rw [← whole] at calls
          rw [if_neg big, Llhttp.execute_stopped paused]
          rcases ends : p.execute (p.execute p.init before).2.2 todo with ⟨later, err, state⟩
          rw [ends] at paused calls
          simp only at paused calls
          subst paused
          refine Or.inr ⟨Nat.not_lt.mp big, ?_⟩
          simp only [calls, List.drop_length]
          rfl
      · -- a chunk within the request
        obtain ⟨todo, rfl⟩ : data <+: todo :=
          List.prefix_of_prefix_length_le (taken ▸ List.prefix_append data s'.pending)
            (here ▸ List.prefix_append todo rest) (Nat.le_of_not_ge last)
        rw [List.length_append] at last
        have left' : todo ≠ [] := by
          rintro rfl
          simp at last
        have whole' : r.bytes = (before ++ data) ++ todo := by rw [whole, List.append_assoc]
        have within : before.length + data.length ≤ maxRequestSize := by
          rw [whole, List.length_append, List.length_append] at small
          omega
        have onward := r.incremental (before ++ data) todo whole' left'
        rw [Llhttp.execute_append going] at onward
        have calls := UpgradeRequest.foldl_piece whole some' going (raw ++ data)
        have here' : s'.pending = todo ++ rest := by
          rw [taken, List.append_assoc] at here
          exact List.append_cancel_left here
        have shorter : todo.length < (data ++ todo).length := by
          have := List.length_pos_of_ne_nil some'
          rw [List.length_append]
          omega
        obtain ⟨taken', after, cut, ends, outcome⟩ :=
          ih todo.length shorter (if before = [] then [] else raw ++ data) whole' left' here' rfl
        rw [if_neg (Nat.not_lt.mpr within)]
        refine ⟨data ++ taken', after, by rw [taken, cut, List.append_assoc],
          (List.prefix_append_right_inj data).mpr ends, ?_⟩
        rw [Llhttp.execute_append going] at outcome
        rcases round : p.execute (p.execute p.init before).2.2 data with ⟨later, err, state⟩
        rw [round] at onward calls outcome
        simp only at onward calls outcome
        obtain ⟨rfl, -⟩ := onward
        have begun : before ++ data ≠ [] := List.append_ne_nil_of_right_ne_nil before some'
        rw [List.length_append, if_neg begun] at outcome
        simp only [calls]
        rw [List.length_append, ← Nat.add_assoc]
        rcases outcome with ⟨big, ctx, result⟩ | ⟨fits, result⟩
        · exact Or.inl ⟨big, ctx, result⟩
        · refine Or.inr ⟨fits, result.trans ?_⟩
          by_cases first : before = []
          · rw [if_pos first, if_pos first, List.nil_append, List.drop_left]
          · rw [if_neg first, if_neg first, List.append_assoc]

end Loop

/-! ## The result over all cuttings -/

section Cutting

variable {p : Llhttp} {opts : ServerOptions} {r : UpgradeRequest p}

/-- The checks do not look at the raw data. -/
theorem decideRequest_rawData (env : Env) (opts : ServerOptions) (request : HttpRequestContext)
    (raw : Bytes) :
    decideRequest env opts { request with rawData := raw } = decideRequest env opts request := rfl

/-- The outcome of `accept` on a valid request, as far as it is the same for all cuttings. -/
structure Answered (env : Env) (opts : ServerOptions) (request : HttpRequestContext)
    (result : AcceptResult) : Prop where
  ok : result.ok = (answerRequest env opts request .nothing).1.ok
  selectedSubprotocol : result.selectedSubprotocol =
    (answerRequest env opts request .nothing).1.selectedSubprotocol
  headers : result.request.headers = request.headers

/-- The answer depends on the request but for its raw data. -/
theorem answered (env : Env) (opts : ServerOptions) (request : HttpRequestContext) (raw : Bytes)
    (s : Inbound UInt8) :
    Answered env opts request (answerRequest env opts { request with rawData := raw } s).1 ∧
      (answerRequest env opts { request with rawData := raw } s).1.request.rawData = raw ∧
      (answerRequest env opts { request with rawData := raw } s).2.inbound = s := by
  have same := decideRequest_rawData env opts request raw
  rcases decided : decideRequest env opts request with ⟨code, reason, body⟩ | ⟨proto, key⟩
  · rw [decided] at same
    refine ⟨⟨?_, ?_, ?_⟩, ?_, ?_⟩ <;> simp only [answerRequest, same, decided]
  · rw [decided] at same
    by_cases failed : env.sendAll (switchingProtocols proto key) < 0
    · refine ⟨⟨?_, ?_, ?_⟩, ?_, ?_⟩ <;>
        simp only [answerRequest, same, decided, if_pos failed]
    · refine ⟨⟨?_, ?_, ?_⟩, ?_, ?_⟩ <;>
        simp only [answerRequest, same, decided, if_neg failed]

/-- **`accept` on a valid request.**  It takes whole chunks, up to the one with the end of the
request.  Within `max_request_size` the outcome and the headers do not depend on the cutting; the
raw data is what was taken without the first chunk.  Above, the request is refused. -/
theorem accept_spec (env : Env) (small : r.bytes.length ≤ opts.maxRequestSize) {rest : Bytes}
    {s : Inbound UInt8} (here : s.pending = r.bytes ++ rest) :
    ∃ taken, s.pending = taken ++ (accept p env opts s).2.inbound.pending ∧
      r.bytes <+: taken ∧
      (opts.maxRequestSize < taken.length ∧ (accept p env opts s).1.ok = false ∧
          (accept p env opts s).1.statusCode = 431 ∨
        taken.length ≤ opts.maxRequestSize ∧
          Answered env opts r.context (accept p env opts s).1 ∧
          (accept p env opts s).1.request.rawData =
            taken.drop (s.recv bufferSize).2.1.length) := by
  obtain ⟨taken, after, cut, ends, outcome⟩ :=
    receiveRequest_spec small [] (List.nil_append r.bytes).symm (List.cons_ne_nil _ _) here
  rcases outcome with ⟨big, ctx, result⟩ | ⟨fits, result⟩
  · rw [List.length_nil, Nat.zero_add] at big
    have run : accept p env opts s = rejectRequest opts tooLarge ctx after := by
      rw [accept]
      simp only [Llhttp.execute, Llhttp.context, List.foldl_nil, List.length_nil] at result
      rw [result]
    rw [run]
    exact ⟨taken, cut, ends, Or.inl ⟨big, rfl, rfl⟩⟩
  · rw [List.length_nil, Nat.zero_add] at fits
    rw [if_pos rfl] at result
    have run : accept p env opts s = answerRequest env opts
        { r.context with rawData := taken.drop (s.recv bufferSize).2.1.length } after := by
      rw [accept]
      simp only [Llhttp.execute, Llhttp.context, List.foldl_nil, List.length_nil] at result
      rw [result]
    obtain ⟨same, raw, inbound⟩ := answered env opts r.context
      (taken.drop (s.recv bufferSize).2.1.length) after
    rw [run, inbound]
    exact ⟨taken, cut, ends, Or.inr ⟨fits, same, raw⟩⟩

/-- `accept` as its callers would have it, for one cutting of the request and the bytes behind
it: the expected result, the request as it was received, and nothing taken of what follows. -/
structure Received (p : Llhttp) (env : Env) (opts : ServerOptions) (r : UpgradeRequest p)
    (rest : Bytes) (expected : AcceptResult) (s : Inbound UInt8) : Prop where
  ok : (accept p env opts s).1.ok = expected.ok
  selectedSubprotocol : (accept p env opts s).1.selectedSubprotocol = expected.selectedSubprotocol
  headers : (accept p env opts s).1.request.headers = expected.request.headers
  rawData : (accept p env opts s).1.request.rawData = r.bytes
  next : (accept p env opts s).2.inbound.pending = rest

/-- The same for all cuttings, with one result. -/
def Transparent (p : Llhttp) (env : Env) (opts : ServerOptions) (r : UpgradeRequest p)
    (rest : Bytes) : Prop :=
  ∃ expected, ∀ s : Inbound UInt8, s.pending = r.bytes ++ rest →
    Received p env opts r rest expected s

/-- **No cutting gives what was received.**  If `accept` takes no more than the request, the raw
data lacks the first chunk, which `on_message_begin` clears. -/
theorem accept_not_received (env : Env) (small : r.bytes.length ≤ opts.maxRequestSize)
    (rest : Bytes) {s : Inbound UInt8} (here : s.pending = r.bytes ++ rest)
    (expected : AcceptResult) :
    ¬ Received p env opts r rest expected s := by
  intro received
  obtain ⟨taken, cut, ends, outcome⟩ := accept_spec env small here
  have exact' : taken.length = r.bytes.length := by
    have lengths := congrArg List.length (here.symm.trans cut)
    rw [received.next, List.length_append, List.length_append] at lengths
    omega
  rcases outcome with ⟨big, -, -⟩ | ⟨-, -, raw⟩
  · omega
  · have progress : 0 < (s.recv bufferSize).1 :=
      Inbound.recv_pos (by rw [here]; exact List.cons_ne_nil _ _) (by decide)
    have answer := Inbound.recv_answer progress
    have lengths := congrArg List.length raw
    rw [received.rawData, List.length_drop] at lengths
    have some' : 0 < r.bytes.length := Nat.succ_pos _
    omega

end Cutting

/-! ## A request of a browser -/

/-- Where a parser is in a request without a body. -/
inductive Place
  | start | method | url | version | line | field | gap | value | lineFeed | last
  deriving DecidableEq, Repr

/-- llhttp on requests of that kind. -/
def requestLines : Llhttp where
  State := Place
  init := .start
  step
    | .start, b => ([.messageBegin, .method [b]], none, .method)
    | .method, b => if b = 0x20 then ([], none, .url) else ([.method [b]], none, .method)
    | .url, b => if b = 0x20 then ([], none, .version) else ([.url [b]], none, .url)
    | .version, b => ([], none, if b = 0x0A then .line else .version)
    | .line, b => if b = 0x0D then ([], none, .last) else ([.headerField [b]], none, .field)
    | .field, b => if b = 0x3A then ([], none, .gap) else ([.headerField [b]], none, .field)
    | .gap, b => if b = 0x20 then ([], none, .gap) else ([.headerValue [b]], none, .value)
    | .value, b =>
        if b = 0x0D then ([.headerValueComplete], none, .lineFeed)
        else ([.headerValue [b]], none, .value)
    | .lineFeed, _ => ([], none, .line)
    | .last, _ => ([.headersComplete, .messageComplete], some .pausedUpgrade, .start)

/-- A parser that gets through all but the last byte gets through every proper beginning. -/
theorem incremental_of_dropLast {p : Llhttp} {bytes : Bytes}
    (going : (p.execute p.init bytes.dropLast).2.1 = none)
    (running : .messageComplete ∉ (p.execute p.init bytes.dropLast).1) (bs rest : Bytes)
    (whole : bytes = bs ++ rest) (more : rest ≠ []) :
    (p.execute p.init bs).2.1 = none ∧ .messageComplete ∉ (p.execute p.init bs).1 := by
  rw [whole, List.dropLast_append_of_ne_nil more] at going running
  constructor
  · cases stop : (p.execute p.init bs).2.1 with
    | none => rfl
    | some err =>
        rw [Llhttp.execute_stopped stop, stop] at going
        cases going
  · exact fun mem => running ((Llhttp.execute_prefix p.init bs rest.dropLast).subset mem)

/-- The request behind its first byte. -/
def browserBytes : Bytes :=
  ascii "ET /chat HTTP/1.1\r\nHost: a\r\nUpgrade: websocket\r\nConnection: Upgrade\r\n" ++
    ascii "Sec-WebSocket-Key: dGhlIHNhbXBsZSBub25jZQ==\r\nSec-WebSocket-Version: 13\r\n\r\n"

/-- The parser on the request and on all but its last byte. -/
theorem browser_execute :
    let whole := requestLines.execute requestLines.init (0x47 :: browserBytes)
    let inside := requestLines.execute requestLines.init (0x47 :: browserBytes).dropLast
    (whole.1 = .messageBegin :: whole.1.tail ∧ .messageBegin ∉ whole.1.tail ∧
        whole.2.1 = some .pausedUpgrade) ∧
      inside.2.1 = none ∧ .messageComplete ∉ inside.1 := by
  simp only [browserBytes, ascii_literal rfl]
  decide +kernel

def browserRequest : UpgradeRequest requestLines where
  first := 0x47
  more := browserBytes
  calls := (requestLines.execute requestLines.init (0x47 :: browserBytes)).1.tail
  begins := rfl
  called := browser_execute.1.1
  once := browser_execute.1.2.1
  paused := browser_execute.1.2.2
  incremental := incremental_of_dropLast browser_execute.2.1 browser_execute.2.2

/-- The key of that request, and a socket that sends everything. -/
def browserEnv : Env where
  computeAcceptKey key :=
    if key = ascii "dGhlIHNhbXBsZSBub25jZQ==" then ascii "s3pPLMBiTxaQ9kYGzzhZRbK+xOo=" else []
  sendAll response := response.length

/-- A ping without data, masked. -/
def ping : Bytes := [0x89, 0x80, 0x01, 0x02, 0x03, 0x04]

/-- The request and a frame behind it in one chunk. -/
def oneChunk : Inbound UInt8 where
  chunks := [browserRequest.bytes ++ ping]
  ending := 0
  positive := by
    intro c mem
    rw [List.mem_singleton.mp mem]
    exact List.cons_ne_nil _ _
  stops := Inbound.orderly_stops

theorem pending_oneChunk : oneChunk.pending = browserRequest.bytes ++ ping := List.append_nil _

theorem browserRequest_small : browserRequest.bytes.length ≤ 16384 := by
  simp only [browserRequest, UpgradeRequest.bytes, browserBytes, ascii_literal rfl]
  decide +kernel

theorem accept_not_received_browser :
    ¬ Received requestLines browserEnv {} browserRequest ping {} oneChunk :=
  accept_not_received browserEnv browserRequest_small ping pending_oneChunk {}

/-- The frame behind the request is lost, and so is the raw data. -/
theorem accept_loses_frame :
    ((accept requestLines browserEnv {} oneChunk).1.request.rawData = [] ∧
        (accept requestLines browserEnv {} oneChunk).2.inbound.pending = []) ∧
      ¬ Transparent requestLines browserEnv {} browserRequest ping := by
  have lost : (accept requestLines browserEnv {} oneChunk).1.request.rawData = [] ∧
      (accept requestLines browserEnv {} oneChunk).2.inbound.pending = [] := by
    rw [accept, receiveRequest]
    simp only [oneChunk, browserRequest, UpgradeRequest.bytes, browserBytes, browserEnv,
      answerRequest, decideRequest, upgradeKey, connectionContainsUpgrade, ascii_literal rfl]
    decide +kernel
  refine ⟨lost, ?_⟩
  rintro ⟨expected, all⟩
  have next := (all oneChunk pending_oneChunk).next
  rw [lost.2] at next
  cases next

end CoWq.WebSocket.Accept
