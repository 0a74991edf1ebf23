import CoWq.Lib.Numerals
import CoWq.Net.WebSocket.Accept

/-!
# The HTTP server

`handle_http_connection` finds out whether its client speaks HTTP/2, by ALPN or by the first bytes
that it receives, and hands these bytes on with the socket.

* `makeAppResponse`, `buildHttpResponse`: the application, with nlohmann's JSON as a parameter.
* `selectHttpAlpn`: the choice among the protocols that a TLS client offers.
* `probe`, `handleHttp1Connection`, `handleHttpConnection`: the connection.
* `scanProtocol_encode`: what the choice is on a well-formed list.
* `probe_spec`: what is decided, and that no byte is lost.
* `connection_spec`: which protocol is spoken, and the answer of HTTP/1.
-/

namespace CoWq.HttpServer

open WebSocket.Accept (Bytes ascii ascii_literal toLower Callback Llhttp)

/-! ## The application -/

/-- What is used of nlohmann's JSON: errors are exceptions with their `what()`. -/
structure Json where
  Value : Type
  parse : Bytes → Except Bytes Value
  emptyObject : Value
  /-- an object with these members, written out -/
  dump : List (Bytes × (Bytes ⊕ Value)) → Except Bytes Bytes

/-- `AppResponse`, with its default. -/
structure AppResponse where
  statusCode : Nat := 0
  reason : Bytes := []
  body : Bytes := []
  contentType : Bytes := ascii "text/plain; charset=utf-8"
  deriving DecidableEq, Repr

/-- The `try` block of `make_app_response`. -/
def echoJson (json : Json) (method url : Bytes) (headers : Bytes → Option Bytes) (body : Bytes) :
    Except Bytes Bytes := do
  let request ← if body ≠ [] then json.parse body else pure json.emptyObject
  json.dump
    ([(ascii "status", .inl (ascii "ok")), (ascii "method", .inl method),
        (ascii "path", .inl url), (ascii "request", .inr request)] ++
      match headers (ascii "content-type") with
      | some value => [(ascii "request_content_type", .inl value)]
      | none => [])

/-- `make_app_response`; `none` if an exception leaves it. -/
def makeAppResponse (json : Json) (method url : Bytes) (headers : Bytes → Option Bytes)
    (body : Bytes) : Option AppResponse :=
  if method = ascii "GET" ∧
      (url = ascii "/" ∨ url = ascii "/index" ∨ url = ascii "/index.html") then
    some
      { statusCode := 200
        reason := ascii "OK"
        body := ascii "Hello from co_wq HTTP server!\n" ++
          (ascii "Method: " ++ method ++ ascii "\n") ++ (ascii "Path: " ++ url ++ ascii "\n") }
  else if method = ascii "GET" ∧ url = ascii "/health" then
    some { statusCode := 200, reason := ascii "OK", body := ascii "OK\n" }
  else if method = ascii "POST" ∧ url = ascii "/echo-json" then
    match echoJson json method url headers body with
    | .ok text =>
        some
          { statusCode := 200
            reason := ascii "OK"
            contentType := ascii "application/json; charset=utf-8"
            body := text }
    | .error what =>
        match json.dump [(ascii "status", .inl (ascii "error")), (ascii "reason", .inl what)] with
        | .ok text =>
            some
              { statusCode := 400
                reason := ascii "Bad Request"
                contentType := ascii "application/json; charset=utf-8"
                body := text }
        | .error _ => none
  else some { statusCode := 404, reason := ascii "Not Found", body := ascii "Not Found\n" }

/-- `build_http_response` -/
def buildHttpResponse (statusCode : Nat) (reason body contentType : Bytes) : Bytes :=
  ascii "HTTP/1.1 " ++ numeral 10 statusCode ++ ascii " " ++ reason ++ ascii "\r\n" ++
    ascii "Content-Type: " ++ contentType ++ ascii "\r\n" ++ ascii "Content-Length: " ++
    numeral 10 body.length ++ ascii "\r\nConnection: close\r\n\r\n" ++ body

/-! ## The request -/

structure HttpRequestContext where
  method : Bytes := []
  url : Bytes := []
  headers : Bytes → Option Bytes := fun _ => none
  currentField : Bytes := []
  currentValue : Bytes := []
  body : Bytes := []
  headersComplete : Bool := false
  messageComplete : Bool := false

/-- `on_message_begin` with `reset`, and the other callbacks. -/
def HttpRequestContext.on (ctx : HttpRequestContext) : Callback → HttpRequestContext
  | .messageBegin => {}
  | .method data => { ctx with method := ctx.method ++ data }
  | .url data => { ctx with url := ctx.url ++ data }
  | .headerField data => { ctx with currentField := ctx.currentField ++ data }
  | .headerValue data => { ctx with currentValue := ctx.currentValue ++ data }
  | .headerValueComplete =>
      { ctx with
        headers :=
          if ctx.currentField ≠ [] then fun key =>
            if key = toLower ctx.currentField then some ctx.currentValue else ctx.headers key
          else ctx.headers
        currentField := []
        currentValue := [] }
  | .headersComplete => { ctx with headersComplete := true }
  | .body data => { ctx with body := ctx.body ++ data }
  | .messageComplete => { ctx with messageComplete := true }

/-! ## HTTP/1 -/

section Code

variable (p : Llhttp) (finish : p.State → List Callback × Bool)

/-- What the receive loop leaves: nothing came at all, or a context and `parse_error`. -/
inductive Received
  | clientDisconnectedEarly
  | ended (ctx : HttpRequestContext) (parseError : Bool)

/-- The receive loop; `finish` is `llhttp_finish`, with its calls and whether it fails. -/
def receiveRequest (state : p.State) (ctx : HttpRequestContext) (receivedAnyData : Bool)
    (s : Inbound UInt8) : Received × Inbound UInt8 :=
  if ctx.messageComplete then (.ended ctx false, s)
  else if (s.recv 4096).1 < 0 then (.ended ctx true, (s.recv 4096).2.2)
  else if (s.recv 4096).1 = 0 then
    if receivedAnyData then
      (.ended ((finish state).1.foldl HttpRequestContext.on ctx) (finish state).2,
        (s.recv 4096).2.2)
    else (.clientDisconnectedEarly, (s.recv 4096).2.2)
  else
    match p.execute state (s.recv 4096).2.1 with
    | (calls, none, state) =>
        receiveRequest state (calls.foldl HttpRequestContext.on ctx) true (s.recv 4096).2.2
    | (calls, some _, _) =>
        (.ended (calls.foldl HttpRequestContext.on ctx) true, (s.recv 4096).2.2)
termination_by s.pending.length
decreasing_by
  rename_i _failed closed _
  have progress : 0 < (s.recv 4096).1 := by omega
  have taken := congrArg List.length (Inbound.recv_taken progress)
  have answer := Inbound.recv_answer progress
  rw [List.length_append] at taken
  omega

/-- The response to what has been received; `none` if an exception is thrown. -/
def respond (json : Json) (ctx : HttpRequestContext) (parseError : Bool) : Option Bytes :=
  if parseError ∨ ctx.messageComplete = false then
    some (buildHttpResponse 400 (ascii "Bad Request") (ascii "Bad Request\n")
      (ascii "text/plain; charset=utf-8"))
  else
    (makeAppResponse json ctx.method ctx.url ctx.headers ctx.body).map fun app =>
      buildHttpResponse app.statusCode app.reason app.body app.contentType

/-- How a connection ends. -/
inductive Served
  /-- closed without an answer -/
  | closed
  | http1 (response : Option Bytes)
  /-- the rest is HTTP/2, behind these bytes -/
  | http2 (initialData : Bytes)
  deriving DecidableEq, Repr

/-- `handle_http1_connection` -/
def handleHttp1Connection (json : Json) (initialData : Bytes) (s : Inbound UInt8) :
    Served × Inbound UInt8 :=
  let received :=
    if initialData = [] then receiveRequest p finish p.init {} false s
    else
      match p.execute p.init initialData with
      | (calls, none, state) =>
          receiveRequest p finish state (calls.foldl HttpRequestContext.on {}) true s
      | (calls, some _, _) => (.ended (calls.foldl HttpRequestContext.on {}) true, s)
  match received with
  | (.clientDisconnectedEarly, s) => (.closed, s)
  | (.ended ctx parseError, s) => (.http1 (respond json ctx parseError), s)

/-! ## The protocol -/

/-- `h2_preface` -/
def h2Preface : Bytes := ascii "PRI * HTTP/2.0\r\n\r\nSM\r\n\r\n"

/-- The loop over the first bytes; `none` if the stream ends in it, else whether they are the
preface. -/
def probe (initialData : Bytes) (s : Inbound UInt8) : Option (Bool × Bytes) × Inbound UInt8 :=
  if initialData.length < h2Preface.length then
    if (s.recv (4096 - initialData.length)).1 ≤ 0 then
      (none, (s.recv (4096 - initialData.length)).2.2)
    else
      let data := initialData ++ (s.recv (4096 - initialData.length)).2.1
      let rest := (s.recv (4096 - initialData.length)).2.2
      let compareLen := min data.length h2Preface.length
      if data.take compareLen ≠ h2Preface.take compareLen then (some (false, data), rest)
      else if 4096 ≤ data.length ∨ h2Preface.length ≤ data.length then
        (some (h2Preface.length ≤ data.length, data), rest)
      else probe data rest
  else (some (h2Preface.length ≤ initialData.length, initialData), s)
termination_by h2Preface.length - initialData.length
decreasing_by
  rename_i short failed _ _
  have answer := Inbound.recv_answer (Int.not_le.mp failed)
  rw [List.length_append]
  omega

/-- One of the two loops of `select_http_alpn`. -/
def scanProtocol (wanted : Bytes) : Bytes → Option Bytes
  | [] => none
  | len :: rest =>
      if len.toNat = wanted.length ∧ rest.take len.toNat = wanted then some wanted
      else scanProtocol wanted (rest.drop len.toNat)
termination_by list => list.length
decreasing_by
  rw [List.length_drop, List.length_cons]
  omega

/-- `select_http_alpn`; `none` is `SSL_TLSEXT_ERR_NOACK`. -/
def selectHttpAlpn (list : Bytes) : Option Bytes :=
  match scanProtocol (ascii "h2") list with
  | some protocol => some protocol
  | none => scanProtocol (ascii "http/1.1") list

/-- `handle_http_connection` behind the TLS handshake, with the protocol that was selected there. -/
def handleHttpConnection (json : Json) (enableHttp2 : Bool) (alpn : Option Bytes)
    (s : Inbound UInt8) : Served × Inbound UInt8 :=
  if enableHttp2 then
    if alpn = some (ascii "h2") then (.http2 [], s)
    else
      match probe [] s with
      | (none, s) => (.closed, s)
      | (some (true, initialData), s) => (.http2 initialData, s)
      | (some (false, initialData), s) => handleHttp1Connection p finish json initialData s
  else handleHttp1Connection p finish json [] s

end Code

/-! ## The receive loop -/

/-- What the callbacks make of these bytes. -/
def contextOf (p : Llhttp) (bytes : Bytes) : HttpRequestContext :=
  (p.execute p.init bytes).1.foldl HttpRequestContext.on {}

/-- A request that llhttp goes through, and completes at its end. -/
structure Request (p : Llhttp) where
  bytes : Bytes
  accepted : (p.execute p.init bytes).2.1 = none
  complete : (contextOf p bytes).messageComplete = true
  incremental : ∀ bs rest, bytes = bs ++ rest → rest ≠ [] →
    (p.execute p.init bs).2.1 = none ∧ .messageComplete ∉ (p.execute p.init bs).1

theorem on_incomplete {ctx : HttpRequestContext} {call : Callback}
    (running : ctx.messageComplete = false) (other : call ≠ .messageComplete) :
    (ctx.on call).messageComplete = false := by
  cases call with
  | messageComplete => exact absurd rfl other
  | messageBegin => rfl
  | method | url | headerField | headerValue | headerValueComplete | headersComplete | body =>
      exact running

theorem foldl_incomplete {calls : List Callback} (other : .messageComplete ∉ calls)
    {ctx : HttpRequestContext} (running : ctx.messageComplete = false) :
    (calls.foldl HttpRequestContext.on ctx).messageComplete = false := by
  induction calls generalizing ctx with
  | nil => exact running
  | cons call calls ih =>
      rw [List.mem_cons, not_or] at other
      exact ih other.2 (on_incomplete running (Ne.symm other.1))

section Request

variable {p : Llhttp} (finish : p.State → List Callback × Bool)

/-- No prefix of a request is refused. -/
theorem Request.going (r : Request p) {bs rest : Bytes} (whole : r.bytes = bs ++ rest) :
    (p.execute p.init bs).2.1 = none := by
  by_cases more : rest = []
  · rw [more, List.append_nil] at whole
    exact whole ▸ r.accepted
  · exact (r.incremental bs rest whole more).1

/-- llhttp goes on behind a prefix as over the whole. -/
theorem contextOf_append {before data : Bytes} (going : (p.execute p.init before).2.1 = none) :
    contextOf p (before ++ data) =
      (p.execute (p.execute p.init before).2.2 data).1.foldl HttpRequestContext.on
        (contextOf p before) := by
  rw [contextOf, contextOf, WebSocket.Accept.Llhttp.execute_append going, List.foldl_append]

/-- One piece of a request. -/
theorem Request.piece (r : Request p) {before data rest : Bytes}
    (whole : r.bytes = (before ++ data) ++ rest) :
    p.execute (p.execute p.init before).2.2 data =
      ((p.execute (p.execute p.init before).2.2 data).1, none,
        (p.execute p.init (before ++ data)).2.2) := by
  have going : (p.execute p.init before).2.1 = none := r.going (by rw [whole, List.append_assoc])
  have next := r.going whole
  rw [WebSocket.Accept.Llhttp.execute_append going] at next ⊢
  exact Prod.ext rfl (Prod.ext next rfl)

/-- **The receive loop takes the request**, wherever it is cut. -/
theorem receiveRequest_spec (r : Request p) {before todo : Bytes} (received : Bool)
    {s : Inbound UInt8} (whole : r.bytes = before ++ todo) (here : s.pending = todo) :
    ∃ s', s'.pending = [] ∧
      receiveRequest p finish (p.execute p.init before).2.2 (contextOf p before) received s =
        (.ended (contextOf p r.bytes) false, s') := by
  induction size : todo.length using Nat.strongRecOn generalizing before todo received s with
  | ind n ih =>
      subst size
      rw [receiveRequest]
      by_cases more : todo = []
      · subst more
        rw [List.append_nil] at whole
        rw [← whole, if_pos r.complete]
        exact ⟨s, here, rfl⟩
      · have running : (contextOf p before).messageComplete = false :=
          foldl_incomplete (r.incremental before todo whole more).2 rfl
        have progress : 0 < (s.recv 4096).1 :=
          Inbound.recv_pos (by rw [here]; exact more) (by decide)
        have taken := Inbound.recv_taken progress
        have answer := Inbound.recv_answer progress
        rw [if_neg (by simp [running]), if_neg (by omega), if_neg (by omega)]
        generalize (s.recv 4096).2.1 = data at taken answer ⊢
        generalize (s.recv 4096).2.2 = s₁ at taken ⊢
        have whole' : r.bytes = (before ++ data) ++ s₁.pending := by
          rw [whole, ← here, taken, List.append_assoc]
        rw [r.piece whole']
        dsimp only
        rw [← contextOf_append (r.going whole)]
        refine ih s₁.pending.length ?_ true whole' rfl rfl
        rw [← here, taken, List.length_append]
        omega

/-- `handle_http1_connection` on a request, of which a part has been received before. -/
theorem handleHttp1Connection_spec (r : Request p) (json : Json) {initialData : Bytes}
    {s : Inbound UInt8} (whole : r.bytes = initialData ++ s.pending) :
    ∃ s', s'.pending = [] ∧ handleHttp1Connection p finish json initialData s =
      (.http1 (respond json (contextOf p r.bytes) false), s') := by
  unfold handleHttp1Connection
  by_cases fresh : initialData = []
  · subst fresh
    obtain ⟨s', ended, run⟩ : ∃ s', s'.pending = [] ∧ receiveRequest p finish p.init {} false s =
        (.ended (contextOf p r.bytes) false, s') := receiveRequest_spec finish r false whole rfl
    simp only [if_true, run]
    exact ⟨s', ended, rfl⟩
  · obtain ⟨s', ended, run⟩ : ∃ s', s'.pending = [] ∧
        receiveRequest p finish (p.execute p.init initialData).2.2
            ((p.execute p.init initialData).1.foldl HttpRequestContext.on {}) true s =
          (.ended (contextOf p r.bytes) false, s') := receiveRequest_spec finish r true whole rfl
    have accepted := r.going whole
    simp only [if_neg fresh]
    rcases executed : p.execute p.init initialData with ⟨calls, err, state⟩
    rw [executed] at run accepted
    cases accepted
    simp only at run ⊢
    rw [run]
    exact ⟨s', ended, rfl⟩

end Request

/-! ## The protocol of the connection -/

/-- The comparison of as much as there is of both. -/
theorem take_min_eq_iff {a b : Bytes} :
    a.take (min a.length b.length) = b.take (min a.length b.length) ↔ a <+: b ∨ b <+: a := by
  constructor
  · intro same
    by_cases shorter : a.length ≤ b.length
    · rw [Nat.min_eq_left shorter, List.take_length] at same
      exact .inl (same ▸ List.take_prefix _ b)
    · rw [Nat.min_eq_right (Nat.le_of_not_le shorter), List.take_length] at same
      exact .inr (same ▸ List.take_prefix _ a)
  · rintro (⟨more, rfl⟩ | ⟨more, rfl⟩)
    · rw [Nat.min_eq_left (by rw [List.length_append]; omega), List.take_length, List.take_left]
    · rw [Nat.min_eq_right (by rw [List.length_append]; omega), List.take_length, List.take_left]

/-- **The probe** tells whether the stream begins with the preface, and keeps what it has received;
it gives up if the stream ends within the preface. -/
theorem probe_spec {initialData : Bytes} {s : Inbound UInt8} (begun : initialData <+: h2Preface)
    (short : initialData.length < h2Preface.length) :
    (h2Preface <+: initialData ++ s.pending → ∃ data s',
      probe initialData s = (some (true, data), s') ∧
        data ++ s'.pending = initialData ++ s.pending) ∧
    (¬ h2Preface <+: initialData ++ s.pending → ¬ initialData ++ s.pending <+: h2Preface →
      ∃ data s', probe initialData s = (some (false, data), s') ∧
        data ++ s'.pending = initialData ++ s.pending) ∧
    (¬ h2Preface <+: initialData ++ s.pending → initialData ++ s.pending <+: h2Preface →
      (probe initialData s).1 = none) := by
  induction left : h2Preface.length - initialData.length using Nat.strongRecOn
    generalizing initialData s with
  | ind n ih =>
      subst left
      have room : 0 < 4096 - initialData.length := by
        have size : h2Preface.length = 24 := rfl
        omega
      rw [probe, if_pos short]
      by_cases more : s.pending = []
      · have ended : (s.recv (4096 - initialData.length)).1 ≤ 0 := by
          rw [Inbound.recv]
          split
          · exact s.stops
          · next c cs chunks =>
              rw [Inbound.pending, chunks, List.flatten_cons] at more
              exact absurd (List.append_eq_nil_iff.mp more).1 (s.positive c (by simp [chunks]))
        rw [if_pos ended, more, List.append_nil]
        have apart : ¬ h2Preface <+: initialData := fun start => by
          have := start.length_le
          omega
        exact ⟨fun start => absurd start apart, fun _ other => absurd begun other, fun _ _ => rfl⟩
      · have progress := Inbound.recv_pos more room
        have taken := Inbound.recv_taken progress
        have answer := Inbound.recv_answer progress
        rw [if_neg (Int.not_le.mpr progress)]
        generalize (s.recv (4096 - initialData.length)).2.1 = got at taken answer ⊢
        generalize (s.recv (4096 - initialData.length)).2.2 = rest at taken ⊢
        have whole : initialData ++ s.pending = (initialData ++ got) ++ rest.pending := by
          rw [taken, List.append_assoc]
        rw [whole]
        dsimp only
        by_cases same : (initialData ++ got).take
            (min (initialData ++ got).length h2Preface.length) =
          h2Preface.take (min (initialData ++ got).length h2Preface.length)
        · rw [if_neg (not_not.mpr same)]
          have either := take_min_eq_iff.mp same
          have size : h2Preface.length = 24 := rfl
          by_cases full : h2Preface.length ≤ (initialData ++ got).length
          · -- the preface has been received
            have start : h2Preface <+: initialData ++ got := by
              rcases either with within | start
              · exact ⟨[], by rw [List.append_nil, within.eq_of_length_le full]⟩
              · exact start
            have start' := start.trans (List.prefix_append _ rest.pending)
            rw [if_pos (.inr full)]
            simp only [full, decide_true]
            exact ⟨fun _ => ⟨_, rest, rfl, rfl⟩, fun apart => absurd start' apart,
              fun apart => absurd start' apart⟩
          · rw [if_neg (by omega)]
            have within : initialData ++ got <+: h2Preface := by
              rcases either with within | start
              · exact within
              · exact absurd start.length_le full
            have shorter : h2Preface.length - (initialData ++ got).length <
                h2Preface.length - initialData.length := by
              rw [List.length_append]
              omega
            exact ih _ shorter within (Nat.not_le.mp full) rfl
        · -- neither is a prefix of the other, and that stays so
          rw [if_pos same]
          have neither := take_min_eq_iff.not.mp same
          have apart : ¬ h2Preface <+: (initialData ++ got) ++ rest.pending := fun start =>
            neither ((List.prefix_or_prefix_of_prefix (List.prefix_append _ _) start).imp id id)
          have apart' : ¬ (initialData ++ got) ++ rest.pending <+: h2Preface := fun within =>
            neither (.inl ((List.prefix_append _ _).trans within))
          exact ⟨fun start => absurd start apart, fun _ _ => ⟨_, rest, rfl, rfl⟩,
            fun _ within => absurd within apart'⟩

/-- The list of a TLS client: each protocol behind its length. -/
def encodeProtocols (protocols : List Bytes) : Bytes :=
  protocols.flatMap fun protocol => UInt8.ofNat protocol.length :: protocol

/-- A loop of `select_http_alpn` looks at every protocol of the list, and at nothing else. -/
theorem scanProtocol_encode (wanted : Bytes) {protocols : List Bytes}
    (short : ∀ protocol ∈ protocols, protocol.length < 256) :
    scanProtocol wanted (encodeProtocols protocols) =
      if wanted ∈ protocols then some wanted else none := by
  induction protocols with
  | nil =>
      rw [encodeProtocols, List.flatMap_nil, scanProtocol]
      rfl
  | cons protocol protocols ih =>
      have len : (UInt8.ofNat protocol.length).toNat = protocol.length := by
        rw [UInt8.toNat_ofNat', Nat.mod_eq_of_lt (short protocol List.mem_cons_self)]
      have later := ih fun other mem => short other (List.mem_cons_of_mem _ mem)
      have cut : encodeProtocols (protocol :: protocols) =
          UInt8.ofNat protocol.length :: (protocol ++ encodeProtocols protocols) := rfl
      rw [cut, scanProtocol, len, List.take_left, List.drop_left, later]
      by_cases same : protocol = wanted
      · rw [if_pos ⟨by rw [same], same⟩, if_pos (List.mem_cons.mpr (.inl same.symm))]
      · rw [if_neg fun both => same both.2]
        simp [Ne.symm same]

/-- HTTP/2 if the client offers it, else HTTP/1.1 if it offers that. -/
theorem selectHttpAlpn_encode {protocols : List Bytes}
    (short : ∀ protocol ∈ protocols, protocol.length < 256) :
    selectHttpAlpn (encodeProtocols protocols) =
      if ascii "h2" ∈ protocols then some (ascii "h2")
      else if ascii "http/1.1" ∈ protocols then some (ascii "http/1.1") else none := by
  rw [selectHttpAlpn, scanProtocol_encode _ short, scanProtocol_encode _ short]
  by_cases offered : ascii "h2" ∈ protocols
  · simp only [if_pos offered]
  · simp only [if_neg offered]

/-- The protocol that TLS has selected for a client that offers these; without TLS, or if HTTP/2
is not enabled, there is none. -/
def negotiated (enableHttp2 : Bool) (offered : Option (List Bytes)) : Option Bytes :=
  if enableHttp2 then offered.bind fun protocols => selectHttpAlpn (encodeProtocols protocols)
  else none

/-- The client offers HTTP/2. -/
def OffersHttp2 (offered : Option (List Bytes)) : Prop :=
  ∃ protocols, offered = some protocols ∧ ascii "h2" ∈ protocols

theorem negotiated_iff {offered : Option (List Bytes)}
    (short : ∀ protocols, offered = some protocols →
      ∀ protocol ∈ protocols, protocol.length < 256) :
    negotiated true offered = some (ascii "h2") ↔ OffersHttp2 offered := by
  have other : ascii "http/1.1" ≠ ascii "h2" := by decide
  rw [negotiated, if_pos rfl]
  cases offered with
  | none => simp [OffersHttp2]
  | some protocols =>
      rw [Option.bind_some, selectHttpAlpn_encode (short protocols rfl)]
      by_cases inside : ascii "h2" ∈ protocols
      · simp [OffersHttp2, inside]
      · by_cases old : ascii "http/1.1" ∈ protocols
        · simp [OffersHttp2, inside, old, other]
        · simp [OffersHttp2, inside, old]

/-- **Which protocol is spoken.**  With HTTP/2 enabled, a client that offers it to TLS or begins
with its preface is handed on to the HTTP/2 session, with every byte that it has sent; one that
ends within the preface is closed without an answer.  Any other client that sends one request is
answered by HTTP/1, as it would be without HTTP/2, however its request is cut. -/
theorem connection_spec (p : Llhttp) (finish : p.State → List Callback × Bool) (json : Json)
    (enableHttp2 : Bool) {offered : Option (List Bytes)}
    (short : ∀ protocols, offered = some protocols →
      ∀ protocol ∈ protocols, protocol.length < 256) (s : Inbound UInt8) :
    (enableHttp2 = true → OffersHttp2 offered ∨ h2Preface <+: s.pending →
      ∃ data s', handleHttpConnection p finish json enableHttp2
          (negotiated enableHttp2 offered) s = (.http2 data, s') ∧
        data ++ s'.pending = s.pending) ∧
    (enableHttp2 = true → ¬ OffersHttp2 offered → ¬ h2Preface <+: s.pending →
      s.pending <+: h2Preface →
      (handleHttpConnection p finish json enableHttp2 (negotiated enableHttp2 offered) s).1 =
        .closed) ∧
    ∀ r : Request p, s.pending = r.bytes →
      (enableHttp2 = true → ¬ OffersHttp2 offered ∧ ¬ h2Preface <+: r.bytes ∧
        ¬ r.bytes <+: h2Preface) →
      (handleHttpConnection p finish json enableHttp2 (negotiated enableHttp2 offered) s).1 =
        .http1 (respond json (contextOf p r.bytes) false) := by
  unfold handleHttpConnection
  cases enableHttp2 with
  | false =>
      refine ⟨fun enabled => absurd enabled Bool.false_ne_true,
        fun enabled => absurd enabled Bool.false_ne_true, fun r here _ => ?_⟩
      obtain ⟨s', -, run⟩ :=
        handleHttp1Connection_spec finish r json (show r.bytes = [] ++ s.pending from here.symm)
      rw [if_neg Bool.false_ne_true, run]
  | true =>
      have start : ([] : Bytes) <+: h2Preface := List.nil_prefix
      obtain ⟨found, other, ended⟩ := probe_spec (s := s) start (by decide)
      rw [List.nil_append] at found other ended
      simp only [if_true]
      by_cases offers : OffersHttp2 offered
      · rw [if_pos ((negotiated_iff short).mpr offers)]
        exact ⟨fun _ _ => ⟨[], s, rfl, rfl⟩, fun _ apart => absurd offers apart,
          fun _ _ apart => absurd offers (apart trivial).1⟩
      · rw [if_neg ((negotiated_iff short).not.mpr offers)]
        refine ⟨fun _ speaks => ?_, fun _ _ apart within => ?_, fun r here apart => ?_⟩
        · obtain ⟨data, s', run, whole⟩ := found (speaks.resolve_left offers)
          rw [run]
          exact ⟨data, s', rfl, whole⟩
        · have gone := ended apart within
          rcases run : probe [] s with ⟨decided, s'⟩
          rw [run] at gone
          dsimp only at gone
          rw [gone]
        · obtain ⟨-, apart⟩ := apart trivial
          rw [here] at other
          obtain ⟨data, s', run, whole⟩ := other apart.1 apart.2
          obtain ⟨s'', -, run'⟩ := handleHttp1Connection_spec finish r json whole.symm
          rw [run]
          dsimp only
          rw [run']

/-! ## Two clients -/

/-- The parser of `WebSocket.Accept.requestLines`, for a server that does not pause it. -/
def plainLines : Llhttp where
  State := WebSocket.Accept.Place
  init := .start
  step place b :=
    ((WebSocket.Accept.requestLines.step place b).1, none,
      (WebSocket.Accept.requestLines.step place b).2.2)

/-- `llhttp_finish` fails within a request. -/
def finishLines (place : WebSocket.Accept.Place) : List Callback × Bool :=
  ([], decide (place ≠ .start))

def healthBytes : Bytes := ascii "GET /health HTTP/1.1\r\nHost: a\r\n\r\n"

/-- The parser on the request and on all but its last byte. -/
theorem health_execute :
    ((plainLines.execute plainLines.init healthBytes).2.1 = none ∧
        (contextOf plainLines healthBytes).messageComplete = true) ∧
      (plainLines.execute plainLines.init healthBytes.dropLast).2.1 = none ∧
      .messageComplete ∉ (plainLines.execute plainLines.init healthBytes.dropLast).1 := by
  simp only [contextOf, healthBytes, ascii_literal rfl]
  decide +kernel

def healthRequest : Request plainLines where
  bytes := healthBytes
  accepted := health_execute.1.1
  complete := health_execute.1.2
  incremental := WebSocket.Accept.incremental_of_dropLast health_execute.2.1 health_execute.2.2

/-- A JSON library with the empty object alone. -/
def emptyObjects : Json where
  Value := Unit
  parse text := if text = ascii "{}" then .ok () else .error (ascii "parse error")
  emptyObject := ()
  dump _ := .ok (ascii "{}")

/-- The request, its first byte apart. -/
def healthInTwo : Inbound UInt8 where
  chunks := [healthBytes.take 1, healthBytes.drop 1]
  ending := 0
  positive := by
    simp only [healthBytes, ascii_literal rfl]
    decide
  stops := Inbound.orderly_stops

/-- The preface with the frame header of empty settings behind it, cut within. -/
def prefaceInTwo : Inbound UInt8 where
  chunks := [h2Preface.take 3, h2Preface.drop 3 ++ [0, 0, 0, 4, 0, 0, 0, 0, 0]]
  ending := 0
  positive := by
    simp only [h2Preface, ascii_literal rfl]
    decide
  stops := Inbound.orderly_stops

theorem connection_spec_clients :
    (handleHttpConnection plainLines finishLines emptyObjects true
        (negotiated true (some [ascii "http/1.1"])) healthInTwo).1 =
      .http1 (some (buildHttpResponse 200 (ascii "OK") (ascii "OK\n")
        (ascii "text/plain; charset=utf-8"))) ∧
    ∃ data s', handleHttpConnection plainLines finishLines emptyObjects
        true (negotiated true none) prefaceInTwo = (.http2 data, s') ∧
      data ++ s'.pending = h2Preface ++ [0, 0, 0, 4, 0, 0, 0, 0, 0] := by
  have apart : ¬ OffersHttp2 (some [ascii "http/1.1"]) ∧ ¬ h2Preface <+: healthRequest.bytes ∧
      ¬ healthRequest.bytes <+: h2Preface := by
    refine ⟨fun ⟨protocols, same, offers⟩ => ?_, ?_⟩
    · cases same
      exact absurd offers (by decide)
    · simp only [healthRequest, healthBytes, h2Preface, ascii_literal rfl]
      decide
  have answer : respond emptyObjects (contextOf plainLines healthRequest.bytes) false =
      some (buildHttpResponse 200 (ascii "OK") (ascii "OK\n")
        (ascii "text/plain; charset=utf-8")) := by
    simp only [healthRequest, contextOf, healthBytes, respond, makeAppResponse, ascii_literal rfl]
    decide +kernel
  have here : healthInTwo.pending = healthRequest.bytes := by
    rw [Inbound.pending, healthInTwo, List.flatten_cons, List.flatten_cons, List.flatten_nil,
      List.append_nil, List.take_append_drop]
    rfl
  have whole : prefaceInTwo.pending = h2Preface ++ [0, 0, 0, 4, 0, 0, 0, 0, 0] := by
    simp [Inbound.pending, prefaceInTwo, ← List.append_assoc]
  have short : ∀ protocols, some [ascii "http/1.1"] = some protocols →
      ∀ protocol ∈ protocols, protocol.length < 256 := by
    intro protocols same protocol mem
    cases same
    rw [List.mem_singleton.mp mem]
    decide
  rw [← whole, ← answer]
  refine ⟨?_, ?_⟩
  · exact (connection_spec plainLines _ emptyObjects true short healthInTwo).2.2 healthRequest
      here fun _ => apart
  · exact (connection_spec plainLines _ emptyObjects true
      (fun _ none => absurd none.symm (Option.some_ne_none _)) prefaceInTwo).1 rfl
      (.inr (whole ▸ List.prefix_append _ _))

end CoWq.HttpServer
