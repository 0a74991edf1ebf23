import CoWq.Lib.HttpRequest
import CoWq.Net.Proxy.Connect
import CoWq.Net.Proxy.Target

/-!
# The request to the upstream

Behind every request but `CONNECT` the proxy writes a request of its own, from the fields and the
body that the callbacks have collected.

* `Context`: what the callbacks collect; `buildUpstreamRequest`: the code.
* `Received`: a request as llhttp delivers it, in pieces of any size.
* `SameMeaning`: the text is read as one request with the method, the path, the fields and the body
  of the one that was received.
* `sameMeaning_iff`: exactly when it is; `chunked_unread` is a body with chunked coding.
-/

namespace CoWq.HttpProxy.Upstream

open TextSearch
open HttpRequest (HeaderField Request values lower text trimBlanks isChunked readBody readRequest)
open Target (UrlParts parseHttpUrl splitHostPort)
open WebSocket.Accept (Callback ascii toLower)

abbrev Bytes := List UInt8

abbrev HeaderEntry := HeaderField

/-! ## The code -/

/-- `HttpProxyContext`, with what the requests without tunnel use of it. -/
structure Context extends HttpProxyContext where
  headerSequence : List HeaderEntry := []
  currentField : Bytes := []
  currentValue : Bytes := []
  body : Bytes := []
  httpMajor : Nat := 1
  httpMinor : Nat := 1
  headersComplete : Bool := false

/-- The callbacks; the parser has the version. -/
def Context.on (major minor : Nat) (ctx : Context) : Callback → Context
  | .messageBegin => {}
  | .method data => { ctx with method := ctx.method ++ data }
  | .url data => { ctx with url := ctx.url ++ data }
  | .headerField data => { ctx with currentField := ctx.currentField ++ data }
  | .headerValue data => { ctx with currentValue := ctx.currentValue ++ data }
  | .headerValueComplete =>
      let ctx :=
        if ctx.currentField ≠ [] then
          { ctx with
            headerSequence := ctx.headerSequence ++ [⟨ctx.currentField, ctx.currentValue⟩] }
        else ctx
      { ctx with currentField := [], currentValue := [] }
  | .headersComplete =>
      { ctx with headersComplete := true, httpMajor := major, httpMinor := minor }
  | .body data => { ctx with body := ctx.body ++ data }
  | .messageComplete => { ctx with messageComplete := true }

/-- `append_host_literal` -/
def appendHostLiteral (dest host : Bytes) : Bytes :=
  if find 58 host ≠ none then dest ++ [91] ++ host ++ [93] else dest ++ host

/-- The loop over the header sequence; the flag is `has_host_header`. -/
def copyHeader (copied : Bytes × Bool) (entry : HeaderEntry) : Bytes × Bool :=
  let lower := toLower entry.name
  if lower = ascii "proxy-connection" then copied
  else if lower = ascii "connection" then copied
  else
    (copied.1 ++ entry.name ++ ascii ": " ++ entry.value ++ ascii "\r\n",
      copied.2 || lower = ascii "host")

/-- `build_upstream_request` -/
def buildUpstreamRequest (ctx : Context) (parts : UrlParts) : Bytes :=
  let request := ctx.method ++ [32] ++ parts.path ++ ascii " HTTP/" ++ numeral 10 ctx.httpMajor ++
    [46] ++ numeral 10 ctx.httpMinor ++ ascii "\r\n"
  let copied := ctx.headerSequence.foldl copyHeader (request, false)
  let request :=
    if !copied.2 then
      appendHostLiteral (copied.1 ++ ascii "Host: ") parts.host ++
        (if parts.port ≠ 80 then 58 :: numeral 10 parts.port.toNat else []) ++ ascii "\r\n"
    else copied.1
  request ++ ascii "Connection: close\r\n" ++ ascii "Proxy-Connection: close\r\n" ++ ascii "\r\n" ++
    ctx.body

/-! ## Requests -/

/-- How the end of a body is known: there is none, its length is given, or it is coded. -/
inductive Framed (fields : List HeaderField) : Bytes → List HeaderField → Prop
  | none : values (text "transfer-encoding") fields = [] →
      values (text "content-length") fields = [] → Framed fields [] []
  | length {body : Bytes} : values (text "transfer-encoding") fields = [] →
      values (text "content-length") fields ≠ [] →
      (∀ value ∈ values (text "content-length") fields,
        readNumeral 10 (trimBlanks value) = some body.length) → Framed fields body []
  | chunked {body : Bytes} {trailers : List HeaderField} {codings : Bytes} :
      (values (text "transfer-encoding") fields).getLast? = some codings →
      isChunked codings = true → Framed fields body trailers

/-- A request that llhttp accepts. -/
structure Received where
  method : Bytes
  url : Bytes
  httpMajor : Nat
  httpMinor : Nat
  fields : List HeaderField
  body : Bytes
  trailers : List HeaderField
  named : method ≠ []
  token : method.all HttpRequest.isTokenChar
  visible : ∀ c ∈ url, 33 ≤ c
  digits : httpMajor < 10 ∧ httpMinor < 10
  formed : ∀ field ∈ fields ++ trailers, field.WellFormed
  framed : Framed fields body trailers

/-- The calls that deliver a text in pieces. -/
def Spans (call : Bytes → Callback) (data : Bytes) (calls : List Callback) : Prop :=
  ∃ pieces : List Bytes, calls = pieces.map call ∧ pieces.flatten = data

/-- The calls that deliver fields. -/
inductive FieldCalls : List HeaderField → List Callback → Prop
  | nil : FieldCalls [] []
  | cons {field : HeaderField} {fields : List HeaderField} {name value calls : List Callback} :
      Spans .headerField field.name name → Spans .headerValue field.value value →
      FieldCalls fields calls →
      FieldCalls (field :: fields) (name ++ value ++ .headerValueComplete :: calls)

/-- The calls that deliver a request. -/
def Received.Calls (r : Received) (calls : List Callback) : Prop :=
  ∃ method url fields body trailers, Spans .method r.method method ∧ Spans .url r.url url ∧
    FieldCalls r.fields fields ∧ Spans .body r.body body ∧ FieldCalls r.trailers trailers ∧
    calls = .messageBegin :: (method ++ url ++ fields ++
      .headersComplete :: (body ++ trailers ++ [.messageComplete]))

/-- What the callbacks collect of it. -/
def Received.context (r : Received) : Context where
  method := r.method
  url := r.url
  messageComplete := true
  headerSequence := r.fields ++ r.trailers
  body := r.body
  httpMajor := r.httpMajor
  httpMinor := r.httpMinor
  headersComplete := true

/-! ## What is to be read -/

/-- What follows the authority of an absolute URI. -/
def afterAuthority (url : Bytes) : Option Bytes :=
  (findText (ascii "://") url).map fun pos =>
    (url.drop (pos + 3)).dropWhile fun c => c ≠ 47 ∧ c ≠ 63

/-- The path of an absolute URI with its query; an empty path is `/`. -/
def pathOf (url : Bytes) : Option Bytes :=
  (afterAuthority url).map fun behind => if behind.head? = some 47 then behind else 47 :: behind

/-- The fields that are not to change: those of the connections are replaced, and a request without
`Host` gets one. -/
def Received.endToEnd (r : Received) (field : HeaderField) : Bool :=
  lower field.name ≠ text "connection" ∧ lower field.name ≠ text "proxy-connection" ∧
    ¬ (lower field.name = text "host" ∧ values (text "host") r.fields = [])

/-- The text is one request, and means what the received one does. -/
def SameMeaning (r : Received) (message : Bytes) : Prop :=
  ∃ read, readRequest message = some (read, []) ∧ read.method = r.method ∧
    some read.target = pathOf r.url ∧
    read.version = numeral 10 r.httpMajor ++ 46 :: numeral 10 r.httpMinor ∧
    read.fields.filter r.endToEnd = (r.fields.filter r.endToEnd).map HeaderField.trimmed ∧
    read.body = r.body

/-! ## What the callbacks collect -/

variable {major minor : Nat}

/-- Pieces are put together when each call appends its piece. -/
theorem foldl_spans {call : Bytes → Callback} (put : Context → Bytes → Context)
    (appends : ∀ ctx data, Context.on major minor ctx (call data) = put ctx data)
    (put_nil : ∀ ctx, put ctx [] = ctx)
    (put_put : ∀ ctx front back, put (put ctx front) back = put ctx (front ++ back))
    {data : Bytes} {calls : List Callback} (spans : Spans call data calls) (ctx : Context) :
    calls.foldl (Context.on major minor) ctx = put ctx data := by
  obtain ⟨pieces, rfl, rfl⟩ := spans
  induction pieces generalizing ctx with
  | nil => exact (put_nil ctx).symm
  | cons piece pieces ih =>
      rw [List.map_cons, List.foldl_cons, appends, ih, put_put, List.flatten_cons]

theorem foldl_fields {fields : List HeaderField} {calls : List Callback}
    (delivered : FieldCalls fields calls) (formed : ∀ field ∈ fields, field.WellFormed)
    {ctx : Context} (fieldDone : ctx.currentField = []) (valueDone : ctx.currentValue = []) :
    calls.foldl (Context.on major minor) ctx =
      { ctx with headerSequence := ctx.headerSequence ++ fields } := by
  induction delivered generalizing ctx with
  | nil => rw [List.append_nil]; rfl
  | @cons field fields name value calls inName inValue _ ih =>
      have some' : field.name ≠ [] := (formed field List.mem_cons_self).1
      have later := fun other inside => formed other (List.mem_cons_of_mem _ inside)
      rw [List.foldl_append, List.foldl_append,
        foldl_spans (fun ctx data => { ctx with currentField := ctx.currentField ++ data })
          (fun _ _ => rfl) (by simp) (by simp) inName,
        foldl_spans (fun ctx data => { ctx with currentValue := ctx.currentValue ++ data })
          (fun _ _ => rfl) (by simp) (by simp) inValue,
        List.foldl_cons]
      simp only [Context.on, fieldDone, valueDone, List.nil_append, ne_eq, some', not_false_iff,
        if_true]
      rw [ih later rfl rfl]
      simp

/-- **The callbacks collect the request**, whatever they have collected before. -/
theorem Received.foldl_calls {r : Received} {calls : List Callback} (delivered : r.Calls calls)
    (ctx : Context) : calls.foldl (Context.on r.httpMajor r.httpMinor) ctx = r.context := by
  obtain ⟨method, url, fields, body, trailers, inMethod, inUrl, inFields, inBody, inTrailers, rfl⟩ :=
    delivered
  have formed := r.formed
  simp only [List.mem_append, or_imp, forall_and] at formed
  rw [List.foldl_cons, List.foldl_append, List.foldl_append, List.foldl_append,
    foldl_spans (fun ctx data => { ctx with method := ctx.method ++ data })
      (fun _ _ => rfl) (by simp) (by simp) inMethod,
    foldl_spans (fun ctx data => { ctx with url := ctx.url ++ data })
      (fun _ _ => rfl) (by simp) (by simp) inUrl,
    foldl_fields inFields formed.1 rfl rfl, List.foldl_cons, List.foldl_append, List.foldl_append,
    foldl_spans (fun ctx data => { ctx with body := ctx.body ++ data })
      (fun _ _ => rfl) (by simp) (by simp) inBody,
    foldl_fields inTrailers formed.2 rfl rfl]
  rfl

/-! ## The text that is built -/

/-- The fields that are copied. -/
def copiedFields (entries : List HeaderEntry) : List HeaderField :=
  entries.filter fun entry => lower entry.name ≠ text "connection" ∧
    lower entry.name ≠ text "proxy-connection"

/-- The value of the `Host` field that the proxy makes. -/
def hostValue (parts : UrlParts) : Bytes :=
  appendHostLiteral [] parts.host ++ if parts.port ≠ 80 then 58 :: numeral 10 parts.port.toNat else []

/-- The fields of the proxy itself. -/
def ownFields (entries : List HeaderEntry) (parts : UrlParts) : List HeaderField :=
  (if values (text "host") entries = [] then [⟨text "Host", hostValue parts⟩] else []) ++
    [⟨text "Connection", text "close"⟩, ⟨text "Proxy-Connection", text "close"⟩]

/-- The fields of a connection, which are not copied. -/
def OfConnection (entry : HeaderEntry) : Prop :=
  lower entry.name = text "connection" ∨ lower entry.name = text "proxy-connection"

theorem copyHeader_dropped {entry : HeaderEntry} (dropped : OfConnection entry)
    (copied : Bytes × Bool) : copyHeader copied entry = copied := by
  unfold copyHeader
  rcases dropped with connection | proxy
  · have same : toLower entry.name = ascii "connection" := connection
    simp [same]
  · have same : toLower entry.name = ascii "proxy-connection" := proxy
    simp [same]

theorem copyHeader_copied {entry : HeaderEntry} (other : ¬ OfConnection entry)
    (copied : Bytes × Bool) : copyHeader copied entry =
      (copied.1 ++ (entry.asLine ++ [13, 10]), copied.2 || lower entry.name = text "host") := by
  obtain ⟨connection, proxy⟩ := not_or.mp other
  have noConnection : toLower entry.name ≠ ascii "connection" := connection
  have noProxy : toLower entry.name ≠ ascii "proxy-connection" := proxy
  unfold copyHeader
  simp only [noConnection, noProxy, if_false, Prod.mk.injEq]
  refine ⟨?_, rfl⟩
  rw [HeaderField.asLine]
  simp only [List.append_assoc]
  rfl

theorem foldl_copyHeader (entries : List HeaderEntry) (copied : Bytes × Bool) :
    entries.foldl copyHeader copied =
      (copied.1 ++ HttpRequest.lines (copiedFields entries),
        copied.2 || values (text "host") entries ≠ []) := by
  induction entries generalizing copied with
  | nil => simp [copiedFields, HttpRequest.lines, values]
  | cons entry entries ih =>
      rw [List.foldl_cons]
      by_cases dropped : OfConnection entry
      · have kept : copiedFields (entry :: entries) = copiedFields entries := by
          refine List.filter_cons_of_neg ?_
          simpa [OfConnection, or_iff_not_imp_left] using dropped
        have noHost : lower entry.name ≠ text "host" := by
          rcases dropped with connection | proxy
          · rw [connection]
            decide
          · rw [proxy]
            decide
        rw [copyHeader_dropped dropped, ih, kept, HttpRequest.values_cons, if_neg noHost]
      · have kept : copiedFields (entry :: entries) = entry :: copiedFields entries :=
          List.filter_cons_of_pos (by simpa [OfConnection] using dropped)
        rw [copyHeader_copied dropped, ih, kept, HttpRequest.values_cons, HttpRequest.lines_cons,
          List.append_assoc]
        by_cases host : lower entry.name = text "host"
        · simp [host]
        · simp [host]

/-- A digit as a stream prints it. -/
def digit (d : Nat) : UInt8 := 48 + UInt8.ofNat d

theorem numeral_digit {d : Nat} (small : d < 10) : numeral 10 d = [digit d] := by
  have all : ∀ d < 10, numeral 10 d = [digit d] := by decide
  exact all d small

theorem digit_ne {d : Nat} (small : d < 10) : digit d ≠ 13 := by
  have all : ∀ d < 10, digit d ≠ 13 := by decide
  exact all d small

theorem appendHostLiteral_eq (dest host : Bytes) :
    appendHostLiteral dest host = dest ++ appendHostLiteral [] host := by
  unfold appendHostLiteral
  split
  · simp only [List.nil_append, List.append_assoc]
  · rw [List.nil_append]

/-- **The text that is built, line by line.** -/
theorem Received.build (r : Received) (parts : UrlParts) :
    buildUpstreamRequest r.context parts =
      r.method ++ 32 :: (parts.path ++
          32 :: (text "HTTP/" ++ [digit r.httpMajor, 46, digit r.httpMinor])) ++ [13, 10] ++
        (HttpRequest.lines (copiedFields (r.fields ++ r.trailers) ++
          ownFields (r.fields ++ r.trailers) parts) ++ [13, 10] ++ r.body) := by
  have blank : ascii " HTTP/" = 32 :: text "HTTP/" := rfl
  have ends : ascii "\r\n" = [13, 10] := rfl
  have own : HttpRequest.lines [⟨text "Connection", text "close"⟩,
      ⟨text "Proxy-Connection", text "close"⟩] =
      ascii "Connection: close\r\n" ++ ascii "Proxy-Connection: close\r\n" := by decide
  rw [buildUpstreamRequest, Received.context]
  dsimp only
  rw [foldl_copyHeader, numeral_digit r.digits.1, numeral_digit r.digits.2, blank, ends, ownFields,
    HttpRequest.lines_append, HttpRequest.lines_append, own]
  by_cases host : values (text "host") (r.fields ++ r.trailers) = []
  · have line (value : Bytes) : HttpRequest.lines [⟨text "Host", value⟩] =
        ascii "Host: " ++ value ++ [13, 10] := by
      rw [HttpRequest.lines_cons, HeaderField.asLine]
      simp only [HttpRequest.lines, List.flatMap_nil, List.append_nil]
      rfl
    rw [if_pos host, line, hostValue, appendHostLiteral_eq (_ ++ _)]
    simp [host]
  · rw [if_neg host]
    simp [host, HttpRequest.lines]

/-! ## The target -/

theorem splitHostPort_mem {input host : Bytes} {port defaultPort : UInt16}
    (found : splitHostPort input defaultPort = some (host, port)) : ∀ c ∈ host, c ∈ input := by
  unfold splitHostPort at found
  obtain ⟨-, found⟩ := Option.ite_none_left_eq_some.mp found
  intro c inside
  split at found
  · split at found
    · cases found
    · next closing _ =>
        have inBrackets : host = (input.drop 1).take (closing - 1) := by
          dsimp only at found
          split at found
          · cases found
            rfl
          · obtain ⟨-, found⟩ := Option.ite_none_left_eq_some.mp found
            obtain ⟨value, -, same⟩ := Option.map_eq_some_iff.mp found
            cases same
            rfl
        rw [inBrackets] at inside
        exact List.mem_of_mem_drop (List.mem_of_mem_take inside)
  · split at found
    · cases found
      exact inside
    · split at found
      · obtain ⟨-, found⟩ := Option.ite_none_left_eq_some.mp found
        obtain ⟨value, -, same⟩ := Option.map_eq_some_iff.mp found
        cases same
        exact List.mem_of_mem_take inside
      · cases found
        exact inside

/-- The parts are pieces of what follows the scheme. -/
theorem parts_of_parseHttpUrl {url : Bytes} {parts : UrlParts}
    (found : parseHttpUrl url = some parts) :
    ∃ rest, (∀ c ∈ rest, c ∈ url) ∧
      afterAuthority url = some (rest.dropWhile fun c => c ≠ 47 ∧ c ≠ 63) ∧
      (∀ c ∈ parts.host, c ∈ rest) ∧
      parts.path = match find 47 rest with
        | none => ascii "/"
        | some slash => rest.drop slash := by
  unfold parseHttpUrl at found
  split at found
  · cases found
  · next pos at' =>
      obtain ⟨-, found⟩ := Option.ite_none_left_eq_some.mp found
      obtain ⟨-, found⟩ := Option.ite_none_left_eq_some.mp found
      refine ⟨url.drop (pos + 3), fun c => List.mem_of_mem_drop,
        by rw [afterAuthority, at']; rfl, ?_⟩
      obtain ⟨-, found⟩ := Option.ite_none_left_eq_some.mp found
      split at found
      · cases found
      · next host port split =>
          obtain ⟨-, found⟩ := Option.ite_none_left_eq_some.mp found
          cases found
          refine ⟨fun c inside => ?_, rfl⟩
          have inAuthority := splitHostPort_mem split c inside
          cases slash : find 47 (url.drop (pos + 3)) with
          | none =>
              rw [slash] at inAuthority
              exact inAuthority
          | some i =>
              rw [slash] at inAuthority
              exact List.mem_of_mem_take inAuthority

/-- The path is cut off at the first slash, which is its own unless a query follows the
authority. -/
theorem path_iff (rest : Bytes) :
    (match find 47 rest with
      | none => ascii "/"
      | some slash => rest.drop slash) =
        (if (rest.dropWhile fun c => c ≠ 47 ∧ c ≠ 63).head? = some 47 then
          rest.dropWhile fun c => c ≠ 47 ∧ c ≠ 63
        else 47 :: rest.dropWhile fun c => c ≠ 47 ∧ c ≠ 63) ↔
      (rest.dropWhile fun c => c ≠ 47 ∧ c ≠ 63).head? ≠ some 63 := by
  have cut : (rest.takeWhile fun c => c ≠ 47 ∧ c ≠ 63) ++
      (rest.dropWhile fun c => c ≠ 47 ∧ c ≠ 63) = rest := List.takeWhile_append_dropWhile
  have noSlash : 47 ∉ rest.takeWhile fun c => c ≠ 47 ∧ c ≠ 63 := fun inside => by
    simpa using List.mem_takeWhile_imp inside
  have stops := List.head?_dropWhile_not (fun c : UInt8 => decide (c ≠ 47 ∧ c ≠ 63)) rest
  generalize (rest.takeWhile fun c => c ≠ 47 ∧ c ≠ 63) = authority at cut noSlash
  generalize (rest.dropWhile fun c => c ≠ 47 ∧ c ≠ 63) = behind at cut stops ⊢
  subst cut
  cases behind with
  | nil =>
      rw [find_eq_none.mpr (by rwa [List.append_nil])]
      exact ⟨fun _ => by simp, fun _ => rfl⟩
  | cons c behind =>
      by_cases slash : c = 47
      · subst slash
        rw [find_cut noSlash]
        simp
      · have query : c = 63 := by simpa [slash] using stops
        subst query
        refine ⟨fun same => ?_, fun other => (other rfl).elim⟩
        rw [if_neg (by simp)] at same
        cases found : find 47 (authority ++ 63 :: behind) with
        | none =>
            rw [found] at same
            cases same
        | some i =>
            obtain ⟨before, after, pieces, -, rfl⟩ := find_eq_some found
            rw [found, pieces] at same
            dsimp only at same
            rw [List.drop_left] at same
            rw [(List.cons.inj same).2] at pieces
            have ends : authority = before ++ [47] :=
              List.append_cancel_right (pieces.trans (List.append_cons _ _ _))
            exact (noSlash (by simp [ends])).elim

/-- The path is that of the URI unless a query follows the authority. -/
theorem pathOf_iff {url : Bytes} {parts : UrlParts} (found : parseHttpUrl url = some parts) :
    some parts.path = pathOf url ↔ (afterAuthority url).bind List.head? ≠ some 63 := by
  obtain ⟨rest, -, behind, -, path⟩ := parts_of_parseHttpUrl found
  rw [pathOf, behind, path, Option.map_some, Option.some_inj, Option.bind_some]
  exact path_iff rest

/-! ## The request that is read -/

theorem values_copiedFields {name : Bytes} (other : name ≠ text "connection")
    (other' : name ≠ text "proxy-connection") (entries : List HeaderEntry) :
    values name (copiedFields entries) = values name entries := by
  refine HttpRequest.values_filter name fun field same => ?_
  rw [same]
  exact decide_eq_true ⟨other, other'⟩

theorem values_ownFields {name : Bytes} (entries : List HeaderEntry) (parts : UrlParts)
    (host : name ≠ text "host") (other : name ≠ text "connection")
    (other' : name ≠ text "proxy-connection") : values name (ownFields entries parts) = [] := by
  have lowerHost : lower (text "Host") = text "host" := by decide
  have lowerConnection : lower (text "Connection") = text "connection" := by decide
  have lowerProxy : lower (text "Proxy-Connection") = text "proxy-connection" := by decide
  have connection : values name [⟨text "Connection", text "close"⟩,
      ⟨text "Proxy-Connection", text "close"⟩] = [] := by
    rw [HttpRequest.values_cons, HttpRequest.values_cons, lowerConnection, lowerProxy,
      if_neg other.symm, if_neg other'.symm]
    rfl
  rw [ownFields, HttpRequest.values_append, connection, List.append_nil]
  split
  · rw [HttpRequest.values_cons, lowerHost, if_neg host.symm]
    rfl
  · rfl

theorem hostValue_notMem {parts : UrlParts} (inHost : 13 ∉ parts.host) :
    13 ∉ hostValue parts := by
  have inPort : 13 ∉ numeral 10 parts.port.toNat := fun inside =>
    absurd (digitValue_of_read (readDigits_numeral (by decide) (by decide) _) inside) (by decide)
  unfold hostValue appendHostLiteral
  split
  · split
    · simp [inHost, inPort]
    · simp [inHost]
  · split
    · simp [inHost, inPort]
    · simp [inHost]

theorem ownFields_formed {entries : List HeaderEntry} {parts : UrlParts}
    (inHost : 13 ∉ parts.host) : ∀ field ∈ ownFields entries parts, field.WellFormed := by
  intro field inside
  rw [ownFields, List.mem_append] at inside
  rcases inside with host | own
  · split at host
    · rw [List.mem_singleton.mp host]
      have token : text "Host" ≠ [] ∧ (text "Host").all HttpRequest.isTokenChar := by decide
      exact ⟨token.1, token.2, hostValue_notMem inHost⟩
    · cases host
  · rcases List.mem_cons.mp own with rfl | own
    · exact ⟨by decide, by decide, by decide⟩
    · rw [List.mem_singleton.mp own]
      exact ⟨by decide, by decide, by decide⟩

/-- The fields of the request that is built. -/
def Received.builtFields (r : Received) (parts : UrlParts) : List HeaderField :=
  copiedFields (r.fields ++ r.trailers) ++ ownFields (r.fields ++ r.trailers) parts

/-- **The request that is built has a head that is read again.** -/
theorem Received.readRequest_build (r : Received) {parts : UrlParts}
    (found : parseHttpUrl r.url = some parts) :
    readRequest (buildUpstreamRequest r.context parts) =
      (readBody ((r.builtFields parts).map HeaderField.trimmed) r.body).map fun (body, last) =>
        (⟨r.method, parts.path, [digit r.httpMajor, 46, digit r.httpMinor],
          (r.builtFields parts).map HeaderField.trimmed, body⟩, last) := by
  obtain ⟨rest, inUrl, -, inHost, path⟩ := parts_of_parseHttpUrl found
  have visible : ∀ c ∈ rest, 33 ≤ c := fun c inside => r.visible c (inUrl c inside)
  have apart {c : UInt8} (seen : 33 ≤ c) : c ≠ 32 ∧ c ≠ 13 := by
    constructor
    · rintro rfl
      exact absurd seen (by decide)
    · rintro rfl
      exact absurd seen (by decide)
  have target : parts.path ≠ [] ∧ ∀ c ∈ parts.path, c ≠ 32 ∧ c ≠ 13 := by
    rw [path]
    cases slash : find 47 rest with
    | none =>
        refine ⟨List.cons_ne_nil _ _, fun c inside => ?_⟩
        rw [List.mem_singleton.mp inside]
        decide
    | some i =>
        obtain ⟨before, after, rfl, -, rfl⟩ := find_eq_some slash
        refine ⟨by simp, fun c inside => apart (visible c (List.mem_of_mem_drop inside))⟩
  have formed : ∀ field ∈ r.builtFields parts, field.WellFormed := by
    intro field inside
    rcases List.mem_append.mp inside with copied | own
    · exact r.formed field (List.mem_filter.mp copied).1
    · exact ownFields_formed
        (fun return' => (apart (visible 13 (inHost 13 return'))).2 rfl) field own
  rw [r.build parts]
  exact HttpRequest.readRequest_head r.token r.named target.1 target.2
    ⟨digit_ne r.digits.1, digit_ne r.digits.2⟩ formed

/-- The fields that are not to change have not changed. -/
theorem Received.filter_builtFields (r : Received) (parts : UrlParts) (none' : r.trailers = []) :
    ((r.builtFields parts).map HeaderField.trimmed).filter r.endToEnd =
      (r.fields.filter r.endToEnd).map HeaderField.trimmed := by
  have own : (ownFields r.fields parts).filter r.endToEnd = [] := by
    refine List.filter_eq_nil_iff.mpr fun field inside => ?_
    rw [ownFields, List.mem_append] at inside
    rcases inside with host | own
    · split at host
      · next absent =>
          rw [List.mem_singleton.mp host]
          have isHost : lower (text "Host") = text "host" := by decide
          simp [Received.endToEnd, isHost, absent]
      · cases host
    · have isConnection : lower (text "Connection") = text "connection" := by decide
      have isProxy : lower (text "Proxy-Connection") = text "proxy-connection" := by decide
      rcases List.mem_cons.mp own with rfl | own
      · simp [Received.endToEnd, isConnection]
      · rw [List.mem_singleton.mp own]
        simp [Received.endToEnd, isProxy]
  have copied : (copiedFields r.fields).filter r.endToEnd = r.fields.filter r.endToEnd := by
    rw [copiedFields, List.filter_filter]
    refine List.filter_congr fun field _ => ?_
    simp only [Received.endToEnd, ne_eq, Bool.decide_and]
    cases decide (¬ lower field.name = text "connection") <;>
      cases decide (¬ lower field.name = text "proxy-connection") <;> simp
  have sameNames : r.endToEnd ∘ HeaderField.trimmed = r.endToEnd := rfl
  rw [List.filter_map, sameNames, Received.builtFields, none', List.append_nil, List.filter_append,
    copied, own, List.append_nil]

/-- The values that the built request has for a name of its body. -/
theorem Received.values_builtFields (r : Received) (parts : UrlParts) (name : Bytes)
    (host : name ≠ text "host") (other : name ≠ text "connection")
    (other' : name ≠ text "proxy-connection") :
    values name ((r.builtFields parts).map HeaderField.trimmed) =
      (values name (r.fields ++ r.trailers)).map trimBlanks := by
  rw [HttpRequest.values_trimmed, Received.builtFields, HttpRequest.values_append,
    values_copiedFields other other', values_ownFields _ _ host other other', List.append_nil]

/-- **A body without transfer coding is read again.** -/
theorem Received.readBody_plain (r : Received) (parts : UrlParts)
    (plain : values (text "transfer-encoding") r.fields = []) :
    r.trailers = [] ∧ readBody ((r.builtFields parts).map HeaderField.trimmed) r.body =
      some (r.body, []) := by
  have codings := r.values_builtFields parts (text "transfer-encoding") (by decide) (by decide)
    (by decide)
  have lengths := r.values_builtFields parts (text "content-length") (by decide) (by decide)
    (by decide)
  obtain ⟨method, url, httpMajor, httpMinor, fields, body, trailers, named, token, visible, digits,
    formed, framed⟩ := r
  dsimp only at plain codings lengths ⊢
  cases framed with
  | none noCoding noLength =>
      rw [List.append_nil, noCoding, List.map_nil] at codings
      rw [List.append_nil, noLength, List.map_nil] at lengths
      exact ⟨rfl, HttpRequest.readBody_none codings lengths⟩
  | length noCoding some' same =>
      rw [List.append_nil, noCoding, List.map_nil] at codings
      rw [List.append_nil] at lengths
      refine ⟨rfl, ?_⟩
      have read := @HttpRequest.readBody_length [] _ body codings
        (by rwa [lengths, ne_eq, List.map_eq_nil_iff]) (by
          rw [lengths]
          intro value inside
          obtain ⟨raw, given, rfl⟩ := List.mem_map.mp inside
          exact same raw given)
      rwa [List.append_nil] at read
  | chunked last _ =>
      rw [plain] at last
      cases last

/-- **The request to the upstream means what the received one does** exactly when that one has no
transfer coding, and no query that follows the authority. -/
theorem sameMeaning_iff {r : Received} {calls : List Callback} (delivered : r.Calls calls)
    (ctx : Context) {parts : UrlParts}
    (found : parseHttpUrl
      (calls.foldl (Context.on r.httpMajor r.httpMinor) ctx).url = some parts) :
    SameMeaning r (buildUpstreamRequest
        (calls.foldl (Context.on r.httpMajor r.httpMinor) ctx) parts) ↔
      values (text "transfer-encoding") r.fields = [] ∧
        (afterAuthority r.url).bind List.head? ≠ some 63 := by
  rw [r.foldl_calls delivered ctx] at found ⊢
  have target : some parts.path = pathOf r.url ↔ _ := pathOf_iff found
  rw [SameMeaning, r.readRequest_build found, ← target]
  constructor
  · rintro ⟨read, readAgain, -, path, -, -, body⟩
    obtain ⟨⟨body', last⟩, readBody', same⟩ := Option.map_eq_some_iff.mp readAgain
    cases same
    refine ⟨?_, path⟩
    by_contra coded
    have coded' : values (text "transfer-encoding")
        ((r.builtFields parts).map HeaderField.trimmed) ≠ [] := by
      rw [r.values_builtFields parts _ (by decide) (by decide) (by decide),
        HttpRequest.values_append]
      simp [coded]
    have shorter := HttpRequest.readBody_chunked coded' readBody'
    dsimp only at body
    rw [body] at shorter
    omega
  · rintro ⟨plain, path⟩
    obtain ⟨none', readAgain⟩ := r.readBody_plain parts plain
    rw [readAgain]
    refine ⟨_, rfl, rfl, path, ?_, r.filter_builtFields parts none', rfl⟩
    rw [numeral_digit r.digits.1, numeral_digit r.digits.2]
    rfl

/-! ## A body with transfer coding -/

namespace Example

/-- `POST` to `http://a/x?y` with a body. -/
def post (fields : List HeaderField) (body : Bytes)
    (formed : ∀ field ∈ fields ++ [], field.WellFormed)
    (framed : Framed fields body []) : Received where
  method := ascii "POST"
  url := ascii "http://a/x?y"
  httpMajor := 1
  httpMinor := 1
  fields := fields
  body := body
  trailers := []
  named := by decide
  token := by decide
  visible := fun c inside => by
    have all : (ascii "http://a/x?y").all fun c => 33 ≤ c := by decide
    simpa using List.all_eq_true.mp all c inside
  digits := by decide
  formed := formed
  framed := framed

/-- The calls that deliver it, the body in two pieces. -/
def callsOf (fields : List HeaderField) (front back : Bytes) : List Callback :=
  .messageBegin :: ([Callback.method (ascii "POST")] ++ [Callback.url (ascii "http://a/x?y")] ++
    fields.flatMap (fun field =>
      [Callback.headerField field.name, .headerValue field.value, .headerValueComplete]) ++
    Callback.headersComplete ::
      ([Callback.body front, .body back] ++ [] ++ [Callback.messageComplete]))

theorem fieldCalls (fields : List HeaderField) : FieldCalls fields (fields.flatMap fun field =>
    [.headerField field.name, .headerValue field.value, .headerValueComplete]) := by
  induction fields with
  | nil => exact .nil
  | cons field fields ih =>
      exact .cons ⟨[field.name], rfl, List.append_nil _⟩ ⟨[field.value], rfl, List.append_nil _⟩ ih

theorem post_calls {fields : List HeaderField} {front back : Bytes}
    {formed : ∀ field ∈ fields ++ [], field.WellFormed}
    {framed : Framed fields (front ++ back) []} :
    (post fields (front ++ back) formed framed).Calls (callsOf fields front back) := by
  refine ⟨_, _, _, _, _, ⟨[_], rfl, List.append_nil _⟩, ⟨[_], rfl, List.append_nil _⟩,
    fieldCalls fields, ⟨[front, back], rfl, ?_⟩, .nil, rfl⟩
  rw [List.flatten_cons, List.flatten_cons, List.flatten_nil, List.append_nil]
  rfl

def withLength : List HeaderField :=
  [⟨text "Host", text "a"⟩, ⟨text "Connection", text "keep-alive"⟩,
    ⟨text "content-length", text "2"⟩]

def withCoding : List HeaderField :=
  [⟨text "Host", text "a"⟩, ⟨text "Transfer-Encoding", text "chunked"⟩]

theorem withLength_formed : ∀ field ∈ withLength ++ [], field.WellFormed := by
  unfold HeaderField.WellFormed
  decide

theorem withCoding_formed : ∀ field ∈ withCoding ++ [], field.WellFormed := by
  unfold HeaderField.WellFormed
  decide

/-- A body of two bytes, with its length. -/
def measured : Received :=
  post withLength (ascii "h" ++ ascii "i") withLength_formed
    (.length (by decide) (by decide) (by decide))

theorem sameMeaning_iff_measured :
    SameMeaning measured (buildUpstreamRequest
      ((callsOf withLength (ascii "h") (ascii "i")).foldl (Context.on 1 1) {})
      ⟨ascii "a", 80, ascii "/x?y"⟩) :=
  (@sameMeaning_iff measured _ post_calls {} ⟨ascii "a", 80, ascii "/x?y"⟩ (by decide)).mpr
    (by decide)

/-- A body whose chunks have been decoded, and which looks like the last chunk and a request. -/
def decoded : Received :=
  post withCoding (ascii "0\r\n\r\n" ++ ascii "GET / HTTP/1.1\r\n\r\n") withCoding_formed
    (@Framed.chunked withCoding _ [] (text "chunked") (by decide) (by decide))

/-- **The body is sent without chunks under the field that announces them**: a part of it is read as
the next request. -/
theorem chunked_unread :
    (readRequest (buildUpstreamRequest ((callsOf withCoding (ascii "0\r\n\r\n")
        (ascii "GET / HTTP/1.1\r\n\r\n")).foldl (Context.on 1 1) {})
      ⟨ascii "a", 80, ascii "/x?y"⟩)).map (fun read => (read.1.body, read.2)) =
        some ([], ascii "GET / HTTP/1.1\r\n\r\n") ∧
    ¬ ∀ (r : Received) (calls : List Callback) (ctx : Context) (parts : UrlParts), r.Calls calls →
      parseHttpUrl (calls.foldl (Context.on r.httpMajor r.httpMinor) ctx).url = some parts →
      SameMeaning r (buildUpstreamRequest
        (calls.foldl (Context.on r.httpMajor r.httpMinor) ctx) parts) := by
  have next : (readRequest (buildUpstreamRequest ((callsOf withCoding (ascii "0\r\n\r\n")
        (ascii "GET / HTTP/1.1\r\n\r\n")).foldl (Context.on 1 1) {})
      ⟨ascii "a", 80, ascii "/x?y"⟩)).map (fun read => (read.1.body, read.2)) =
        some ([], ascii "GET / HTTP/1.1\r\n\r\n") := by decide
  refine ⟨next, fun always => ?_⟩
  obtain ⟨read, readAgain, -⟩ := always decoded _ {} ⟨ascii "a", 80, ascii "/x?y"⟩ post_calls
    (by decide)
  have last := congrArg (Option.map fun read => (read.1.body, read.2)) readAgain
  rw [Option.map_some] at last
  exact absurd (next.symm.trans last) (by simp [ascii])

end Example

end CoWq.HttpProxy.Upstream
