import CoWq.Net.Curl.Request

/-!
# The redirect loop of co_curl

`run_client` sends a request, and another one as long as it is redirected, each over HTTP/1.1 or
HTTP/2.

* `Loop`, `Loop.redirected`, `runLoop`, `runClient`: the code, with what becomes of each request as
  a parameter.
* `preserves`, `carried`: the redirects that keep the method and the body, and what is left of both
  behind any redirects.
* `Made`: what the requests of a run are; `runLoop_made`: the run lemma.
* `Wire.Has`: the headers of a request as it is sent.
* `runClient_spec`: the requests of a run, and its result.
-/

namespace CoWq.CoCurl

open WebSocket.Accept (ascii ascii_literal toLower)

/-! ## The code -/

/-- What becomes of a request: `run_client` returns at once, as the host is not resolved or not
reached, the request fails, or it is answered, with the `Location` of the response.  `alpn` is what
has been selected for the connection. -/
inductive Fetched
  | unreachable
  | failed (alpn : Bytes)
  | answered (alpn : Bytes) (statusCode : Int) (location : Option Bytes)
  deriving DecidableEq, Repr

/-- There is a connection for the request. -/
def Fetched.alpn : Fetched → Option Bytes
  | .unreachable => none
  | .failed alpn => some alpn
  | .answered alpn _ _ => some alpn

/-- The variables of the loop. -/
structure Loop where
  currentUrl : Bytes
  currentMethod : Bytes
  currentBody : Bytes
  dropContentHeaders : Bool := false
  redirectCount : Nat := 0

/-- What a request is sent as: its text, or what nghttp2 is given of it. -/
inductive Wire
  | http1 (payload : Bytes)
  | http2 (fields : List (Bytes × Bytes)) (body : Bytes)

/-- A request, the URL it is for, what it is built from, and what it is sent as if there is a
connection for it. -/
structure Sent where
  url : ParsedUrl
  state : RequestState
  built : BuiltRequest
  wire : Option Wire

def Loop.state (loop : Loop) : RequestState where
  method := loop.currentMethod
  body := loop.currentBody
  dropContentHeaders := loop.dropContentHeaders

/-- `negotiated_http2`; a connection without TLS is for HTTP/1.1. -/
def negotiatedHttp2 (options : CommandLineOptions) (url : ParsedUrl) (alpn : Bytes) : Bool :=
  url.scheme = ascii "https" ∧ options.preferHttp2 = true ∧ alpn = ascii "h2"

/-- The call of `perform_request` or `perform_request_http1`. -/
def requestWire (options : CommandLineOptions) (url : ParsedUrl) (state : RequestState)
    (built : BuiltRequest) (alpn : Bytes) : Wire :=
  if negotiatedHttp2 options url alpn then .http2 (requestFields url state built) state.body
  else .http1 built.payload

/-- The request that the loop makes, with what has been selected for the connection. -/
def Loop.sent (loop : Loop) (options : CommandLineOptions) (url : ParsedUrl)
    (alpn : Option Bytes) : Sent :=
  let built := buildHttpRequest options loop.state url
  { url, state := loop.state, built
    wire := alpn.map (requestWire options url loop.state built) }

/-- The location, if `should_redirect` is set. -/
def redirectTo (options : CommandLineOptions) (redirectCount : Nat) (statusCode : Int)
    (location : Option Bytes) : Option Bytes :=
  if options.followRedirects ∧ (redirectCount : Int) < options.maxRedirects then
    if statusCode = 301 ∨ statusCode = 302 ∨ statusCode = 303 ∨ statusCode = 307 ∨
        statusCode = 308 then location
    else none
  else none

/-- The end of the loop body. -/
def Loop.redirected (loop : Loop) (statusCode : Int) (nextUrl : Bytes) : Loop :=
  let next :=
    if statusCode = 303 then
      { loop with currentMethod := ascii "GET", currentBody := [], dropContentHeaders := true }
    else if statusCode = 301 ∨ statusCode = 302 then
      if loop.currentMethod ≠ ascii "GET" ∧ loop.currentMethod ≠ ascii "HEAD" then
        { loop with currentMethod := ascii "GET", currentBody := [], dropContentHeaders := true }
      else { loop with dropContentHeaders := decide (loop.currentBody = []) }
    else { loop with dropContentHeaders := decide (loop.currentBody = []) }
  { next with currentUrl := nextUrl, redirectCount := loop.redirectCount + 1 }

theorem Loop.redirected_count (loop : Loop) (statusCode : Int) (nextUrl : Bytes) :
    (loop.redirected statusCode nextUrl).redirectCount = loop.redirectCount + 1 := rfl

theorem Loop.redirected_url (loop : Loop) (statusCode : Int) (nextUrl : Bytes) :
    (loop.redirected statusCode nextUrl).currentUrl = nextUrl := rfl

section Code

variable (options : CommandLineOptions) (answers : Nat → Fetched)

/-- The loop of `run_client` and what follows it: the requests, and the exit code.  The request
behind `n` redirects is answered by `answers n`. -/
def runLoop (loop : Loop) : List Sent × Int :=
  if (loop.redirectCount : Int) ≤ options.maxRedirects then
    match parseUrl loop.currentUrl with
    | none => ([], 1)
    | some url =>
        let sent := loop.sent options url (answers loop.redirectCount).alpn
        match answers loop.redirectCount with
        | .unreachable => ([sent], 1)
        | .failed _ => ([sent], 1)
        | .answered _ statusCode location =>
            match redirectTo options loop.redirectCount statusCode location with
            | none => ([sent], if 400 ≤ statusCode then 22 else 0)
            | some location =>
                let nextUrl := resolveRedirectUrl url location
                if nextUrl = [] then ([sent], 1)
                else
                  let later := runLoop (loop.redirected statusCode nextUrl)
                  (sent :: later.1, later.2)
  else ([], 1)
termination_by (options.maxRedirects + 1 - loop.redirectCount).toNat
decreasing_by
  rw [Loop.redirected_count]
  omega

/-- `run_client`, once the output is open. -/
def runClient : List Sent × Int :=
  match parseUrl options.url with
  | none => ([], 1)
  | some _ => runLoop options answers
      { currentUrl := options.url, currentMethod := options.method, currentBody := options.body }

end Code

/-! ## What redirects leave -/

/-- The redirect keeps a request with this method as it is. -/
def preserves (method : Bytes) (statusCode : Int) : Bool :=
  statusCode ≠ 303 ∧ ((statusCode = 301 ∨ statusCode = 302) →
    method = ascii "GET" ∨ method = ascii "HEAD")

/-- What is left of the request of the command line behind redirects with these statuses. -/
def carried (options : CommandLineOptions) (statuses : List Int) : RequestState :=
  let kept := statuses.all (preserves options.method)
  let body := if kept then options.body else []
  { method := if kept then options.method else ascii "GET"
    body
    dropContentHeaders := decide (statuses ≠ [] ∧ body = []) }

/-- One more redirect. -/
theorem redirected_carried {options : CommandLineOptions} {statuses : List Int} {loop : Loop}
    (here : loop.state = carried options statuses) (statusCode : Int) (nextUrl : Bytes) :
    (loop.redirected statusCode nextUrl).state = carried options (statuses ++ [statusCode]) := by
  obtain ⟨url, method, body, drop, count⟩ := loop
  obtain ⟨rfl, rfl, rfl⟩ := RequestState.mk.inj here
  have more : statuses ++ [statusCode] ≠ [] := by simp
  simp only [carried, Loop.redirected, Loop.state, List.all_append, List.all_cons, List.all_nil,
    Bool.and_true, more, ne_eq, not_false_eq_true, true_and]
  cases kept : statuses.all (preserves options.method) with
  | false =>
    by_cases other : statusCode = 303
    · simp [other]
    · by_cases moved : statusCode = 301 ∨ statusCode = 302
      · simp [other, moved]
      · simp [other, moved]
  | true =>
    by_cases other : statusCode = 303
    · simp [other, preserves]
    · by_cases moved : statusCode = 301 ∨ statusCode = 302
      · by_cases safe : options.method = ascii "GET" ∨ options.method = ascii "HEAD"
        · have stays : ¬ (¬ options.method = ascii "GET" ∧ ¬ options.method = ascii "HEAD") :=
            fun neither => neither.2 (safe.resolve_left neither.1)
          simp [other, moved, preserves, safe, stays]
        · have changes := not_or.mp safe
          simp [other, moved, preserves, changes]
      · simp [other, moved, preserves]

/-! ## The requests of a run -/

section Run

variable (options : CommandLineOptions) (answers : Nat → Fetched)

def Fetched.statusCode : Fetched → Int
  | .answered _ statusCode _ => statusCode
  | _ => 0

def Fetched.location : Fetched → Bytes
  | .answered _ _ (some location) => location
  | _ => []

/-- The statuses of the first `n` redirects. -/
def statuses (n : Nat) : List Int := (List.range n).map fun i => (answers i).statusCode

/-- Where the first `n` redirects lead. -/
def locations (n : Nat) : List Bytes := (List.range n).map fun i => (answers i).location

/-- The URL behind `n` redirects. -/
def urlAfter (n : Nat) : Option ParsedUrl :=
  (parseUrl options.url).bind fun base => follow base (locations answers n)

/-- The request behind `n` redirects: where they lead, what they leave, what it is sent as, and no
more of them than allowed. -/
structure Made (n : Nat) (sent : Sent) : Prop where
  url : urlAfter options answers n = some sent.url
  state : sent.state = carried options (statuses answers n)
  built : sent.built = buildHttpRequest options sent.state sent.url
  wire : sent.wire = (answers n).alpn.map (requestWire options sent.url sent.state sent.built)
  within : (n : Int) ≤ options.maxRedirects
  followed : n ≠ 0 → options.followRedirects = true

/-- The loop behind `n` redirects. -/
structure Loop.At (n : Nat) (loop : Loop) : Prop where
  url : parseUrl loop.currentUrl = urlAfter options answers n
  state : loop.state = carried options (statuses answers n)
  count : loop.redirectCount = n
  within : (n : Int) ≤ options.maxRedirects
  followed : n ≠ 0 → options.followRedirects = true

/-- How a run ends behind `n` requests: with an answer that is not followed, with a request that
fails, or with a redirect that leads nowhere.  The limit itself never fails a run. -/
inductive Ended : Nat → Int → Prop
  | answered {n : Nat} {alpn : Bytes} {statusCode : Int} {location : Option Bytes} :
    answers n = .answered alpn statusCode location →
    redirectTo options n statusCode location = none →
    Ended (n + 1) (if 400 ≤ statusCode then 22 else 0)
  | unreachable {n : Nat} : answers n = .unreachable → Ended (n + 1) 1
  | failed {n : Nat} {alpn : Bytes} : answers n = .failed alpn → Ended (n + 1) 1
  | nowhere {n : Nat} : urlAfter options answers n = none → Ended n 1

variable {options answers}

theorem follow_append (base : ParsedUrl) (before after : List Bytes) :
    follow base (before ++ after) = (follow base before).bind fun url => follow url after := by
  induction before generalizing base with
  | nil => rfl
  | cons location before ih =>
      rw [List.cons_append, follow, follow, Option.bind_assoc]
      exact congrArg _ (funext fun url => ih url)

theorem Loop.At.redirected {n : Nat} {loop : Loop} (here : loop.At options answers n)
    {url : ParsedUrl} (parsed : parseUrl loop.currentUrl = some url) {alpn : Bytes}
    {statusCode : Int} {location : Bytes}
    (answer : answers n = .answered alpn statusCode (some location))
    (follows : options.followRedirects = true) (less : (n : Int) < options.maxRedirects) :
    (loop.redirected statusCode (resolveRedirectUrl url location)).At options answers (n + 1) where
  url := by
    have before : urlAfter options answers n = some url := here.url.symm.trans parsed
    obtain ⟨base, first, led⟩ := Option.bind_eq_some_iff.mp before
    have further : locations answers (n + 1) = locations answers n ++ [location] := by
      rw [locations, List.range_succ, List.map_append, List.map_singleton, answer]
      rfl
    rw [urlAfter, first, Option.bind_some, further, follow_append, led, Option.bind_some]
    exact (Option.bind_fun_some _).symm
  state := by
    have further : statuses answers (n + 1) = statuses answers n ++ [statusCode] := by
      rw [statuses, List.range_succ, List.map_append, List.map_singleton, answer]
      rfl
    rw [further]
    exact redirected_carried here.state statusCode _
  count := by rw [Loop.redirected_count, here.count]
  within := Int.add_one_le_of_lt less
  followed _ := follows

theorem redirectTo_some {n : Nat} {statusCode : Int} {location : Option Bytes} {target : Bytes}
    (redirect : redirectTo options n statusCode location = some target) :
    options.followRedirects = true ∧ (n : Int) < options.maxRedirects ∧ location = some target := by
  unfold redirectTo at redirect
  split at redirect
  · next may =>
      split at redirect
      · exact ⟨may.1, may.2, redirect⟩
      · cases redirect
  · cases redirect

/-- **The run from the loop behind `n` redirects.** -/
theorem runLoop_made {n : Nat} {loop : Loop} (here : loop.At options answers n) :
    (∀ i sent, (runLoop options answers loop).1[i]? = some sent →
      Made options answers (n + i) sent) ∧
      Ended options answers (n + (runLoop options answers loop).1.length)
        (runLoop options answers loop).2 := by
  induction left : (options.maxRedirects - n).toNat using Nat.strongRecOn
    generalizing n loop with
  | ind m ih =>
      subst left
      rw [runLoop, if_pos (by rw [here.count]; exact here.within)]
      cases parsed : parseUrl loop.currentUrl with
      | none =>
          exact ⟨fun i sent made => absurd made (by simp), .nowhere (here.url.symm.trans parsed)⟩
      | some url =>
          have first : Made options answers n (loop.sent options url (answers n).alpn) :=
            ⟨here.url.symm.trans parsed, here.state, rfl, rfl, here.within, here.followed⟩
          have one (i : Nat) (other : Sent)
              (made : [loop.sent options url (answers n).alpn][i]? = some other) :
              Made options answers (n + i) other := by
            cases i with
            | zero =>
                cases made
                exact first
            | succ i => simp at made
          dsimp only
          rw [here.count]
          generalize loop.sent options url (answers n).alpn = sent at first one ⊢
          cases answer : answers n with
          | unreachable => exact ⟨one, .unreachable answer⟩
          | failed alpn => exact ⟨one, .failed answer⟩
          | answered alpn statusCode location =>
              dsimp only
              cases redirect : redirectTo options n statusCode location with
              | none => exact ⟨one, .answered answer redirect⟩
              | some target =>
                  obtain ⟨follows, less, rfl⟩ := redirectTo_some redirect
                  have next := here.redirected parsed answer follows less
                  dsimp only
                  by_cases nowhere : resolveRedirectUrl url target = []
                  · rw [if_pos nowhere]
                    refine ⟨one, .nowhere (next.url.symm.trans ?_)⟩
                    show parseUrl (resolveRedirectUrl url target) = none
                    rw [nowhere]
                    rfl
                  · rw [if_neg nowhere]
                    obtain ⟨later, ends⟩ := ih _ (by omega) next rfl
                    refine ⟨fun i other made => ?_, ?_⟩
                    · cases i with
                      | zero =>
                          cases made
                          exact first
                      | succ i =>
                          have behind := later i other made
                          rwa [Nat.add_assoc, Nat.add_comm 1 i] at behind
                    · rwa [Nat.add_assoc, Nat.add_comm 1] at ends

end Run

/-! ## The headers of a request -/

/-- The headers that describe a body. -/
def IsContent (name : Bytes) : Prop :=
  toLower name = ascii "content-length" ∨ toLower name = ascii "content-type" ∨
    toLower name = ascii "transfer-encoding"

theorem mem_addMissing {header : HeaderEntry} {name value : Bytes} {headers : List HeaderEntry}
    (mem : header ∈ addMissing name value headers) : header ∈ headers ∨ header = ⟨name, value⟩ := by
  unfold addMissing at mem
  split at mem
  · exact .inl mem
  · exact (List.mem_append.mp mem).imp id List.mem_singleton.mp

theorem addMissing_mem {header : HeaderEntry} {headers : List HeaderEntry}
    (mem : header ∈ headers) (name value : Bytes) : header ∈ addMissing name value headers := by
  unfold addMissing
  split
  · exact mem
  · exact List.mem_append_left _ mem

/-- A request from which the body has been dropped does not describe one. -/
theorem requestHeaders_dropped {options : CommandLineOptions} {state : RequestState}
    (dropped : state.dropContentHeaders = true) (empty : state.body = []) (url : ParsedUrl) :
    ∀ header ∈ requestHeaders options state url, ¬ IsContent header.name := by
  have other : ¬ IsContent (ascii "Host") ∧ ¬ IsContent (ascii "User-Agent") ∧
      ¬ IsContent (ascii "Accept") ∧ ¬ IsContent (ascii "Connection") := by
    unfold IsContent
    decide
  intro header mem
  unfold requestHeaders at mem
  dsimp only at mem
  rw [if_neg fun has => has.1 empty] at mem
  rcases mem_addMissing mem with mem | rfl
  · rcases mem_addMissing mem with mem | rfl
    · rcases mem_addMissing mem with mem | rfl
      · rcases mem_addMissing mem with mem | rfl
        · rw [givenHeaders, if_pos dropped] at mem
          have kept := (List.mem_filter.mp mem).2
          simpa [IsContent] using kept
        · exact other.1
      · exact other.2.1
    · exact other.2.2.1
  · exact other.2.2.2

/-- The headers of the command line that describe no body are in every request. -/
theorem requestHeaders_given {options : CommandLineOptions} {header : HeaderEntry}
    (given : header ∈ options.headers) (plain : ¬ IsContent header.name) (state : RequestState)
    (url : ParsedUrl) : header ∈ requestHeaders options state url := by
  have kept : header ∈ givenHeaders options state := by
    unfold givenHeaders
    split
    · exact List.mem_filter.mpr ⟨given, by simpa [IsContent] using plain⟩
    · exact given
  have added := addMissing_mem (addMissing_mem (addMissing_mem (addMissing_mem kept
    (ascii "Host") url.authority) (ascii "User-Agent") (ascii "co_curl/1.0"))
    (ascii "Accept") (ascii "*/*")) (ascii "Connection") (ascii "close")
  unfold requestHeaders
  dsimp only
  split
  · exact List.mem_append_left _ added
  · exact added

/-- A header as it is sent; HTTP/2 has no use for some. -/
def Wire.header : Wire → HeaderEntry → Option HeaderEntry
  | .http1 _, header => some header
  | .http2 _ _, header =>
      if header.HopByHop then none else some ⟨toLower header.name, header.value⟩

/-- The request is sent with these headers and its body. -/
def Wire.Has (url : ParsedUrl) (state : RequestState) (headers : List HeaderEntry) : Wire → Prop
  | .http1 payload => payload = requestText state url headers
  | .http2 fields body =>
      fields = pseudoFields url state ++ headers.map (fun header => (header.name, header.value)) ∧
        body = state.body

theorem Wire.header_kept {header : HeaderEntry} (kept : ¬ header.HopByHop)
    (fields : List (Bytes × Bytes)) (body : Bytes) :
    (Wire.http2 fields body).header header = some ⟨toLower header.name, header.value⟩ :=
  if_neg kept

theorem keptHeaders_eq (fields : List (Bytes × Bytes)) (body : Bytes)
    (headers : List HeaderEntry) :
    keptHeaders headers = (headers.filterMap (Wire.http2 fields body).header).map
      fun header => (header.name, header.value) := by
  induction headers with
  | nil => rfl
  | cons header headers ih =>
      by_cases dropped : header.HopByHop
      · have sent : (Wire.http2 fields body).header header = none := if_pos dropped
        rw [List.filterMap_cons_none sent, ← ih, keptHeaders, keptHeaders,
          List.filter_cons_of_neg (by simpa using dropped)]
      · rw [List.filterMap_cons_some (Wire.header_kept dropped fields body), List.map_cons, ← ih,
          keptHeaders, keptHeaders, List.filter_cons_of_pos (by simpa using dropped), List.map_cons]

/-- A request is sent with the headers that it has been built with. -/
theorem requestWire_has (options : CommandLineOptions) (url : ParsedUrl) (state : RequestState)
    (alpn : Bytes) {wire : Wire}
    (sent : requestWire options url state (buildHttpRequest options state url) alpn = wire) :
    wire.Has url state ((requestHeaders options state url).filterMap wire.header) := by
  subst sent
  unfold requestWire
  split
  · exact ⟨congrArg _ (keptHeaders_eq _ _ _), rfl⟩
  · show requestText state url _ = requestText state url _
    congr 1
    exact List.filterMap_some.symm

theorem Wire.header_content {wire : Wire} {header given : HeaderEntry}
    (sent : wire.header header = some given) (content : IsContent given.name) :
    IsContent header.name := by
  cases wire with
  | http1 payload =>
      cases sent
      exact content
  | http2 fields body =>
      by_cases dropped : header.HopByHop
      · cases (if_pos dropped).symm.trans sent
      · cases (Wire.header_kept dropped fields body).symm.trans sent
        unfold IsContent at content
        rwa [toLower_twice] at content

/-- **The requests of co_curl.**  Each is for the URL to which the redirects before it lead, with
what they leave of the method and the body, and there are no more than allowed.  Behind a redirect,
a request without a body does not describe one; the other headers of the command line go to every
host, but over HTTP/2 those that it has no use for.  The run ends with an answer that is not
followed, even if that is a redirect beyond the limit, or fails. -/
theorem runClient_spec (options : CommandLineOptions) (answers : Nat → Fetched)
    (limit : 0 ≤ options.maxRedirects) :
    (∀ n sent, (runClient options answers).1[n]? = some sent →
      Made options answers n sent ∧
      ∀ wire, sent.wire = some wire → ∃ headers, wire.Has sent.url sent.state headers ∧
        (n ≠ 0 → sent.state.body = [] → ∀ header ∈ headers, ¬ IsContent header.name) ∧
        ∀ header ∈ options.headers, ¬ IsContent header.name →
          ∀ given, wire.header header = some given → given ∈ headers) ∧
    ((runClient options answers).1.length : Int) ≤ options.maxRedirects + 1 ∧
    Ended options answers (runClient options answers).1.length (runClient options answers).2 := by
  have run : (∀ n sent, (runClient options answers).1[n]? = some sent →
      Made options answers n sent) ∧
      Ended options answers (runClient options answers).1.length (runClient options answers).2 := by
    unfold runClient
    cases parsed : parseUrl options.url with
    | none =>
        refine ⟨fun n sent made => absurd made (by simp), .nowhere ?_⟩
        rw [urlAfter, parsed, Option.bind_none]
    | some url =>
        have begins : Loop.At options answers 0
            { currentUrl := options.url, currentMethod := options.method
              currentBody := options.body } :=
          { url := (Option.bind_fun_some _).symm
            state := rfl
            count := rfl
            within := limit
            followed := fun none' => absurd rfl none' }
        simpa only [Nat.zero_add] using runLoop_made begins
  obtain ⟨made, ends⟩ := run
  refine ⟨fun n sent here => ⟨made n sent here, fun wire sentAs => ?_⟩, ?_, ends⟩
  · obtain ⟨-, state, built, onWire, -, -⟩ := made n sent here
    obtain ⟨alpn, -, rfl⟩ := Option.map_eq_some_iff.mp (onWire.symm.trans sentAs)
    rw [built]
    refine ⟨_, requestWire_has options sent.url sent.state alpn rfl, fun some' empty => ?_,
      fun header given plain as sends => ?_⟩
    · have dropped : sent.state.dropContentHeaders = true := by
        have redirected : statuses answers n ≠ [] := by simpa [statuses] using some'
        rw [state] at empty ⊢
        exact decide_eq_true ⟨redirected, empty⟩
      intro header mem content
      obtain ⟨old, mem, sends⟩ := List.mem_filterMap.mp mem
      exact requestHeaders_dropped dropped empty sent.url old mem
        (Wire.header_content sends content)
    · exact List.mem_filterMap.mpr
        ⟨header, requestHeaders_given given plain sent.state sent.url, sends⟩
  · cases size : (runClient options answers).1.length with
    | zero => exact Int.add_nonneg limit Int.one_nonneg
    | succ m =>
        have inside : m < (runClient options answers).1.length := size ▸ m.lt_succ_self
        have last := (made m _ (List.getElem?_eq_getElem inside)).within
        exact Int.add_le_add_right last 1

/-- `co_curl -L --http2 -H "Cookie: c" -H "Content-Type: text/plain" -d x http://a/form` -/
def formOptions : CommandLineOptions where
  method := ascii "POST"
  url := ascii "http://a/form"
  headers := [⟨ascii "Cookie", ascii "c"⟩, ⟨ascii "Content-Type", ascii "text/plain"⟩]
  body := ascii "x"
  followRedirects := true
  preferHttp2 := true

/-- The form leads to another host, with TLS and HTTP/2. -/
def formAnswers : Nat → Fetched
  | 0 => .answered [] 302 (some (ascii "https://b/done"))
  | _ => .answered (ascii "h2") 200 none

theorem formOptions_run : ∃ first second,
    runClient formOptions formAnswers = ([first, second], 0) ∧
      second.url = ⟨ascii "https", ascii "b", 443, ascii "/done"⟩ := by
  have form : parseUrl (ascii "http://a/form") =
      some ⟨ascii "http", ascii "a", 80, ascii "/form"⟩ := by decide
  have done : parseUrl (ascii "https://b/done") =
      some ⟨ascii "https", ascii "b", 443, ascii "/done"⟩ := by decide
  have next : resolveRedirectUrl ⟨ascii "http", ascii "a", 80, ascii "/form"⟩
      (ascii "https://b/done") = ascii "https://b/done" := by decide
  have some' : ascii "https://b/done" ≠ [] := by decide
  have follows : redirectTo formOptions 0 302 (some (ascii "https://b/done")) =
      some (ascii "https://b/done") := by decide
  rw [runClient, show parseUrl formOptions.url = _ from form]
  dsimp only
  rw [runLoop, if_pos (by decide), show parseUrl formOptions.url = _ from form]
  simp only [formAnswers, follows, next, if_neg some']
  rw [runLoop, if_pos (by decide), Loop.redirected_url, done]
  exact ⟨_, _, rfl, rfl⟩

/-- The second request goes out over HTTP/2, with the cookie. -/
theorem runClient_spec_form : ∃ first second fields headers,
    runClient formOptions formAnswers = ([first, second], 0) ∧
      second.wire = some (.http2 fields []) ∧
      second.state = { method := ascii "GET", body := [], dropContentHeaders := true } ∧
      (Wire.http2 fields []).Has second.url second.state headers ∧
      (∀ header ∈ headers, ¬ IsContent header.name) ∧
      ⟨ascii "cookie", ascii "c"⟩ ∈ headers := by
  obtain ⟨first, second, run, url⟩ := formOptions_run
  obtain ⟨made, -⟩ := runClient_spec formOptions formAnswers (by decide)
  obtain ⟨⟨-, left, -, onWire, -, -⟩, has⟩ := made 1 second (by rw [run]; rfl)
  have lost : carried formOptions (statuses formAnswers 1) =
      { method := ascii "GET", body := [], dropContentHeaders := true } := by decide
  have state := left.trans lost
  have chosen : negotiatedHttp2 formOptions second.url (ascii "h2") = true := by
    rw [url]
    decide
  have wire : second.wire =
      some (.http2 (requestFields second.url second.state second.built) []) := by
    rw [onWire]
    show some (requestWire formOptions second.url second.state second.built (ascii "h2")) = _
    rw [requestWire, if_pos chosen, state]
  obtain ⟨headers, here, dropped, given⟩ := has _ wire
  refine ⟨first, second, _, headers, run, wire, state, here, dropped Nat.one_ne_zero ?_,
    given ⟨ascii "Cookie", ascii "c"⟩ List.mem_cons_self ?_ _ ?_⟩
  · rw [state]
  · unfold IsContent
    decide
  · have kept : ¬ HeaderEntry.HopByHop ⟨ascii "Cookie", ascii "c"⟩ := by decide
    have lower : toLower (ascii "Cookie") = ascii "cookie" := by decide
    rw [← lower]
    exact Wire.header_kept kept _ _

end CoWq.CoCurl
