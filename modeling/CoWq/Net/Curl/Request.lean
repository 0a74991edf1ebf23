import CoWq.Net.Redirect

/-!
# Requests of co_curl

The headers of a request are those of the command line and what is missing among them.

* `parseHeaderLine`, `buildHttpRequest`: the code; `requestFields`: what HTTP/2 has instead of the
  text.
* `HeaderEntry.Proper`: the names that a header line can give; `requestHeaders_proper`.
-/

namespace CoWq.CoCurl

open TextSearch
open WebSocket.Accept (ascii ascii_literal toLower toLowerChar)

/-! ## The code -/

structure HeaderEntry where
  name : Bytes
  value : Bytes
  deriving DecidableEq, Repr

/-- `CommandLineOptions`, with its defaults. -/
structure CommandLineOptions where
  method : Bytes := ascii "GET"
  url : Bytes := []
  headers : List HeaderEntry := []
  body : Bytes := []
  includeHeaders : Bool := false
  followRedirects : Bool := false
  maxRedirects : Int := 10
  preferHttp2 : Bool := false

structure RequestState where
  method : Bytes
  body : Bytes
  dropContentHeaders : Bool
  deriving DecidableEq, Repr

structure BuiltRequest where
  payload : Bytes
  headers : List HeaderEntry
  deriving DecidableEq, Repr

/-- `trim_leading_spaces` -/
def trimLeadingSpaces (input : Bytes) : Bytes := input.dropWhile fun c => c = 0x20 ∨ c = 0x09

/-- `parse_header_line` -/
def parseHeaderLine (line : Bytes) : Option HeaderEntry :=
  match find 58 line with
  | none => none
  | some pos =>
      if line.take pos ≠ [] then
        some { name := line.take pos, value := trimLeadingSpaces (line.drop (pos + 1)) }
      else none

/-- `iequals` -/
def iequals (a b : Bytes) : Bool := toLower a = toLower b

/-- `header_exists` -/
def headerExists (headers : List HeaderEntry) (name : Bytes) : Bool :=
  headers.any fun header => iequals header.name name

/-- `remove_content_headers` -/
def removeContentHeaders (headers : List HeaderEntry) : List HeaderEntry :=
  headers.filter fun header =>
    ¬ (toLower header.name = ascii "content-length" ∨ toLower header.name = ascii "content-type" ∨
      toLower header.name = ascii "transfer-encoding")

/-- A header behind the others, unless there is one of its name. -/
def addMissing (name value : Bytes) (headers : List HeaderEntry) : List HeaderEntry :=
  if headerExists headers name then headers else headers ++ [⟨name, value⟩]

/-- The headers of the command line, without those of a body that has been dropped. -/
def givenHeaders (base : CommandLineOptions) (state : RequestState) : List HeaderEntry :=
  if state.dropContentHeaders then removeContentHeaders base.headers else base.headers

/-- The headers of `build_http_request`. -/
def requestHeaders (base : CommandLineOptions) (state : RequestState) (url : ParsedUrl) :
    List HeaderEntry :=
  let headers := addMissing (ascii "Connection") (ascii "close")
    (addMissing (ascii "Accept") (ascii "*/*")
      (addMissing (ascii "User-Agent") (ascii "co_curl/1.0")
        (addMissing (ascii "Host") url.authority (givenHeaders base state))))
  if state.body ≠ [] ∧ headerExists headers (ascii "Content-Length") = false ∧
      headerExists headers (ascii "Transfer-Encoding") = false then
    headers ++ [{ name := ascii "Content-Length", value := numeral 10 state.body.length }]
  else headers

/-- The text of a request with these headers. -/
def requestText (state : RequestState) (url : ParsedUrl) (headers : List HeaderEntry) : Bytes :=
  state.method ++ ascii " " ++ (if url.path = [] then ascii "/" else url.path) ++
    ascii " HTTP/1.1\r\n" ++
    headers.flatMap (fun header =>
      header.name ++ ascii ": " ++ header.value ++ ascii "\r\n") ++
    ascii "\r\n" ++ state.body

/-- `build_http_request` -/
def buildHttpRequest (base : CommandLineOptions) (state : RequestState) (url : ParsedUrl) :
    BuiltRequest :=
  let headers := requestHeaders base state url
  { headers, payload := requestText state url headers }

/-- The fields that HTTP/2 has no use for. -/
def hopByHop : List Bytes :=
  [ascii "host", ascii "connection", ascii "proxy-connection", ascii "upgrade",
    ascii "keep-alive", ascii "transfer-encoding"]

def HeaderEntry.HopByHop (header : HeaderEntry) : Prop := toLower header.name ∈ hopByHop

instance (header : HeaderEntry) : Decidable header.HopByHop :=
  inferInstanceAs (Decidable (toLower header.name ∈ hopByHop))

/-- The headers that are sent, in lower case. -/
def keptHeaders (headers : List HeaderEntry) : List (Bytes × Bytes) :=
  (headers.filter fun header => ¬ header.HopByHop).map fun header =>
    (toLower header.name, header.value)

/-- The `:authority` of `perform_request`. -/
def authorityField (url : ParsedUrl) : Bytes :=
  let defaultPort := url.scheme = ascii "https" ∧ url.port = 443 ∨
    url.scheme = ascii "http" ∧ url.port = 80
  url.host ++ if defaultPort then [] else ascii ":" ++ numeral 10 url.port.toNat

/-- The fields of the request line. -/
def pseudoFields (url : ParsedUrl) (state : RequestState) : List (Bytes × Bytes) :=
  [(ascii ":method", state.method),
    (ascii ":path", if url.path = [] then ascii "/" else url.path),
    (ascii ":scheme", url.scheme), (ascii ":authority", authorityField url)]

/-- `header_pairs` of `perform_request` -/
def requestFields (url : ParsedUrl) (state : RequestState) (built : BuiltRequest) :
    List (Bytes × Bytes) :=
  pseudoFields url state ++ keptHeaders built.headers

/-! ## Names -/

theorem toLowerChar_twice (c : UInt8) : toLowerChar (toLowerChar c) = toLowerChar c := by
  by_cases upper : 0x41 ≤ c ∧ c ≤ 0x5A
  · have lower : ¬ (c + 0x20 ≤ 0x5A) := by
      obtain ⟨low, high⟩ := upper
      rw [UInt8.le_iff_toNat_le] at low high ⊢
      have values : (0x41 : UInt8).toNat = 65 ∧ (0x5A : UInt8).toNat = 90 ∧
        (0x20 : UInt8).toNat = 32 := by decide
      rw [UInt8.toNat_add]
      omega
    have once : toLowerChar c = c + 0x20 := if_pos upper
    rw [once]
    exact if_neg fun both => lower both.2
  · have once : toLowerChar c = c := if_neg upper
    rw [once, once]

theorem toLower_twice (text : Bytes) : toLower (toLower text) = toLower text := by
  rw [toLower, toLower, List.map_map]
  exact List.map_congr_left fun c _ => toLowerChar_twice c

/-- The name is not empty, and no colon is in it. -/
def HeaderEntry.Proper (header : HeaderEntry) : Prop := header.name ≠ [] ∧ 58 ∉ header.name

theorem parseHeaderLine_proper {line : Bytes} {header : HeaderEntry}
    (parsed : parseHeaderLine line = some header) : header.Proper := by
  unfold parseHeaderLine at parsed
  cases found : find 58 line with
  | none => simp [found] at parsed
  | some pos =>
      obtain ⟨before, after, rfl, absent, rfl⟩ := find_eq_some found
      simp only [found, List.take_left] at parsed
      split at parsed
      · next some' =>
          cases parsed
          exact ⟨some', absent⟩
      · cases parsed

theorem addMissing_proper {headers : List HeaderEntry} (name value : Bytes)
    (named : name ≠ [] ∧ 58 ∉ name) (proper : ∀ header ∈ headers, header.Proper) :
    ∀ header ∈ addMissing name value headers, header.Proper := by
  intro header mem
  unfold addMissing at mem
  split at mem
  · exact proper header mem
  · rcases List.mem_append.mp mem with old | new
    · exact proper header old
    · rw [List.mem_singleton.mp new]
      exact named

/-- No header of a request has a colon in its name. -/
theorem requestHeaders_proper {base : CommandLineOptions} (state : RequestState) (url : ParsedUrl)
    (proper : ∀ header ∈ base.headers, header.Proper) :
    ∀ header ∈ requestHeaders base state url, header.Proper := by
  have given : ∀ header ∈ givenHeaders base state, header.Proper := by
    intro header mem
    unfold givenHeaders at mem
    split at mem
    · exact proper header (List.mem_of_mem_filter mem)
    · exact proper header mem
  have host := addMissing_proper (ascii "Host") url.authority (by decide) given
  have agent := addMissing_proper (ascii "User-Agent") (ascii "co_curl/1.0") (by decide) host
  have accept := addMissing_proper (ascii "Accept") (ascii "*/*") (by decide) agent
  have added := addMissing_proper (ascii "Connection") (ascii "close") (by decide) accept
  intro header mem
  unfold requestHeaders at mem
  dsimp only at mem
  split at mem
  · rcases List.mem_append.mp mem with old | new
    · exact added header old
    · have named : ascii "Content-Length" ≠ [] ∧ 58 ∉ ascii "Content-Length" := by decide
      rw [List.mem_singleton.mp new]
      exact named
  · exact added header mem

end CoWq.CoCurl
