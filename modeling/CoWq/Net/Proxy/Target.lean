import CoWq.Lib.Numerals
import CoWq.Lib.TextSearch
import CoWq.Net.WebSocket.Accept

/-!
# Targets of the proxy

The target of a request in absolute form, and the text in which a host and a port are shown.

* `parsePort`, `splitHostPort`, `parseHttpUrl`, `formatHostPortForState`: the code.
* `HttpUri`: the absolute `http` URIs without userinfo and fragment, with their text and the target
  they name.
* `target_iff`: the URIs whose target is found, and the hosts that come back from their text.
-/

namespace CoWq.HttpProxy.Target

open TextSearch
open WebSocket.Accept (ascii toLower toLowerChar)

abbrev Bytes := List UInt8

/-! ## The code -/

/-- `parse_port` -/
def parsePort (input : Bytes) : Option UInt16 :=
  if input = [] ∨ 5 < input.length then none
  else (readBounded 65535 0 input).map UInt16.ofNat

/-- `split_host_port`: the host and the port if it succeeds -/
def splitHostPort (input : Bytes) (defaultPort : UInt16) : Option (Bytes × UInt16) :=
  if input = [] then none
  else if input.head? = some 91 then
    match find 93 input with
    | none => none
    | some closing =>
        let host := (input.drop 1).take (closing - 1)
        if closing + 1 = input.length then some (host, defaultPort)
        else if input[closing + 1]? ≠ some 58 then none
        else (parsePort (input.drop (closing + 2))).map fun port => (host, port)
  else
    match find 58 input with
    | none => some (input, defaultPort)
    | some firstColon =>
        if rfind 58 input = some firstColon then
          let hostPart := input.take firstColon
          if hostPart = [] then none
          else (parsePort (input.drop (firstColon + 1))).map fun port => (hostPart, port)
        else some (input, defaultPort)

/-- `format_host_for_log` -/
def formatHostForLog (host : Bytes) : Bytes :=
  if find 58 host ≠ none then
    if host ≠ [] ∧ host.head? = some 91 ∧ host.getLast? = some 93 then host
    else 91 :: host ++ [93]
  else host

/-- `format_host_port_for_state` -/
def formatHostPortForState (host : Bytes) (port : UInt16) : Bytes :=
  formatHostForLog host ++ [58] ++ numeral 10 port.toNat

structure UrlParts where
  host : Bytes
  port : UInt16 := 80
  path : Bytes := ascii "/"
  deriving DecidableEq, Repr

/-- `parse_http_url` -/
def parseHttpUrl (url : Bytes) : Option UrlParts :=
  match findText (ascii "://") url with
  | none => none
  | some pos =>
      if toLower (url.take pos) ≠ ascii "http" then none
      else if url.length ≤ pos + 3 then none
      else
        let rest := url.drop (pos + 3)
        let slashPos := find 47 rest
        let authority := match slashPos with
          | none => rest
          | some slash => rest.take slash
        let path := match slashPos with
          | none => ascii "/"
          | some slash => rest.drop slash
        if authority = [] then none
        else
          match splitHostPort authority 80 with
          | none => none
          | some (host, port) => if host = [] then none else some { host, port, path }

/-! ## Absolute URIs -/

def isAlpha (c : UInt8) : Bool := 65 ≤ c && c ≤ 90 || 97 ≤ c && c ≤ 122

def isDigit (c : UInt8) : Bool := 48 ≤ c && c ≤ 57

/-- Unreserved characters, sub-delimiters, and the sign of percent-encoded bytes. -/
def isNameChar (c : UInt8) : Bool :=
  isAlpha c || isDigit c || (ascii "-._~!$&'()*+,;=%").contains c

/-- The characters of path segments. -/
def isPathChar (c : UInt8) : Bool := isNameChar c || c == 58 || c == 64

/-- The characters of IPv6 addresses. -/
def isAddressChar (c : UInt8) : Bool :=
  isDigit c || 65 ≤ c && c ≤ 70 || 97 ≤ c && c ≤ 102 || c == 58 || c == 46

/-- Registered names, which include the IPv4 literals, and IPv6 literals. -/
inductive Host
  | name (text : Bytes)
  | literal (address : Bytes)

def Host.WellFormed : Host → Prop
  | .name text => text ≠ [] ∧ ∀ c ∈ text, isNameChar c
  | .literal address => 58 ∈ address ∧ ∀ c ∈ address, isAddressChar c

/-- The host as it stands in a URI. -/
def Host.text : Host → Bytes
  | .name text => text
  | .literal address => 91 :: address ++ [93]

/-- The host without brackets. -/
def Host.bare : Host → Bytes
  | .name text => text
  | .literal address => address

/-- The digits of a port and the number they stand for. -/
structure Port where
  digits : Bytes
  number : UInt16
  stands : readNumeral 10 digits = some number.toNat
  short : digits.length ≤ 5

/-- An absolute `http` URI without userinfo and without fragment. -/
structure HttpUri where
  scheme : Bytes
  host : Host
  port : Option Port
  path : Bytes
  query : Option Bytes
  isHttp : toLower scheme = ascii "http"
  hostFormed : host.WellFormed
  pathFormed : path = [] ∨ path.head? = some 47
  pathChars : ∀ c ∈ path, isPathChar c ∨ c = 47
  queryChars : ∀ text, query = some text → ∀ c ∈ text, isPathChar c ∨ c = 47 ∨ c = 63

def HttpUri.authority (uri : HttpUri) : Bytes :=
  uri.host.text ++ match uri.port with
    | none => []
    | some port => 58 :: port.digits

def HttpUri.queryText (uri : HttpUri) : Bytes :=
  match uri.query with
  | none => []
  | some text => 63 :: text

def HttpUri.text (uri : HttpUri) : Bytes :=
  uri.scheme ++ ascii "://" ++ (uri.authority ++ uri.path ++ uri.queryText)

/-- The target that the URI names: an empty path is `/`. -/
def HttpUri.target (uri : HttpUri) : UrlParts where
  host := uri.host.bare
  port := match uri.port with
    | none => 80
    | some port => port.number
  path := (if uri.path = [] then ascii "/" else uri.path) ++ uri.queryText

/-! ## Hosts and ports -/

theorem parsePort_digits (port : Port) : parsePort port.digits = some port.number := by
  have stands := port.stands
  have bound := port.number.toNat_lt
  unfold readNumeral at stands
  split at stands
  · cases stands
  · next some' =>
      rw [parsePort, if_neg (not_or.mpr ⟨some', not_lt.mpr port.short⟩),
        (readBounded_eq_some (Nat.zero_le _)).mpr ⟨stands, by omega⟩, Option.map_some,
        UInt16.ofNat_toNat]

/-- A port as it is printed. -/
def Port.printed (port : UInt16) : Port where
  digits := numeral 10 port.toNat
  number := port
  stands := readNumeral_numeral (by decide) (by decide) _
  short := numeral_length_le (by decide) (lt_trans port.toNat_lt (by decide))

theorem Port.notMem (port : Port) {c : UInt8} (other : digitValue c = none) : c ∉ port.digits := by
  have stands := port.stands
  unfold readNumeral at stands
  split at stands
  · cases stands
  · exact fun inside => digitValue_of_read stands inside other

theorem splitHostPort_name {text : Bytes} {defaultPort : UInt16} (some' : text ≠ [])
    (noBracket : text.head? ≠ some 91) (noColon : 58 ∉ text) :
    splitHostPort text defaultPort = some (text, defaultPort) := by
  rw [splitHostPort, if_neg some', if_neg noBracket, find_eq_none.mpr noColon]

theorem splitHostPort_name_port {text : Bytes} {defaultPort : UInt16} (some' : text ≠ [])
    (noBracket : text.head? ≠ some 91) (noColon : 58 ∉ text) (port : Port) :
    splitHostPort (text ++ 58 :: port.digits) defaultPort = some (text, port.number) := by
  have behind : (text ++ 58 :: port.digits).drop (text.length + 1) = port.digits := by
    rw [List.drop_append, List.drop_eq_nil_of_le (by omega), List.nil_append,
      Nat.add_sub_cancel_left, List.drop_succ_cons, List.drop_zero]
  have first : (text ++ 58 :: port.digits).head? ≠ some 91 := by
    rwa [List.head?_append_of_ne_nil _ some']
  rw [splitHostPort, if_neg (by simp), if_neg first, find_cut noColon]
  dsimp only
  rw [if_pos (rfind_cut (port.notMem (by decide))), List.take_left, if_neg some', behind,
    parsePort_digits]
  rfl

theorem find_bracket {address rest : Bytes} (noBracket : 93 ∉ address) :
    find 93 (91 :: address ++ 93 :: rest) = some (address.length + 1) :=
  @find_cut _ _ 93 (91 :: address) rest fun inside =>
    noBracket ((List.mem_cons.mp inside).resolve_left (by decide))

theorem splitHostPort_literal {address : Bytes} {defaultPort : UInt16} (noBracket : 93 ∉ address) :
    splitHostPort (91 :: address ++ [93]) defaultPort = some (address, defaultPort) := by
  rw [splitHostPort, if_neg (by simp), if_pos (by simp), find_bracket noBracket]
  simp

theorem splitHostPort_literal_port {address : Bytes} {defaultPort : UInt16}
    (noBracket : 93 ∉ address) (port : Port) :
    splitHostPort (91 :: address ++ 93 :: 58 :: port.digits) defaultPort =
      some (address, port.number) := by
  rw [splitHostPort, if_neg (by simp), if_pos (by simp), find_bracket noBracket]
  have digits : (91 :: address ++ 93 :: 58 :: port.digits).drop (address.length + 1 + 2) =
      port.digits := by
    rw [List.cons_append, List.drop_succ_cons, List.drop_append,
      List.drop_eq_nil_of_le (by omega), List.nil_append, Nat.add_sub_cancel_left]
    rfl
  have colon : (91 :: address ++ 93 :: 58 :: port.digits)[address.length + 1 + 1]? = some 58 := by
    rw [List.cons_append, List.getElem?_cons_succ, List.getElem?_append_right (by omega),
      Nat.add_sub_cancel_left]
    rfl
  dsimp only
  rw [if_neg (by simp only [List.length_append, List.length_cons]; omega),
    if_neg (not_not.mpr colon), digits, parsePort_digits]
  simp

/-! ## The target of a URI -/

theorem name_notMem {text : Bytes} (chars : ∀ c ∈ text, isNameChar c) {c : UInt8}
    (other : isNameChar c = false) : c ∉ text :=
  fun inside => Bool.false_ne_true (other.symm.trans (chars c inside))

theorem address_notMem {address : Bytes} (chars : ∀ c ∈ address, isAddressChar c) {c : UInt8}
    (other : isAddressChar c = false) : c ∉ address :=
  fun inside => Bool.false_ne_true (other.symm.trans (chars c inside))

theorem head_ne {text : Bytes} {c : UInt8} (absent : c ∉ text) : text.head? ≠ some c := by
  intro first
  exact absent (List.mem_of_mem_head? first)

variable (uri : HttpUri)

theorem HttpUri.splitHostPort_authority :
    splitHostPort uri.authority 80 = some (uri.target.host, uri.target.port) := by
  have formed := uri.hostFormed
  unfold HttpUri.authority HttpUri.target
  dsimp only
  cases host : uri.host with
  | name text =>
      rw [host] at formed
      obtain ⟨some', chars⟩ := formed
      have noColon : 58 ∉ text := name_notMem chars rfl
      have noBracket := head_ne (c := 91) (name_notMem chars rfl)
      cases uri.port with
      | none =>
          rw [Host.text, List.append_nil]
          exact splitHostPort_name some' noBracket noColon
      | some port => exact splitHostPort_name_port some' noBracket noColon port
  | literal address =>
      rw [host] at formed
      obtain ⟨-, chars⟩ := formed
      have noBracket : 93 ∉ address := address_notMem chars rfl
      cases uri.port with
      | none =>
          rw [Host.text, List.append_nil]
          exact splitHostPort_literal noBracket
      | some port =>
          rw [Host.text, List.append_assoc, List.singleton_append]
          exact splitHostPort_literal_port noBracket port

theorem HttpUri.bare_ne_nil : uri.host.bare ≠ [] := by
  have formed := uri.hostFormed
  cases host : uri.host with
  | name text =>
      rw [host] at formed
      exact formed.1
  | literal address =>
      rw [host] at formed
      exact List.ne_nil_of_mem formed.1

/-- The authority has the characters of its pieces only. -/
theorem HttpUri.authority_notMem {c : UInt8} (name : isNameChar c = false)
    (address : isAddressChar c = false) (digit : digitValue c = none)
    (mark : c ≠ 58 ∧ c ≠ 91 ∧ c ≠ 93) : c ∉ uri.authority := by
  have formed := uri.hostFormed
  have inHost : c ∉ uri.host.text := by
    cases host : uri.host with
    | name text =>
        rw [host] at formed
        exact name_notMem formed.2 name
    | literal text =>
        rw [host] at formed
        have absent : c ∉ text := address_notMem formed.2 address
        simp [Host.text, absent, mark]
  rw [HttpUri.authority, List.mem_append, not_or]
  refine ⟨inHost, ?_⟩
  cases uri.port with
  | none => exact List.not_mem_nil
  | some port => simp [port.notMem digit, mark]

theorem HttpUri.slash_notMem : 47 ∉ uri.authority :=
  uri.authority_notMem (by decide) (by decide) (by decide) (by decide)

theorem HttpUri.authority_ne_nil : uri.authority ≠ [] := by
  intro empty
  have found := uri.splitHostPort_authority
  rw [empty] at found
  cases found

/-- What comes of an authority and a path. -/
def partsOf (authority path : Bytes) : Option UrlParts :=
  match splitHostPort authority 80 with
  | none => none
  | some (host, port) => if host = [] then none else some { host, port, path }

theorem HttpUri.partsOf_authority (path : Bytes) :
    partsOf uri.authority path = some { uri.target with path } := by
  rw [partsOf, uri.splitHostPort_authority]
  exact if_neg uri.bare_ne_nil

theorem findText_scheme {scheme : Bytes} (isHttp : toLower scheme = ascii "http") (rest : Bytes) :
    findText (ascii "://") (scheme ++ ascii "://" ++ rest) = some scheme.length := by
  refine @findText_cut _ _ 58 scheme rest [47, 47] fun inside => ?_
  have lower : toLowerChar 58 ∈ toLower scheme := List.mem_map_of_mem inside
  rw [isHttp] at lower
  revert lower
  decide

/-- Behind the scheme the authority ends at the first slash. -/
theorem parseHttpUrl_slash {scheme authority path : Bytes}
    (isHttp : toLower scheme = ascii "http") (some' : authority ≠ []) (noSlash : 47 ∉ authority) :
    parseHttpUrl (scheme ++ ascii "://" ++ (authority ++ 47 :: path)) =
      partsOf authority (47 :: path) := by
  have three : (ascii "://").length = 3 := rfl
  have behind : (scheme ++ ascii "://" ++ (authority ++ 47 :: path)).drop (scheme.length + 3) =
      authority ++ 47 :: path := by
    rw [← three, ← List.length_append, List.drop_left]
  rw [parseHttpUrl, findText_scheme isHttp]
  dsimp only
  rw [List.append_assoc, List.take_left, ← List.append_assoc, behind, find_cut noSlash,
    if_neg (not_not.mpr isHttp),
    if_neg (by simp only [List.length_append, List.length_cons]; omega)]
  simp only [List.take_left, List.drop_left, if_neg some']
  rfl

/-- Without a slash all of the rest is the authority. -/
theorem parseHttpUrl_rest {scheme authority : Bytes} (isHttp : toLower scheme = ascii "http")
    (some' : authority ≠ []) (noSlash : 47 ∉ authority) :
    parseHttpUrl (scheme ++ ascii "://" ++ authority) = partsOf authority (ascii "/") := by
  have three : (ascii "://").length = 3 := rfl
  have positive := List.length_pos_of_ne_nil some'
  have behind : (scheme ++ ascii "://" ++ authority).drop (scheme.length + 3) = authority := by
    rw [← three, ← List.length_append, List.drop_left]
  rw [parseHttpUrl, findText_scheme isHttp]
  dsimp only
  rw [List.append_assoc, List.take_left, ← List.append_assoc, behind, find_eq_none.mpr noSlash,
    if_neg (not_not.mpr isHttp), if_neg (by simp only [List.length_append]; omega)]
  dsimp only
  rw [if_neg some']
  rfl

theorem partsOf_path {authority path : Bytes} {parts : UrlParts}
    (found : partsOf authority path = some parts) : parts.path = path := by
  unfold partsOf at found
  split at found
  · cases found
  · split at found
    · cases found
    · cases found
      rfl

/-- A URI whose query follows the authority directly is not understood. -/
theorem HttpUri.parseHttpUrl_query {query : Bytes} (empty : uri.path = [])
    (asks : uri.query = some query) : parseHttpUrl uri.text ≠ some uri.target := by
  intro found
  have target : uri.target.path = 47 :: 63 :: query := by
    simp only [HttpUri.target, HttpUri.queryText, empty, asks]
    rfl
  have text : uri.text = uri.scheme ++ ascii "://" ++ (uri.authority ++ 63 :: query) := by
    simp only [HttpUri.text, HttpUri.queryText, empty, asks, List.append_nil]
  rw [text] at found
  have noSlash := uri.slash_notMem
  by_cases slash : 47 ∈ query
  · obtain ⟨front, path, rfl, absent⟩ := List.eq_append_cons_of_mem slash
    rw [show uri.authority ++ 63 :: (front ++ 47 :: path) =
      (uri.authority ++ 63 :: front) ++ 47 :: path by simp,
      parseHttpUrl_slash uri.isHttp (by simp) (by simp [noSlash, absent])] at found
    have size := congrArg List.length ((partsOf_path found).symm.trans target)
    simp only [List.length_cons, List.length_append] at size
    omega
  · rw [parseHttpUrl_rest uri.isHttp (by simp) (by simp [noSlash, slash])] at found
    have same := (partsOf_path found).symm.trans target
    cases same

theorem HttpUri.parseHttpUrl_text (whole : uri.path = [] → uri.query = none) :
    parseHttpUrl uri.text = some uri.target := by
  have noSlash := uri.slash_notMem
  have some' := uri.authority_ne_nil
  cases path : uri.path with
  | nil =>
      have none' := whole path
      have text : uri.text = uri.scheme ++ ascii "://" ++ uri.authority := by
        simp only [HttpUri.text, HttpUri.queryText, path, none', List.append_nil]
      have target : uri.target.path = ascii "/" := by
        simp only [HttpUri.target, HttpUri.queryText, path, none']
        rfl
      rw [text, parseHttpUrl_rest uri.isHttp some' noSlash, uri.partsOf_authority, ← target]
  | cons c rest =>
      have formed := uri.pathFormed
      rw [path] at formed
      have slash : c = 47 := by simpa using formed
      subst slash
      have text : uri.text =
          uri.scheme ++ ascii "://" ++ (uri.authority ++ 47 :: (rest ++ uri.queryText)) := by
        simp only [HttpUri.text, path, List.append_assoc, List.cons_append]
      have target : uri.target.path = 47 :: (rest ++ uri.queryText) := by
        simp only [HttpUri.target, path]
        rfl
      rw [text, parseHttpUrl_slash uri.isHttp some' noSlash, uri.partsOf_authority, ← target]

/-! ## Hosts in their text -/

theorem formatHostPortForState_plain {host : Bytes} (noColon : 58 ∉ host) (port : UInt16) :
    formatHostPortForState host port = host ++ 58 :: (Port.printed port).digits := by
  rw [formatHostPortForState, formatHostForLog, if_neg (not_not.mpr (find_eq_none.mpr noColon)),
    List.append_assoc]
  rfl

/-- An address gets its brackets, and keeps those it has. -/
theorem formatHostPortForState_literal {address : Bytes}
    (formed : (Host.literal address).WellFormed) (port : UInt16) :
    formatHostPortForState address port =
        91 :: address ++ 93 :: 58 :: (Port.printed port).digits ∧
      formatHostPortForState (91 :: address ++ [93]) port =
        91 :: address ++ 93 :: 58 :: (Port.printed port).digits := by
  obtain ⟨colon, chars⟩ := formed
  have noBracket := head_ne (c := 91) (address_notMem chars rfl)
  have bracketed : 58 ∈ 91 :: address ++ [93] := by simp [colon]
  constructor
  · rw [formatHostPortForState, formatHostForLog,
      if_pos (mt find_eq_none.mp (not_not.mpr colon)), if_neg fun both => noBracket both.2.1]
    simp [Port.printed]
  · rw [formatHostPortForState, formatHostForLog,
      if_pos (mt find_eq_none.mp (not_not.mpr bracketed)),
      if_pos ⟨by simp, rfl, List.getLast?_concat⟩]
    simp [Port.printed]

/-- **Targets.**  The target of a URI is found unless its query follows the authority directly.  A
host without colon and brackets comes back from its text unless it is empty, and so does the address
of an IPv6 literal. -/
theorem target_iff (uri : HttpUri) (host address : Bytes) (port defaultPort : UInt16) :
    (parseHttpUrl uri.text = some uri.target ↔ ¬ (uri.path = [] ∧ uri.query ≠ none)) ∧
    (58 ∉ host → 91 ∉ host →
      (splitHostPort (formatHostPortForState host port) defaultPort = some (host, port) ↔
        host ≠ [])) ∧
    ((Host.literal address).WellFormed →
      splitHostPort (formatHostPortForState (Host.literal address).text port) defaultPort =
          some (address, port) ∧
        splitHostPort (formatHostPortForState address port) defaultPort =
          some (address, port)) := by
  refine ⟨⟨?_, ?_⟩, fun noColon noBracket => ⟨?_, ?_⟩, fun formed => ?_⟩
  · rintro found ⟨empty, asks⟩
    obtain ⟨query, asks⟩ := Option.ne_none_iff_exists'.mp asks
    exact uri.parseHttpUrl_query empty asks found
  · intro understood
    exact uri.parseHttpUrl_text fun empty => not_not.mp fun asks => understood ⟨empty, asks⟩
  · rintro found rfl
    rw [formatHostPortForState_plain noColon] at found
    have front := @find_cut _ _ (58 : UInt8) [] (Port.printed port).digits List.not_mem_nil
    have only := @rfind_cut _ _ 58 [] _ ((Port.printed port).notMem (by decide))
    rw [splitHostPort, if_neg (by simp), if_neg (by simp), front] at found
    dsimp only at found
    rw [if_pos only] at found
    cases found
  · intro some'
    rw [formatHostPortForState_plain noColon]
    exact splitHostPort_name_port some' (head_ne noBracket) noColon (Port.printed port)
  · obtain ⟨bare, bracketed⟩ := formatHostPortForState_literal formed port
    have noBracket : 93 ∉ address := address_notMem formed.2 rfl
    rw [Host.text, bracketed, bare]
    have back := @splitHostPort_literal_port _ defaultPort noBracket (Port.printed port)
    exact ⟨back, back⟩

/-! ## A query without a path -/

/-- `http://a`, with that path and that query. -/
def plainUri (path : Bytes) (query : Option Bytes) (pathFormed : path = [] ∨ path.head? = some 47)
    (pathChars : ∀ c ∈ path, isPathChar c ∨ c = 47)
    (queryChars : ∀ text, query = some text → ∀ c ∈ text, isPathChar c ∨ c = 47 ∨ c = 63) :
    HttpUri where
  scheme := ascii "http"
  host := .name [97]
  port := none
  path := path
  query := query
  isHttp := by decide
  hostFormed := ⟨by decide, List.all_eq_true.mp (by decide)⟩
  pathFormed := pathFormed
  pathChars := pathChars
  queryChars := queryChars

/-- `http://a?x` -/
def queryOnly : HttpUri :=
  plainUri [] (some [120]) (.inl rfl) (by simp) (by
    rintro text ⟨⟩ c inside
    rw [List.mem_singleton.mp inside]
    exact .inl rfl)

/-- `http://a/?x`, the host `a` and the address `::1` -/
theorem target_iff_plain :
    parseHttpUrl (ascii "http://a/?x") = some ⟨[97], 80, ascii "/?x"⟩ ∧
    splitHostPort (formatHostPortForState [97] 81) 80 = some ([97], 81) ∧
    splitHostPort (formatHostPortForState (ascii "[::1]") 81) 80 = some (ascii "::1", 81) := by
  let slash : HttpUri := plainUri [47] (some [120]) (.inr rfl) (by simp) (by
    rintro text ⟨⟩ c inside
    rw [List.mem_singleton.mp inside]
    exact .inl rfl)
  obtain ⟨whole, name, literal⟩ := target_iff slash [97] (ascii "::1") 81 80
  refine ⟨?_, ?_, ?_⟩
  · exact whole.mpr (by simp [slash, plainUri])
  · exact (name (by decide) (by decide)).mpr (by decide)
  · exact (literal ⟨by decide, List.all_eq_true.mp (by decide)⟩).1

/-- **The query is taken for a part of the host**, which is `a?x`. -/
theorem query_in_host : ¬ (∀ uri : HttpUri, parseHttpUrl uri.text = some uri.target) ∧
    parseHttpUrl (ascii "http://a?x") = some ⟨ascii "a?x", 80, ascii "/"⟩ := by
  refine ⟨fun always => queryOnly.parseHttpUrl_query rfl rfl (always queryOnly), ?_⟩
  decide

end CoWq.HttpProxy.Target
