import CoWq.Lib.Numerals
import CoWq.Lib.TextSearch
import CoWq.Net.WebSocket.Accept

/-!
# Redirects of co_curl

The URL to which a `Location` leads is put together from the parts of the last URL and parsed again.

* `splitHostPort`, `parseUrl`, `resolveRedirectUrl`: the code; `follow`: the redirects one after the
  other.
* `IsAbsolutePath`, `IsRelativePath`, `NetworkPath`, `AbsoluteUri`: the forms of a `Location`.
* `Reparses`: the hosts that come back when they are parsed again.
* `resolve_iff`: where each form leads to the place that it names; `follow_origin`: redirects by
  path stay with their origin.
-/

namespace CoWq.CoCurl

open TextSearch
open WebSocket.Accept (ascii toLower)

abbrev Bytes := List UInt8

/-! ## The code -/

/-- The digits behind the colon; the default without any. -/
def portValue (portStr : Bytes) (defaultPort : UInt16) : Option UInt16 :=
  if portStr = [] then some defaultPort
  else if 5 < portStr.length then none
  else (readBounded 65535 0 portStr).map UInt16.ofNat

/-- The texts of the host and the port. -/
def hostAndPort (input : Bytes) : Option (Bytes × Bytes) :=
  if input.head? = some 91 then
    match find 93 input with
    | none => none
    | some closing =>
        let host := (input.drop 1).take (closing - 1)
        if closing + 1 < input.length then
          if input[closing + 1]? ≠ some 58 then none
          else some (host, input.drop (closing + 2))
        else some (host, [])
  else
    match rfind 58 input with
    | none => some (input, [])
    | some colon =>
        if find 58 (input.drop (colon + 1)) = none then
          some (input.take colon, input.drop (colon + 1))
        else some (input, [])

/-- `split_host_port`: the host and the port if it succeeds -/
def splitHostPort (input : Bytes) (defaultPort : UInt16) : Option (Bytes × UInt16) :=
  if input = [] then none
  else
    match hostAndPort input with
    | none => none
    | some (host, portStr) =>
        if host = [] then none else (portValue portStr defaultPort).map fun port => (host, port)

structure ParsedUrl where
  scheme : Bytes
  host : Bytes
  port : UInt16
  path : Bytes
  deriving DecidableEq, Repr

/-- The port of a scheme. -/
def schemePort (scheme : Bytes) : UInt16 := if scheme = ascii "https" then 443 else 80

/-- `parse_url` -/
def parseUrl (url : Bytes) : Option ParsedUrl :=
  match findText (ascii "://") url with
  | none => none
  | some schemePos =>
      let scheme := toLower (url.take schemePos)
      if scheme ≠ ascii "http" ∧ scheme ≠ ascii "https" then none
      else if url.length ≤ schemePos + 3 then none
      else
        let rest := url.drop (schemePos + 3)
        let slashPos := find 47 rest
        let authority := match slashPos with
          | none => rest
          | some slash => rest.take slash
        let path := match slashPos with
          | none => ascii "/"
          | some slash => rest.drop slash
        if authority = [] then none
        else
          match splitHostPort authority (schemePort scheme) with
          | none => none
          | some (host, port) => if host = [] then none else some { scheme, host, port, path }

/-- The host and, unless it is the default one, the port. -/
def ParsedUrl.authority (base : ParsedUrl) : Bytes :=
  let isHttps := base.scheme = ascii "https"
  let defaultPort := isHttps ∧ base.port = 443 ∨ ¬ isHttps ∧ base.port = 80
  base.host ++ if defaultPort then [] else 58 :: numeral 10 base.port.toNat

/-- The part of the path in front of a relative location. -/
def ParsedUrl.directory (base : ParsedUrl) : Bytes :=
  match rfind 47 base.path with
  | none => [47]
  | some lastSlash => base.path.take (lastSlash + 1)

/-- `resolve_redirect_url` -/
def resolveRedirectUrl (base : ParsedUrl) (location : Bytes) : Bytes :=
  if location = [] then []
  else if ascii "http://" <+: location ∨ ascii "https://" <+: location then location
  else if location.head? = some 47 then
    base.scheme ++ ascii "://" ++ (base.authority ++ location)
  else
    base.scheme ++ ascii "://" ++ (base.authority ++ (base.directory ++ location))

/-- The redirects of `run_client` one after the other. -/
def follow (base : ParsedUrl) : List Bytes → Option ParsedUrl
  | [] => some base
  | location :: rest =>
      (parseUrl (resolveRedirectUrl base location)).bind fun next => follow next rest

/-! ## Locations -/

/-- The characters that end an authority. -/
def isDelimiter (c : UInt8) : Bool := c == 47 || c == 63 || c == 35

def IsAbsolutePath (location : Bytes) : Prop :=
  location.head? = some 47 ∧ location[1]? ≠ some 47

/-- A path whose first segment is not empty and has no colon. -/
def IsRelativePath (location : Bytes) : Prop :=
  location.takeWhile (fun c => !isDelimiter c) ≠ [] ∧
    58 ∉ location.takeWhile fun c => !isDelimiter c

/-- `//authority` and what follows -/
def NetworkPath (location authority : Bytes) : Prop :=
  ∃ rest, location = [47, 47] ++ rest ∧ rest.takeWhile (fun c => !isDelimiter c) = authority

def isLetter (c : UInt8) : Bool := 65 ≤ c && c ≤ 90 || 97 ≤ c && c ≤ 122

def isSchemeChar (c : UInt8) : Bool :=
  isLetter c || 48 ≤ c && c ≤ 57 || c == 43 || c == 45 || c == 46

/-- `scheme://authority` and what follows; a scheme begins with a letter. -/
def AbsoluteUri (location scheme authority : Bytes) : Prop :=
  scheme ≠ [] ∧ (∀ c ∈ scheme.head?, isLetter c) ∧ (∀ c ∈ scheme, isSchemeChar c) ∧
    ∃ rest, location = scheme ++ ascii "://" ++ rest ∧
      rest.takeWhile (fun c => !isDelimiter c) = authority

/-- The authority that a URL names. -/
def authorityOf (url : Bytes) : Option Bytes :=
  (findText (ascii "://") url).map fun pos =>
    (url.drop (pos + 3)).takeWhile fun c => !isDelimiter c

/-- The path up to its last slash before any query or fragment. -/
def pathDirectory (path : Bytes) : Bytes :=
  match rfind 47 (path.takeWhile fun c => c ≠ 63 ∧ c ≠ 35) with
  | none => [47]
  | some lastSlash => path.take (lastSlash + 1)

/-- The query and the fragment of a path. -/
def queryOf (path : Bytes) : Bytes := path.dropWhile fun c => c ≠ 63 ∧ c ≠ 35

/-- The host comes back when it is parsed again. -/
def Reparses (base : ParsedUrl) : Prop :=
  base.host.head? ≠ some 91 ∧ (58 ∉ base.host ∨ base.port ≠ schemePort base.scheme)

/-! ## What has been parsed -/

/-- What a URL that has been parsed is like. -/
structure Parsed (base : ParsedUrl) : Prop where
  scheme : base.scheme = ascii "http" ∨ base.scheme = ascii "https"
  some' : base.host ≠ []
  noSlash : 47 ∉ base.host
  bracket : base.host.head? = some 91 → 93 ∉ base.host
  rooted : base.path.head? = some 47

/-- A host is a piece of its text, and none with an opening bracket has a closing one. -/
theorem hostAndPort_host {input host portStr : Bytes}
    (found : hostAndPort input = some (host, portStr)) (some' : host ≠ []) :
    (∀ c ∈ host, c ∈ input) ∧ (host.head? = some 91 → 93 ∉ host) := by
  unfold hostAndPort at found
  split at found
  · next first =>
      split at found
      · cases found
      · next closing at' =>
          obtain ⟨before, after, rfl, absent, rfl⟩ := find_eq_some at'
          have host' : ((before ++ 93 :: after).drop 1).take (before.length - 1) = host := by
            split at found
            · split at found
              · cases found
              · cases found
                rfl
            · cases found
              rfl
          refine ⟨fun c inside => ?_, fun _ inside => ?_⟩
          · rw [← host'] at inside
            exact List.mem_of_mem_drop (List.mem_of_mem_take inside)
          · cases before with
            | nil =>
                cases first
            | cons b before =>
                rw [List.cons_append, List.drop_succ_cons, List.drop_zero, List.length_cons,
                  Nat.add_sub_cancel, List.take_left] at host'
                exact absent (List.mem_cons_of_mem _ (host' ▸ inside))
  · next first =>
      have front : host <+: input := by
        split at found
        · cases found
          exact List.prefix_refl _
        · split at found
          · cases found
            exact List.take_prefix _ _
          · cases found
            exact List.prefix_refl _
      obtain ⟨rest, rfl⟩ := front
      refine ⟨fun c inside => List.mem_append_left _ inside, fun bracket => ?_⟩
      rw [List.head?_append_of_ne_nil _ some'] at first
      exact (first bracket).elim

theorem parsed_of_parseUrl {url : Bytes} {base : ParsedUrl} (found : parseUrl url = some base) :
    Parsed base := by
  unfold parseUrl at found
  split at found
  · cases found
  · next schemePos at' =>
      dsimp only at found
      split at found
      · cases found
      · next known =>
          split at found
          · cases found
          · generalize url.drop (schemePos + 3) = rest at found
            -- the authority has no slash, and the path starts with one
            obtain ⟨authority, path, noSlash, rooted, found⟩ : ∃ authority path,
                47 ∉ authority ∧ path.head? = some 47 ∧ (if authority = [] then none else
                  match splitHostPort authority (schemePort (toLower (url.take schemePos))) with
                  | none => none
                  | some (host, port) => if host = [] then none else
                      some ⟨toLower (url.take schemePos), host, port, path⟩) = some base := by
              cases slash : find 47 rest with
              | none =>
                  rw [slash] at found
                  exact ⟨rest, ascii "/", find_eq_none.mp slash, rfl, found⟩
              | some i =>
                  obtain ⟨before, after, rfl, absent, rfl⟩ := find_eq_some slash
                  rw [slash] at found
                  simp only [List.take_left, List.drop_left] at found
                  exact ⟨before, 47 :: after, absent, rfl, found⟩
            split at found
            · cases found
            · split at found
              · cases found
              · next host port split =>
                  split at found
                  · cases found
                  · next some' =>
                      cases found
                      unfold splitHostPort at split
                      obtain ⟨-, split⟩ := Option.ite_none_left_eq_some.mp split
                      cases both : hostAndPort authority with
                      | none =>
                          rw [both] at split
                          cases split
                      | some texts =>
                          rw [both] at split
                          obtain ⟨-, split⟩ := Option.ite_none_left_eq_some.mp split
                          obtain ⟨value, -, same⟩ := Option.map_eq_some_iff.mp split
                          cases same
                          obtain ⟨pieces, bracket⟩ := hostAndPort_host both some'
                          refine ⟨?_, some', fun inside => noSlash (pieces _ inside), bracket,
                            rooted⟩
                          dsimp only
                          tauto

/-! ## Putting together and parsing again -/

variable {base : ParsedUrl}

theorem authority_default (known : base.port = schemePort base.scheme) :
    base.authority = base.host := by
  unfold ParsedUrl.authority
  dsimp only
  rw [if_pos, List.append_nil]
  unfold schemePort at known
  split at known
  · next https => exact .inl ⟨https, known⟩
  · next http => exact .inr ⟨http, known⟩

theorem authority_other (other : base.port ≠ schemePort base.scheme) :
    base.authority = base.host ++ 58 :: numeral 10 base.port.toNat := by
  unfold ParsedUrl.authority
  dsimp only
  rw [if_neg]
  unfold schemePort at other
  split at other
  · next https =>
      rintro (⟨-, known⟩ | ⟨http, -⟩)
      · exact other known
      · exact http https
  · next http =>
      rintro (⟨https, -⟩ | ⟨-, known⟩)
      · exact http https
      · exact other known

theorem numeral_notMem {n : Nat} {c : UInt8} (other : digitValue c = none) :
    c ∉ numeral 10 n := fun inside =>
  digitValue_of_read (readDigits_numeral (by decide) (by decide) n) inside other

theorem authority_notMem {c : UInt8} (absent : c ∉ base.host) (colon : c ≠ 58)
    (digit : digitValue c = none) : c ∉ base.authority := by
  by_cases known : base.port = schemePort base.scheme
  · rwa [authority_default known]
  · rw [authority_other known]
    simp [absent, colon, numeral_notMem digit]

/-- A scheme has no colon. -/
theorem findText_separator {scheme rest : Bytes} (absent : 58 ∉ scheme) :
    findText (ascii "://") (scheme ++ ascii "://" ++ rest) = some scheme.length :=
  (findText_cut absent : findText (58 :: [47, 47]) (_ ++ (58 :: [47, 47]) ++ rest) = _)

theorem drop_separator (scheme rest : Bytes) :
    (scheme ++ ascii "://" ++ rest).drop (scheme.length + 3) = rest := by
  rw [show scheme.length + 3 = (scheme ++ ascii "://").length by
    rw [List.length_append]; rfl, List.drop_left]

theorem portValue_numeral (port defaultPort : UInt16) :
    portValue (numeral 10 port.toNat) defaultPort = some port := by
  have bound := port.toNat_lt
  have short : (numeral 10 port.toNat).length ≤ 5 :=
    numeral_length_le (by decide) (lt_trans bound (by decide))
  rw [portValue, if_neg (numeral_ne_nil _), if_neg (not_lt.mpr short),
    readBounded_numeral (by omega), Option.map_some, UInt16.ofNat_toNat]

namespace Parsed

variable (parsed : Parsed base)
include parsed

theorem authority_ne_nil : base.authority ≠ [] := by
  unfold ParsedUrl.authority
  exact fun empty => parsed.some' (List.append_eq_nil_iff.mp empty).1

theorem head_authority : base.authority.head? = base.host.head? := by
  unfold ParsedUrl.authority
  exact List.head?_append_of_ne_nil _ parsed.some'

/-- Parsing the authority again gives the host and the port back for those that reparse. -/
theorem splitHostPort_authority :
    splitHostPort base.authority (schemePort base.scheme) = some (base.host, base.port) ↔
      Reparses base := by
  rw [splitHostPort, if_neg parsed.authority_ne_nil, Reparses]
  by_cases bracket : base.host.head? = some 91
  · -- there is no closing bracket
    have absent := authority_notMem (parsed.bracket bracket) (by decide) (by decide)
    have fails : hostAndPort base.authority = none := by
      rw [hostAndPort, if_pos (parsed.head_authority.trans bracket), find_eq_none.mpr absent]
    rw [fails]
    simp [bracket]
  · have first : base.authority.head? ≠ some 91 := by rwa [parsed.head_authority]
    by_cases known : base.port = schemePort base.scheme
    · rw [authority_default known] at first ⊢
      by_cases colon : 58 ∈ base.host
      · -- the host is cut at its last colon
        cases last : rfind 58 base.host with
        | none => exact (rfind_eq_none.mp last colon).elim
        | some i =>
            obtain ⟨before, after, cut, absent, rfl⟩ := rfind_eq_some last
            have behind : base.host.drop (before.length + 1) = after := by
              rw [cut, List.drop_append, List.drop_eq_nil_of_le (by omega), List.nil_append,
                Nat.add_sub_cancel_left]
              rfl
            have pieces : hostAndPort base.host = some (before, after) := by
              rw [hostAndPort, if_neg first, last]
              dsimp only
              rw [behind, if_pos (find_eq_none.mpr absent), cut, List.take_left]
            rw [pieces]
            constructor
            · intro found
              obtain ⟨-, found⟩ := Option.ite_none_left_eq_some.mp found
              obtain ⟨port, -, same⟩ := Option.map_eq_some_iff.mp found
              have size := congrArg List.length ((Prod.mk.inj same).1.trans cut)
              simp only [List.length_append, List.length_cons] at size
              omega
            · rintro ⟨-, noColon | other⟩
              · exact (noColon colon).elim
              · exact (other known).elim
      · have pieces : hostAndPort base.host = some (base.host, []) := by
          rw [hostAndPort, if_neg first, rfind_eq_none.mpr colon]
        rw [pieces]
        simp [parsed.some', portValue, ← known, bracket, colon]
    · rw [authority_other known] at first ⊢
      have last : rfind 58 (base.host ++ 58 :: numeral 10 base.port.toNat) =
          some base.host.length := rfind_cut (numeral_notMem (by decide))
      have behind : (base.host ++ 58 :: numeral 10 base.port.toNat).drop (base.host.length + 1) =
          numeral 10 base.port.toNat := by
        rw [List.drop_append, List.drop_eq_nil_of_le (by omega), List.nil_append,
          Nat.add_sub_cancel_left]
        rfl
      have pieces : hostAndPort (base.host ++ 58 :: numeral 10 base.port.toNat) =
          some (base.host, numeral 10 base.port.toNat) := by
        rw [hostAndPort, if_neg first, last]
        dsimp only
        rw [behind, if_pos (find_eq_none.mpr (numeral_notMem (by decide))), List.take_left]
      rw [pieces]
      simp [parsed.some', portValue_numeral, known, bracket]

theorem toLower_scheme : toLower base.scheme = base.scheme := by
  rcases parsed.scheme with http | https
  · rw [http]
    decide
  · rw [https]
    decide

theorem findText_scheme (rest : Bytes) :
    findText (ascii "://") (base.scheme ++ ascii "://" ++ rest) = some base.scheme.length := by
  refine findText_separator ?_
  rcases parsed.scheme with http | https
  · rw [http]
    decide
  · rw [https]
    decide

/-- The parts of a URL with the origin of the base. -/
theorem parseUrl_origin {path : Bytes} (rooted : path.head? = some 47) :
    parseUrl (base.scheme ++ ascii "://" ++ (base.authority ++ path)) =
      match splitHostPort base.authority (schemePort base.scheme) with
      | none => none
      | some (host, port) => if host = [] then none else some ⟨base.scheme, host, port, path⟩ := by
  obtain ⟨rest, rfl⟩ := List.head?_eq_some_iff.mp rooted
  have noSlash : 47 ∉ base.authority :=
    authority_notMem parsed.noSlash (by decide) (by decide)
  have three : (ascii "://").length = 3 := rfl
  have known : ¬ (base.scheme ≠ ascii "http" ∧ base.scheme ≠ ascii "https") :=
    fun both => parsed.scheme.elim both.1 both.2
  rw [parseUrl, parsed.findText_scheme]
  dsimp only
  rw [drop_separator, List.append_assoc, List.take_left, parsed.toLower_scheme, if_neg known,
    if_neg (by simp only [List.length_append, List.length_cons]; omega), find_cut noSlash]
  simp only [List.take_left, List.drop_left, if_neg parsed.authority_ne_nil]

/-- **A URL with the origin of the base comes back with its scheme, host and port** for those that
reparse. -/
theorem parseUrl_iff {path : Bytes} (rooted : path.head? = some 47) :
    parseUrl (base.scheme ++ ascii "://" ++ (base.authority ++ path)) =
      some { base with path } ↔ Reparses base := by
  rw [parsed.parseUrl_origin rooted, ← parsed.splitHostPort_authority]
  cases splitHostPort base.authority (schemePort base.scheme) with
  | none => simp
  | some both =>
      obtain ⟨host, port⟩ := both
      dsimp only
      by_cases empty : host = []
      · have other := parsed.some'
        simp [empty, Ne.symm other]
      · simp [empty]

end Parsed

/-! ## Directories -/

theorem rfind_append {text rest : Bytes} {c : UInt8} (absent : c ∉ rest) :
    rfind c (text ++ rest) = rfind c text := by
  cases last : rfind c text with
  | none => exact rfind_eq_none.mpr (by simp [rfind_eq_none.mp last, absent])
  | some i =>
      obtain ⟨before, after, rfl, later, rfl⟩ := rfind_eq_some last
      rw [List.append_assoc, List.cons_append]
      exact rfind_cut (by simp [later, absent])

theorem directory_cons (base : ParsedUrl) (rooted : base.path.head? = some 47) :
    ∃ rest, base.directory = 47 :: rest := by
  obtain ⟨rest, path⟩ := List.head?_eq_some_iff.mp rooted
  unfold ParsedUrl.directory
  split
  · exact ⟨[], rfl⟩
  · next i last =>
      rw [path]
      exact ⟨rest.take i, List.take_succ_cons⟩

/-- **The directory is that of the path** unless its query has a slash. -/
theorem directory_iff (base : ParsedUrl) (rooted : base.path.head? = some 47) :
    base.directory = pathDirectory base.path ↔ 47 ∉ queryOf base.path := by
  obtain ⟨tail, path⟩ := List.head?_eq_some_iff.mp rooted
  have cut : (base.path.takeWhile fun c => c ≠ 63 ∧ c ≠ 35) ++ queryOf base.path = base.path :=
    List.takeWhile_append_dropWhile
  have starts : 47 ∈ base.path.takeWhile fun c => c ≠ 63 ∧ c ≠ 35 := by
    rw [path, List.takeWhile_cons, if_pos (by decide)]
    exact List.mem_cons_self
  unfold ParsedUrl.directory pathDirectory
  generalize (base.path.takeWhile fun c => c ≠ 63 ∧ c ≠ 35) = component at cut starts ⊢
  constructor
  · intro same inside
    -- the directory of the code goes beyond the component, the other one does not
    cases last : rfind 47 (queryOf base.path) with
    | none => exact rfind_eq_none.mp last inside
    | some i =>
        obtain ⟨before, after, query, absent, rfl⟩ := rfind_eq_some last
        have far : rfind 47 base.path = some (component.length + before.length) := by
          rw [← cut, query, ← List.append_assoc, rfind_cut absent, List.length_append]
        cases near : rfind 47 component with
        | none => exact rfind_eq_none.mp near starts
        | some j =>
            obtain ⟨front, back, rfl, -, rfl⟩ := rfind_eq_some near
            rw [far, near] at same
            have size := congrArg List.length same
            have whole := congrArg List.length cut
            rw [query] at whole
            simp only [List.length_take, List.length_append, List.length_cons] at size whole
            omega
  · intro absent
    have same : rfind 47 base.path = rfind 47 component := by
      rw [← cut, rfind_append absent]
    rw [same]

/-! ## The resolution of a location -/

/-- The part in front of the first delimiter. -/
def cutAuthority (text : Bytes) : Bytes := text.takeWhile fun c => !isDelimiter c

theorem cutAuthority_slash (text rest : Bytes) :
    cutAuthority (text ++ 47 :: rest) = cutAuthority text := by
  unfold cutAuthority
  induction text with
  | nil => rfl
  | cons c text ih => rw [List.cons_append, List.takeWhile_cons, List.takeWhile_cons, ih]

/-- A location with a slash in front is appended to the authority. -/
theorem resolve_rooted {location : Bytes} (slash : location.head? = some 47) :
    resolveRedirectUrl base location =
      base.scheme ++ ascii "://" ++ (base.authority ++ location) := by
  obtain ⟨rest, rfl⟩ := List.head?_eq_some_iff.mp slash
  have other : ¬ (ascii "http://" <+: 47 :: rest ∨ ascii "https://" <+: 47 :: rest) := by
    rintro (⟨more, same⟩ | ⟨more, same⟩)
    · cases same
    · cases same
  rw [resolveRedirectUrl, if_neg (List.cons_ne_nil _ _), if_neg other, if_pos slash]

/-- One that is neither rooted nor a URL is appended to the directory. -/
theorem resolve_other {location : Bytes} (some' : location ≠ [])
    (noSlash : location.head? ≠ some 47)
    (noUrl : ¬ (ascii "http://" <+: location ∨ ascii "https://" <+: location)) :
    resolveRedirectUrl base location =
      base.scheme ++ ascii "://" ++ (base.authority ++ (base.directory ++ location)) := by
  rw [resolveRedirectUrl, if_neg some', if_neg noUrl, if_neg noSlash]

/-- A relative path is appended to the directory. -/
theorem resolve_relative {location : Bytes} (relative : IsRelativePath location) :
    resolveRedirectUrl base location =
      base.scheme ++ ascii "://" ++ (base.authority ++ (base.directory ++ location)) := by
  obtain ⟨segment, noColon⟩ := relative
  refine resolve_other ?_ ?_ ?_
  · rintro rfl
    exact segment rfl
  · intro slash
    obtain ⟨rest, rfl⟩ := List.head?_eq_some_iff.mp slash
    exact segment rfl
  · rintro (⟨more, rfl⟩ | ⟨more, rfl⟩)
    · exact noColon (by simp [ascii, isDelimiter])
    · exact noColon (by simp [ascii, isDelimiter])

theorem Parsed.authorityOf_origin (parsed : Parsed base) (rest : Bytes) :
    authorityOf (base.scheme ++ ascii "://" ++ (base.authority ++ 47 :: rest)) =
      some (cutAuthority base.authority) := by
  rw [authorityOf, parsed.findText_scheme, Option.map_some, drop_separator,
    ← cutAuthority_slash _ rest,
    cutAuthority]

theorem AbsoluteUri.authorityOf {location scheme authority : Bytes}
    (absolute : AbsoluteUri location scheme authority) :
    authorityOf location = some authority := by
  obtain ⟨-, -, chars, rest, rfl, rfl⟩ := absolute
  have absent : 58 ∉ scheme := fun colon => absurd (chars _ colon) (by decide)
  rw [CoCurl.authorityOf, findText_separator absent, Option.map_some, drop_separator]

/-- One with another scheme is taken for a relative path. -/
theorem AbsoluteUri.resolve {location scheme authority : Bytes}
    (absolute : AbsoluteUri location scheme authority)
    (other : ¬ (scheme = ascii "http" ∨ scheme = ascii "https")) :
    resolveRedirectUrl base location =
      base.scheme ++ ascii "://" ++ (base.authority ++ (base.directory ++ location)) := by
  obtain ⟨some', -, chars, rest, rfl, -⟩ := absolute
  have absent : 58 ∉ scheme := fun colon => absurd (chars _ colon) (by decide)
  -- the scheme ends at the first separator
  have spelled (name : Bytes) (noColon : 58 ∉ name)
      (front : name ++ ascii "://" <+: scheme ++ ascii "://" ++ rest) : scheme = name := by
    obtain ⟨more, same⟩ := front
    have size : name.length = scheme.length := by
      have position := congrArg (findText (ascii "://")) same
      rw [findText_separator noColon, findText_separator absent] at position
      exact Option.some.inj position
    rw [List.append_assoc, List.append_assoc] at same
    exact (List.append_inj_left same size).symm
  refine resolve_other ?_ ?_ ?_
  · simp [some']
  · rw [List.append_assoc, List.head?_append_of_ne_nil _ some']
    exact fun slash => absurd (chars 47 (List.mem_of_mem_head? slash)) (by decide)
  · rintro (http | https)
    · exact other (.inl (spelled (ascii "http") (by decide) http))
    · exact other (.inr (spelled (ascii "https") (by decide) https))

/-- What the resolution of a location is to be: a path stays with the origin, and a reference with
an authority leads there. -/
structure KeepsOrigin (base : ParsedUrl) (location : Bytes) : Prop where
  absolutePath : IsAbsolutePath location →
    parseUrl (resolveRedirectUrl base location) = some { base with path := location }
  relativePath : IsRelativePath location →
    parseUrl (resolveRedirectUrl base location) =
      some { base with path := pathDirectory base.path ++ location }
  networkPath : ∀ authority, NetworkPath location authority →
    authorityOf (resolveRedirectUrl base location) = some authority
  absoluteUri : ∀ scheme authority, AbsoluteUri location scheme authority →
    authorityOf (resolveRedirectUrl base location) = some authority

/-- The locations that the code resolves. -/
structure Resolvable (base : ParsedUrl) (location : Bytes) : Prop where
  absolutePath : IsAbsolutePath location → Reparses base
  relativePath : IsRelativePath location → Reparses base ∧ 47 ∉ queryOf base.path
  networkPath : ∀ authority, NetworkPath location authority →
    cutAuthority base.authority = authority
  absoluteUri : ∀ scheme authority, AbsoluteUri location scheme authority →
    (scheme = ascii "http" ∨ scheme = ascii "https") ∨ cutAuthority base.authority = authority

namespace Parsed

variable (parsed : Parsed base)
include parsed

theorem absolutePath_iff {location : Bytes} (absolute : IsAbsolutePath location) :
    parseUrl (resolveRedirectUrl base location) = some { base with path := location } ↔
      Reparses base := by
  rw [resolve_rooted absolute.1]
  exact parsed.parseUrl_iff absolute.1

theorem relativePath_iff {location : Bytes} (relative : IsRelativePath location) :
    parseUrl (resolveRedirectUrl base location) =
        some { base with path := pathDirectory base.path ++ location } ↔
      Reparses base ∧ 47 ∉ queryOf base.path := by
  obtain ⟨rest, directory⟩ := directory_cons base parsed.rooted
  have rooted : (base.directory ++ location).head? = some 47 := by
    rw [directory]
    rfl
  have back := parsed.parseUrl_iff rooted
  rw [resolve_relative relative, ← directory_iff base parsed.rooted]
  constructor
  · intro found
    have path : base.directory = pathDirectory base.path := by
      rw [parsed.parseUrl_origin rooted] at found
      split at found
      · cases found
      · split at found
        · cases found
        · exact List.append_cancel_right (congrArg ParsedUrl.path (Option.some.inj found))
    rw [← path] at found
    exact ⟨back.mp found, path⟩
  · rintro ⟨reparses, path⟩
    rw [← path]
    exact back.mpr reparses

theorem networkPath_iff {location authority : Bytes} (network : NetworkPath location authority) :
    authorityOf (resolveRedirectUrl base location) = some authority ↔
      cutAuthority base.authority = authority := by
  obtain ⟨rest, rfl, -⟩ := network
  rw [resolve_rooted rfl]
  exact (parsed.authorityOf_origin _).symm ▸ Option.some_inj

theorem absoluteUri_iff {location scheme authority : Bytes}
    (absolute : AbsoluteUri location scheme authority) :
    authorityOf (resolveRedirectUrl base location) = some authority ↔
      (scheme = ascii "http" ∨ scheme = ascii "https") ∨
        cutAuthority base.authority = authority := by
  by_cases known : scheme = ascii "http" ∨ scheme = ascii "https"
  · have same : resolveRedirectUrl base location = location := by
      obtain ⟨some', -, -, rest, rfl, -⟩ := absolute
      rw [resolveRedirectUrl, if_neg (by simp [some']), if_pos]
      rcases known with rfl | rfl
      · exact .inl (List.prefix_append _ _)
      · exact .inr (List.prefix_append _ _)
    simp only [same, absolute.authorityOf, known, true_or]
  · obtain ⟨rest, directory⟩ := directory_cons base parsed.rooted
    have named : CoCurl.authorityOf (resolveRedirectUrl base location) =
        some (cutAuthority base.authority) := by
      rw [absolute.resolve known, directory]
      exact parsed.authorityOf_origin _
    rw [named, Option.some_inj]
    simp only [known, false_or]

end Parsed

/-- **Redirects lead to where they point** just for the bases and locations that the code
resolves. -/
theorem resolve_iff {url : Bytes} {base : ParsedUrl} (found : parseUrl url = some base)
    (location : Bytes) : KeepsOrigin base location ↔ Resolvable base location := by
  have parsed := parsed_of_parseUrl found
  constructor
  · intro keeps
    exact {
      absolutePath := fun form => (parsed.absolutePath_iff form).mp (keeps.absolutePath form)
      relativePath := fun form => (parsed.relativePath_iff form).mp (keeps.relativePath form)
      networkPath := fun authority form =>
        (parsed.networkPath_iff form).mp (keeps.networkPath authority form)
      absoluteUri := fun scheme authority form =>
        (parsed.absoluteUri_iff form).mp (keeps.absoluteUri scheme authority form) }
  · intro good
    exact {
      absolutePath := fun form => (parsed.absolutePath_iff form).mpr (good.absolutePath form)
      relativePath := fun form => (parsed.relativePath_iff form).mpr (good.relativePath form)
      networkPath := fun authority form =>
        (parsed.networkPath_iff form).mpr (good.networkPath authority form)
      absoluteUri := fun scheme authority form =>
        (parsed.absoluteUri_iff form).mpr (good.absoluteUri scheme authority form) }

theorem resolve_iff_relative :
    KeepsOrigin ⟨ascii "http", ascii "a", 8080, ascii "/d/e?q"⟩ (ascii "g") := by
  refine (@resolve_iff (ascii "HTTP://a:8080/d/e?q") _ (by decide) (ascii "g")).mpr
    ⟨fun form => ?_, fun _ => ?_, fun authority form => ?_, fun scheme authority form => ?_⟩
  · cases form.1
  · exact ⟨⟨by decide, .inl (by decide)⟩, by decide⟩
  · obtain ⟨rest, same, -⟩ := form
    cases same
  · obtain ⟨-, -, -, rest, same, -⟩ := form
    have size := congrArg List.length same
    simp only [List.length_append, show (ascii "g").length = 1 from rfl,
      show (ascii "://").length = 3 from rfl] at size
    omega

/-- An IPv6 host loses its brackets, and the last colon in it is then taken for that of a port. -/
theorem brackets_lost :
    parseUrl (ascii "http://[::1]/") = some ⟨ascii "http", ascii "::1", 80, ascii "/"⟩ ∧
      parseUrl (resolveRedirectUrl ⟨ascii "http", ascii "::1", 80, ascii "/"⟩ (ascii "/x")) =
        some ⟨ascii "http", ascii ":", 1, ascii "/x"⟩ ∧
      ¬ KeepsOrigin ⟨ascii "http", ascii "::1", 80, ascii "/"⟩ (ascii "/x") := by
  refine ⟨by decide, by decide, fun keeps => ?_⟩
  exact absurd (keeps.absolutePath ⟨by decide, by decide⟩) (by decide)

/-! ## Redirects one after the other -/

/-- **Redirects by path stay with their origin** if it reparses. -/
theorem follow_origin (parsed : Parsed base) (reparses : Reparses base) {locations : List Bytes}
    (paths : ∀ location ∈ locations, IsAbsolutePath location ∨ IsRelativePath location) :
    ∃ path, follow base locations = some { base with path } := by
  induction locations generalizing base with
  | nil => exact ⟨base.path, rfl⟩
  | cons location rest ih =>
      obtain ⟨path, rooted, resolved⟩ : ∃ path, path.head? = some 47 ∧
          resolveRedirectUrl base location =
            base.scheme ++ ascii "://" ++ (base.authority ++ path) := by
        rcases paths location List.mem_cons_self with absolute | relative
        · exact ⟨location, absolute.1, resolve_rooted absolute.1⟩
        · obtain ⟨tail, directory⟩ := directory_cons base parsed.rooted
          exact ⟨base.directory ++ location, by rw [directory]; rfl, resolve_relative relative⟩
      have next : parseUrl (resolveRedirectUrl base location) = some { base with path } := by
        rw [resolved]
        exact (parsed.parseUrl_iff rooted).mpr reparses
      rw [follow, next, Option.bind_some]
      exact ih (parsed_of_parseUrl next) reparses fun other inside =>
        paths other (List.mem_cons_of_mem _ inside)

end CoWq.CoCurl
