import CoWq.Lib.BigEndian
import CoWq.Lib.Numerals
import CoWq.Lib.StreamReader

/-!
# SOCKS negotiation

`negotiate_socks` of the SOCKS proxy receives the request of a client, in one of three formats, and
leaves what follows for the tunnel.

* `negotiateSocks`, `handleSocks4Handshake`, `handleSocks5Handshake`: the code, as readers.
* `Request`: a well-formed CONNECT request, with its bytes.
* `Decoded`: whatever follows the request and wherever the stream is cut, the negotiation gives
  version, port and host and takes the request only.
* `negotiateSocks_decodes`: it does so, except that the addresses `0.0.0.x` of SOCKS4 stand for a
  domain that follows, and that the method reply has to be sent.
-/

namespace CoWq.Socks

abbrev Bytes := List UInt8

/-- `SocksRequest::Version` -/
inductive Version
  | socks4
  | socks5
  deriving DecidableEq, Repr

/-- `SocksRequest` -/
structure SocksRequest where
  version : Version := .socks5
  host : Bytes := []
  port : UInt16 := 0
  socks4Addr : Bytes := [0, 0, 0, 0]
  deriving DecidableEq, Repr

/-! ## The code -/

/-- The port of two bytes. -/
def portOf (portBytes : Bytes) : UInt16 :=
  ((portBytes.getD 0 0).toUInt16 <<< 8) ||| (portBytes.getD 1 0).toUInt16

/-- The text of an IPv4 address. -/
def dottedText (addr : Bytes) : Bytes :=
  numeral 10 (addr.getD 0 0).toNat ++ [0x2E] ++ numeral 10 (addr.getD 1 0).toNat ++ [0x2E] ++
    numeral 10 (addr.getD 2 0).toNat ++ [0x2E] ++ numeral 10 (addr.getD 3 0).toNat

/-- The loop over the segments of an IPv6 address. -/
def colonHex : Bytes → Bytes
  | hi :: lo :: rest =>
      numeral 16 ((hi.toUInt16 <<< 8) ||| lo.toUInt16).toNat ++
        if rest ≠ [] then 0x3A :: colonHex rest else []
  | _ => []

/-- A length and a buffer of this length, as the methods and a domain are received. -/
def lengthPrefixed : Reader UInt8 Bytes := do
  let len ← Reader.one
  if len.toNat > 0 then Reader.fill len.toNat else return []

section Code

-- the answers of `client.send_all`
variable (sendAll : Bytes → Int)

/-- Send a response and give up. -/
def refuse {α : Type} (response : Bytes) : Reader UInt8 α := do
  let _ ← Reader.send sendAll response
  failure

/-- The response to a SOCKS4 request that is refused. -/
def socks4Refusal : Bytes := [0x00, 0x5B, 0x00, 0x00, 0x00, 0x00, 0x00, 0x00]

/-- The response to a SOCKS5 request that is refused. -/
def socks5Refusal (code : UInt8) : Bytes :=
  [0x05, code, 0x00, 0x01, 0x00, 0x00, 0x00, 0x00, 0x00, 0x00]

/-- An address `0.0.0.x` with `x` not zero. -/
def marksDomain (addr : Bytes) : Bool :=
  addr.getD 0 0 = 0 ∧ addr.getD 1 0 = 0 ∧ addr.getD 2 0 = 0 ∧ addr.getD 3 0 ≠ 0

/-- The host of a SOCKS4 request, behind the user id. -/
def socks4Host (addr : Bytes) : Reader UInt8 Bytes :=
  if marksDomain addr then Reader.text 0x00 256 <|> refuse sendAll socks4Refusal
  else return dottedText addr

/-- `handle_socks4_handshake` -/
def handleSocks4Handshake : Reader UInt8 SocksRequest := do
  let cmd ← Reader.one
  if cmd ≠ 0x01 then refuse sendAll socks4Refusal
  else
    let portBytes ← Reader.fill 2
    let addrBytes ← Reader.fill 4
    let _ ← Reader.text 0x00 256
    let host ← socks4Host sendAll addrBytes
    return { version := .socks4, host, port := portOf portBytes, socks4Addr := addrBytes }

/-- `handle_socks5_method_negotiation` -/
def handleSocks5MethodNegotiation : Reader UInt8 Unit := do
  let methods ← lengthPrefixed
  let supportsNoAuth := methods.any (· = 0x00)
  let sent ← Reader.send sendAll [0x05, if supportsNoAuth then 0x00 else 0xFF]
  if sent ≤ 0 then failure
  else if !supportsNoAuth then failure
  else return ()

/-- The host of a SOCKS5 request, by its address type. -/
def socks5Host (addressType : UInt8) : Reader UInt8 Bytes :=
  if addressType = 0x01 then do
    let addr ← Reader.fill 4
    return dottedText addr
  else if addressType = 0x03 then lengthPrefixed
  else if addressType = 0x04 then do
    let addr ← Reader.fill 16
    return colonHex addr
  else refuse sendAll (socks5Refusal 0x08)

/-- `handle_socks5_handshake` -/
def handleSocks5Handshake : Reader UInt8 SocksRequest := do
  handleSocks5MethodNegotiation sendAll
  let header ← Reader.fill 4
  if header.getD 0 0 ≠ 0x05 then failure
  else if header.getD 1 0 ≠ 0x01 then refuse sendAll (socks5Refusal 0x07)
  else
    let host ← socks5Host sendAll (header.getD 3 0)
    let portBytes ← Reader.fill 2
    return { version := .socks5, host, port := portOf portBytes }

/-- `negotiate_socks` -/
def negotiateSocks : Reader UInt8 SocksRequest := do
  let version ← Reader.one
  if version = 0x04 then handleSocks4Handshake sendAll
  else if version = 0x05 then handleSocks5Handshake sendAll
  else failure

end Code

/-! ## Requests -/

/-- A user id or a domain. -/
structure Name where
  bytes : Bytes
  short : bytes.length ≤ 255
  plain : 0x00 ∉ bytes

/-- The methods of a client that can do without authentication. -/
structure Methods where
  bytes : Bytes
  short : bytes.length ≤ 255
  noAuth : 0x00 ∈ bytes

/-- Four or sixteen bytes. -/
structure Address (size : Nat) where
  bytes : Bytes
  full : bytes.length = size

/-- Where a SOCKS5 request wants to go. -/
inductive Destination
  | ipv4 (addr : Address 4)
  | domain (name : Name)
  | ipv6 (addr : Address 16)

/-- The address type and the address. -/
def Destination.encode : Destination → UInt8 × Bytes
  | .ipv4 addr => (0x01, addr.bytes)
  | .domain name => (0x03, UInt8.ofNat name.bytes.length :: name.bytes)
  | .ipv6 addr => (0x04, addr.bytes)

/-- A well-formed CONNECT request. -/
inductive Request
  | socks4 (port : UInt16) (addr : Address 4) (userId : Name)
  | socks4a (port : UInt16) (mark : UInt8) (marked : mark ≠ 0) (userId domain : Name)
  | socks5 (methods : Methods) (dst : Destination) (port : UInt16)

namespace Request

/-- The bytes that the client sends. -/
def bytes : Request → Bytes
  | socks4 port addr userId =>
      [0x04, 0x01] ++ BigEndian.encode 2 port.toNat ++ addr.bytes ++ userId.bytes ++ [0x00]
  | socks4a port mark _ userId domain =>
      [0x04, 0x01] ++ BigEndian.encode 2 port.toNat ++ [0x00, 0x00, 0x00, mark] ++
        userId.bytes ++ [0x00] ++ domain.bytes ++ [0x00]
  | socks5 methods dst port =>
      [0x05, UInt8.ofNat methods.bytes.length] ++ methods.bytes ++
        [0x05, 0x01, 0x00, dst.encode.1] ++ dst.encode.2 ++ BigEndian.encode 2 port.toNat

def version : Request → Version
  | socks4 .. | socks4a .. => .socks4
  | socks5 .. => .socks5

def port : Request → UInt16
  | socks4 port .. | socks4a port .. => port
  | socks5 _ _ port => port

end Request

/-- The dotted text of these bytes. -/
def Dotted (addr : Bytes) (host : Bytes) : Prop :=
  host = [0x2E].intercalate (addr.map fun b => numeral 10 b.toNat)

/-- A text of hexadecimal numbers and colons that stands for these bytes. -/
def Denotes (addr : Bytes) (host : Bytes) : Prop :=
  ∃ segments, readGroups 16 0x3A host = some segments ∧ (∀ n ∈ segments, n < 65536) ∧
    segments.flatMap (BigEndian.encode 2) = addr

/-- The host that a request asks for. -/
def Request.Asks : Request → Bytes → Prop
  | socks4 _ addr _, host => Dotted addr.bytes host
  | socks4a _ _ _ _ domain, host => host = domain.bytes
  | socks5 _ (.ipv4 addr) _, host => Dotted addr.bytes host
  | socks5 _ (.domain name) _, host => host = name.bytes
  | socks5 _ (.ipv6 addr) _, host => Denotes addr.bytes host

/-- The negotiation gives what the request says and leaves what follows. -/
def Decoded (sendAll : Bytes → Int) (r : Request) : Prop :=
  ∀ (s : Inbound UInt8) (rest : Bytes), s.pending = r.bytes ++ rest →
    ∃ request s' sent, negotiateSocks sendAll ⟨s, []⟩ = (some request, ⟨s', sent⟩) ∧
      request.version = r.version ∧ request.port = r.port ∧ r.Asks request.host ∧
      s'.pending = rest

/-! ## Fields -/

theorem encode_two (n : Nat) : BigEndian.encode 2 n = [UInt8.ofNat (n / 256), UInt8.ofNat n] := by
  simp [BigEndian.encode]

theorem word_toNat (hi lo : UInt8) :
    ((hi.toUInt16 <<< 8) ||| lo.toUInt16).toNat = hi.toNat * 256 + lo.toNat := by
  have small : hi.toNat < 256 := hi.toNat_lt
  have shifted : (hi.toUInt16 <<< 8).toNat = hi.toNat * 256 := by
    rw [UInt16.toNat_shiftLeft, UInt8.toNat_toUInt16]
    have eight : (8 : UInt16).toNat % 16 = 8 := rfl
    rw [eight, Nat.shiftLeft_eq, Nat.mod_eq_of_lt (by omega)]
  rw [UInt16.toNat_or, shifted, UInt8.toNat_toUInt16, BigEndian.shiftOr]

theorem portOf_encode (port : UInt16) : portOf (BigEndian.encode 2 port.toNat) = port := by
  have small : port.toNat < 65536 := port.toNat_lt
  apply UInt16.toNat_inj.mp
  rw [encode_two, portOf]
  simp only [List.getD_cons_zero, List.getD_cons_succ]
  rw [word_toNat, UInt8.toNat_ofNat', UInt8.toNat_ofNat']
  omega

theorem dottedText_dotted {addr : Bytes} (full : addr.length = 4) :
    Dotted addr (dottedText addr) := by
  obtain ⟨a, b, c, d, rfl⟩ : ∃ a b c d, addr = [a, b, c, d] := by
    rcases addr with _ | ⟨a, _ | ⟨b, _ | ⟨c, _ | ⟨d, _ | ⟨e, rest⟩⟩⟩⟩⟩ <;>
      simp only [List.length_nil, List.length_cons] at full
    · omega
    · omega
    · omega
    · omega
    · exact ⟨a, b, c, d, rfl⟩
    · omega
  simp [Dotted, dottedText, List.intercalate]

theorem exists_pair {addr : Bytes} {n : Nat} (even : addr.length = 2 * (n + 1)) :
    ∃ hi lo rest, addr = hi :: lo :: rest := by
  rcases addr with _ | ⟨hi, _ | ⟨lo, rest⟩⟩
  · simp at even
  · simp only [List.length_cons, List.length_nil] at even
    omega
  · exact ⟨hi, lo, rest, rfl⟩

/-- The numbers that the loop prints. -/
def segments : Bytes → List Nat
  | hi :: lo :: rest => (hi.toNat * 256 + lo.toNat) :: segments rest
  | _ => []

theorem segments_flatMap {addr : Bytes} {n : Nat} (even : addr.length = 2 * n) :
    (segments addr).flatMap (BigEndian.encode 2) = addr := by
  induction n generalizing addr with
  | zero =>
      obtain rfl := List.length_eq_zero_iff.mp even
      rfl
  | succ n ih =>
      obtain ⟨hi, lo, rest, rfl⟩ := exists_pair even
      have small : lo.toNat < 256 := lo.toNat_lt
      have first : UInt8.ofNat ((hi.toNat * 256 + lo.toNat) / 256) = hi := by
        apply UInt8.toNat_inj.mp
        have bound : hi.toNat < 256 := hi.toNat_lt
        rw [UInt8.toNat_ofNat']
        omega
      have second : UInt8.ofNat (hi.toNat * 256 + lo.toNat) = lo := by
        apply UInt8.toNat_inj.mp
        rw [UInt8.toNat_ofNat']
        omega
      rw [segments, List.flatMap_cons, encode_two, first, second,
        ih (by simp only [List.length_cons] at even; omega)]
      rfl

theorem colonHex_eq {addr : Bytes} {n : Nat} (even : addr.length = 2 * n) :
    colonHex addr = [0x3A].intercalate ((segments addr).map (numeral 16)) := by
  induction n generalizing addr with
  | zero =>
      obtain rfl := List.length_eq_zero_iff.mp even
      rfl
  | succ n ih =>
      obtain ⟨hi, lo, rest, rfl⟩ := exists_pair even
      simp only [List.length_cons] at even
      rw [segments, colonHex, List.map_cons, word_toNat]
      rcases n with _ | n
      · obtain rfl := List.length_eq_zero_iff.mp (by omega : rest.length = 0)
        simp [segments, List.intercalate]
      · have later := @ih rest (by omega)
        obtain ⟨hi', lo', rest, rfl⟩ := exists_pair (by omega : rest.length = 2 * (n + 1))
        rw [if_pos (List.cons_ne_nil _ _), later, segments, List.map_cons,
          List.intercalate_cons_cons]
        simp

theorem segments_lt {addr : Bytes} {n : Nat} (mem : n ∈ segments addr) : n < 65536 := by
  fun_induction segments addr with
  | case1 hi lo rest ih =>
      have first : hi.toNat < 256 := hi.toNat_lt
      have second : lo.toNat < 256 := lo.toNat_lt
      rcases List.mem_cons.mp mem with rfl | later
      · omega
      · exact ih later
  | case2 addr short => exact absurd mem List.not_mem_nil

theorem colonHex_denotes {addr : Bytes} (full : addr.length = 16) :
    Denotes addr (colonHex addr) := by
  have some' : segments addr ≠ [] := by
    rcases addr with _ | ⟨hi, _ | ⟨lo, rest⟩⟩
    · simp at full
    · simp at full
    · exact List.cons_ne_nil _ _
  refine ⟨segments addr, ?_, fun n mem => segments_lt mem, segments_flatMap (n := 8) full⟩
  rw [colonHex_eq (n := 8) full]
  exact readGroups_intercalate (by decide) (by decide) (by decide) some'

/-! ## What the code takes -/

section Takes

variable {sendAll : Bytes → Int}

theorem socks4Host_dotted {addr : Bytes} (plain : marksDomain addr = false) :
    Consumes (socks4Host sendAll addr) [] [] (dottedText addr) := by
  rw [socks4Host, plain]
  exact Consumes.pure

theorem socks4Host_domain {addr : Bytes} (marked : marksDomain addr = true) (domain : Name) :
    Consumes (socks4Host sendAll addr) (domain.bytes ++ [0x00]) [] domain.bytes := by
  have short := domain.short
  rw [socks4Host, marked]
  exact Consumes.orElse (Consumes.text (by omega) domain.plain)

theorem handleSocks4Handshake_takes {addr taken host : Bytes} (port : UInt16)
    (full : addr.length = 4) (userId : Name)
    (hosts : Consumes (socks4Host sendAll addr) taken [] host) :
    Consumes (handleSocks4Handshake sendAll)
      ([0x01] ++ (BigEndian.encode 2 port.toNat ++ (addr ++ (userId.bytes ++ [0x00] ++ taken)))) []
      { version := .socks4, host, port, socks4Addr := addr } := by
  have short := userId.short
  rw [handleSocks4Handshake]
  refine Consumes.next (Consumes.one 0x01) ?_
  rw [if_neg (by decide)]
  refine Consumes.next (Consumes.fill (BigEndian.encode_length 2 _)) (Consumes.next
    (Consumes.fill full) (Consumes.next (Consumes.text (by omega) userId.plain) ?_))
  have last := Consumes.result (fun host => ({
    version := .socks4, host, port := portOf (BigEndian.encode 2 port.toNat),
    socks4Addr := addr } : SocksRequest)) hosts
  rw [portOf_encode] at last ⊢
  exact last

theorem lengthPrefixed_takes {bytes : Bytes} (short : bytes.length ≤ 255) :
    Consumes lengthPrefixed (UInt8.ofNat bytes.length :: bytes) [] bytes := by
  have length : (UInt8.ofNat bytes.length).toNat = bytes.length := by
    rw [UInt8.toNat_ofNat']
    omega
  have behind : Consumes
      (if (UInt8.ofNat bytes.length).toNat > 0 then Reader.fill (UInt8.ofNat bytes.length).toNat
        else pure []) bytes [] bytes := by
    rw [length]
    cases bytes with
    | nil => exact Consumes.pure
    | cons b bytes =>
        rw [if_pos (show 0 < (b :: bytes).length from Nat.succ_pos _)]
        exact Consumes.fill rfl
  exact Consumes.next (Consumes.one _) behind

theorem handleSocks5MethodNegotiation_takes (methods : Methods)
    (sends : 0 < sendAll [0x05, 0x00]) :
    Consumes (handleSocks5MethodNegotiation sendAll)
      (UInt8.ofNat methods.bytes.length :: methods.bytes) [0x05, 0x00] () := by
  have offered : (methods.bytes.any fun method => decide (method = 0x00)) = true :=
    List.any_eq_true.mpr ⟨0x00, methods.noAuth, rfl⟩
  have answer : Consumes
      (Reader.send sendAll [0x05, 0x00] >>= fun sent => if sent ≤ 0 then failure else pure ())
      [] [0x05, 0x00] () := by
    refine Consumes.send ?_
    rw [if_neg (by omega)]
    exact Consumes.pure
  rw [handleSocks5MethodNegotiation,
    ← List.append_nil (UInt8.ofNat methods.bytes.length :: methods.bytes)]
  refine Consumes.next (lengthPrefixed_takes methods.short) ?_
  simpa only [offered, if_true, Bool.not_true, Bool.false_eq_true, if_false] using answer

/-- The host of a request, as the code writes it. -/
def Destination.host : Destination → Bytes
  | .ipv4 addr => dottedText addr.bytes
  | .domain name => name.bytes
  | .ipv6 addr => colonHex addr.bytes

theorem socks5Host_takes (dst : Destination) :
    Consumes (socks5Host sendAll dst.encode.1) dst.encode.2 [] dst.host := by
  cases dst with
  | ipv4 addr => exact Consumes.result dottedText (Consumes.fill addr.full)
  | domain name => exact lengthPrefixed_takes name.short
  | ipv6 addr => exact Consumes.result colonHex (Consumes.fill addr.full)

theorem handleSocks5Handshake_takes (methods : Methods) (dst : Destination) (port : UInt16)
    (sends : 0 < sendAll [0x05, 0x00]) :
    Consumes (handleSocks5Handshake sendAll)
      (UInt8.ofNat methods.bytes.length :: methods.bytes ++ ([0x05, 0x01, 0x00, dst.encode.1] ++
        (dst.encode.2 ++ BigEndian.encode 2 port.toNat))) [0x05, 0x00]
      { version := .socks5, host := dst.host, port } := by
  rw [handleSocks5Handshake]
  refine Consumes.quiet (handleSocks5MethodNegotiation_takes methods sends) ?_
  refine Consumes.next (Consumes.fill rfl) ?_
  have version : ([0x05, 0x01, 0x00, dst.encode.1] : Bytes).getD 0 0 = 0x05 := rfl
  have command : ([0x05, 0x01, 0x00, dst.encode.1] : Bytes).getD 1 0 = 0x01 := rfl
  rw [version, command, if_neg (by decide), if_neg (by decide)]
  refine Consumes.next (socks5Host_takes dst) ?_
  have last := Consumes.result (fun bytes => ({
    version := .socks5, host := dst.host, port := portOf bytes } : SocksRequest))
    (Consumes.fill (BigEndian.encode_length 2 port.toNat))
  rw [portOf_encode] at last
  exact last

/-- A SOCKS4 address that is not the mark of a domain. -/
def Request.Plain : Request → Prop
  | socks4 _ addr _ => marksDomain addr.bytes = false
  | socks4a .. | socks5 .. => True

/-- What the negotiation gives for a request, as the code writes it. -/
def Request.result : Request → SocksRequest
  | socks4 port addr _ =>
      { version := .socks4, host := dottedText addr.bytes, port, socks4Addr := addr.bytes }
  | socks4a port mark _ _ domain =>
      { version := .socks4, host := domain.bytes, port, socks4Addr := [0x00, 0x00, 0x00, mark] }
  | socks5 _ dst port => { version := .socks5, host := dst.host, port }

theorem Request.result_asks (r : Request) : r.Asks r.result.host := by
  cases r with
  | socks4 port addr userId => exact dottedText_dotted addr.full
  | socks4a port mark marked userId domain => rfl
  | socks5 methods dst port =>
      cases dst with
      | ipv4 addr => exact dottedText_dotted addr.full
      | domain name => rfl
      | ipv6 addr => exact colonHex_denotes addr.full

theorem negotiateSocks_takes (r : Request) (plain : r.Plain)
    (sends : r.version = .socks5 → 0 < sendAll [0x05, 0x00]) :
    ∃ sent, Consumes (negotiateSocks sendAll) r.bytes sent r.result := by
  cases r with
  | socks4 port addr userId =>
      have behind := handleSocks4Handshake_takes port addr.full userId
        (@socks4Host_dotted sendAll _ plain)
      have all : Consumes (negotiateSocks sendAll) _ [] _ :=
        Consumes.next (Consumes.one 0x04) behind
      refine ⟨[], ?_⟩
      simpa [Request.bytes, Request.result] using all
  | socks4a port mark marked userId domain =>
      have isMarked : marksDomain [0x00, 0x00, 0x00, mark] = true := by
        simpa [marksDomain] using marked
      have behind := handleSocks4Handshake_takes port rfl userId
        (@socks4Host_domain sendAll _ isMarked domain)
      have all : Consumes (negotiateSocks sendAll) _ [] _ :=
        Consumes.next (Consumes.one 0x04) behind
      refine ⟨[], ?_⟩
      simpa [Request.bytes, Request.result] using all
  | socks5 methods dst port =>
      have behind := handleSocks5Handshake_takes methods dst port (sends rfl)
      have all : Consumes (negotiateSocks sendAll) _ [0x05, 0x00] _ :=
        Consumes.next (Consumes.one 0x05) behind
      refine ⟨[0x05, 0x00], ?_⟩
      simpa [Request.bytes, Request.result] using all

/-- **The negotiation decodes every request and takes no more**, if the address is not the mark of
a domain and the method reply can be sent. -/
theorem negotiateSocks_decodes (r : Request) (plain : r.Plain)
    (sends : r.version = .socks5 → 0 < sendAll [0x05, 0x00]) : Decoded sendAll r := by
  intro s rest here
  obtain ⟨sent, takes⟩ := negotiateSocks_takes r plain sends
  obtain ⟨s', run, left⟩ := takes ⟨s, []⟩ rest here
  refine ⟨r.result, s', [] ++ sent, run, ?_, ?_, r.result_asks, left⟩
  · cases r <;> rfl
  · cases r <;> rfl

/-- An address `0.0.0.x` makes the code take a domain that the request does not have. -/
theorem marked_not_decoded (sendAll : Bytes → Int) (port : UInt16) (mark : UInt8)
    (marked : mark ≠ 0) (userId : Name) :
    ¬ Decoded sendAll (.socks4 port ⟨[0x00, 0x00, 0x00, mark], rfl⟩ userId) := by
  intro decoded
  -- the bytes that follow are those of an empty domain
  have both : (Request.socks4a port mark marked userId ⟨[], by decide, by decide⟩).bytes =
      (Request.socks4 port ⟨[0x00, 0x00, 0x00, mark], rfl⟩ userId).bytes ++ [0x00] := by
    simp [Request.bytes]
  obtain ⟨request, s', sent, run, -, -, -, left⟩ :=
    decoded (Inbound.piecemeal _) [0x00] ((Inbound.pending_piecemeal _).trans both)
  obtain ⟨sent', takes⟩ := @negotiateSocks_takes sendAll
    (.socks4a port mark marked userId ⟨[], by decide, by decide⟩) trivial
    (fun version => by cases version)
  obtain ⟨s'', run', left'⟩ := takes ⟨Inbound.piecemeal _, []⟩ []
    ((Inbound.pending_piecemeal _).trans (List.append_nil _).symm)
  rw [run] at run'
  obtain ⟨-, same⟩ := Prod.mk.inj run'
  rw [← (Connection.mk.inj same).1, left] at left'
  cases left'

/-- A reply that cannot be sent ends the negotiation. -/
theorem unsent_not_decoded (methods : Methods) (dst : Destination) (port : UInt16)
    (fails : sendAll [0x05, 0x00] ≤ 0) : ¬ Decoded sendAll (.socks5 methods dst port) := by
  intro decoded
  obtain ⟨request, s', sent, run, -⟩ := decoded (Inbound.piecemeal _) []
    ((Inbound.pending_piecemeal _).trans (List.append_nil _).symm)
  have offered : (methods.bytes.any fun method => decide (method = 0x00)) = true :=
    List.any_eq_true.mpr ⟨0x00, methods.noAuth, rfl⟩
  have whole : (Request.socks5 methods dst port).bytes =
      [0x05] ++ ((UInt8.ofNat methods.bytes.length :: methods.bytes) ++
        ([0x05, 0x01, 0x00, dst.encode.1] ++ dst.encode.2 ++
          BigEndian.encode 2 port.toNat)) := by
    simp [Request.bytes]
  obtain ⟨s₁, run₁, here₁⟩ := Consumes.one 0x05 ⟨Inbound.piecemeal _, []⟩ _
    ((Inbound.pending_piecemeal _).trans whole)
  obtain ⟨s₂, run₂, here₂⟩ := lengthPrefixed_takes methods.short ⟨s₁, [] ++ []⟩ _ here₁
  have none' : handleSocks5MethodNegotiation sendAll ⟨s₁, [] ++ []⟩ =
      (none, ⟨s₂, [] ++ [] ++ [] ++ [0x05, 0x00]⟩) := by
    rw [handleSocks5MethodNegotiation, Reader.bind_some run₂]
    simp only [offered, if_true]
    rw [Reader.bind_some (Reader.send_eq _ _ _), if_pos fails]
    rfl
  rw [negotiateSocks, Reader.bind_some run₁, if_neg (by decide), if_pos rfl,
    handleSocks5Handshake, Reader.bind_none none'] at run
  cases run

end Takes

/-! ## A request for a domain -/

/-- The socket sends everything. -/
def sendsAll (data : Bytes) : Int := data.length

/-- `user` and `a.b` -/
def someUser : Name := ⟨[0x75, 0x73, 0x65, 0x72], by decide, by decide⟩

def someDomain : Name := ⟨[0x61, 0x2E, 0x62], by decide, by decide⟩

theorem negotiateSocks_decodes_domain :
    Decoded sendsAll (.socks5 ⟨[0x02, 0x00], by decide, by decide⟩ (.domain someDomain) 443) :=
  negotiateSocks_decodes _ trivial fun _ => by decide

/-- The destination `0.0.0.5` is not reached by SOCKS4, and no destination by SOCKS5 when the method
reply cannot be sent. -/
theorem not_every_decoded :
    ¬ Decoded sendsAll (.socks4 80 ⟨[0x00, 0x00, 0x00, 0x05], rfl⟩ someUser) ∧
      ¬ Decoded (fun _ => -1)
        (.socks5 ⟨[0x02, 0x00], by decide, by decide⟩ (.domain someDomain) 443) :=
  ⟨marked_not_decoded sendsAll 80 5 (by decide) someUser,
    unsent_not_decoded _ _ _ (by decide)⟩

end CoWq.Socks
