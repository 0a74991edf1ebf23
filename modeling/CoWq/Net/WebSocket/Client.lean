import CoWq.Lib.Base64
import CoWq.Lib.Numerals
import CoWq.Lib.TextSearch
import CoWq.Net.WebSocket.ListHeaders
import Mathlib.Data.List.OfFn
import Mathlib.Data.Nat.Bitwise

/-!
# The client's side of the opening handshake

`websocket_client_handshake` writes a request, receives up to the end of the response head and
looks for its key in the answer.

* `base64Encode`, `computeAcceptKey`, `clientRequest`, `receiveResponse`, `checkResponse`,
  `clientHandshake`: the code.
* `generateWebsocketKey_injective`: no two clients with different random bytes have the same key.
* `receiveResponse_head`: the receive loop ends with the head, wherever the response is cut.
* `clientHandshake_lines`: what the client makes of a response that has been written in lines.
* `clientHandshake_accept`: on every answer of `accept`, the client goes on exactly when the server
  does, with its key.
-/

namespace CoWq.WebSocket.Client

open Accept TextSearch

/-! ## The code -/

/-- `table` -/
def table : Bytes := ascii "ABCDEFGHIJKLMNOPQRSTUVWXYZabcdefghijklmnopqrstuvwxyz0123456789+/"

/-- `table[(triple >> shift) & 0x3F]` -/
def letterAt (triple shift : UInt32) : UInt8 :=
  table.getD ((triple >>> shift) &&& 0x3F).toNat 0

/-- `base64_encode` -/
def base64Encode : Bytes → Bytes
  | [] => []
  | [a] =>
      let triple := a.toUInt32 <<< 16
      [letterAt triple 18, letterAt triple 12, 0x3D, 0x3D]
  | [a, b] =>
      let triple := (a.toUInt32 <<< 16) ||| (b.toUInt32 <<< 8)
      [letterAt triple 18, letterAt triple 12, letterAt triple 6, 0x3D]
  | a :: b :: c :: rest =>
      let triple := (a.toUInt32 <<< 16) ||| (b.toUInt32 <<< 8) ||| c.toUInt32
      letterAt triple 18 :: letterAt triple 12 :: letterAt triple 6 :: letterAt triple 0 ::
        base64Encode rest

/-- `generate_websocket_key`, from the bytes of the random device. -/
def generateWebsocketKey (randomBytes : Fin 16 → UInt8) : Bytes :=
  base64Encode (List.ofFn randomBytes)

/-- `guid` -/
def guid : Bytes := ascii "258EAFA5-E914-47DA-95CA-C5AB0DC85B11"

/-- `compute_accept_key`; the digest and `EVP_EncodeBlock` are OpenSSL's. -/
def computeAcceptKey (sha1 : Bytes → Option Bytes) (clientKey : Bytes) : Bytes :=
  ((sha1 (clientKey ++ guid)).map Base64.encode).getD []

def crlf : Bytes := [13, 10]

/-- `host_header` -/
def hostHeader (host : Bytes) (port : UInt16) (secure : Bool) : Bytes :=
  if (secure ∧ port = 443) ∨ (¬ secure ∧ port = 80) then host
  else host ++ [0x3A] ++ numeral 10 port.toNat

/-- The request of `websocket_client_handshake`. -/
def clientRequest (host : Bytes) (port : UInt16) (path : Bytes) (secure : Bool) (key : Bytes) :
    Bytes :=
  ascii "GET " ++ (if path = [] then ascii "/" else path) ++ ascii " HTTP/1.1\r\n" ++
    ascii "Host: " ++ hostHeader host port secure ++
    ascii "\r\nUpgrade: websocket\r\nConnection: Upgrade\r\n" ++ ascii "Sec-WebSocket-Key: " ++
    key ++ ascii "\r\nSec-WebSocket-Version: 13\r\n\r\n"

/-- `"\r\n\r\n"` -/
def headEnd : Bytes := [13, 10, 13, 10]

/-- The receive loop: up to the end of the head, or 16384 bytes. -/
def receiveResponse (response : Bytes) (s : Inbound UInt8) : Option Bytes × Inbound UInt8 :=
  if findText headEnd response = none ∧ response.length ≤ 16384 then
    if (s.recv 512).1 ≤ 0 then (none, (s.recv 512).2.2)
    else receiveResponse (response ++ (s.recv 512).2.1) (s.recv 512).2.2
  else (some response, s)
termination_by 16385 - response.length
decreasing_by
  rename_i going failed
  have answer := Inbound.recv_answer (Int.not_le.mp failed)
  rw [List.length_append]
  omega

/-- The lines that `std::getline` gives; the last one need not end. -/
def getlines : Option Bytes → Bytes → List Bytes
  | none, [] => []
  | some line, [] => [line]
  | begun, c :: rest =>
      if c = 10 then begun.getD [] :: getlines none rest
      else getlines (some (begun.getD [] ++ [c])) rest

/-- `if (!line.empty() && line.back() == '\r') line.pop_back();` -/
def stripReturn (line : Bytes) : Bytes :=
  if line.getLast? = some 13 then line.dropLast else line

/-- The body of the loop over the header lines. -/
def takeAccept (acceptHeader line : Bytes) : Bytes :=
  match find 0x3A line with
  | none => acceptHeader
  | some colon =>
      if toLower (trim (line.take colon)) = ascii "sec-websocket-accept" then
        trim (line.drop (colon + 1))
      else acceptHeader

/-- The status line and the headers, up to the result. -/
def checkResponse (expectedAccept head : Bytes) : Bool :=
  match getlines none head with
  | [] => false
  | status :: lines =>
      if findText (ascii "101") (stripReturn status) = none then false
      else
        let acceptHeader := (lines.map stripReturn).foldl takeAccept []
        acceptHeader ≠ [] ∧ acceptHeader = expectedAccept

/-- `websocket_client_handshake` once the request has been sent. -/
def clientHandshake (sha1 : Bytes → Option Bytes) (key : Bytes) (s : Inbound UInt8) :
    Bool × Inbound UInt8 :=
  match receiveResponse [] s with
  | (none, s) => (false, s)
  | (some response, s) =>
      match findText headEnd response with
      | none => (false, s)
      | some endPos => (checkResponse (computeAcceptKey sha1 key) (response.take endPos), s)

/-! ## The key -/

theorem table_eq : table = Base64.alphabet := by
  simp only [table, ascii_literal rfl]
  decide

theorem letterAt_eq {triple shift : UInt32} {n d : Nat} (value : triple.toNat = n)
    (small : shift.toNat < 32) (bits : n / 2 ^ shift.toNat % 64 = d) :
    letterAt triple shift = Base64.letter d := by
  have mask : (0x3F : UInt32).toNat = 2 ^ 6 - 1 := rfl
  rw [letterAt, table_eq, UInt32.toNat_and, UInt32.toNat_shiftRight, mask,
    Nat.and_two_pow_sub_one_eq_mod, Nat.shiftRight_eq_div_pow, Nat.mod_eq_of_lt small, value]
  exact congrArg Base64.letter bits

/-- The bytes of a triple. -/
theorem triple_toNat (a b c : UInt8) :
    ((a.toUInt32 <<< 16) ||| (b.toUInt32 <<< 8) ||| c.toUInt32).toNat =
      a.toNat * 65536 + b.toNat * 256 + c.toNat := by
  have boundA := a.toNat_lt
  have boundB := b.toNat_lt
  have boundC := c.toNat_lt
  have sixteen : (16 : UInt32).toNat % 32 = 16 := rfl
  have eight : (8 : UInt32).toNat % 32 = 8 := rfl
  have first : (a.toUInt32 <<< 16).toNat = a.toNat * 65536 := by
    rw [UInt32.toNat_shiftLeft, sixteen, Nat.shiftLeft_eq, UInt8.toNat_toUInt32]
    omega
  have second : (b.toUInt32 <<< 8).toNat = b.toNat * 256 := by
    rw [UInt32.toNat_shiftLeft, eight, Nat.shiftLeft_eq, UInt8.toNat_toUInt32]
    omega
  have upper := Nat.two_pow_add_eq_or_of_lt (show b.toNat * 256 < 2 ^ 16 by omega) a.toNat
  have lower := Nat.two_pow_add_eq_or_of_lt (show c.toNat < 2 ^ 8 by omega)
    (a.toNat * 256 + b.toNat)
  have whole : (a.toNat * 256 + b.toNat) * 2 ^ 8 = a.toNat * 65536 + b.toNat * 256 := by omega
  rw [UInt32.toNat_or, UInt32.toNat_or, first, second, UInt8.toNat_toUInt32]
  rw [show a.toNat * 65536 ||| b.toNat * 256 = a.toNat * 65536 + b.toNat * 256 by
    rw [Nat.mul_comm a.toNat 65536]
    exact upper.symm]
  rw [← whole, Nat.mul_comm _ (2 ^ 8)]
  exact lower.symm

/-- Two bytes and one byte, as triples with zeros behind them. -/
theorem pair_toNat (a b : UInt8) :
    ((a.toUInt32 <<< 16) ||| (b.toUInt32 <<< 8)).toNat = a.toNat * 65536 + b.toNat * 256 := by
  have whole := triple_toNat a b 0
  have none' : (0 : UInt8).toUInt32 = 0 := rfl
  have zero : (0 : UInt8).toNat = 0 := rfl
  rw [none', UInt32.or_zero, zero, Nat.add_zero] at whole
  exact whole

theorem single_toNat (a : UInt8) : (a.toUInt32 <<< 16).toNat = a.toNat * 65536 := by
  have whole := pair_toNat a 0
  have none' : (0 : UInt8).toUInt32 <<< 8 = 0 := rfl
  have zero : (0 : UInt8).toNat = 0 := rfl
  rw [none', UInt32.or_zero, zero, Nat.zero_mul, Nat.add_zero] at whole
  exact whole

/-- **The loop of `base64_encode`** writes the text of the bytes. -/
theorem base64Encode_eq (data : Bytes) : base64Encode data = Base64.encode data := by
  induction data using Base64.encode.induct with
  | case1 => rfl
  | case2 a =>
      have boundA := a.toNat_lt
      have value := single_toNat a
      rw [base64Encode, Base64.encode, letterAt_eq (d := a.toNat / 4) value (by decide),
        letterAt_eq (d := a.toNat % 4 * 16) value (by decide)]
      · rfl
      · change _ / 2 ^ 12 % 64 = _
        omega
      · change _ / 2 ^ 18 % 64 = _
        omega
  | case3 a b =>
      have boundA := a.toNat_lt
      have boundB := b.toNat_lt
      have value := pair_toNat a b
      rw [base64Encode, Base64.encode, letterAt_eq (d := a.toNat / 4) value (by decide),
        letterAt_eq (d := a.toNat % 4 * 16 + b.toNat / 16) value (by decide),
        letterAt_eq (d := b.toNat % 16 * 4) value (by decide)]
      · rfl
      · change _ / 2 ^ 6 % 64 = _
        omega
      · change _ / 2 ^ 12 % 64 = _
        omega
      · change _ / 2 ^ 18 % 64 = _
        omega
  | case4 a b c rest ih =>
      have boundA := a.toNat_lt
      have boundB := b.toNat_lt
      have boundC := c.toNat_lt
      have value := triple_toNat a b c
      rw [base64Encode, Base64.encode, ih, letterAt_eq (d := a.toNat / 4) value (by decide),
        letterAt_eq (d := a.toNat % 4 * 16 + b.toNat / 16) value (by decide),
        letterAt_eq (d := b.toNat % 16 * 4 + c.toNat / 64) value (by decide),
        letterAt_eq (d := c.toNat % 64) value (by decide)]
      · change _ / 2 ^ 0 % 64 = _
        omega
      · change _ / 2 ^ 6 % 64 = _
        omega
      · change _ / 2 ^ 12 % 64 = _
        omega
      · change _ / 2 ^ 18 % 64 = _
        omega

/-- Other random bytes, another key. -/
theorem generateWebsocketKey_injective : Function.Injective generateWebsocketKey := by
  intro random random' same
  rw [generateWebsocketKey, generateWebsocketKey, base64Encode_eq, base64Encode_eq] at same
  exact List.ofFn_injective (Base64.encode_injective same)

/-- Two texts with one digest. -/
def Collision (sha1 : Bytes → Option Bytes) : Prop :=
  ∃ text text' digest, text ≠ text' ∧ sha1 text = some digest ∧ sha1 text' = some digest

/-- Keys with the same answer have the same digest. -/
theorem digest_eq {sha1 : Bytes → Option Bytes} {key key' : Bytes}
    (answered : computeAcceptKey sha1 key ≠ [])
    (same : computeAcceptKey sha1 key' = computeAcceptKey sha1 key) :
    ∃ digest, sha1 (key ++ guid) = some digest ∧ sha1 (key' ++ guid) = some digest := by
  unfold computeAcceptKey at answered same
  cases own : sha1 (key ++ guid) with
  | none => exact absurd (by rw [own]; rfl) answered
  | some digest =>
      cases other : sha1 (key' ++ guid) with
      | none =>
          rw [← same, other] at answered
          exact absurd rfl answered
      | some digest' =>
          rw [own, other] at same
          exact ⟨digest, rfl, congrArg some (Base64.encode_injective same)⟩

/-- Every byte of a key is printed, and none of them stands for anything in a header. -/
theorem plain_of_mem_encode {data : Bytes} {x : UInt8} (mem : x ∈ Base64.encode data) :
    isSpace x = false ∧ x ≠ 13 ∧ x ≠ 10 := by
  have all : ∀ x ∈ Base64.alphabet ++ [Base64.pad], isSpace x = false ∧ x ≠ 13 ∧ x ≠ 10 := by
    decide +kernel
  rcases Base64.mem_encode mem with letter | rfl
  · exact all x (List.mem_append_left _ letter)
  · exact all _ (List.mem_append_right _ (List.mem_singleton_self _))

/-! ## The end of the head -/

/-- Lines that can stand in a head. -/
def Plain (line : Bytes) : Prop := line ≠ [] ∧ 13 ∉ line ∧ 10 ∉ line

/-- The lines of a head, without its end. -/
def headText (lines : List Bytes) : Bytes := crlf.intercalate lines

theorem headText_single (line : Bytes) : headText [line] = line := by
  simp [headText]

theorem headText_cons (line next : Bytes) (lines : List Bytes) :
    headText (line :: next :: lines) = line ++ crlf ++ headText (next :: lines) := by
  simp [headText, List.intercalate]

/-- The end of the head is not found before it. -/
theorem findText_head {lines : List Bytes} (some' : lines ≠ [])
    (plain : ∀ line ∈ lines, Plain line) (rest : Bytes) :
    findText headEnd (headText lines ++ headEnd ++ rest) = some (headText lines).length := by
  induction lines with
  | nil => exact absurd rfl some'
  | cons line lines ih =>
      have first := plain line List.mem_cons_self
      cases lines with
      | nil =>
          rw [headText_single]
          exact findText_cut first.2.1
      | cons next lines =>
          have later := ih (List.cons_ne_nil _ _) fun line mem =>
            plain line (List.mem_cons_of_mem _ mem)
          have second := plain next (List.mem_cons_of_mem _ List.mem_cons_self)
          obtain ⟨c, more, rfl⟩ := List.exists_cons_of_ne_nil second.1
          have other : c ≠ 13 := fun same => second.2.1 (same ▸ List.mem_cons_self)
          -- the line break in front of the next line is not the end
          have start : ∃ behind, headText ((c :: more) :: lines) ++ headEnd ++ rest =
              c :: behind := by
            cases lines with
            | nil => exact ⟨_, by rw [headText_single]; rfl⟩
            | cons _ _ => exact ⟨_, by rw [headText_cons]; rfl⟩
          obtain ⟨behind, text⟩ := start
          rw [headText_cons, List.append_assoc, List.append_assoc, List.append_assoc, headEnd,
            findText_skip first.2.1, ← headEnd, ← List.append_assoc (headText _)]
          rw [text] at later ⊢
          have broken : findText headEnd (crlf ++ c :: behind) =
              (findText headEnd (c :: behind)).map (· + 1 + 1) := by
            have apart : ¬ headEnd <+: 13 :: 10 :: c :: behind := by
              simp [headEnd, List.cons_prefix_cons, Ne.symm other]
            have apart' : ¬ headEnd <+: 10 :: c :: behind := by
              simp [headEnd, List.cons_prefix_cons]
            rw [crlf, List.cons_append, List.cons_append, List.nil_append, findText, if_neg apart,
              findText, if_neg apart', Option.map_map]
            rfl
          rw [broken, later]
          simp only [Option.map_some, List.length_append, crlf, List.length_cons, List.length_nil]
          congr 1
          omega

/-- A part of a response in which the end is found holds the head. -/
theorem head_of_found {lines : List Bytes} (some' : lines ≠ [])
    (plain : ∀ line ∈ lines, Plain line) {got more rest : Bytes} {i : Nat}
    (whole : got ++ more = headText lines ++ headEnd ++ rest)
    (found : findText headEnd got = some i) :
    i = (headText lines).length ∧ got.take i = headText lines := by
  have same := findText_more found more
  rw [whole, findText_head some' plain] at same
  cases same
  obtain ⟨before, behind, rfl, size⟩ := findText_eq_some found
  refine ⟨rfl, ?_⟩
  rw [List.append_assoc, List.append_assoc, List.append_assoc] at whole
  have start := (List.append_inj whole size).1
  rw [List.append_assoc, ← start, List.take_left]

/-- The part in which it is not found is too short. -/
theorem short_of_not_found {lines : List Bytes} (some' : lines ≠ [])
    (plain : ∀ line ∈ lines, Plain line) {got more rest : Bytes}
    (whole : got ++ more = headText lines ++ headEnd ++ rest)
    (missing : findText headEnd got = none) :
    got.length < (headText lines ++ headEnd).length := by
  by_contra long
  obtain ⟨behind, rfl⟩ : headText lines ++ headEnd <+: got :=
    List.prefix_of_prefix_length_le (whole ▸ List.prefix_append _ rest)
      (List.prefix_append got more) (Nat.not_lt.mp long)
  rw [findText_head some' plain] at missing
  cases missing

/-- **The receive loop** ends with the head of the response, wherever the stream is cut. -/
theorem receiveResponse_head {lines : List Bytes} (some' : lines ≠ [])
    (plain : ∀ line ∈ lines, Plain line) (small : (headText lines ++ headEnd).length ≤ 16384)
    {rest got : Bytes} {s : Inbound UInt8}
    (whole : got ++ s.pending = headText lines ++ headEnd ++ rest) :
    ∃ response s' i, receiveResponse got s = (some response, s') ∧
      findText headEnd response = some i ∧ response.take i = headText lines ∧
      response ++ s'.pending = got ++ s.pending := by
  induction size : s.pending.length using Nat.strongRecOn generalizing got s with
  | ind n ih =>
      subst size
      rw [receiveResponse]
      cases found : findText headEnd got with
      | some i =>
          rw [if_neg (by simp)]
          exact ⟨got, s, i, rfl, found, (head_of_found some' plain whole found).2, rfl⟩
      | none =>
          have short := short_of_not_found some' plain whole found
          rw [if_pos ⟨rfl, by omega⟩]
          have more : s.pending ≠ [] := by
            intro ended
            rw [ended, List.append_nil] at whole
            rw [whole, List.length_append] at short
            omega
          have progress : 0 < (s.recv 512).1 := Inbound.recv_pos more (by decide)
          have taken := Inbound.recv_taken progress
          have answer := Inbound.recv_answer progress
          rw [if_neg (Int.not_le.mpr progress)]
          rw [taken, ← List.append_assoc] at whole
          obtain ⟨response, s', i, run, found', head, all⟩ := ih (s.recv 512).2.2.pending.length
            (by
              have lengths := congrArg List.length taken
              rw [List.length_append] at lengths
              omega) whole rfl
          exact ⟨response, s', i, run, found', head, by rw [all, List.append_assoc, ← taken]⟩

/-! ## The lines of the head -/

theorem getlines_line {begun : Option Bytes} {line : Bytes} (noBreak : 10 ∉ line) (rest : Bytes) :
    getlines begun (line ++ 10 :: rest) = (begun.getD [] ++ line) :: getlines none rest := by
  induction line generalizing begun with
  | nil =>
      cases begun with
      | none => simp [getlines]
      | some begun => simp [getlines]
  | cons c line ih =>
      obtain ⟨other, noBreak⟩ := not_or.mp (List.mem_cons.not.mp noBreak)
      have goesOn : getlines begun (c :: (line ++ 10 :: rest)) =
          getlines (some (begun.getD [] ++ [c])) (line ++ 10 :: rest) := by
        cases begun with
        | none => rw [getlines, if_neg (Ne.symm other)]
        | some begun => rw [getlines, if_neg (Ne.symm other)]
      rw [List.cons_append, goesOn, ih noBreak, Option.getD_some, List.append_assoc]
      rfl

theorem getlines_last {begun : Bytes} {line : Bytes} (noBreak : 10 ∉ line) :
    getlines (some begun) line = [begun ++ line] := by
  induction line generalizing begun with
  | nil => simp [getlines]
  | cons c line ih =>
      obtain ⟨other, noBreak⟩ := not_or.mp (List.mem_cons.not.mp noBreak)
      rw [getlines, if_neg (Ne.symm other), Option.getD_some, ih noBreak, List.append_assoc]
      rfl

theorem getlines_single {line : Bytes} (some' : line ≠ []) (noBreak : 10 ∉ line) :
    getlines none line = [line] := by
  obtain ⟨c, line, rfl⟩ := List.exists_cons_of_ne_nil some'
  obtain ⟨other, noBreak⟩ := not_or.mp (List.mem_cons.not.mp noBreak)
  rw [getlines, if_neg (Ne.symm other), getlines_last noBreak]
  rfl

theorem stripReturn_concat (line : Bytes) : stripReturn (line ++ [13]) = line := by
  simp [stripReturn]

theorem stripReturn_plain {line : Bytes} (noReturn : 13 ∉ line) : stripReturn line = line := by
  rw [stripReturn, if_neg]
  intro last
  exact noReturn (List.mem_of_getLast? last)

/-- The lines are read again. -/
theorem getlines_headText {lines : List Bytes} (some' : lines ≠ [])
    (plain : ∀ line ∈ lines, Plain line) :
    (getlines none (headText lines)).map stripReturn = lines := by
  induction lines with
  | nil => exact absurd rfl some'
  | cons line lines ih =>
      obtain ⟨nonempty, noReturn, noBreak⟩ := plain line List.mem_cons_self
      cases lines with
      | nil =>
          rw [headText_single, getlines_single nonempty noBreak, List.map_cons, List.map_nil,
            stripReturn_plain noReturn]
      | cons next lines =>
          have later := ih (List.cons_ne_nil _ _) fun line mem =>
            plain line (List.mem_cons_of_mem _ mem)
          have noBreak' : 10 ∉ line ++ [13] := by simp [noBreak]
          have cut : headText (line :: next :: lines) =
              (line ++ [13]) ++ 10 :: headText (next :: lines) := by
            rw [headText_cons, crlf, List.append_assoc, List.append_assoc]
            rfl
          rw [cut, getlines_line noBreak', List.map_cons, Option.getD_none, List.nil_append,
            stripReturn_concat, later]

/-- What the client makes of the lines of a head. -/
def judge (expectedAccept status : Bytes) (fields : List Bytes) : Bool :=
  findText (ascii "101") status ≠ none ∧ fields.foldl takeAccept [] ≠ [] ∧
    fields.foldl takeAccept [] = expectedAccept

theorem checkResponse_lines {status : Bytes} {fields : List Bytes} (expectedAccept : Bytes)
    (plain : ∀ line ∈ status :: fields, Plain line) :
    checkResponse expectedAccept (headText (status :: fields)) =
      judge expectedAccept status fields := by
  have lines := getlines_headText (List.cons_ne_nil _ _) plain
  unfold checkResponse judge
  cases read : getlines none (headText (status :: fields)) with
  | nil =>
      rw [read] at lines
      cases lines
  | cons first others =>
      rw [read, List.map_cons] at lines
      obtain ⟨rfl, rfl⟩ := List.cons.inj lines
      by_cases switched : findText (ascii "101") (stripReturn first) = none
      · simp [switched]
      · simp [switched]

/-- **The client on a response in lines**, wherever it is cut. -/
theorem clientHandshake_lines (sha1 : Bytes → Option Bytes) (key : Bytes) {status : Bytes}
    {fields : List Bytes} (plain : ∀ line ∈ status :: fields, Plain line)
    (small : (headText (status :: fields) ++ headEnd).length ≤ 16384) {rest : Bytes}
    {s : Inbound UInt8} (here : s.pending = headText (status :: fields) ++ headEnd ++ rest) :
    (clientHandshake sha1 key s).1 = judge (computeAcceptKey sha1 key) status fields := by
  obtain ⟨response, s', i, run, found, head, -⟩ :=
    receiveResponse_head (List.cons_ne_nil _ _) plain small (show [] ++ s.pending = _ from here)
  rw [clientHandshake, run]
  dsimp only
  rw [found]
  dsimp only
  rw [head]
  exact checkResponse_lines _ plain

/-! ## The answers of the server -/

theorem takeAccept_field (acceptHeader : Bytes) {name value : Bytes} (noColon : 0x3A ∉ name) :
    takeAccept acceptHeader (name ++ 0x3A :: value) =
      if toLower (trim name) = ascii "sec-websocket-accept" then trim value else acceptHeader := by
  have behind : (name ++ 0x3A :: value).drop (name.length + 1) = value := by
    rw [List.drop_append, List.drop_eq_nil_of_le (by omega), List.nil_append,
      Nat.add_sub_cancel_left]
    rfl
  rw [takeAccept, find_cut noColon]
  dsimp only
  rw [List.take_left, behind]

/-- A value without whitespace is read behind a blank. -/
theorem trim_blank {value : Bytes} (noSpace : ∀ c ∈ value, isSpace c = false) :
    trim (0x20 :: value) = value := by
  have front : value.dropWhile isSpace = value := by
    cases value with
    | nil => rfl
    | cons c value => exact List.dropWhile_cons_of_neg (by simp [noSpace c List.mem_cons_self])
  have back : value.reverse.dropWhile isSpace = value.reverse := by
    cases reversed : value.reverse with
    | nil => rfl
    | cons c rest =>
        have mem : c ∈ value := List.mem_reverse.mp (reversed ▸ List.mem_cons_self)
        exact List.dropWhile_cons_of_neg (by simp [noSpace c mem])
  have blank : isSpace 0x20 = true := rfl
  rw [trim, List.dropWhile_cons_of_pos blank, front, back, List.reverse_reverse]

/-- The lines of a refusal behind its status line. -/
def refusalFields (body : Bytes) : List Bytes :=
  [ascii "Content-Type: text/plain; charset=utf-8",
    ascii "Content-Length: " ++ ascii (toString body.length), ascii "Connection: close"]

theorem buildHttpResponse_lines (statusCode : Nat) (reason body : Bytes) :
    buildHttpResponse statusCode reason body =
      headText ((ascii "HTTP/1.1 " ++ ascii (toString statusCode) ++ ascii " " ++ reason) ::
        refusalFields body) ++ headEnd ++ body := by
  have ends : ascii "\r\nConnection: close\r\n\r\n" =
      crlf ++ ascii "Connection: close" ++ headEnd := by
    simp only [ascii_literal rfl]
    decide
  have type : ascii "Content-Type: text/plain; charset=utf-8\r\n" =
      ascii "Content-Type: text/plain; charset=utf-8" ++ crlf := by
    simp only [ascii_literal rfl]
    decide
  have broken : ascii "\r\n" = crlf := rfl
  rw [buildHttpResponse, refusalFields, headText_cons, headText_cons, headText_cons,
    headText_single, ends, type, broken]
  simp only [List.append_assoc]

/-- A refusal names no key. -/
theorem refusalFields_accept (body : Bytes) : (refusalFields body).foldl takeAccept [] = [] := by
  have cut : refusalFields body =
      [ascii "Content-Type" ++ 0x3A :: ascii " text/plain; charset=utf-8",
        ascii "Content-Length" ++ 0x3A :: (ascii " " ++ ascii (toString body.length)),
        ascii "Connection" ++ 0x3A :: ascii " close"] := by
    simp only [refusalFields, ascii_literal rfl]
    rfl
  rw [cut]
  simp only [List.foldl_cons, List.foldl_nil]
  rw [takeAccept_field _ (by decide), if_neg (by decide), takeAccept_field _ (by decide),
    if_neg (by decide), takeAccept_field _ (by decide), if_neg (by decide)]

/-- The lines of a `101` behind its status line. -/
def switchFields (proto acceptKey : Bytes) : List Bytes :=
  [ascii "Upgrade: websocket", ascii "Connection: Upgrade",
    ascii "Sec-WebSocket-Accept: " ++ acceptKey] ++
    if proto ≠ [] then [ascii "Sec-WebSocket-Protocol: " ++ proto] else []

theorem switchingProtocols_lines (proto acceptKey : Bytes) :
    switchingProtocols proto acceptKey =
      headText (ascii "HTTP/1.1 101 Switching Protocols" :: switchFields proto acceptKey) ++
        headEnd := by
  have status : ascii "HTTP/1.1 101 Switching Protocols\r\n" =
      ascii "HTTP/1.1 101 Switching Protocols" ++ crlf := by
    simp only [ascii_literal rfl]
    decide
  have upgrade : ascii "Upgrade: websocket\r\n" = ascii "Upgrade: websocket" ++ crlf := by
    simp only [ascii_literal rfl]
    decide
  have connection : ascii "Connection: Upgrade\r\n" = ascii "Connection: Upgrade" ++ crlf := by
    simp only [ascii_literal rfl]
    decide
  have broken : ascii "\r\n" = crlf := rfl
  have ends : headEnd = crlf ++ crlf := rfl
  rw [switchingProtocols, switchFields, status, upgrade, connection, broken, ends]
  split
  · rw [List.cons_append, List.cons_append, List.cons_append, List.nil_append, headText_cons,
      headText_cons, headText_cons, headText_cons, headText_single]
    simp only [List.append_assoc]
  · simp only [List.append_nil]
    rw [headText_cons, headText_cons, headText_cons, headText_single]
    simp only [List.append_assoc]

/-- The client finds the key of the server, if it has no whitespace. -/
theorem switchFields_accept (proto : Bytes) {acceptKey : Bytes}
    (noSpace : ∀ c ∈ acceptKey, isSpace c = false) :
    (switchFields proto acceptKey).foldl takeAccept [] = acceptKey := by
  have upgrade : ascii "Upgrade: websocket" = ascii "Upgrade" ++ 0x3A :: ascii " websocket" := by
    simp only [ascii_literal rfl]
    decide
  have connection :
      ascii "Connection: Upgrade" = ascii "Connection" ++ 0x3A :: ascii " Upgrade" := by
    simp only [ascii_literal rfl]
    decide
  have accept : ascii "Sec-WebSocket-Accept: " ++ acceptKey =
      ascii "Sec-WebSocket-Accept" ++ 0x3A :: 0x20 :: acceptKey := by
    simp only [ascii_literal rfl]
    rfl
  have protocol : ascii "Sec-WebSocket-Protocol: " ++ proto =
      ascii "Sec-WebSocket-Protocol" ++ 0x3A :: 0x20 :: proto := by
    simp only [ascii_literal rfl]
    rfl
  have first : takeAccept [] (ascii "Upgrade: websocket") = [] := by
    rw [upgrade, takeAccept_field _ (by decide), if_neg (by decide)]
  have second : takeAccept [] (ascii "Connection: Upgrade") = [] := by
    rw [connection, takeAccept_field _ (by decide), if_neg (by decide)]
  have third : takeAccept [] (ascii "Sec-WebSocket-Accept: " ++ acceptKey) = acceptKey := by
    rw [accept, takeAccept_field _ (by decide), if_pos (by decide), trim_blank noSpace]
  rw [switchFields, List.foldl_append, List.foldl_cons, first, List.foldl_cons, second,
    List.foldl_cons, third, List.foldl_nil]
  split
  · rw [protocol]
    simp only [List.foldl_cons, List.foldl_nil]
    rw [takeAccept_field _ (by decide), if_neg (by decide)]
  · rfl

/-! ## What the checks answer -/

section Answers

variable {env : Env} {opts : ServerOptions} {request : HttpRequestContext}

/-- A reason that can stand in a status line. -/
theorem refuse_reason {statusCode : Nat} {reason body : Bytes}
    (refused : decideRequest env opts request = .refuse statusCode reason body) :
    (13 ∉ reason ∧ 10 ∉ reason ∧ reason.length ≤ 32) ∧ statusCode < 1000 ∧ body.length < 100 := by
  unfold decideRequest at refused
  split at refused
  · cases refused
    exact ⟨by decide, by decide, by decide⟩
  · split at refused
    · cases refused
      exact ⟨by decide, by decide, by decide⟩
    · split at refused
      · cases refused
        exact ⟨by decide, by decide, by decide⟩
      · dsimp only at refused
        split at refused
        · cases refused
          exact ⟨by decide, by decide, by decide⟩
        · cases refused

theorem pickSubprotocol_mem {client server : List Bytes}
    (selected : pickSubprotocol client server ≠ []) : pickSubprotocol client server ∈ server := by
  unfold pickSubprotocol at selected ⊢
  cases found : client.findSome? fun sp =>
      server.find? fun supported => toLower sp = toLower supported with
  | none =>
      rw [found] at selected
      exact absurd rfl selected
  | some protocol =>
      obtain ⟨sp, -, here⟩ := List.exists_of_findSome?_eq_some found
      exact List.mem_of_find?_eq_some here

/-- A handshake goes through with the key of the request and a protocol of the server, if any. -/
theorem switch_spec {proto acceptKey : Bytes}
    (switched : decideRequest env opts request = .switchProtocols proto acceptKey) :
    (proto ≠ [] → proto ∈ opts.subprotocols) ∧ acceptKey ≠ [] ∧
      ∃ key, request.headers (ascii "sec-websocket-key") = some key ∧
        acceptKey = env.computeAcceptKey key := by
  unfold decideRequest at switched
  split at switched
  · cases switched
  · split at switched
    · cases switched
    · next key asked =>
        split at switched
        · cases switched
        · dsimp only at switched
          split at switched
          · cases switched
          · next some' =>
              cases switched
              refine ⟨fun chosen => ?_, some', key, ?_, rfl⟩
              · split at chosen
                · next listed =>
                    rw [if_pos listed]
                    exact pickSubprotocol_mem chosen
                · exact absurd rfl chosen
              · unfold upgradeKey at asked
                split at asked
                · next found =>
                    obtain ⟨-, same⟩ := Option.ite_none_right_eq_some.mp asked
                    rw [found, same]
                · cases asked

end Answers

/-! ## Lines that are plain and short -/

theorem ascii_toString (n : Nat) : ascii (toString n) = numeral 10 n := by
  change ascii (Nat.repr n) = _
  simp [ascii, Nat.repr, numeral]

theorem numeral_plain (n : Nat) : 13 ∉ numeral 10 n ∧ 10 ∉ numeral 10 n := by
  have digits : ∀ c, digitValue c = none → c ∉ numeral 10 n := fun c other inside =>
    digitValue_of_read (readDigits_numeral (by decide) (by decide) n) inside other
  exact ⟨digits 13 (by decide), digits 10 (by decide)⟩

/-- A line that begins with a literal. -/
theorem plain_append {front back : Bytes} (plain : Plain front)
    (behind : 13 ∉ back ∧ 10 ∉ back) : Plain (front ++ back) := by
  refine ⟨List.append_ne_nil_of_left_ne_nil plain.1 back, ?_, ?_⟩
  · rw [List.mem_append, not_or]
    exact ⟨plain.2.1, behind.1⟩
  · rw [List.mem_append, not_or]
    exact ⟨plain.2.2, behind.2⟩

instance (line : Bytes) : Decidable (Plain line) :=
  inferInstanceAs (Decidable (line ≠ [] ∧ 13 ∉ line ∧ 10 ∉ line))

theorem headText_length (lines : List Bytes) :
    (headText lines).length ≤ (lines.map fun line => line.length + 2).sum := by
  induction lines with
  | nil => exact Nat.zero_le _
  | cons line lines ih =>
      cases lines with
      | nil =>
          rw [headText_single]
          simp
      | cons next lines =>
          rw [headText_cons, List.length_append, List.length_append, List.map_cons, List.sum_cons]
          have two : crlf.length = 2 := rfl
          omega

/-- The lines of a refusal. -/
theorem refusal_plain {statusCode : Nat} {reason body : Bytes}
    (inReason : 13 ∉ reason ∧ 10 ∉ reason) :
    ∀ line ∈ (ascii "HTTP/1.1 " ++ ascii (toString statusCode) ++ ascii " " ++ reason) ::
      refusalFields body, Plain line := by
  have status : Plain
      (ascii "HTTP/1.1 " ++ ascii (toString statusCode) ++ ascii " " ++ reason) := by
    refine plain_append (plain_append (plain_append (by decide) ?_) (by decide)) inReason
    rw [ascii_toString]
    exact numeral_plain statusCode
  have type : Plain (ascii "Content-Type: text/plain; charset=utf-8") := by
    simp only [ascii_literal rfl]
    decide
  have length : Plain (ascii "Content-Length: " ++ ascii (toString body.length)) := by
    refine plain_append (by decide) ?_
    rw [ascii_toString]
    exact numeral_plain body.length
  have connection : Plain (ascii "Connection: close") := by
    simp only [ascii_literal rfl]
    decide
  simp only [refusalFields, List.forall_mem_cons]
  exact ⟨status, type, length, connection, fun _ mem => absurd mem List.not_mem_nil⟩

theorem refusal_small {statusCode : Nat} {reason body : Bytes} (short : reason.length ≤ 64)
    (code : statusCode < 1000) (size : body.length < 100) :
    (headText ((ascii "HTTP/1.1 " ++ ascii (toString statusCode) ++ ascii " " ++ reason) ::
      refusalFields body) ++ headEnd).length ≤ 16384 := by
  have lines := headText_length
    ((ascii "HTTP/1.1 " ++ ascii (toString statusCode) ++ ascii " " ++ reason) ::
      refusalFields body)
  have three : (numeral 10 statusCode).length ≤ 3 := numeral_length_le (by decide) code
  have two : (numeral 10 body.length).length ≤ 2 := numeral_length_le (by decide) size
  have four : headEnd.length = 4 := rfl
  simp only [refusalFields, ascii_toString, ascii_literal rfl, List.map_cons, List.map_nil,
    List.sum_cons, List.sum_nil, List.length_append, List.length_cons, List.length_nil] at lines ⊢
  omega

/-- The lines of a `101`. -/
theorem switch_plain {proto acceptKey : Bytes} (inProto : 13 ∉ proto ∧ 10 ∉ proto)
    (inKey : 13 ∉ acceptKey ∧ 10 ∉ acceptKey) :
    ∀ line ∈ ascii "HTTP/1.1 101 Switching Protocols" :: switchFields proto acceptKey,
      Plain line := by
  have status : Plain (ascii "HTTP/1.1 101 Switching Protocols") := by
    simp only [ascii_literal rfl]
    decide
  have accept : Plain (ascii "Sec-WebSocket-Accept: " ++ acceptKey) :=
    plain_append (by decide) inKey
  have protocol : Plain (ascii "Sec-WebSocket-Protocol: " ++ proto) :=
    plain_append (by decide) inProto
  have last : ∀ line ∈ if proto ≠ [] then [ascii "Sec-WebSocket-Protocol: " ++ proto] else [],
      Plain line := by
    split
    · simpa only [List.forall_mem_singleton] using protocol
    · exact fun _ mem => absurd mem List.not_mem_nil
  simp only [switchFields, List.cons_append, List.nil_append, List.forall_mem_cons]
  exact ⟨status, by decide, by decide, accept, last⟩

theorem switch_small {proto acceptKey : Bytes} (short : proto.length ≤ 16000)
    (key : acceptKey.length ≤ 28) :
    (headText (ascii "HTTP/1.1 101 Switching Protocols" :: switchFields proto acceptKey) ++
      headEnd).length ≤ 16384 := by
  have lines := headText_length
    (ascii "HTTP/1.1 101 Switching Protocols" :: switchFields proto acceptKey)
  have last : ((if proto ≠ [] then [ascii "Sec-WebSocket-Protocol: " ++ proto] else []).map
      fun line => line.length + 2).sum ≤ 26 + proto.length := by
    split
    · simp only [ascii_literal rfl, List.map_cons, List.map_nil, List.sum_cons, List.sum_nil,
        List.length_append, List.length_cons, List.length_nil]
      omega
    · exact Nat.zero_le _
  have four : headEnd.length = 4 := rfl
  rw [List.length_append, four]
  refine Nat.le_trans (Nat.add_le_add_right lines 4) ?_
  rw [switchFields, List.map_cons, List.map_append, List.sum_cons, List.sum_append]
  simp only [ascii_literal rfl, List.map_cons, List.map_nil, List.sum_cons, List.sum_nil,
    List.length_append, List.length_cons, List.length_nil] at last ⊢
  omega

/-! ## The two sides -/

section Sides

variable {sha1 : Bytes → Option Bytes} {env : Env} {opts : ServerOptions}

/-- A server that computes the keys with the same digest, of 20 bytes, whose sends succeed and
whose protocols can stand in a header. -/
structure Deployed (sha1 : Bytes → Option Bytes) (env : Env) (opts : ServerOptions) : Prop where
  digest : ∀ text d, sha1 text = some d → d.length = 20
  key : env.computeAcceptKey = computeAcceptKey sha1
  sends : ∀ response, 0 ≤ env.sendAll response
  protocols : ∀ protocol ∈ opts.subprotocols,
    13 ∉ protocol ∧ 10 ∉ protocol ∧ protocol.length ≤ 16000

/-- A key is the text of a digest, or empty. -/
theorem Deployed.computed (deployed : Deployed sha1 env opts) (clientKey : Bytes) :
    (∀ c ∈ computeAcceptKey sha1 clientKey, isSpace c = false ∧ c ≠ 13 ∧ c ≠ 10) ∧
      (computeAcceptKey sha1 clientKey).length ≤ 28 := by
  unfold computeAcceptKey
  cases digest : sha1 (clientKey ++ guid) with
  | none => exact ⟨fun c mem => absurd mem List.not_mem_nil, Nat.zero_le _⟩
  | some d =>
      have size := deployed.digest _ d digest
      refine ⟨fun c mem => plain_of_mem_encode mem, ?_⟩
      simp [Base64.length_encode, size]

/-- What `accept` answers to a request, as the client takes it. -/
theorem clientHandshake_iff (deployed : Deployed sha1 env opts) (request : HttpRequestContext)
    (after : Inbound UInt8) (key : Bytes) {t : Inbound UInt8} {later : Bytes}
    (here : t.pending = (answerRequest env opts request after).2.sent.flatten ++ later) :
    (clientHandshake sha1 key t).1 = true ↔
      (answerRequest env opts request after).1.ok = true ∧
        ∃ serverKey, request.headers (ascii "sec-websocket-key") = some serverKey ∧
          computeAcceptKey sha1 serverKey = computeAcceptKey sha1 key := by
  unfold answerRequest at here ⊢
  cases decided : decideRequest env opts request with
  | refuse statusCode reason body =>
      rw [decided] at here
      obtain ⟨⟨noReturn, noBreak, short⟩, code, size⟩ := refuse_reason decided
      have text : t.pending =
          headText ((ascii "HTTP/1.1 " ++ ascii (toString statusCode) ++ ascii " " ++ reason) ::
            refusalFields body) ++ headEnd ++ (body ++ later) := by
        rw [here, ← List.append_assoc _ body, ← buildHttpResponse_lines]
        simp
      rw [clientHandshake_lines sha1 key (refusal_plain ⟨noReturn, noBreak⟩)
        (refusal_small (short.trans (by decide)) code size) text]
      simp [judge, refusalFields_accept]
  | switchProtocols proto acceptKey =>
      rw [decided] at here
      obtain ⟨chosen, some', serverKey, asked, rfl⟩ := switch_spec decided
      have sent : ¬ env.sendAll (switchingProtocols proto (env.computeAcceptKey serverKey)) < 0 :=
        Int.not_lt.mpr (deployed.sends _)
      rw [deployed.key] at sent some' here ⊢
      obtain ⟨clear, size⟩ := deployed.computed serverKey
      have protocol : 13 ∉ proto ∧ 10 ∉ proto ∧ proto.length ≤ 16000 := by
        by_cases empty : proto = []
        · simp [empty]
        · exact deployed.protocols proto (chosen empty)
      have inKey : 13 ∉ computeAcceptKey sha1 serverKey ∧ 10 ∉ computeAcceptKey sha1 serverKey :=
        ⟨fun mem => (clear 13 mem).2.1 rfl, fun mem => (clear 10 mem).2.2 rfl⟩
      simp only [if_neg sent] at here ⊢
      rw [List.flatten_cons, List.flatten_nil, List.append_nil, switchingProtocols_lines] at here
      rw [clientHandshake_lines sha1 key (switch_plain ⟨protocol.1, protocol.2.1⟩ inKey)
        (switch_small protocol.2.2 size) here, judge,
        switchFields_accept proto fun c mem => (clear c mem).1]
      have status : findText (ascii "101") (ascii "HTTP/1.1 101 Switching Protocols") ≠ none := by
        simp only [ascii_literal rfl]
        decide
      simp [status, some', asked]

/-! ### Requests that are not received -/

/-- The names that the parser gives its errors can stand in a status line. -/
def Named (p : Llhttp) : Prop :=
  ∀ state b calls name next, p.step state b = (calls, some (.other name), next) →
    (13 ∉ name ∧ 10 ∉ name) ∧ name.length ≤ 64

theorem Named.execute {p : Llhttp} (named : Named p) {state next : p.State} {data : Bytes}
    {calls : List Callback} {name : Bytes}
    (run : p.execute state data = (calls, some (.other name), next)) :
    (13 ∉ name ∧ 10 ∉ name) ∧ name.length ≤ 64 := by
  induction data generalizing state calls with
  | nil => cases run
  | cons b data ih =>
      rcases first : p.step state b with ⟨calls', _ | err, next'⟩
      · rw [Llhttp.execute_cons first] at run
        obtain ⟨-, run⟩ := Prod.mk.inj run
        exact ih (Prod.ext rfl run)
      · rw [Llhttp.execute_cons_stopped first] at run
        cases run
        exact named _ _ _ _ _ first

/-- An error of the receive loop has a reason that can stand in a status line, and no status code
only when the client has closed. -/
structure Answerable (e : ParseError) : Prop where
  reason : (13 ∉ e.reason ∧ 10 ∉ e.reason) ∧ e.reason.length ≤ 64
  parseErrorReason : (13 ∉ e.parseErrorReason ∧ 10 ∉ e.parseErrorReason) ∧
    e.parseErrorReason.length ≤ 64
  code : e.statusCode < 1000
  silent : e.clientClosedEarly = true ∨ e.statusCode ≠ 0

theorem answerable {p : Llhttp} (named : Named p) {maxRequestSize : Nat} {state : p.State}
    {ctx : HttpRequestContext} {totalBytes : Nat} {s : Inbound UInt8} {e : ParseError}
    (failed : (receiveRequest p maxRequestSize state ctx totalBytes s).1 = some e) :
    Answerable e := by
  induction size : s.pending.length using Nat.strongRecOn generalizing state ctx totalBytes s with
  | ind n ih =>
      subst size
      -- the errors of the loop in their order: the socket, the end, the size, the parser
      rw [receiveRequest] at failed
      split at failed
      · cases failed
      · split at failed
        · cases failed
          constructor <;> simp only [ascii_literal rfl] <;> decide
        · split at failed
          · cases failed
            constructor <;> simp only [ascii_literal rfl] <;> decide
          · next positive nonzero =>
              have progress : 0 < (s.recv bufferSize).1 := by omega
              have taken := congrArg List.length (Inbound.recv_taken progress)
              have answer := Inbound.recv_answer progress
              rw [List.length_append] at taken
              dsimp only at failed
              split at failed
              · cases failed
                constructor <;> simp only [ascii_literal rfl] <;> decide
              · split at failed
                · exact ih _ (by omega) failed rfl
                · cases failed
                · next run =>
                    cases failed
                    have code : (400 : Nat) < 1000 ∧ (400 : Nat) ≠ 0 := by decide
                    exact ⟨by simp only [ascii_literal rfl]; decide, named.execute run, code.1,
                      .inr code.2⟩

/-- The client on a stream that ends at once. -/
theorem clientHandshake_ended (sha1 : Bytes → Option Bytes) (key : Bytes) {t : Inbound UInt8}
    (ended : t.pending = []) : (clientHandshake sha1 key t).1 = false := by
  have stopped : (t.recv 512).1 ≤ 0 := by
    by_contra progress
    rw [Int.not_le] at progress
    have taken := Inbound.recv_taken progress
    have answer := Inbound.recv_answer progress
    rw [ended] at taken
    rw [(List.append_eq_nil_iff.mp taken.symm).1] at answer
    simp only [List.length_nil, Int.natCast_zero] at answer
    omega
  have empty : findText headEnd [] = none := by decide
  rw [clientHandshake, receiveResponse, if_pos ⟨empty, Nat.zero_le _⟩, if_pos stopped]

/-- The client goes on behind no refusal. -/
theorem clientHandshake_reject {e : ParseError} (answerable : Answerable e)
    (request : HttpRequestContext) (after : Inbound UInt8) (key : Bytes) {t : Inbound UInt8}
    {later : Bytes}
    (here : t.pending = (rejectRequest opts e request after).2.sent.flatten ++ later)
    (closed : (rejectRequest opts e request after).2.closed = true → later = []) :
    (clientHandshake sha1 key t).1 = false := by
  unfold rejectRequest at here closed
  cases early : e.clientClosedEarly with
  | true =>
      apply clientHandshake_ended
      rw [here, closed (by simp [early])]
      simp [early]
  | false =>
      have code : e.statusCode ≠ 0 :=
        answerable.silent.resolve_left (by rw [early]; exact Bool.false_ne_true)
      simp only [early, Bool.not_false, Bool.true_and, decide_eq_true code, if_true,
        List.flatten_cons, List.flatten_nil, List.append_nil] at here
      rw [buildHttpResponse_lines, List.append_assoc] at here
      have reason : (13 ∉ (if e.parseErrorReason ≠ [] then e.parseErrorReason else e.reason) ∧
          10 ∉ (if e.parseErrorReason ≠ [] then e.parseErrorReason else e.reason)) ∧
          (if e.parseErrorReason ≠ [] then e.parseErrorReason else e.reason).length ≤ 64 := by
        split
        · exact answerable.parseErrorReason
        · exact answerable.reason
      have body : (ascii "WebSocket handshake failed: " ++
          (if e.parseErrorReason = [] then ascii "incomplete request" else e.parseErrorReason) ++
          ascii "\n").length < 100 := by
        have short := answerable.parseErrorReason.2
        split
        · simp only [ascii_literal rfl]
          decide
        · have sizes : (ascii "WebSocket handshake failed: ").length = 28 ∧
              (ascii "\n").length = 1 := by
            simp only [ascii_literal rfl]
            decide
          rw [List.length_append, List.length_append, sizes.1, sizes.2]
          omega
      rw [clientHandshake_lines sha1 key (refusal_plain reason.1)
        (refusal_small reason.2 answerable.code body) here]
      simp [judge, refusalFields_accept]

/-- What `accept` answers, as the client takes it. -/
theorem clientHandshake_accept (deployed : Deployed sha1 env opts) {p : Llhttp} (named : Named p)
    (s : Inbound UInt8) (key : Bytes) {t : Inbound UInt8} {later : Bytes}
    (here : t.pending = (accept p env opts s).2.sent.flatten ++ later)
    (closed : (accept p env opts s).2.closed = true → later = []) :
    (clientHandshake sha1 key t).1 = true ↔
      (accept p env opts s).1.ok = true ∧
        ∃ serverKey,
          (accept p env opts s).1.request.headers (ascii "sec-websocket-key") = some serverKey ∧
          computeAcceptKey sha1 serverKey = computeAcceptKey sha1 key := by
  unfold accept at here closed ⊢
  rcases received : receiveRequest p opts.maxRequestSize p.init {} 0 s with ⟨_ | e, request, after⟩
  · rw [received] at here
    have kept : (answerRequest env opts request after).1.request = request := by
      unfold answerRequest
      split
      · rfl
      · dsimp only
        split
        · rfl
        · rfl
    simp only [kept]
    exact clientHandshake_iff deployed request after key here
  · rw [received] at here closed
    have fits := answerable named (congrArg Prod.fst received)
    rw [clientHandshake_reject fits request after key here closed]
    exact iff_of_false Bool.false_ne_true fun ok => Bool.false_ne_true ok.1

/-- The header lines of the client's request. -/
def clientLines (host : Bytes) (port : UInt16) (secure : Bool) (key : Bytes) :
    List (Bytes × Bytes) :=
  [(ascii "Host", hostHeader host port secure), (ascii "Upgrade", ascii "websocket"),
    (ascii "Connection", ascii "Upgrade"), (ascii "Sec-WebSocket-Key", key),
    (ascii "Sec-WebSocket-Version", ascii "13")]

/-- The client's request arrives, and llhttp reports its method and its lines. -/
structure Delivered (p : Llhttp) (opts : ServerOptions) (s : Inbound UInt8) (host : Bytes)
    (port : UInt16) (path : Bytes) (secure : Bool) (key : Bytes) (request : HttpRequestContext) :
    Prop where
  pending : s.pending = clientRequest host port path secure key
  parsed : Parsed p opts.maxRequestSize s request (clientLines host port secure key)
  method : request.method = ascii "GET"

/-- The headers of the client's request. -/
theorem Delivered.headers {p : Llhttp} {s : Inbound UInt8} {host path key : Bytes} {port : UInt16}
    {secure : Bool} {request : HttpRequestContext}
    (delivered : Delivered p opts s host port path secure key request) :
    request.headers (ascii "upgrade") = some (ascii "websocket") ∧
      request.headers (ascii "connection") = some (ascii "Upgrade") ∧
      request.headers (ascii "sec-websocket-version") = some (ascii "13") ∧
      request.headers (ascii "sec-websocket-key") = some key := by
  have found := delivered.parsed.headers
  have filtered : ∀ name, values (clientLines host port secure key) name =
      (if toLower (ascii "Host") = name then [hostHeader host port secure] else []) ++
      (if toLower (ascii "Upgrade") = name then [ascii "websocket"] else []) ++
      (if toLower (ascii "Connection") = name then [ascii "Upgrade"] else []) ++
      (if toLower (ascii "Sec-WebSocket-Key") = name then [key] else []) ++
      (if toLower (ascii "Sec-WebSocket-Version") = name then [ascii "13"] else []) := by
    intro name
    have none' : values [] name = [] := rfl
    have first := values_append [] (ascii "Host") (hostHeader host port secure) name
    rw [none', List.nil_append, List.nil_append] at first
    rw [← first, ← values_append, ← values_append, ← values_append, ← values_append]
    rfl
  refine ⟨?_, ?_, ?_, ?_⟩
  · rw [found, filtered, if_neg (by decide), if_pos (by decide), if_neg (by decide),
      if_neg (by decide), if_neg (by decide)]
    rfl
  · rw [found, filtered, if_neg (by decide), if_neg (by decide), if_pos (by decide),
      if_neg (by decide), if_neg (by decide)]
    rfl
  · rw [found, filtered, if_neg (by decide), if_neg (by decide), if_neg (by decide),
      if_neg (by decide), if_pos (by decide)]
    rfl
  · rw [found, filtered, if_neg (by decide), if_neg (by decide), if_neg (by decide),
      if_pos (by decide), if_neg (by decide)]
    rfl

/-- The server answers the client's request with `101`. -/
theorem Delivered.switched {p : Llhttp} {s : Inbound UInt8} {host path key : Bytes} {port : UInt16}
    {secure : Bool} {request : HttpRequestContext}
    (delivered : Delivered p opts s host port path secure key request)
    (deployed : Deployed sha1 env opts) (origin : opts.checkOrigin = false)
    (digest : computeAcceptKey sha1 key ≠ []) :
    ∃ proto, decideRequest env opts request =
      .switchProtocols proto (computeAcceptKey sha1 key) := by
  obtain ⟨upgrade, connection, version, asked⟩ := delivered.headers
  have get : ¬ toLower request.method ≠ ascii "get" := by
    rw [delivered.method]
    decide
  have agreed : upgradeKey request.headers = some key := by
    rw [upgradeKey, upgrade, connection, version, asked]
    exact if_pos (by decide)
  have free : (!originOk opts (request.headers (ascii "origin"))) = false := by
    simp [originOk, origin]
  rw [decideRequest, if_neg get, agreed]
  simp only [free, Bool.false_eq_true, if_false, deployed.key, if_neg digest]
  exact ⟨_, rfl⟩

/-- **The two sides of the handshake agree.**  Whatever `accept` answers to what it receives, the
client that reads the answer, in any chunks, goes on exactly if the server does, and if the key of
the request has the same answer as its own.  And the client's own request is accepted where the
origin is not checked, and its answer too; a client with other random bytes accepts it only if two
texts have one digest. -/
theorem handshake_agrees (deployed : Deployed sha1 env opts) :
    (∀ (p : Llhttp), Named p → ∀ (s : Inbound UInt8) (key : Bytes) (t : Inbound UInt8)
      (later : Bytes), t.pending = (accept p env opts s).2.sent.flatten ++ later →
      ((accept p env opts s).2.closed = true → later = []) →
      ((clientHandshake sha1 key t).1 = true ↔
        (accept p env opts s).1.ok = true ∧
          ∃ serverKey,
            (accept p env opts s).1.request.headers (ascii "sec-websocket-key") = some serverKey ∧
            computeAcceptKey sha1 serverKey = computeAcceptKey sha1 key)) ∧
    ∀ (p : Llhttp) (s : Inbound UInt8) (host : Bytes) (port : UInt16) (path : Bytes)
      (secure : Bool) (random : Fin 16 → UInt8) (request : HttpRequestContext),
      Delivered p opts s host port path secure (generateWebsocketKey random) request →
      opts.checkOrigin = false → computeAcceptKey sha1 (generateWebsocketKey random) ≠ [] →
      (accept p env opts s).1.ok = true ∧
        ∀ (t : Inbound UInt8) (later : Bytes),
          t.pending = (accept p env opts s).2.sent.flatten ++ later →
          (clientHandshake sha1 (generateWebsocketKey random) t).1 = true ∧
          ∀ random', (clientHandshake sha1 (generateWebsocketKey random') t).1 = true →
            random' = random ∨ Collision sha1 := by
  refine ⟨fun p named s key t later here closed =>
    clientHandshake_accept deployed named s key here closed, ?_⟩
  intro p s host port path secure random request delivered origin answered
  obtain ⟨proto, switched⟩ := delivered.switched deployed origin answered
  obtain ⟨after, run⟩ := delivered.parsed.accept_eq env
  have ok : (answerRequest env opts request after).1.ok = true := by
    unfold answerRequest
    rw [switched]
    simp only [if_neg (Int.not_lt.mpr (deployed.sends _))]
  have asked := delivered.headers.2.2.2
  rw [run]
  refine ⟨ok, fun t later here => ⟨(clientHandshake_iff deployed request after _ here).mpr
    ⟨ok, _, asked, rfl⟩, fun random' taken => ?_⟩⟩
  obtain ⟨-, serverKey, given, same⟩ := (clientHandshake_iff deployed request after _ here).mp taken
  obtain rfl := Option.some.inj (asked.symm.trans given)
  obtain ⟨digest, own, other⟩ := digest_eq answered same.symm
  by_cases again : random' = random
  · exact .inl again
  · refine .inr ⟨_, _, digest, fun texts => again ?_, other, own⟩
    exact generateWebsocketKey_injective (List.append_cancel_right texts)

end Sides

/-! ## A handshake -/

/-- The random bytes of the sample, the key, and the digest for it. -/
def sampleRandom (i : Fin 16) : UInt8 := (ascii "the sample nonce").getD i 0

def sampleKey : Bytes := ascii "dGhlIHNhbXBsZSBub25jZQ=="

theorem sampleKey_random : generateWebsocketKey sampleRandom = sampleKey := by
  simp only [generateWebsocketKey, sampleKey, ascii_literal rfl]
  decide

def sampleDigest (text : Bytes) : Option Bytes :=
  if text = sampleKey ++ guid then
    some [0xb3, 0x7a, 0x4f, 0x2c, 0xc0, 0x62, 0x4f, 0x16, 0x90, 0xf6, 0x46, 0x06, 0xcf, 0x38, 0x59,
      0x45, 0xb2, 0xbe, 0xc4, 0xea]
  else none

def sampleEnv : Env where
  computeAcceptKey := computeAcceptKey sampleDigest
  sendAll response := response.length

theorem sample_deployed : Deployed sampleDigest sampleEnv {} where
  digest text d found := by
    obtain ⟨-, same⟩ := Option.ite_none_right_eq_some.mp found
    cases same
    rfl
  key := rfl
  sends _ := Int.natCast_nonneg _
  protocols _ mem := absurd mem List.not_mem_nil

/-- The request of the client for the sample key, in one chunk. -/
def sampleRequest : Inbound UInt8 where
  chunks := [clientRequest (ascii "a") 8080 (ascii "/chat") false sampleKey]
  ending := 0
  positive := by
    intro c mem
    rw [List.mem_singleton.mp mem]
    exact List.cons_ne_nil _ _
  stops := Inbound.orderly_stops

theorem sample_delivered : Delivered requestLines {} sampleRequest (ascii "a") 8080
    (ascii "/chat") false sampleKey (requestOf sampleRequest) := by
  have whole : Parsed requestLines 16384 sampleRequest (requestOf sampleRequest)
      (clientLines (ascii "a") 8080 false sampleKey) ∧
      (requestOf sampleRequest).method = ascii "GET" := by
    refine parsed_of_taken ?_ ?_
    · simp only [sampleRequest, clientRequest, hostHeader, sampleKey, ascii_literal rfl]
      rw [receiveRequest]
      decide +kernel
    · simp only [sampleRequest, clientRequest, clientLines, hostHeader, sampleKey,
        ascii_literal rfl]
      decide +kernel
  exact ⟨List.append_nil _, whole.1, whole.2⟩

/-- This parser reports no error. -/
theorem requestLines_named : Named requestLines := by
  intro state b calls name next run
  have fine : (requestLines.step state b).2.1 ≠ some (.other name) := by
    cases state <;> simp only [requestLines] <;> (try split) <;> simp
  exact absurd (congrArg (fun round => round.2.1) run) fine

/-- A client that closes instead. -/
def silent : Inbound UInt8 where
  chunks := []
  ending := 0
  positive _ mem := absurd mem List.not_mem_nil
  stops := Inbound.orderly_stops

/-- The request of the client is accepted on both sides; a client that has closed reads nothing
that it would accept. -/
theorem handshake_agrees_sample :
    ((accept requestLines sampleEnv {} sampleRequest).1.ok = true ∧
      ∀ (t : Inbound UInt8) (later : Bytes),
        t.pending = (accept requestLines sampleEnv {} sampleRequest).2.sent.flatten ++ later →
        (clientHandshake sampleDigest (generateWebsocketKey sampleRandom) t).1 = true) ∧
    ∀ t : Inbound UInt8, t.pending = [] → (clientHandshake sampleDigest sampleKey t).1 = false := by
  have key : computeAcceptKey sampleDigest sampleKey ≠ [] := by
    simp only [computeAcceptKey, sampleDigest, if_pos]
    decide
  obtain ⟨ok, answered⟩ := (handshake_agrees sample_deployed).2 requestLines sampleRequest
    (ascii "a") 8080 (ascii "/chat") false sampleRandom _
    (by rw [sampleKey_random]; exact sample_delivered) rfl (by rw [sampleKey_random]; exact key)
  refine ⟨⟨ok, fun t later here => (answered t later here).1⟩, fun t here => ?_⟩
  have refused : (accept requestLines sampleEnv {} silent).1.ok = false ∧
      (accept requestLines sampleEnv {} silent).2.sent = [] := by
    rw [accept, receiveRequest]
    exact ⟨rfl, rfl⟩
  have agrees := (handshake_agrees sample_deployed).1 requestLines requestLines_named silent
    sampleKey t [] (by rw [here, refused.2]; rfl) fun _ => rfl
  rw [refused.1] at agrees
  rw [← Bool.not_eq_true, agrees]
  exact fun ok => Bool.false_ne_true ok.1

end CoWq.WebSocket.Client
