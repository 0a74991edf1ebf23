import CoWq.Net.WebSocket.Frame

/-!
# The frame reader inverts the frame writer

* `sendFrame_writeAll`: on a socket that takes everything, `send_frame` writes
  the bytes of one frame.
* `receive_then`, `readPayloadLen_then`, `readMaskingKey_then`: each stage of
  the reader takes exactly the bytes the writer made for it.
* `readFrame_sendFrame`: the round trip, for every way the stream is cut.
-/

namespace CoWq.WebSocket

open BigEndian

/-! ## Opcodes and header bytes -/

theorem Opcode.ofByte_toByte {op : Opcode} (named : op.Defined) : ofByte op.toByte = op := by
  cases op with
  | reserved code => exact (named code rfl).elim
  | _ => rfl

/-- The first header byte shows `fin`, no reserved bit, and the opcode. -/
theorem header_byte0 {op : Opcode} (named : op.Defined) (fin : Bool) :
    let b := (if fin then 0x80 else 0x00) ||| op.toByte
    decide (b &&& 0x80 ≠ 0) = fin ∧ b &&& 0x40 = 0 ∧ b &&& 0x20 = 0 ∧ b &&& 0x10 = 0 ∧
      b &&& 0x0F = op.toByte := by
  cases op with
  | reserved code => exact (named code rfl).elim
  | _ => cases fin <;> decide

/-- The second header byte shows the mask bit and the seven length bits. -/
theorem header_byte1 (mask : Bool) (len : UInt8) (short : len < 128) :
    let b := (if mask then 0x80 else 0x00) ||| len
    decide (b &&& 0x80 ≠ 0) = mask ∧ b &&& 0x7F = len := by
  have all : ∀ len : Fin 128, ∀ mask : Bool,
      let b := (if mask then 0x80 else 0x00) ||| UInt8.ofNat len.val
      decide (b &&& 0x80 ≠ 0) = mask ∧ b &&& 0x7F = UInt8.ofNat len.val := by
    decide
  have bound : len.toNat < 128 := UInt8.lt_iff_toNat_lt.mp short
  simpa using all ⟨len.toNat, bound⟩ mask

/-! ## Masking -/

theorem applyMask_applyMask (key : UInt32) (payload : List UInt8) :
    applyMask key (applyMask key payload) = payload := by
  apply List.ext_getElem
  · simp [applyMask]
  · intro i _ _
    simp only [applyMask, List.getElem_mapIdx, UInt8.xor_assoc, UInt8.xor_self, UInt8.xor_zero]

@[simp] theorem applyMask_length (key : UInt32) (payload : List UInt8) :
    (applyMask key payload).length = payload.length := by
  simp [applyMask]

theorem frameBody_length (payload : List UInt8) (opts : SendOptions) (maskKey : UInt32) :
    (frameBody payload opts maskKey).length = payload.length := by
  rw [frameBody]
  split <;> simp

/-! ## Writing -/

/-- What `send_frame` does to the state of its socket. -/
theorem sendFrame_run {σ : Type} (sendAll : List UInt8 → StateM σ Int) (op : Opcode)
    (payload : List UInt8) (opts : SendOptions) (random : UInt32) (s : σ) :
    (sendFrame sendAll op payload opts random).run s =
      let header :=
        sendAll (frameHeader op (UInt64.ofNat payload.length) opts (opts.key random)) s
      if header.1 < 0 ∨ payload = [] then ((), header.2)
      else ((), (sendAll (frameBody payload opts (opts.key random)) header.2).2) := by
  simp only [sendFrame, StateT.run, bind, StateT.bind]
  cases header : sendAll (frameHeader op (UInt64.ofNat payload.length) opts (opts.key random)) s
  rename_i sent s'
  by_cases failed : sent < 0
  · simp only [failed, if_true, true_or]
    rfl
  · cases payload with
    | nil =>
        simp only [failed, List.isEmpty_nil, if_true, if_false, or_true]
        rfl
    | cons b payload =>
        simp only [failed, List.isEmpty_cons, Bool.false_eq_true, if_false, reduceCtorEq, or_self]
        rfl

/-- `send_frame` writes one frame: the second write is left out only when it
would write nothing. -/
theorem sendFrame_writeAll (op : Opcode) (payload : List UInt8) (opts : SendOptions)
    (random : UInt32) (wire : List UInt8) :
    (sendFrame writeAll op payload opts random).run wire =
      ((), wire ++ frameBytes op payload opts (opts.key random)) := by
  rw [sendFrame_run]
  cases payload with
  | nil => simp [writeAll, frameBytes, frameBody, applyMask]
  | cons b payload =>
      have sent : ¬ ((frameHeader op (UInt64.ofNat (b :: payload).length) opts
          (opts.key random)).length : Int) < 0 := by omega
      simp only [writeAll, frameBytes, sent, reduceCtorEq, or_self, if_false, List.append_assoc]

/-! ## Reading -/

/-- A loop over a pending buffer receives it and the reader goes on. -/
theorem receive_then (size : Nat) {bs rest : List UInt8} {s : Inbound UInt8}
    (here : s.pending = bs ++ rest) (amount : bs.length = size) :
    ∃ s', s'.pending = rest ∧
      ∀ {β : Type} (next : List UInt8 → Reader β), (receive size >>= next) s = next bs s' := by
  obtain ⟨s', run, rest', -⟩ := Inbound.fill_spec [] here (by simpa using amount)
  refine ⟨s', rest', fun next => ?_⟩
  simp [receive, run, bind, ExceptT.bind, ExceptT.mk, StateT.bind, ExceptT.bindCont]

/-- A payload length goes through the reader, in each of the three encodings. -/
theorem readPayloadLen_then {len : UInt64} (mask : Bool) {rest : List UInt8}
    {bytes : List UInt8} {first : UInt8}
    (written : lengthBytes (if mask then 0x80 else 0x00) len = first :: bytes)
    {s : Inbound UInt8} (here : s.pending = bytes ++ rest) :
    decide (first &&& 0x80 ≠ 0) = mask ∧ ∃ s', s'.pending = rest ∧
      ∀ {β : Type} (next : UInt64 → Reader β),
        (readPayloadLen (first &&& 0x7F).toUInt64 >>= next) s = next len s' := by
  rw [lengthBytes] at written
  split at written
  · -- seven bits
    rename_i small
    obtain ⟨rfl, rfl⟩ := List.cons.inj written
    have bound : len.toNat ≤ 125 := UInt64.le_iff_toNat_le.mp small
    have byte : len.toUInt8.toNat = len.toNat := by
      rw [UInt64.toNat_toUInt8]
      omega
    have short : len.toUInt8 < 128 := by
      rw [UInt8.lt_iff_toNat_lt, byte]
      have : (128 : UInt8).toNat = 128 := rfl
      omega
    obtain ⟨bit, seven⟩ := header_byte1 mask _ short
    have whole : len.toUInt8.toUInt64 = len := by
      apply UInt64.toNat_inj.mp
      rw [UInt8.toNat_toUInt64, byte]
    refine ⟨bit, s, here, fun next => ?_⟩
    have n126 : len ≠ 126 := fun e => by simp [e] at bound
    have n127 : len ≠ 127 := fun e => by simp [e] at bound
    rw [seven, whole, readPayloadLen, if_neg n126, if_neg n127]
    rfl
  · split at written
    · -- two bytes
      rename_i large small
      obtain ⟨rfl, rfl⟩ := List.cons.inj written
      have bound : len.toNat ≤ 0xFFFF := UInt64.le_iff_toNat_le.mp small
      obtain ⟨bit, seven⟩ := header_byte1 mask 126 (by decide)
      obtain ⟨s', rest', step⟩ := receive_then 2 here rfl
      refine ⟨bit, s', rest', fun next => ?_⟩
      rw [seven, readPayloadLen, if_pos (by rfl), bind_assoc, step]
      simp only [List.getD_cons_zero, List.getD_cons_succ, word_of_two len (by omega),
        pure_bind]
    · -- eight bytes
      obtain ⟨rfl, rfl⟩ := List.cons.inj written
      obtain ⟨bit, seven⟩ := header_byte1 mask 127 (by decide)
      obtain ⟨s', rest', step⟩ := receive_then 8 here (by simp)
      refine ⟨bit, s', rest', fun next => ?_⟩
      have whole : (encode 8 len.toNat).foldl
          (fun (word : UInt64) b => (word <<< 8) ||| b.toUInt64) 0 = len := by
        apply UInt64.toNat_inj.mp
        rw [foldl_toNat _ _ (by simp) (by simp)]
        exact decode_encode len.toNat_lt
      rw [seven, readPayloadLen, if_neg (by decide), if_pos (by rfl), bind_assoc, step,
        encode_word, whole, pure_bind]

/-- The masking key goes through the reader; without one the reader must not ask for it. -/
theorem readMaskingKey_then {mask required : Bool} (allowed : required → mask) (key : UInt32)
    {rest : List UInt8} {s : Inbound UInt8}
    (here : s.pending = (if mask then maskBytes key else []) ++ rest) :
    ∃ s', s'.pending = rest ∧ ∀ {β : Type} (next : UInt32 → Reader β),
      (readMaskingKey mask required >>= next) s = next (if mask then key else 0) s' := by
  cases mask with
  | true =>
      obtain ⟨s', rest', step⟩ := receive_then 4 here rfl
      refine ⟨s', rest', fun next => ?_⟩
      rw [readMaskingKey, if_pos rfl, bind_assoc, step]
      simp only [maskBytes, if_true, List.getD_cons_zero, List.getD_cons_succ, word_of_four,
        pure_bind]
  | false =>
      obtain rfl : required = false := by
        cases required with
        | true => exact (Bool.false_ne_true (allowed rfl)).elim
        | false => rfl
      exact ⟨s, here, fun next => rfl⟩

/-! ## The round trip -/

/-- The frame a reader with unmasking gives for a call of `send_frame`. -/
def sentFrame (op : Opcode) (payload : List UInt8) (opts : SendOptions) (random : UInt32) :
    Frame where
  fin := opts.fin
  rsv1 := false
  rsv2 := false
  rsv3 := false
  op := op
  masked := opts.mask
  maskingKey := if opts.mask then opts.key random else 0
  payload := payload

theorem lengthBytes_cons (maskBit : UInt8) (len : UInt64) :
    ∃ first bytes, lengthBytes maskBit len = first :: bytes := by
  rw [lengthBytes]
  split
  · exact ⟨_, _, rfl⟩
  · split <;> exact ⟨_, _, rfl⟩

/-- A reader takes the frame of the call: the opcode is named, the size admitted, and
the payload masked where that is required. -/
structure Accepts (readOpts : FrameReadOptions) (op : Opcode) (payload : List UInt8)
    (opts : SendOptions) : Prop where
  named : op.Defined
  size : payload.length ≤ readOpts.maxFrameSize.toNat
  masking : readOpts.requireMaskedClient → opts.mask

/-- The reader takes the bytes of one frame off the stream, wherever it is cut. -/
theorem readFrame_frameBytes {op : Opcode} {payload : List UInt8} {opts : SendOptions}
    (random : UInt32) {readOpts : FrameReadOptions} (accepts : Accepts readOpts op payload opts)
    (unmask : opts.mask → readOpts.autoUnmask) {s : Inbound UInt8} {rest : List UInt8}
    (here : s.pending = frameBytes op payload opts (opts.key random) ++ rest) :
    ∃ s', readFrame readOpts s = (.ok (sentFrame op payload opts random), s') ∧
      s'.pending = rest := by
  obtain ⟨named, size, masking⟩ := accepts
  obtain ⟨byte1, bytes, length⟩ :=
    lengthBytes_cons (if opts.mask then 0x80 else 0x00) (UInt64.ofNat payload.length)
  have stream : s.pending = [(if opts.fin then 0x80 else 0x00) ||| op.toByte, byte1] ++
      (bytes ++ ((if opts.mask then maskBytes (opts.key random) else []) ++
        (frameBody payload opts (opts.key random) ++ rest))) := by
    rw [here]
    simp [frameBytes, frameHeader, length]
  -- each stage takes its bytes off the stream
  obtain ⟨s₁, here₁, header⟩ := receive_then 2 stream rfl
  obtain ⟨bit, s₂, here₂, payloadLen⟩ := readPayloadLen_then opts.mask length here₁
  obtain ⟨s₃, here₃, maskingKey⟩ := readMaskingKey_then masking (opts.key random) here₂
  obtain ⟨s₄, here₄, body⟩ :=
    receive_then payload.length here₃ (frameBody_length payload opts (opts.key random))
  obtain ⟨fin, rsv1, rsv2, rsv3, code⟩ := header_byte0 named opts.fin
  have small : payload.length < 2 ^ 64 := lt_of_le_of_lt size readOpts.maxFrameSize.toNat_lt
  have len : (UInt64.ofNat payload.length).toNat = payload.length := by
    rw [UInt64.toNat_ofNat', Nat.mod_eq_of_lt small]
  have admitted : ¬ readOpts.maxFrameSize < UInt64.ofNat payload.length := by
    rw [UInt64.lt_iff_toNat_lt, len]
    omega
  refine ⟨s₄, ?_, here₄⟩
  have rsv : (decide ((0 : UInt8) ≠ 0) || decide ((0 : UInt8) ≠ 0) ||
      decide ((0 : UInt8) ≠ 0)) = false := by decide
  rw [readFrame, header]
  simp only [List.getD_cons_zero, List.getD_cons_succ, fin, rsv1, rsv2, rsv3, code, bit, rsv,
    Bool.false_eq_true, if_false]
  rw [payloadLen, if_neg admitted, maskingKey, len, body]
  have clear : (if (opts.mask && readOpts.autoUnmask) = true then
      applyMask (if opts.mask = true then opts.key random else 0)
        (frameBody payload opts (opts.key random))
      else frameBody payload opts (opts.key random)) = payload := by
    cases mask : opts.mask with
    | true => simp [unmask, frameBody, mask, applyMask_applyMask]
    | false => simp [frameBody, mask]
  have key : (if opts.mask = true then (if opts.mask = true then opts.key random else 0) else 0) =
      if opts.mask = true then opts.key random else 0 := by
    cases opts.mask <;> rfl
  rw [clear, key, Opcode.ofByte_toByte named]
  rfl

/-- **The round trip.**  Whatever `send_frame` writes for a named opcode, a payload
of an accepted size and any options a masking server admits, `read_frame` gives
back, consuming exactly those bytes, wherever the stream is cut and whatever
follows. -/
theorem readFrame_sendFrame (op : Opcode) (named : op.Defined) (payload : List UInt8)
    (opts : SendOptions) (random : UInt32) (readOpts : FrameReadOptions)
    (size : payload.length ≤ readOpts.maxFrameSize.toNat)
    (masking : readOpts.requireMaskedClient → opts.mask) (unmask : readOpts.autoUnmask)
    (s : Inbound UInt8) (rest : List UInt8)
    (here : s.pending = ((sendFrame writeAll op payload opts random).run []).2 ++ rest) :
    ∃ s', (readFrame readOpts).run s = (.ok (sentFrame op payload opts random), s') ∧
      s'.pending = rest := by
  rw [sendFrame_writeAll, List.nil_append] at here
  exact readFrame_frameBytes random ⟨named, size, masking⟩ (fun _ => unmask) here

/-- A masked text frame in three chunks, with the first byte of the next frame behind it. -/
def maskedHi : Inbound UInt8 where
  chunks := [[0x81], [0x82, 0x37], [0xFA, 0x21, 0x3D, 0x7F, 0x93, 0x89]]
  ending := 0
  positive := by simp
  stops := Inbound.orderly_stops

theorem readFrame_sendFrame_maskedHi :
    ∃ s', (readFrame {}).run maskedHi =
        (.ok ⟨true, false, false, false, .text, true, 0x37FA213D, [0x48, 0x69]⟩, s') ∧
      s'.pending = [0x89] :=
  readFrame_sendFrame .text (by intro _ h; cases h) [0x48, 0x69] { mask := true } 0x37FA213D {}
    (by decide) (fun _ => rfl) rfl maskedHi [0x89] (by decide)

end CoWq.WebSocket
