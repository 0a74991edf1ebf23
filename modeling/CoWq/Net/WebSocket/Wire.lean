import CoWq.Net.WebSocket.RoundTrip

/-!
# The frames a stream is made of

What the peer sends need not come from `send_frame`: any opcode, flags and length form may
stand on the wire.

* `LengthForm`, `WireFrame`: a frame as it stands on the wire, and its bytes.
* `WireFrame.Admitted`: the checks of `read_frame`.
* `readFrame_wire`, `readFrame_ok`: `read_frame` takes the next frame if it is admitted, and
  nothing but a frame.
-/

namespace CoWq.WebSocket

open BigEndian

/-- How the payload length is written. -/
inductive LengthForm
  | seven
  | sixteen
  | sixtyFour
  deriving DecidableEq, Repr

namespace LengthForm

/-- The form can hold the lengths below. -/
def limit : LengthForm → Nat
  | seven => 126
  | sixteen => 2 ^ 16
  | sixtyFour => 2 ^ 64

/-- The seven bits of the second header byte. -/
def code (len : Nat) : LengthForm → UInt8
  | seven => UInt8.ofNat len
  | sixteen => 126
  | sixtyFour => 127

/-- The bytes behind the first two. -/
def more (len : Nat) : LengthForm → List UInt8
  | seven => []
  | sixteen => encode 2 len
  | sixtyFour => encode 8 len

end LengthForm

/-- A frame on the wire; its first byte holds the flags and the opcode. -/
structure WireFrame where
  byte0 : UInt8
  form : LengthForm
  /-- the four bytes of the masking key -/
  mask : Option (UInt8 × UInt8 × UInt8 × UInt8)
  /-- the payload as it is transmitted -/
  body : List UInt8
  fits : body.length < form.limit
  deriving DecidableEq

namespace WireFrame

def fin (f : WireFrame) : Bool := f.byte0 &&& 0x80 ≠ 0

def op (f : WireFrame) : Opcode := Opcode.ofByte (f.byte0 &&& 0x0F)

/-- One of the three reserved bits is set. -/
def rsv (f : WireFrame) : Bool :=
  f.byte0 &&& 0x40 ≠ 0 || f.byte0 &&& 0x20 ≠ 0 || f.byte0 &&& 0x10 ≠ 0

def maskBytes (f : WireFrame) : List UInt8 :=
  match f.mask with
  | none => []
  | some (a, b, c, d) => [a, b, c, d]

def byte1 (f : WireFrame) : UInt8 :=
  (if f.mask.isSome then 0x80 else 0x00) ||| f.form.code f.body.length

def bytes (f : WireFrame) : List UInt8 :=
  [f.byte0, f.byte1] ++ (f.form.more f.body.length ++ (f.maskBytes ++ f.body))

/-- The masking key, or 0. -/
def key (f : WireFrame) : UInt32 :=
  match f.mask with
  | none => 0
  | some (a, b, c, d) =>
      (a.toUInt32 <<< 24) ||| (b.toUInt32 <<< 16) ||| (c.toUInt32 <<< 8) ||| d.toUInt32

/-- The frame passes the checks of `read_frame`. -/
structure Admitted (opts : FrameReadOptions) (f : WireFrame) : Prop where
  rsv : f.rsv = false
  size : f.body.length ≤ opts.maxFrameSize.toNat
  mask : opts.requireMaskedClient → f.mask.isSome

/-- What the reader makes of it. -/
def frame (opts : FrameReadOptions) (f : WireFrame) : Frame where
  fin := f.fin
  rsv1 := f.byte0 &&& 0x40 ≠ 0
  rsv2 := f.byte0 &&& 0x20 ≠ 0
  rsv3 := f.byte0 &&& 0x10 ≠ 0
  op := f.op
  masked := f.mask.isSome
  maskingKey := f.key
  payload := if f.mask.isSome && opts.autoUnmask then applyMask f.key f.body else f.body

theorem code_lt (f : WireFrame) : f.form.code f.body.length < 128 := by
  have fits := f.fits
  cases form : f.form with
  | seven =>
      rw [form] at fits
      have small : f.body.length < 126 := fits
      rw [LengthForm.code, UInt8.lt_iff_toNat_lt, UInt8.toNat_ofNat']
      have bound : (128 : UInt8).toNat = 128 := rfl
      omega
  | sixteen => exact (by decide : (126 : UInt8) < 128)
  | sixtyFour => exact (by decide : (127 : UInt8) < 128)

theorem length_lt (f : WireFrame) : f.body.length < 2 ^ 64 := by
  have fits := f.fits
  cases form : f.form <;> rw [form] at fits <;> simp only [LengthForm.limit] at fits <;> omega

theorem byte1_spec (f : WireFrame) : decide (f.byte1 &&& 0x80 ≠ 0) = f.mask.isSome ∧
    f.byte1 &&& 0x7F = f.form.code f.body.length :=
  header_byte1 _ _ f.code_lt

/-- The length goes through the reader in every form, also in one that is too long. -/
theorem readPayloadLen_wire (f : WireFrame) {rest : List UInt8} {s : Inbound UInt8}
    (here : s.pending = f.form.more f.body.length ++ rest) :
    ∃ s', s'.pending = rest ∧ ∀ {β : Type} (next : UInt64 → Reader β),
      (readPayloadLen (f.form.code f.body.length).toUInt64 >>= next) s =
        next (UInt64.ofNat f.body.length) s' := by
  have fits := f.fits
  cases form : f.form with
  | seven =>
      rw [form] at fits here
      have small : f.body.length < 126 := fits
      have whole : (UInt8.ofNat f.body.length).toUInt64 = UInt64.ofNat f.body.length := by
        apply UInt64.toNat_inj.mp
        rw [UInt8.toNat_toUInt64, UInt8.toNat_ofNat', UInt64.toNat_ofNat']
        omega
      have len : (UInt64.ofNat f.body.length).toNat = f.body.length := by
        rw [UInt64.toNat_ofNat']
        omega
      have n126 : UInt64.ofNat f.body.length ≠ 126 := fun e => by
        have top : (126 : UInt64).toNat = 126 := rfl
        rw [e, top] at len
        omega
      have n127 : UInt64.ofNat f.body.length ≠ 127 := fun e => by
        have top : (127 : UInt64).toNat = 127 := rfl
        rw [e, top] at len
        omega
      refine ⟨s, here, fun next => ?_⟩
      rw [LengthForm.code, whole, readPayloadLen, if_neg n126, if_neg n127]
      rfl
  | sixteen =>
      rw [form] at fits here
      have small : f.body.length < 256 ^ 2 := fits
      obtain ⟨s', rest', step⟩ := receive_then 2 here (encode_length 2 _)
      refine ⟨s', rest', fun next => ?_⟩
      have whole : ((UInt8.ofNat (f.body.length / 256 ^ 1)).toUInt64 <<< 8) |||
          (UInt8.ofNat (f.body.length / 256 ^ 0)).toUInt64 = UInt64.ofNat f.body.length := by
        apply UInt64.toNat_inj.mp
        rw [two_toNat, UInt64.toNat_ofNat', Nat.mod_eq_of_lt f.length_lt]
        exact decode_encode small
      rw [LengthForm.code, readPayloadLen, if_pos (by rfl), bind_assoc, step]
      simp only [LengthForm.more, encode, List.getD_cons_zero, List.getD_cons_succ, whole,
        pure_bind]
  | sixtyFour =>
      rw [form] at fits here
      obtain ⟨s', rest', step⟩ := receive_then 8 here (encode_length 8 _)
      refine ⟨s', rest', fun next => ?_⟩
      have whole : (encode 8 f.body.length).foldl
          (fun (word : UInt64) b => (word <<< 8) ||| b.toUInt64) 0 =
          UInt64.ofNat f.body.length := by
        apply UInt64.toNat_inj.mp
        rw [foldl_toNat _ _ (by simp) (by simp), UInt64.toNat_ofNat',
          Nat.mod_eq_of_lt f.length_lt]
        exact decode_encode f.length_lt
      rw [LengthForm.code, readPayloadLen, if_neg (by decide), if_pos (by rfl), bind_assoc, step,
        LengthForm.more, whole, pure_bind]

/-- The key goes through the reader unless one is required and missing. -/
theorem readMaskingKey_wire (f : WireFrame) {required : Bool} {rest : List UInt8}
    {s : Inbound UInt8} (here : s.pending = f.maskBytes ++ rest) :
    ∃ s', s'.pending = rest ∧ ∀ {β : Type} (next : UInt32 → Reader β),
      (readMaskingKey f.mask.isSome required >>= next) s =
        if required = true ∧ f.mask = none then (.error protoError, s) else next f.key s' := by
  unfold maskBytes at here
  unfold key
  cases mask : f.mask with
  | none =>
      rw [mask] at here
      refine ⟨s, here, fun next => ?_⟩
      cases required <;> rfl
  | some bytes =>
      obtain ⟨a, b, c, d⟩ := bytes
      rw [mask] at here
      obtain ⟨s', rest', step⟩ := receive_then 4 here rfl
      refine ⟨s', rest', fun next => ?_⟩
      rw [readMaskingKey, if_pos (by rfl), bind_assoc, step]
      simp

/-- All outcomes of `read_frame` on a whole frame. -/
theorem readFrame_outcome (opts : FrameReadOptions) (f : WireFrame) {rest : List UInt8}
    {s : Inbound UInt8} (here : s.pending = f.bytes ++ rest) :
    ∃ s₁ s₂ s', s'.pending = rest ∧ readFrame opts s =
      if f.rsv = true then (.error protoError, s₁)
      else if opts.maxFrameSize.toNat < f.body.length then (.error msgSize, s₂)
      else if opts.requireMaskedClient = true ∧ f.mask = none then (.error protoError, s₂)
      else (.ok (f.frame opts), s') := by
  unfold bytes at here
  simp only [List.append_assoc] at here
  obtain ⟨s₁, here₁, header⟩ := receive_then 2 here rfl
  obtain ⟨s₂, here₂, payloadLen⟩ := f.readPayloadLen_wire here₁
  obtain ⟨s₃, here₃, maskingKey⟩ := f.readMaskingKey_wire here₂
  obtain ⟨s₄, here₄, body⟩ := receive_then f.body.length here₃ rfl
  obtain ⟨bit, seven⟩ := f.byte1_spec
  refine ⟨s₁, s₂, s₄, here₄, ?_⟩
  rw [readFrame, header]
  simp only [List.getD_cons_zero, List.getD_cons_succ, bit, seven]
  by_cases rsv : f.rsv = true
  · rw [if_pos rsv, if_pos (by exact rsv)]
    rfl
  · rw [if_neg rsv, if_neg (by exact rsv), payloadLen]
    have len : (UInt64.ofNat f.body.length).toNat = f.body.length := by
      rw [UInt64.toNat_ofNat', Nat.mod_eq_of_lt f.length_lt]
    by_cases long : opts.maxFrameSize.toNat < f.body.length
    · have long' : opts.maxFrameSize < UInt64.ofNat f.body.length := by
        rwa [UInt64.lt_iff_toNat_lt, len]
      rw [if_pos long, if_pos long']
      rfl
    · have short : ¬ opts.maxFrameSize < UInt64.ofNat f.body.length := by
        rwa [UInt64.lt_iff_toNat_lt, len]
      rw [if_neg long, if_neg short, maskingKey, len, body]
      split
      · rfl
      · have key : (if f.mask.isSome = true then f.key else 0) = f.key := by
          unfold WireFrame.key
          cases f.mask <;> rfl
        rw [key]
        rfl

/-- **`read_frame` takes the next frame exactly if it is admitted.** -/
theorem readFrame_wire {opts : FrameReadOptions} (f : WireFrame) {rest : List UInt8}
    {s : Inbound UInt8} (here : s.pending = f.bytes ++ rest) :
    (f.Admitted opts → ∃ s', readFrame opts s = (.ok (f.frame opts), s') ∧ s'.pending = rest) ∧
      (¬ f.Admitted opts → ∃ e s', readFrame opts s = (.error e, s')) := by
  obtain ⟨s₁, s₂, s', rest', run⟩ := f.readFrame_outcome opts here
  constructor
  · rintro ⟨rsv, size, mask⟩
    have keyed : ¬ (opts.requireMaskedClient = true ∧ f.mask = none) := by
      rintro ⟨required, none'⟩
      simpa [none'] using mask required
    rw [if_neg (by simp [rsv]), if_neg (by omega), if_neg keyed] at run
    exact ⟨s', run, rest'⟩
  · intro refused
    split at run
    · exact ⟨_, _, run⟩
    · rename_i rsv
      split at run
      · exact ⟨_, _, run⟩
      · rename_i size
        split at run
        · exact ⟨_, _, run⟩
        · rename_i keyed
          refine (refused ⟨by simpa using rsv, by omega, fun required => ?_⟩).elim
          exact Option.isSome_iff_ne_none.mpr fun none' => keyed ⟨required, none'⟩

end WireFrame

/-! ## What a reader has taken -/

theorem Reader.bind_ok {α β : Type} {x : Reader α} {next : α → Reader β} {s s' : Inbound UInt8}
    {b : β} (run : (x >>= next) s = (.ok b, s')) :
    ∃ a t, x s = (.ok a, t) ∧ next a t = (.ok b, s') := by
  rcases first : x s with ⟨r, t⟩
  have step : (x >>= next) s =
      match r with
      | .ok a => next a t
      | .error e => (.error e, t) := by
    simp only [bind, ExceptT.bind, ExceptT.mk, StateT.bind, first]
    cases r <;> rfl
  rw [step] at run
  cases r with
  | ok a => exact ⟨a, t, rfl, run⟩
  | error e => cases run

theorem receive_ok {size : Nat} {bs : List UInt8} {s s' : Inbound UInt8}
    (run : receive size s = (.ok bs, s')) : bs.length = size ∧ s.pending = bs ++ s'.pending := by
  unfold receive at run
  split at run
  · rename_i bytes t filled
    cases run
    obtain ⟨bs', rfl, full, rest⟩ := Inbound.fill_ok (Nat.zero_le size) filled
    exact ⟨full, rest⟩
  · cases run

theorem readPayloadLen_ok {b : UInt8} {len : UInt64} {s s' : Inbound UInt8}
    (run : readPayloadLen (b &&& 0x7F).toUInt64 s = (.ok len, s')) :
    ∃ form : LengthForm, len.toNat < form.limit ∧ form.code len.toNat = b &&& 0x7F ∧
      s.pending = form.more len.toNat ++ s'.pending := by
  have bound : (b &&& 0x7F).toNat < 128 := by
    rw [UInt8.toNat_and]
    exact Nat.lt_of_le_of_lt Nat.and_le_right (by decide)
  unfold readPayloadLen at run
  split at run
  · rename_i two
    have code : (126 : UInt8) = b &&& 0x7F := by
      apply UInt8.toNat_inj.mp
      rw [← UInt8.toNat_toUInt64 (b &&& 0x7F), two]
      rfl
    obtain ⟨bs, t, received, run⟩ := Reader.bind_ok run
    obtain ⟨size, rest⟩ := receive_ok received
    obtain ⟨c, d, rfl⟩ := List.length_eq_two.mp size
    obtain ⟨rfl, rfl⟩ : ((c.toUInt64 <<< 8) ||| d.toUInt64) = len ∧ t = s' := by
      simpa using Prod.mk.inj run
    rw [two_toNat]
    have small := decode_lt [c, d]
    have same := encode_decode [c, d]
    simp only [List.length_cons, List.length_nil] at small same
    refine ⟨.sixteen, by simpa [LengthForm.limit] using small, code, ?_⟩
    rw [rest, LengthForm.more, same]
  · split at run
    · rename_i eight
      have code : (127 : UInt8) = b &&& 0x7F := by
        apply UInt8.toNat_inj.mp
        rw [← UInt8.toNat_toUInt64 (b &&& 0x7F), eight]
        rfl
      obtain ⟨bs, t, received, run⟩ := Reader.bind_ok run
      obtain ⟨size, rest⟩ := receive_ok received
      have value : (bs.foldl (fun (word : UInt64) b => (word <<< 8) ||| b.toUInt64) 0).toNat =
          decode bs := foldl_toNat bs 0 (by simp [size]) (by omega)
      obtain ⟨rfl, rfl⟩ : bs.foldl (fun (word : UInt64) b => (word <<< 8) ||| b.toUInt64) 0 = len ∧
          t = s' := by
        simpa using Prod.mk.inj run
      rw [value]
      have small := decode_lt bs
      have same := encode_decode bs
      rw [size] at small same
      refine ⟨.sixtyFour, by simpa [LengthForm.limit] using small, code, ?_⟩
      rw [rest, LengthForm.more, same]
    · rename_i n126 n127
      obtain ⟨rfl, rfl⟩ : (b &&& 0x7F).toUInt64 = len ∧ s = s' := by
        simpa using Prod.mk.inj run
      rw [UInt8.toNat_toUInt64]
      refine ⟨.seven, ?_, ?_, rfl⟩
      · have ne126 : (b &&& 0x7F).toNat ≠ 126 := fun e => n126 (by
          apply UInt64.toNat_inj.mp
          rw [UInt8.toNat_toUInt64, e]
          rfl)
        have ne127 : (b &&& 0x7F).toNat ≠ 127 := fun e => n127 (by
          apply UInt64.toNat_inj.mp
          rw [UInt8.toNat_toUInt64, e]
          rfl)
        rw [LengthForm.limit]
        omega
      · exact UInt8.ofNat_toNat

/-- The key of the four bytes. -/
theorem readMaskingKey_ok {mask required : Bool} {key : UInt32} {s s' : Inbound UInt8}
    (run : readMaskingKey mask required s = (.ok key, s')) :
    (mask = false ∧ required = false ∧ key = 0 ∧ s = s') ∨
      mask = true ∧ ∃ a b c d : UInt8, s.pending = [a, b, c, d] ++ s'.pending ∧
        key = (a.toUInt32 <<< 24) ||| (b.toUInt32 <<< 16) ||| (c.toUInt32 <<< 8) ||| d.toUInt32 := by
  unfold readMaskingKey at run
  split at run
  · rename_i masked
    obtain ⟨bs, t, received, run⟩ := Reader.bind_ok run
    obtain ⟨size, rest⟩ := receive_ok received
    obtain ⟨a, b, c, d, rfl⟩ := List.length_eq_four.mp size
    simp only [List.getD_cons_zero, List.getD_cons_succ] at run
    obtain ⟨value, rfl⟩ := Prod.mk.inj run
    exact .inr ⟨masked, a, b, c, d, rest, (Except.ok.inj value).symm⟩
  · rename_i clear
    split at run
    · cases run
    · rename_i free
      obtain ⟨value, rfl⟩ := Prod.mk.inj run
      exact .inl ⟨by simpa using clear, by simpa using free, (Except.ok.inj value).symm, rfl⟩

theorem header_byte1_split (b : UInt8) :
    (if decide (b &&& 0x80 ≠ 0) = true then 0x80 else 0x00) ||| (b &&& 0x7F) = b := by
  have all : ∀ n : Fin 256, let b := UInt8.ofNat n.val
      (if decide (b &&& 0x80 ≠ 0) = true then 0x80 else 0x00) ||| (b &&& 0x7F) = b := by
    decide +kernel
  simpa using all ⟨b.toNat, b.toNat_lt⟩

/-- **`read_frame` takes nothing but an admitted frame.** -/
theorem readFrame_ok {opts : FrameReadOptions} {fr : Frame} {s s' : Inbound UInt8}
    (run : readFrame opts s = (.ok fr, s')) :
    ∃ f : WireFrame, f.Admitted opts ∧ s.pending = f.bytes ++ s'.pending ∧ fr = f.frame opts := by
  unfold readFrame at run
  obtain ⟨header, s₁, received, run⟩ := Reader.bind_ok run
  obtain ⟨size, rest₁⟩ := receive_ok received
  obtain ⟨byte0, byte1, rfl⟩ := List.length_eq_two.mp size
  simp only [List.getD_cons_zero, List.getD_cons_succ] at run
  split at run
  · cases run
  · rename_i rsv
    obtain ⟨len, s₂, length, run⟩ := Reader.bind_ok run
    obtain ⟨form, fits, code, rest₂⟩ := readPayloadLen_ok length
    split at run
    · cases run
    · rename_i short
      obtain ⟨key, s₃, keyed, run⟩ := Reader.bind_ok run
      obtain ⟨body, s₄, received', run⟩ := Reader.bind_ok run
      obtain ⟨amount, rest₄⟩ := receive_ok received'
      obtain ⟨value, rfl⟩ := Prod.mk.inj run
      have small : body.length ≤ opts.maxFrameSize.toNat := by
        rw [amount]
        exact Nat.not_lt.mp fun long => short (UInt64.lt_iff_toNat_lt.mpr long)
      have first := header_byte1_split byte1
      have clear : (decide (byte0 &&& 0x40 ≠ 0) || decide (byte0 &&& 0x20 ≠ 0) ||
          decide (byte0 &&& 0x10 ≠ 0)) = false := by simpa using rsv
      rcases readMaskingKey_ok keyed with ⟨plain, free, rfl, rfl⟩ | ⟨masked, a, b, c, d, rest₃, rfl⟩
      · refine ⟨⟨byte0, form, none, body, amount ▸ fits⟩, ⟨clear, small, ?_⟩, ?_, ?_⟩
        · simp [free]
        · rw [plain] at first
          simp only [WireFrame.bytes, WireFrame.byte1, WireFrame.maskBytes, amount, code]
          rw [rest₁, rest₂, rest₄]
          simpa using first.symm
        · rw [← Except.ok.inj value]
          simp [WireFrame.frame, WireFrame.fin, WireFrame.op, WireFrame.key, plain]
      · refine ⟨⟨byte0, form, some (a, b, c, d), body, amount ▸ fits⟩,
          ⟨clear, small, fun _ => rfl⟩, ?_, ?_⟩
        · rw [masked] at first
          simp only [WireFrame.bytes, WireFrame.byte1, WireFrame.maskBytes, amount, code]
          rw [rest₁, rest₂, rest₃, rest₄]
          simpa using first.symm
        · rw [← Except.ok.inj value]
          simp [WireFrame.frame, WireFrame.fin, WireFrame.op, WireFrame.key, masked]

end CoWq.WebSocket
