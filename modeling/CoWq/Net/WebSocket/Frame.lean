import CoWq.Lib.BigEndian
import CoWq.Lib.Inbound

/-!
# WebSocket frames

`send_frame` and `read_frame` as the code computes them.  The receiving socket
is an `Inbound` byte stream and the sending one any state with a `send_all`.

* `frameHeader`, `frameBody`: the two byte strings `send_frame` writes.
* `sendFrame`: the writes themselves, with their early exits.
* `readFrame`: the reader, in the order the code checks and receives.
-/

namespace CoWq.WebSocket

/-- `opcode`.  The enumeration is stored in a byte, so that the reader can hold
any of the four-bit codes; the ones without a name are `reserved`. -/
inductive Opcode
  | continuation
  | text
  | binary
  | close
  | ping
  | pong
  | reserved (code : UInt8)
  deriving DecidableEq, Repr

def Opcode.toByte : Opcode → UInt8
  | continuation => 0x0
  | text => 0x1
  | binary => 0x2
  | close => 0x8
  | ping => 0x9
  | pong => 0xA
  | reserved code => code

/-- `static_cast<opcode>`. -/
def Opcode.ofByte (b : UInt8) : Opcode :=
  if b = 0x0 then continuation
  else if b = 0x1 then text
  else if b = 0x2 then binary
  else if b = 0x8 then close
  else if b = 0x9 then ping
  else if b = 0xA then pong
  else reserved b

/-- One of the six enumerators. -/
def Opcode.Defined (op : Opcode) : Prop := ∀ code, op ≠ reserved code

structure Frame where
  fin : Bool
  rsv1 : Bool
  rsv2 : Bool
  rsv3 : Bool
  op : Opcode
  masked : Bool
  maskingKey : UInt32
  payload : List UInt8
  deriving DecidableEq, Repr

/-- `frame_read_options`, with its defaults. -/
structure FrameReadOptions where
  maxFrameSize : UInt64 := (1 : UInt64) <<< 20
  requireMaskedClient : Bool := true
  autoUnmask : Bool := true

/-- `send_options`, with its defaults. -/
structure SendOptions where
  fin : Bool := true
  mask : Bool := false
  maskingKey : Option UInt32 := none

/-! ## Masking -/

/-- The four bytes of a masking key, most significant first. -/
def maskBytes (key : UInt32) : List UInt8 :=
  [((key >>> 24) &&& 0xFF).toUInt8, ((key >>> 16) &&& 0xFF).toUInt8,
    ((key >>> 8) &&& 0xFF).toUInt8, (key &&& 0xFF).toUInt8]

/-- The loop `payload[i] ^= mask_bytes[i % 4]`. -/
def applyMask (key : UInt32) (payload : List UInt8) : List UInt8 :=
  payload.mapIdx fun i b => b ^^^ (maskBytes key).getD (i % 4) 0

/-! ## Writing -/

/-- The length bytes of the header, behind the mask bit. -/
def lengthBytes (maskBit : UInt8) (payloadLen : UInt64) : List UInt8 :=
  if payloadLen ≤ 125 then [maskBit ||| payloadLen.toUInt8]
  else if payloadLen ≤ 0xFFFF then
    [maskBit ||| 126, ((payloadLen >>> 8) &&& 0xFF).toUInt8, (payloadLen &&& 0xFF).toUInt8]
  else
    (maskBit ||| 127) ::
      (List.range 8).map fun i => ((payloadLen >>> UInt64.ofNat (56 - i * 8)) &&& 0xFF).toUInt8

/-- The first `header_len` bytes of `header`. -/
def frameHeader (op : Opcode) (payloadLen : UInt64) (opts : SendOptions) (maskKey : UInt32) :
    List UInt8 :=
  ((if opts.fin then 0x80 else 0x00) ||| op.toByte) ::
    lengthBytes (if opts.mask then 0x80 else 0x00) payloadLen ++
    if opts.mask then maskBytes maskKey else []

/-- The payload as it is written. -/
def frameBody (payload : List UInt8) (opts : SendOptions) (maskKey : UInt32) : List UInt8 :=
  if opts.mask then applyMask maskKey payload else payload

/-- `opts.masking_key.value_or(std::random_device {}())`. -/
def SendOptions.key (opts : SendOptions) (random : UInt32) : UInt32 :=
  opts.maskingKey.getD random

/-- `send_frame` over a socket whose `send_all` answers a byte count or an error. -/
def sendFrame {σ : Type} (sendAll : List UInt8 → StateM σ Int) (op : Opcode)
    (payload : List UInt8) (opts : SendOptions) (random : UInt32) : StateM σ Unit := do
  let maskKey := opts.key random
  let sent ← sendAll (frameHeader op (UInt64.ofNat payload.length) opts maskKey)
  if sent < 0 then return
  if payload.isEmpty then return
  let _ ← sendAll (frameBody payload opts maskKey)

/-- A `send_all` that puts everything on the wire. -/
def writeAll (bytes : List UInt8) : StateM (List UInt8) Int :=
  fun wire => ((bytes.length : Int), wire ++ bytes)

/-- The bytes of a whole frame. -/
def frameBytes (op : Opcode) (payload : List UInt8) (opts : SendOptions) (maskKey : UInt32) :
    List UInt8 :=
  frameHeader op (UInt64.ofNat payload.length) opts maskKey ++ frameBody payload opts maskKey

/-! ## Reading -/

/-- A computation that receives and may stop with an error code. -/
abbrev Reader := ExceptT Int (StateM (Inbound UInt8))

/-- `-ECONNRESET`, the code for an orderly end inside a frame. -/
def connReset : Int := -104

/-- `-EPROTO`. -/
def protoError : Int := -71

/-- `-EMSGSIZE`. -/
def msgSize : Int := -90

/-- A receive loop of `read_frame`: it fills a buffer of `size` bytes, or stops
with the error of the receive that did not. -/
def receive (size : Nat) : Reader (List UInt8) := fun s =>
  match s.fill size [] with
  | (.ok bytes, s) => (.ok bytes, s)
  | (.error n, s) => (.error (if n = 0 then connReset else n), s)

/-- The payload length, from the seven bits of the header or the bytes after it. -/
def readPayloadLen (payloadLen : UInt64) : Reader UInt64 := do
  if payloadLen = 126 then
    let ext16 ← receive 2
    return ((ext16.getD 0 0).toUInt64 <<< 8) ||| (ext16.getD 1 0).toUInt64
  else if payloadLen = 127 then
    let ext64 ← receive 8
    return ext64.foldl (fun payloadLen byte => (payloadLen <<< 8) ||| byte.toUInt64) 0
  else return payloadLen

/-- The masking key, when the frame has one. -/
def readMaskingKey (mask requireMaskedClient : Bool) : Reader UInt32 := do
  if mask then
    let maskBuf ← receive 4
    return ((maskBuf.getD 0 0).toUInt32 <<< 24) ||| ((maskBuf.getD 1 0).toUInt32 <<< 16) |||
      ((maskBuf.getD 2 0).toUInt32 <<< 8) ||| (maskBuf.getD 3 0).toUInt32
  else if requireMaskedClient then throw protoError
  else return 0

/-- `read_frame`. -/
def readFrame (opts : FrameReadOptions) : Reader Frame := do
  let header ← receive 2
  let byte0 := header.getD 0 0
  let byte1 := header.getD 1 0
  let fin : Bool := byte0 &&& 0x80 ≠ 0
  let rsv1 : Bool := byte0 &&& 0x40 ≠ 0
  let rsv2 : Bool := byte0 &&& 0x20 ≠ 0
  let rsv3 : Bool := byte0 &&& 0x10 ≠ 0
  let op := Opcode.ofByte (byte0 &&& 0x0F)
  let mask : Bool := byte1 &&& 0x80 ≠ 0
  if rsv1 || rsv2 || rsv3 then throw protoError
  else
    let payloadLen ← readPayloadLen (byte1 &&& 0x7F).toUInt64
    if opts.maxFrameSize < payloadLen then throw msgSize
    else
      let maskingKey ← readMaskingKey mask opts.requireMaskedClient
      let payload ← receive payloadLen.toNat
      let payload := if mask && opts.autoUnmask then applyMask maskingKey payload else payload
      return {
        fin, rsv1, rsv2, rsv3, op
        masked := mask
        maskingKey := if mask then maskingKey else 0
        payload }

end CoWq.WebSocket
