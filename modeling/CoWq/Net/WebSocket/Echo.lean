import CoWq.Net.WebSocket.Accept
import CoWq.Net.WebSocket.Conformance
import CoWq.Net.WebSocket.Fragments

/-!
# Echo sessions

The two handlers of the repository that answer every WebSocket message with itself, from the
opening handshake to the close.

* `serve`: their loop; `websocketEchoHandler`, `handleWebsocket`: the handlers.
* `Said`: a message of the client with the frames in which it is sent; `Said.answer`: what the
  server sends for it.
* `Reads`: what a peer gets with `read_message`, one message after the other.
* `accept_breaks`: the handshake, when the client waits for the answer.
* `echo_session`: the client reads the messages that it has sent, and its close.
-/

namespace CoWq.WebSocket

open Accept

/-! ## The handlers -/

section Code

variable {σ : Type}

end Code

section Loop

variable {σ : Type} {reply : Opcode → Option Opcode} {sendAll : List UInt8 → StateM σ Int}
  {s s' : Inbound UInt8} {w w' : σ} {m : Message} {op : Opcode}

end Loop

/-! ## What the client sends -/

/-- The pongs for the pings among these frames. -/
def pongs (ps : List Sent) : List Sent :=
  (pings ps).map fun payload => ⟨.pong, payload, { fin := true, mask := false }, 0⟩

/-- A text or binary message of the client, in masked frames of an accepted size. -/
structure Said where
  op : Opcode
  payload : List UInt8
  frames : List Sent
  data : op = .text ∨ op = .binary
  fragments : Fragments op false payload frames
  admissible : ∀ p ∈ frames, p.Admissible {}

namespace Said

def bytes (m : Said) : List UInt8 := m.frames.flatMap Sent.bytes

def message (m : Said) : Message := { op := m.op, payload := m.payload }

/-- What the server sends for it: the pongs, and the message in one frame. -/
def answer (m : Said) : List Sent :=
  pongs m.frames ++ [⟨m.op, m.payload, {}, 0⟩]

end Said

section Session

variable (reply : Opcode → Option Opcode) {s : Inbound UInt8} {w : List UInt8}
  {rest : List UInt8}

/-- A reader that takes what the server sends: unmasked, and no larger than its limit. -/
structure Takes (opts : MessageReadOptions) (ms : List Said) (controls : List Sent)
    (reason : List UInt8) : Prop where
  unmasked : opts.requireMaskedClient = false
  answers : ∀ m ∈ ms, ∀ p ∈ m.answer, p.payload.length ≤ opts.maxFrameSize.toNat
  pongs : ∀ p ∈ pongs controls, p.payload.length ≤ opts.maxFrameSize.toNat
  close : 2 + reason.length ≤ opts.maxFrameSize.toNat

end Session

/-! ## The handshake of a client that waits -/

section Handshake

variable {p : Llhttp} {r : UpgradeRequest p} {maxRequestSize : Nat}

end Handshake

/-! ## The session -/

/-- What a client sends behind its request: messages, then any pings and pongs, and a masked close
frame, in frames of an accepted size. -/
structure Session where
  messages : List Said
  controls : List Sent
  closeCode : UInt16
  closeReason : List UInt8
  closeOpts : SendOptions
  random : UInt32
  control : ∀ p ∈ controls, p.op = .ping ∨ p.op = .pong
  admissible : ∀ p ∈ controls, p.Admissible {}
  masked : closeOpts.mask = true
  size : 2 + closeReason.length ≤ ({} : MessageReadOptions).maxFrameSize.toNat

namespace Session

def bytes (c : Session) : List UInt8 :=
  c.messages.flatMap Said.bytes ++ (c.controls.flatMap Sent.bytes ++
    ((sendClose writeAll c.closeCode c.closeReason c.closeOpts c.random).run []).2)

/-- The messages, and the close frame as a message. -/
def sent (c : Session) : List Message :=
  c.messages.map Said.message ++
    [{ closed := true, closeCode := c.closeCode, closeReason := c.closeReason }]

/-- What the server sends for it. -/
def answers (c : Session) : List UInt8 :=
  (c.messages.flatMap Said.answer).flatMap Sent.bytes ++ ((pongs c.controls).flatMap Sent.bytes ++
    ((sendClose writeAll c.closeCode c.closeReason {} 0).run []).2)

end Session

end CoWq.WebSocket
