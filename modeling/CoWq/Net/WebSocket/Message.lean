import CoWq.Net.WebSocket.Wire

/-!
# Reading messages

`read_message` takes frames off the socket until a message is complete, a close frame comes
or something is wrong.  The socket is an inbound stream and what `send_all` works on.

* `Reassembly`: the variables of the loop.
* `Reassembly.take`: what is done with a frame that has been read.
* `turn`: one round of the loop.
* `readMessage`: the loop, which ends because every round takes bytes off the stream.
* `sendClose`: `send_close`.
-/

namespace CoWq.WebSocket

/-- `message`, with its defaults. -/
structure Message where
  op : Opcode := .text
  payload : List UInt8 := []
  closed : Bool := false
  closeCode : UInt16 := 1000
  closeReason : List UInt8 := []
  deriving DecidableEq, Repr

/-- `message_read_options`, with its default. -/
structure MessageReadOptions extends FrameReadOptions where
  respondToPing : Bool := true

/-- The variables of the loop in `read_message`. -/
structure Reassembly where
  buffer : List UInt8 := []
  currentOpcode : Opcode := .continuation
  started : Bool := false
  deriving DecidableEq, Repr

/-- What a round of the loop comes to. -/
inductive Taken
  | again (r : Reassembly)
  /-- the loop goes on, when the pong has been sent -/
  | pong (payload : List UInt8) (r : Reassembly)
  | stop (res : Except Int Message)
  deriving DecidableEq, Repr

/-- The message of a close frame. -/
def closeMessage (payload : List UInt8) : Message :=
  if 2 ≤ payload.length then
    { closed := true
      closeCode := ((payload.getD 0 0).toUInt16 <<< 8) ||| (payload.getD 1 0).toUInt16
      closeReason := payload.drop 2 }
  else { closed := true }

/-- The fragment is appended; the last one completes the message. -/
def Reassembly.finish (r : Reassembly) (fin : Bool) : Taken :=
  if fin then .stop (.ok { op := r.currentOpcode, payload := r.buffer }) else .again r

/-- The body of the loop, once a frame has been read. -/
def Reassembly.take (r : Reassembly) (respondToPing : Bool) (fr : Frame) : Taken :=
  if fr.op = .ping then
    if respondToPing then .pong fr.payload r else .again r
  else if fr.op = .pong then .again r
  else if fr.op = .close then .stop (.ok (closeMessage fr.payload))
  else if !r.started then
    if fr.op = .continuation then .stop (.error protoError)
    else Reassembly.finish ⟨fr.payload, fr.op, true⟩ fr.fin
  else
    if fr.op ≠ .continuation then .stop (.error protoError)
    else Reassembly.finish { r with buffer := r.buffer ++ fr.payload } fr.fin

/-- A round of the loop, with the socket behind it. -/
inductive Round (σ : Type)
  | again (r : Reassembly) (s : Inbound UInt8) (w : σ)
  | stop (res : Except Int Message) (s : Inbound UInt8) (w : σ)

variable {σ : Type}

/-- The pong is neither masked nor fragmented; without a mask no key is drawn. -/
def answerPing (sendAll : List UInt8 → StateM σ Int) (payload : List UInt8) (w : σ) : σ :=
  ((sendFrame sendAll .pong payload { fin := true, mask := false } 0).run w).2

def turn (opts : MessageReadOptions) (sendAll : List UInt8 → StateM σ Int) (r : Reassembly)
    (s : Inbound UInt8) (w : σ) : Round σ :=
  match readFrame opts.toFrameReadOptions s with
  | (.error e, s) => .stop (.error e) s w
  | (.ok fr, s) =>
      match r.take opts.respondToPing fr with
      | .again r => .again r s w
      | .pong payload r => .again r s (answerPing sendAll payload w)
      | .stop res => .stop res s w

theorem WireFrame.bytes_pos (f : WireFrame) : 0 < f.bytes.length := by
  simp [WireFrame.bytes]

/-- A round that goes on has taken a frame. -/
theorem turn_again {opts : MessageReadOptions} {sendAll : List UInt8 → StateM σ Int}
    {r r' : Reassembly} {s s' : Inbound UInt8} {w w' : σ}
    (round : turn opts sendAll r s w = .again r' s' w') :
    ∃ f : WireFrame, f.Admitted opts.toFrameReadOptions ∧ s.pending = f.bytes ++ s'.pending ∧
      (r.take opts.respondToPing (f.frame opts.toFrameReadOptions) = .again r' ∧ w' = w ∨
        ∃ payload, r.take opts.respondToPing (f.frame opts.toFrameReadOptions) =
          .pong payload r' ∧ w' = answerPing sendAll payload w) := by
  unfold turn at round
  split at round
  · cases round
  · rename_i fr t read
    obtain ⟨f, admitted, here, rfl⟩ := readFrame_ok read
    split at round
    · rename_i next
      cases round
      exact ⟨f, admitted, here, .inl ⟨next, rfl⟩⟩
    · rename_i payload next answer
      cases round
      exact ⟨f, admitted, here, .inr ⟨_, answer, rfl⟩⟩
    · cases round

/-- The loop of `read_message`, with the socket behind it. -/
def readMessageLoop (opts : MessageReadOptions) (sendAll : List UInt8 → StateM σ Int)
    (r : Reassembly) (s : Inbound UInt8) (w : σ) : Except Int Message × Inbound UInt8 × σ :=
  match _round : turn opts sendAll r s w with
  | .stop res s w => (res, s, w)
  | .again r' s' w' => readMessageLoop opts sendAll r' s' w'
termination_by s.pending.length
decreasing_by
  obtain ⟨f, -, here, -⟩ := turn_again _round
  have taken := f.bytes_pos
  rw [here, List.length_append]
  omega

/-- `read_message` -/
def readMessage (opts : MessageReadOptions) (sendAll : List UInt8 → StateM σ Int)
    (s : Inbound UInt8) (w : σ) : Except Int Message × Inbound UInt8 × σ :=
  readMessageLoop opts sendAll {} s w

/-- `send_close` -/
def sendClose (sendAll : List UInt8 → StateM σ Int) (code : UInt16) (reason : List UInt8)
    (opts : SendOptions) (random : UInt32) : StateM σ Unit :=
  sendFrame sendAll .close
    ([((code >>> 8) &&& 0xFF).toUInt8, (code &&& 0xFF).toUInt8] ++ reason) opts random

variable {opts : MessageReadOptions} {sendAll : List UInt8 → StateM σ Int} {r r' : Reassembly}
  {s s' : Inbound UInt8} {w w' : σ}

theorem readMessageLoop_stop {res : Except Int Message}
    (round : turn opts sendAll r s w = .stop res s' w') :
    readMessageLoop opts sendAll r s w = (res, s', w') := by
  rw [readMessageLoop]
  split
  · rename_i stopped
    cases round.symm.trans stopped
    rfl
  · rename_i further
    cases round.symm.trans further

theorem readMessageLoop_again (round : turn opts sendAll r s w = .again r' s' w') :
    readMessageLoop opts sendAll r s w = readMessageLoop opts sendAll r' s' w' := by
  rw [readMessageLoop]
  split
  · rename_i stopped
    cases round.symm.trans stopped
  · rename_i further
    cases round.symm.trans further
    rfl

end CoWq.WebSocket
