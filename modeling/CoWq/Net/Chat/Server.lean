import CoWq.Lib.BigEndian
import CoWq.Lib.Machine
import Mathlib.Logic.Function.Basic

/-!
# The chat server

The chat stability server pairs the clients of a room two by two and forwards the data frames of
each to the other.  Every session has a reader loop, a writer loop and a wait timer; their code runs
on the workers of one pool, so each of them may be interrupted wherever it touches what another one
also uses.

* `Session`, `Shared`: what the loops share.  `Shared.attach`, `Shared.removeIfWaiting`: the room
  registry.
* `Op`: the stretches of code between two such places, each with the session it is about.
  `Shared.exec` runs one and says which come next.
* `Shared.receive`: what the reader does with a frame before it touches anything shared.
* `State.step`: one move of a reader, of a timer callback, of a writer or of the timer.

The session flags that nothing reads, the metrics, the log and the time stamps are left out, and
`wait_timer.server` and `wait_timer.session` with them, which are set and reset together with
`wait_timer_armed`.
-/

namespace CoWq.Chat

abbrev Bytes := List UInt8

/-! ## Frames -/

def kFrameTypeControl : UInt8 := 0x01
def kFrameTypeData : UInt8 := 0x02

/-- `make_frame`; no payload here reaches the limit it checks. -/
def makeFrame (type : UInt8) (payload : Bytes) : Bytes :=
  type :: (BigEndian.encode 4 payload.length ++ payload)

/-- `make_binary_payload` -/
def makeBinaryPayload (seq : Nat) (body : Bytes) : Bytes :=
  BigEndian.encode 8 seq ++ body

/-! ## The handshake -/

/-- `HandshakeInfo` -/
structure HandshakeInfo where
  room : String := ""
  clientId : String := ""
  sendPlan : Nat := 0
  payloadBytes : Nat := 0
  expectReceive : Nat := 0
  serverPush : Nat := 0
  shutdownAfterSend : Bool := true
  waitTimeoutMs : Nat := 30000
  soloMode : Bool := false
  deriving DecidableEq, Repr

/-- A member of a JSON object as `js.value(key, default)` finds it: missing, of the type asked for,
or of another type, with the text of the exception. -/
inductive Member (α : Type)
  | absent
  | holds (a : α)
  | wrong (what : String)
  deriving DecidableEq, Repr

/-- `js.value(key, default)` -/
def Member.value {α : Type} (m : Member α) (default : α) : Except String α :=
  match m with
  | absent => .ok default
  | holds a => .ok a
  | wrong what => .error what

/-- The members of a `hello`. -/
structure Hello where
  mode : Member String := .absent
  solo : Member Bool := .absent
  room : Member String := .absent
  clientId : Member String := .absent
  sendPlan : Member Nat := .absent
  payloadBytes : Member Nat := .absent
  expectReceive : Member Nat := .absent
  serverPush : Member Nat := .absent
  shutdownAfterSend : Member Bool := .absent
  waitTimeoutMs : Member Nat := .absent
  deriving DecidableEq, Repr

/-- A control payload: not an object with a textual `type`, with the text of the exception, or told
apart by that `type`. -/
inductive Request
  | invalid (what : String)
  | hello (h : Hello)
  | done (sent : Member Nat)
  | ping
  | other
  deriving DecidableEq, Repr

/-- The assignments to `session->info`, in their order; an exception leaves the later ones out. -/
def Hello.assignments (h : Hello) : List (HandshakeInfo → Except String HandshakeInfo) :=
  [fun info => do
      let mode ← h.mode.value ""
      let solo ← h.solo.value false
      pure { info with soloMode := solo || mode == "solo" },
    fun info => do pure { info with room := ← h.room.value "" },
    fun info => do pure { info with clientId := ← h.clientId.value "" },
    fun info => do pure { info with sendPlan := ← h.sendPlan.value 0 },
    fun info => do pure { info with payloadBytes := ← h.payloadBytes.value 0 },
    fun info => do pure { info with expectReceive := ← h.expectReceive.value info.sendPlan },
    fun info => do pure { info with serverPush := ← h.serverPush.value 0 },
    fun info => do pure { info with shutdownAfterSend := ← h.shutdownAfterSend.value true },
    fun info => do pure { info with waitTimeoutMs := ← h.waitTimeoutMs.value 30000 }]

/-- Assign as far as no exception comes. -/
def assign (info : HandshakeInfo) :
    List (HandshakeInfo → Except String HandshakeInfo) → HandshakeInfo × Option String
  | [] => (info, none)
  | f :: fs =>
      match f info with
      | .ok info => assign info fs
      | .error what => (info, some what)

/-! ## What goes to a client -/

/-- The `status` of a `hello_ack`. -/
inductive Status
  | solo
  | paired
  | waiting
  deriving DecidableEq, Repr

/-- `summary_json` without the duration; `sent_from_client` is `forwarded_to_peer` again. -/
structure Summary where
  room : String
  clientId : String
  plannedSend : Nat
  plannedReceive : Nat
  forwardedToPeer : Nat
  receivedFromPeer : Nat
  serverGenerated : Nat
  reportedDone : Nat
  peerActive : Bool
  error : Option String
  deriving DecidableEq, Repr

/-- The control frames of the server. -/
inductive Control
  | helloAck (status : Status) (room : Option String) (solo : Bool)
  | readySolo (serverPush : Nat) (room : Option String)
  | ready (room peerId : String) (peerSendPlan peerPayloadBytes serverPush : Nat)
  | pong
  | summary (summary : Summary)
  | error (room clientId message : String)
  | peerClosed (room peerId reason : String) (plansComplete : Bool)
  deriving DecidableEq, Repr

/-- What is put on a `send_queue`: a control frame, a data frame of another session, which the model
remembers, a data frame of the server, and the empty frame that stops the writer. -/
inductive Item (ι : Type)
  | control (frame : Control)
  | forwarded (source : ι) (raw : Bytes)
  | pushed (raw : Bytes)
  | stop
  deriving DecidableEq, Repr

/-! ## The sessions -/

/-- `ChatSession`.  `written`, `accepted` and `timedOut` are history: what the writer has taken from
the queue, the data frames that passed the checks, and that the wait timer failed the session.
`waitTimerPosted` says that the node of the timer is on the timer's list, and `expired` that no
`shared_ptr` to the session is left. -/
structure Session (ι : Type) where
  info : HandshakeInfo := {}
  peer : Option ι := none
  forwardedToPeer : Nat := 0
  receivedFromPeer : Nat := 0
  serverGenerated : Nat := 0
  clientReportedDone : Nat := 0
  handshakeDone : Bool := false
  summarySent : Bool := false
  closing : Bool := false
  lastError : String := ""
  sendQueue : List (Item ι) := []
  written : List (Item ι) := []
  writing : Bool := true
  writerStopEnqueued : Bool := false
  pendingToPeer : List Bytes := []
  waitTimerArmed : Bool := false
  waitTimerPosted : Bool := false
  accepted : List Bytes := []
  timedOut : Bool := false
  expired : Bool := false

namespace Session

variable {ι : Type}

/-- Everything ever put on `send_queue`. -/
def queued (c : Session ι) : List (Item ι) := c.written ++ c.sendQueue

/-- `enqueue_frame` -/
def enqueueFrame (item : Item ι) (c : Session ι) : Session ι :=
  { c with sendQueue := c.sendQueue ++ [item] }

/-- `request_writer_stop` -/
def requestWriterStop (c : Session ι) : Session ι :=
  if c.writerStopEnqueued then c
  else { c with sendQueue := c.sendQueue ++ [.stop], writerStopEnqueued := true }

/-- `append_pending` -/
def appendPending (raw : Bytes) (c : Session ι) : Session ι :=
  { c with pendingToPeer := c.pendingToPeer ++ [raw] }

/-- `plans_complete` -/
def plansComplete (c : Session ι) : Bool :=
  if c.info.soloMode then
    decide (c.info.sendPlan ≤ c.forwardedToPeer) && decide (c.info.serverPush ≤ c.serverGenerated)
  else
    decide (c.info.sendPlan ≤ c.forwardedToPeer) &&
      decide (c.info.expectReceive ≤ c.receivedFromPeer) &&
      decide (c.info.serverPush ≤ c.serverGenerated)

/-- The `error` frame of `fail_session`. -/
def errorFrame (c : Session ι) : Control := .error c.info.room c.info.clientId c.lastError

/-- The room of a control frame, which is left out when it is empty. -/
def roomField (c : Session ι) : Option String :=
  if c.info.room = "" then none else some c.info.room

/-- The callback of the wait timer fails the session. -/
def failByTimeout (c : Session ι) : Session ι :=
  { c with lastError := "peer wait timeout", timedOut := true }

end Session

/-- What the loops share: the sessions, the waiting map, and the history of what `attach`
answered. -/
structure Shared (ι : Type) where
  session : ι → Session ι := fun _ => {}
  waiting : List (String × ι) := []
  attached : List (ι × Option ι) := []

section

variable {ι : Type} [DecidableEq ι]

namespace Shared

/-- A write to one session. -/
def modify (s : Shared ι) (x : ι) (g : Session ι → Session ι) : Shared ι :=
  { s with session := Function.update s.session x (g (s.session x)) }

omit [DecidableEq ι] in
/-- `lock` of a `weak_ptr`. -/
def lock (s : Shared ι) (pointer : Option ι) : Option ι :=
  pointer.filter fun y => !(s.session y).expired

/-! ## The room registry -/

omit [DecidableEq ι] in
/-- The entry of the waiting map for a room. -/
def waitingIn (s : Shared ι) (room : String) : Option ι :=
  (s.waiting.find? fun e => e.1 = room).map Prod.snd

omit [DecidableEq ι] in
/-- The waiting map without the entry for a room. -/
def eraseRoom (s : Shared ι) (room : String) : List (String × ι) :=
  s.waiting.filter fun e => e.1 ≠ room

omit [DecidableEq ι] in
/-- `RoomRegistry::attach` -/
def attach (s : Shared ι) (x : ι) : Shared ι × Option ι :=
  match s.waitingIn (s.session x).info.room with
  | none =>
      ({ s with
          waiting := ((s.session x).info.room, x) :: s.waiting
          attached := (x, none) :: s.attached }, none)
  | some existing =>
      if (s.session existing).expired || (s.session existing).closing then
        ({ s with
            waiting := ((s.session x).info.room, x) :: s.eraseRoom (s.session x).info.room
            attached := (x, none) :: s.attached }, none)
      else
        ({ s with
            waiting := s.eraseRoom (s.session x).info.room
            attached := (x, some existing) :: s.attached }, some existing)

/-- `RoomRegistry::remove_if_waiting` -/
def removeIfWaiting (s : Shared ι) (x : ι) : Shared ι :=
  match s.waitingIn (s.session x).info.room with
  | none => s
  | some found =>
      if (s.session found).expired || found = x then
        { s with waiting := s.eraseRoom (s.session x).info.room }
      else s

end Shared

/-! ## The code between two shared accesses -/

/-- A stretch of code, with the sessions it is about. -/
inductive Op (ι : Type)
  /-- the head of `while (!session->closing)` -/
  | loop (session : ι)
  /-- `co_await read_frame` -/
  | readFrame (session : ι)
  | sendHelloAck (session : ι) (status : Status)
  | sendReadySolo (session : ι)
  /-- `send_json` of `ready` to a session that has got a peer -/
  | sendReady (session peer : ι)
  | sendPong (session : ι)
  | sendError (session : ι)
  | sendSummary (session : ι)
  | armWaitTimeout (session : ι)
  | cancelWaitTimeout (session : ι)
  /-- `session->peer = peer` -/
  | setPeer (session peer : ι)
  | flushPendingToPeer (session peer : ι)
  /-- `peer->received_from_peer++` in front of `peer->enqueue_frame`: the counter is read, and then
  stored; it is no atomic -/
  | countReceived (session peer : ι) (raw : Bytes)
  | storeReceived (session peer : ι) (raw : Bytes) (count : Nat)
  /-- `peer->enqueue_frame` for a frame of the session -/
  | enqueueFrame (session peer : ι) (raw : Bytes)
  /-- `session->peer.lock()` for an accepted data frame -/
  | lookUpPeer (session : ι) (raw : Bytes)
  /-- `peer->closing` for an accepted data frame -/
  | testPeer (session peer : ι) (raw : Bytes)
  | appendPending (session : ι) (raw : Bytes)
  | scheduleServerPush (session : ι)
  /-- the body of the loop in `schedule_server_push` -/
  | pushFrame (session : ι) (i : Nat)
  | scheduleSummaryIfReady (session : ι)
  /-- `if (!session->summary_sent)` with the summary behind it -/
  | summaryUnlessSent (session : ι)
  | requestWriterStop (session : ι)
  /-- `session->last_error = message` -/
  | setError (session : ι) (message : String)
  /-- `session->closing = true` -/
  | setClosing (session : ι)
  | removeIfWaiting (session : ι)
  /-- `session->peer.lock()` in `notify_peer_of_departure` -/
  | notifyPeer (session : ι)
  /-- `peer->peer.reset()` -/
  | resetPeer (session peer : ι)
  /-- the rest of `notify_peer_of_departure` -/
  | peerClosed (session peer : ι)
  /-- `wait_timeout_callback`: up to the test of `closing`, that test, the test of `peer`, what
  comes behind it, and its call of `fail_session` -/
  | waitTimeout (session : ι)
  | timeoutClosing (session : ι)
  | timeoutPeer (session : ι)
  | timeoutFail (session : ι)
  | failLast (session : ι)
  deriving DecidableEq, Repr

/-- `fail_session` -/
def failSession {ι : Type} (x : ι) (message : String) : List (Op ι) :=
  [.cancelWaitTimeout x, .setError x message, .sendError x, .summaryUnlessSent x,
    .requestWriterStop x]

/-- `fail_session`, `closing = true` and `break`: the head of the loop finds the flag. -/
def failure {ι : Type} (x : ι) (message : String) : List (Op ι) :=
  failSession x message ++ [.setClosing x, .loop x]

/-- What the reader does behind its loop. -/
def departure {ι : Type} (x : ι) : List (Op ι) :=
  [.cancelWaitTimeout x, .removeIfWaiting x, .cancelWaitTimeout x, .notifyPeer x,
    .summaryUnlessSent x, .requestWriterStop x]

/-- The pairing of a session with the one that `attach` returned. -/
def pairing {ι : Type} (x peer : ι) : List (Op ι) :=
  [.cancelWaitTimeout x, .cancelWaitTimeout peer, .sendReady x peer, .sendReady peer x,
    .setPeer x peer, .setPeer peer x, .flushPendingToPeer x peer, .flushPendingToPeer peer x,
    .scheduleServerPush x, .scheduleServerPush peer, .scheduleSummaryIfReady x,
    .scheduleSummaryIfReady peer]

namespace Shared

/-- `ready` for a session with a peer. -/
def readyFrame (s : Shared ι) (x peer : ι) : Control :=
  .ready (s.session x).info.room (s.session peer).info.clientId (s.session peer).info.sendPlan
    (s.session peer).info.payloadBytes (s.session x).info.serverPush

/-- `summary_json` -/
def summaryJson (s : Shared ι) (x : ι) : Summary where
  room := (s.session x).info.room
  clientId := (s.session x).info.clientId
  plannedSend := (s.session x).info.sendPlan
  plannedReceive := (s.session x).info.expectReceive
  forwardedToPeer := (s.session x).forwardedToPeer
  receivedFromPeer := (s.session x).receivedFromPeer
  serverGenerated := (s.session x).serverGenerated
  reportedDone := (s.session x).clientReportedDone
  peerActive := (s.lock (s.session x).peer).any fun p => !(s.session p).closing
  error := if (s.session x).lastError = "" then none else some (s.session x).lastError

/-- `send_json` -/
def sendJson (s : Shared ι) (x : ι) (frame : Control) : Shared ι :=
  s.modify x (Session.enqueueFrame (.control frame))

/-- `arm_wait_timeout` -/
def armWaitTimeout (s : Shared ι) (x : ι) : Shared ι :=
  if (s.session x).info.waitTimeoutMs = 0 ∨ (s.session x).closing ∨ (s.session x).waitTimerArmed then
    s
  else s.modify x fun c => { c with waitTimerArmed := true, waitTimerPosted := true }

/-- `cancel_wait_timeout`: a node that is no longer on the timer's list stays where it is. -/
def cancelWaitTimeout (s : Shared ι) (x : ι) : Shared ι :=
  if (s.session x).waitTimerArmed then
    s.modify x fun c => { c with waitTimerArmed := false, waitTimerPosted := false }
  else s

/-- The frame `i` that the server generates. -/
def pushedFrame (s : Shared ι) (x : ι) (i : Nat) : Bytes :=
  makeFrame kFrameTypeData
    (makeBinaryPayload i (List.replicate (s.session x).info.payloadBytes 0x53))

/-- One stretch of code: what it does and what it goes on with.  Only a `read_frame` cannot go on
by itself. -/
def exec (s : Shared ι) : Op ι → Option (Shared ι × List (Op ι))
  | .loop x => some (s, if (s.session x).closing then departure x else [.readFrame x])
  | .readFrame _ => none
  | .sendHelloAck x status =>
      some (s.sendJson x (.helloAck status (s.session x).roomField (s.session x).info.soloMode), [])
  | .sendReadySolo x =>
      some (s.sendJson x (.readySolo (s.session x).info.serverPush (s.session x).roomField), [])
  | .sendReady x peer => some (s.sendJson x (s.readyFrame x peer), [])
  | .sendPong x => some (s.sendJson x .pong, [])
  | .sendError x => some (s.sendJson x (s.session x).errorFrame, [])
  | .sendSummary x => some (s.sendJson x (.summary (s.summaryJson x)), [])
  | .armWaitTimeout x => some (s.armWaitTimeout x, [])
  | .cancelWaitTimeout x => some (s.cancelWaitTimeout x, [])
  | .setPeer x peer => some (s.modify x fun c => { c with peer := some peer }, [])
  | .flushPendingToPeer x peer =>
      some (s.modify x fun c => { c with pendingToPeer := [] },
        (s.session x).pendingToPeer.map fun raw => .countReceived x peer raw)
  | .countReceived x peer raw =>
      some (s, [.storeReceived x peer raw ((s.session peer).receivedFromPeer + 1)])
  | .storeReceived x peer raw count =>
      some (s.modify peer fun c => { c with receivedFromPeer := count },
        [.enqueueFrame x peer raw])
  | .enqueueFrame x peer raw => some (s.modify peer (Session.enqueueFrame (.forwarded x raw)), [])
  | .lookUpPeer x raw =>
      if (s.session x).info.soloMode then some (s, [.scheduleSummaryIfReady x])
      else
        match s.lock (s.session x).peer with
        | none => some (s, [.appendPending x raw])
        | some peer => some (s, [.testPeer x peer raw])
  | .testPeer x peer raw =>
      some (s,
        if (s.session peer).closing then [.appendPending x raw]
        else [.countReceived x peer raw, .scheduleSummaryIfReady x, .scheduleSummaryIfReady peer])
  | .appendPending x raw => some (s.modify x (Session.appendPending raw), [])
  | .scheduleServerPush x =>
      some (s, if (s.session x).info.serverPush = 0 then [] else [.pushFrame x 0])
  | .pushFrame x i =>
      if i < (s.session x).info.serverPush then
        some (s.modify x fun c => Session.enqueueFrame (.pushed (s.pushedFrame x i))
          { c with serverGenerated := c.serverGenerated + 1 }, [.pushFrame x (i + 1)])
      else some (s, [.scheduleSummaryIfReady x])
  | .scheduleSummaryIfReady x =>
      if (s.session x).summarySent || !(s.session x).plansComplete then some (s, [])
      else
        some (s.modify x fun c => { c with summarySent := true }, .sendSummary x ::
          if (s.session x).info.shutdownAfterSend && !(s.session x).info.soloMode then
            [.requestWriterStop x]
          else [])
  | .summaryUnlessSent x =>
      if (s.session x).summarySent then some (s, [])
      else some (s.modify x fun c => { c with summarySent := true }, [.sendSummary x])
  | .requestWriterStop x => some (s.modify x Session.requestWriterStop, [])
  | .setError x message => some (s.modify x fun c => { c with lastError := message }, [])
  | .setClosing x => some (s.modify x fun c => { c with closing := true }, [])
  | .removeIfWaiting x => some (s.removeIfWaiting x, [])
  | .notifyPeer x =>
      some (s,
        match s.lock (s.session x).peer with
        | none => []
        | some peer => [.cancelWaitTimeout peer, .resetPeer x peer, .peerClosed x peer])
  | .resetPeer _ peer => some (s.modify peer fun c => { c with peer := none }, [])
  | .peerClosed x peer =>
      some (s.sendJson peer (.peerClosed (s.session peer).info.room (s.session x).info.clientId
          (if (s.session x).lastError = "" then "peer-disconnected" else (s.session x).lastError)
          (s.session peer).plansComplete),
        if (s.session peer).plansComplete then [.scheduleSummaryIfReady peer]
        else [.setError peer "peer disconnected before plan complete", .summaryUnlessSent peer,
          .requestWriterStop peer])
  | .waitTimeout x =>
      if (s.session x).waitTimerArmed && !(s.session x).expired then
        some (s.modify x fun c => { c with waitTimerArmed := false }, [.timeoutClosing x])
      else some (s, [])
  | .timeoutClosing x => some (s, if (s.session x).closing then [] else [.timeoutPeer x])
  | .timeoutPeer x =>
      some (s, if (s.lock (s.session x).peer).isSome then [] else [.timeoutFail x])
  | .timeoutFail x =>
      some (s.modify x Session.failByTimeout, [.removeIfWaiting x, .setClosing x, .failLast x])
  | .failLast x => some (s, failSession x (s.session x).lastError)

end Shared

/-! ## The reader's frames -/

/-- `ServerContext`, with the JSON parser and the addresses of the sessions as the environment has
them. -/
structure ServerContext (ι : Type) where
  maxPayload : Nat := 4 * 1024 * 1024
  parse : Bytes → Request
  address : ι → Nat

/-- What `read_frame` meets: the end of the stream or an error, or a header and the payload it
announces. -/
inductive Received
  | closed
  | frame (type : UInt8) (payload : Bytes)
  deriving DecidableEq, Repr

namespace Shared

/-- The first control frame. -/
def hello (ctx : ServerContext ι) (s : Shared ι) (x : ι) (h : Hello) :
    Shared ι × List (Op ι) :=
  match assign (s.session x).info h.assignments with
  | (info, some what) =>
      (s.modify x fun c => { c with info := info }, failure x ("invalid handshake: " ++ what))
  | (info, none) =>
      if !info.soloMode && info.room = "" then
        (s.modify x fun c => { c with info := info, handshakeDone := true },
          failure x "room must not be empty")
      else
        let info :=
          if info.clientId = "" then
            { info with clientId :=
                if info.room = "" then "client#" ++ toString (ctx.address x)
                else info.room ++ "#" ++ toString (ctx.address x) }
          else info
        let s := s.modify x fun c => { c with info := info, handshakeDone := true }
        if ctx.maxPayload < info.payloadBytes then
          (s, failure x "payload_bytes exceeds server limit")
        else if info.soloMode then
          (s, [.sendHelloAck x .solo, .sendReadySolo x, .scheduleServerPush x, .loop x])
        else
          match s.attach x with
          | (s, none) => (s, [.sendHelloAck x .waiting, .armWaitTimeout x, .loop x])
          | (s, some peer) => (s, .sendHelloAck x .paired :: (pairing x peer ++ [.loop x]))

/-- A control frame behind the handshake. -/
def control (s : Shared ι) (x : ι) : Request → Shared ι × List (Op ι)
  | .invalid what => (s, failure x ("invalid control frame: " ++ what))
  | .done sent =>
      match sent.value (s.session x).clientReportedDone with
      | .ok sent =>
          (s.modify x fun c => { c with clientReportedDone := sent },
            [.scheduleSummaryIfReady x, .loop x])
      | .error what => (s, failure x ("invalid control frame: " ++ what))
  | .ping => (s, [.sendPong x, .loop x])
  | _ => (s, [.loop x])

/-- The length check of a data frame: the text of its failure. -/
def lengthError (info : HandshakeInfo) (payload : Bytes) : Option String :=
  if payload.length < 8 then some "data frame too small"
  else if info.payloadBytes ≠ 0 ∧ payload.length - 8 ≠ info.payloadBytes then
    some "payload size mismatch"
  else none

/-- A data frame.  It is accepted when its length is right and the plan not exceeded. -/
def data (s : Shared ι) (x : ι) (payload : Bytes) : Shared ι × List (Op ι) :=
  match lengthError (s.session x).info payload with
  | some message => (s, failure x message)
  | none =>
      if (s.session x).info.sendPlan < (s.session x).forwardedToPeer + 1 ∧
          0 < (s.session x).info.sendPlan then
        (s.modify x fun c => { c with forwardedToPeer := c.forwardedToPeer + 1 },
          failure x "send_plan exceeded")
      else
        (s.modify x fun c =>
          { c with
            forwardedToPeer := c.forwardedToPeer + 1
            accepted := c.accepted ++ [makeFrame kFrameTypeData payload] },
          [.lookUpPeer x (makeFrame kFrameTypeData payload), .loop x])

/-- What the reader does with a frame up to the next shared access.  The registry's mutex is taken
by `attach` alone, so a `hello` comes to it in one go. -/
def receive (ctx : ServerContext ι) (s : Shared ι) (x : ι) : Received → Shared ι × List (Op ι)
  | .closed => (s, [.setClosing x, .loop x])
  | .frame type payload =>
      if ctx.maxPayload < payload.length then (s, failure x "frame exceeds server max payload")
      else if type ≠ kFrameTypeControl ∧ type ≠ kFrameTypeData then
        (s, failure x "unknown frame type")
      else if !(s.session x).handshakeDone then
        if type ≠ kFrameTypeControl then (s, failure x "expected handshake control frame")
        else
          match ctx.parse payload with
          | .invalid what => (s, failure x ("invalid handshake: " ++ what))
          | .hello h => s.hello ctx x h
          | _ => (s, failure x "first control frame must be hello")
      else if type = kFrameTypeControl then s.control x (ctx.parse payload)
      else s.data x payload

end Shared

/-! ## The server -/

/-- A reader loop or the callback of a wait timer. -/
inductive Thread (ι : Type)
  | reader (session : ι)
  | callback (session : ι)
  deriving DecidableEq, Repr

/-- The sessions, and what each reader and each callback has still to do. -/
structure State (ι : Type) where
  shared : Shared ι
  ops : Thread ι → List (Op ι)

/-- The moves: the next stretch of a reader or a callback, a frame for a reader, the time of a wait
timer, the next frame of a writer, and the end of a session that only `weak_ptr`s know. -/
inductive Action (ι : Type)
  | run (thread : Thread ι)
  | receive (session : ι) (r : Received)
  | fire (session : ι)
  | write (session : ι) (sent : Bool)
  | expire (session : ι)
  deriving DecidableEq, Repr

/-- The body of `writer_loop` for the front of the queue. -/
def Session.write (c : Session ι) (sent : Bool) : Option (Session ι) :=
  match c.writing, c.sendQueue with
  | true, item :: rest =>
      some { c with
        sendQueue := rest
        written := c.written ++ [item]
        writing := decide (item ≠ .stop) && sent
        lastError := if item ≠ .stop ∧ sent = false then "send failure" else c.lastError }
  | _, _ => none

namespace State

/-- Replace what a thread has still to do. -/
def goOn (s : State ι) (t : Thread ι) (next : Shared ι × List (Op ι)) : State ι :=
  ⟨next.1, Function.update s.ops t next.2⟩

def step (ctx : ServerContext ι) (s : State ι) : Action ι → Option (State ι)
  | .run t =>
      match s.ops t with
      | [] => none
      | op :: rest => (s.shared.exec op).map fun next => s.goOn t (next.1, next.2 ++ rest)
  | .receive x r =>
      if s.ops (.reader x) = [.readFrame x] then
        some (s.goOn (.reader x) (s.shared.receive ctx x r))
      else none
  | .fire x =>
      if (s.shared.session x).waitTimerPosted then
        some (s.goOn (.callback x) (s.shared.modify x fun c => { c with waitTimerPosted := false },
          s.ops (.callback x) ++ [.waitTimeout x]))
      else none
  | .write x sent =>
      ((s.shared.session x).write sent).map fun c =>
        { s with shared := s.shared.modify x fun _ => c }
  | .expire x =>
      if s.ops (.reader x) = [] ∧ (s.shared.session x).writing = false then
        some { s with shared := s.shared.modify x fun c => { c with expired := true } }
      else none

/-- Every connection is at the head of its reader loop. -/
def start : State ι where
  shared := {}
  ops
    | .reader x => [.loop x]
    | .callback _ => []

end State

/-- The server. -/
def chat (ctx : ServerContext ι) : Machine (State ι) (Action ι) where
  init s := s = State.start
  step := State.step ctx

end

end CoWq.Chat
