import CoWq.Net.Chat.Server
import CoWq.Lib.Matching

/-!
# What the code of the chat server leaves alone

Each lemma says about one part of the state what a stretch of code can do to it.

* `Session.passedFrom`, `Session.readied`: what a session was sent.
* `Shared.attach_spec`: the two outcomes of `attach`.
* `Shared.exec_…`: the frame lemmas of `Shared.exec`.
* `Shared.Receives`: the outcomes of `Shared.receive`.
-/

namespace CoWq.Chat

variable {ι : Type}

/-! ## What a session was sent -/

/-- The data frames of session `x` on a queue. -/
def Item.rawOf [DecidableEq ι] (x : ι) : Item ι → Option Bytes
  | forwarded source raw => if source = x then some raw else none
  | _ => none

/-- The `ready` of a session that has got a peer. -/
def Item.isReady : Item ι → Bool
  | control (.ready ..) => true
  | _ => false

namespace Session

/-- The wait timer of the session is or was set, or has failed it. -/
def Timed (c : Session ι) : Prop :=
  c.waitTimerArmed = true ∨ c.waitTimerPosted = true ∨ c.timedOut = true

/-- That many frames more are within the plan of the session. -/
def WithinPlan (c : Session ι) (more : Nat) : Prop :=
  c.info.sendPlan = 0 ∨ c.forwardedToPeer + more ≤ c.info.sendPlan

/-- The data frames of `x` put on the send queue, in their order. -/
def passedFrom [DecidableEq ι] (x : ι) (c : Session ι) : List Bytes :=
  c.queued.filterMap (Item.rawOf x)

/-- The session was told that it has a peer. -/
def readied (c : Session ι) : Bool :=
  c.queued.any Item.isReady

@[simp] theorem enqueueFrame_queued (item : Item ι) (c : Session ι) :
    (c.enqueueFrame item).queued = c.queued ++ [item] := by
  simp only [queued, enqueueFrame, List.append_assoc]

theorem requestWriterStop_queued (c : Session ι) :
    c.requestWriterStop.queued = c.queued ∨ c.requestWriterStop.queued = c.queued ++ [.stop] := by
  rw [requestWriterStop]
  split
  · exact .inl rfl
  · exact .inr (List.append_assoc _ _ _).symm

@[simp] theorem enqueueFrame_readied (item : Item ι) (c : Session ι) :
    (c.enqueueFrame item).readied = (c.readied || item.isReady) := by
  simp only [readied, enqueueFrame_queued, List.any_append, List.any_cons, List.any_nil,
    Bool.or_false]

@[simp] theorem requestWriterStop_readied (c : Session ι) :
    c.requestWriterStop.readied = c.readied := by
  rcases c.requestWriterStop_queued with same | stopped
  · simp only [readied, same]
  · simp [readied, stopped, Item.isReady]

section

variable [DecidableEq ι]

theorem write_queued {c c' : Session ι} {sent : Bool} (written : c.write sent = some c') :
    c'.queued = c.queued := by
  unfold Session.write at written
  split at written
  · next item rest _ queue =>
      cases written
      simp [queued, queue]
  · cases written

@[simp] theorem enqueueFrame_passedFrom (x : ι) (item : Item ι) (c : Session ι) :
    (c.enqueueFrame item).passedFrom x = c.passedFrom x ++ (item.rawOf x).toList := by
  rw [passedFrom, enqueueFrame_queued, List.filterMap_append, passedFrom]
  cases h : item.rawOf x <;> simp [h]

@[simp] theorem requestWriterStop_passedFrom (x : ι) (c : Session ι) :
    c.requestWriterStop.passedFrom x = c.passedFrom x := by
  rcases c.requestWriterStop_queued with same | stopped
  · simp only [passedFrom, same]
  · simp [passedFrom, stopped, Item.rawOf]

end

end Session

/-- Code that the reader runs for itself alone: it moves no data frame and sets no peer. -/
def Op.plain : Op ι → Bool
  | .cancelWaitTimeout _ | .setError .. | .sendError _ | .summaryUnlessSent _
  | .requestWriterStop _ | .setClosing _ | .sendHelloAck .. | .sendReadySolo _
  | .scheduleServerPush _ | .sendPong _ | .scheduleSummaryIfReady _ => true
  | _ => false

/-! ## The writes to a session -/

section

variable {op : Op ι} {y : ι} {c c' : Session ι}

/-- What a stretch of code can do to the session `y`. -/
inductive Session.Write (op : Op ι) (y : ι) (c : Session ι) : Session ι → Prop
  | control (frame : Control) :
      (Item.isReady (.control frame : Item ι) → ∃ p, op = .sendReady y p) →
    Write op y c (c.enqueueFrame (.control frame))
  | pushed (raw : Bytes) :
    Write op y c (enqueueFrame (.pushed raw) { c with serverGenerated := c.serverGenerated + 1 })
  | stop : Write op y c c.requestWriterStop
  | summarySent : Write op y c { c with summarySent := true }
  | lastError (message : String) : Write op y c { c with lastError := message }
  | closing : Write op y c { c with closing := true }
  | arm : op = .armWaitTimeout y →
    Write op y c { c with waitTimerArmed := true, waitTimerPosted := true }
  | cancel : Write op y c { c with waitTimerArmed := false, waitTimerPosted := false }
  | enter : Write op y c { c with waitTimerArmed := false }
  | fail : op = .timeoutFail y → Write op y c c.failByTimeout
  | setPeer {p : ι} : op = .setPeer y p → Write op y c { c with peer := some p }
  | resetPeer {x : ι} : op = .resetPeer x y → Write op y c { c with peer := none }
  | flush {p : ι} : op = .flushPendingToPeer y p → Write op y c { c with pendingToPeer := [] }
  | count {x : ι} {raw : Bytes} {count : Nat} : op = .storeReceived x y raw count →
    Write op y c { c with receivedFromPeer := count }
  | forwarded {x : ι} {raw : Bytes} : op = .enqueueFrame x y raw →
    Write op y c (c.enqueueFrame (.forwarded x raw))
  | pending {raw : Bytes} : op = .appendPending y raw → Write op y c (c.appendPending raw)

namespace Session.Write

/-- What only the reader of the session writes, and what nothing but the end of the session does. -/
theorem same (write : Session.Write op y c c') : c'.info = c.info ∧
    c'.handshakeDone = c.handshakeDone ∧ c'.forwardedToPeer = c.forwardedToPeer ∧
    c'.accepted = c.accepted ∧ c'.expired = c.expired := by
  cases write with
  | stop =>
      rw [requestWriterStop]
      split <;> exact ⟨rfl, rfl, rfl, rfl, rfl⟩
  | _ => exact ⟨rfl, rfl, rfl, rfl, rfl⟩

theorem closing_mono (write : Session.Write op y c c') (closing : c.closing = true) :
    c'.closing = true := by
  cases write with
  | stop =>
      rw [requestWriterStop]
      split <;> exact closing
  | closing => rfl
  | _ => exact closing

theorem peer_eq (write : Session.Write op y c c') {p : ι} (set : c'.peer = some p) :
    c.peer = some p ∨ op = .setPeer y p := by
  cases write with
  | stop =>
      rw [requestWriterStop] at set
      split at set <;> exact .inl set
  | setPeer here =>
      cases set
      exact .inr here
  | resetPeer => cases set
  | _ => exact .inl set

/-- A peer pointer is kept, set again or reset. -/
theorem peer_kept (write : Session.Write op y c c') : c'.peer = c.peer ∨
    (∃ p, op = .setPeer y p ∧ c'.peer = some p) ∨ ∃ x, op = .resetPeer x y := by
  cases write with
  | stop =>
      rw [requestWriterStop]
      split <;> exact .inl rfl
  | setPeer here => exact .inr (.inl ⟨_, here, rfl⟩)
  | resetPeer here => exact .inr (.inr ⟨_, here⟩)
  | _ => exact .inl rfl

theorem readied_of (write : Session.Write op y c c') (told : c'.readied = true) :
    c.readied = true ∨ ∃ p, op = .sendReady y p := by
  cases write with
  | control frame ready =>
      rw [enqueueFrame_readied, Bool.or_eq_true] at told
      exact told.imp id ready
  | pushed raw | forwarded =>
      rw [enqueueFrame_readied, Bool.or_eq_true] at told
      rcases told with told | ready
      · exact .inl told
      · cases ready
  | stop => exact .inl (by rwa [requestWriterStop_readied] at told)
  | _ => exact .inl told

theorem timed_of (write : Session.Write op y c c') (timed : c'.Timed) :
    c.Timed ∨ op = .armWaitTimeout y ∨ op = .timeoutFail y := by
  cases write with
  | stop =>
      rw [requestWriterStop] at timed
      split at timed <;> exact .inl timed
  | arm here => exact .inr (.inl here)
  | fail here => exact .inr (.inr here)
  | cancel | enter =>
      refine .inl ?_
      simp only [Timed, Bool.false_eq_true, false_or] at timed ⊢
      tauto
  | _ => exact .inl timed

theorem timedOut_of (write : Session.Write op y c c') (failed : c'.timedOut = true) :
    c.timedOut = true ∨ op = .timeoutFail y := by
  cases write with
  | stop =>
      rw [requestWriterStop] at failed
      split at failed <;> exact .inl failed
  | fail here => exact .inr here
  | _ => exact .inl failed

/-- The queue of pending frames is taken or grows by one. -/
theorem pending_eq (write : Session.Write op y c c') : c'.pendingToPeer = c.pendingToPeer ∨
    (∃ p, op = .flushPendingToPeer y p) ∨ ∃ raw, op = .appendPending y raw := by
  cases write with
  | stop =>
      rw [requestWriterStop]
      split <;> exact .inl rfl
  | flush here => exact .inr (.inl ⟨_, here⟩)
  | pending here => exact .inr (.inr ⟨_, here⟩)
  | _ => exact .inl rfl

theorem passedFrom_eq [DecidableEq ι] (write : Session.Write op y c c') (x : ι) :
    c'.passedFrom x = c.passedFrom x ∨ ∃ raw, op = .enqueueFrame x y raw := by
  cases write with
  | control frame | pushed raw =>
      rw [enqueueFrame_passedFrom]
      exact .inl (List.append_nil _)
  | @forwarded a raw here =>
      rw [enqueueFrame_passedFrom]
      by_cases own : a = x
      · cases own
        exact .inr ⟨raw, here⟩
      · simp [Item.rawOf, own]
  | stop => exact .inl (requestWriterStop_passedFrom x c)
  | _ => exact .inl rfl

theorem received_eq (write : Session.Write op y c c') :
    c'.receivedFromPeer = c.receivedFromPeer ∨ ∃ x raw n, op = .storeReceived x y raw n := by
  cases write with
  | stop =>
      rw [requestWriterStop]
      split <;> exact .inl rfl
  | count here => exact .inr ⟨_, _, _, here⟩
  | _ => exact .inl rfl

end Session.Write

end

namespace Shared

variable [DecidableEq ι] {s s' : Shared ι} {op : Op ι} {ops : List (Op ι)}

/-! ## One write -/

@[simp] theorem modify_session (s : Shared ι) (x y : ι) (g : Session ι → Session ι) :
    (s.modify x g).session y = if y = x then g (s.session x) else s.session y := by
  simp only [modify, Function.update_apply]

@[simp] theorem modify_waiting (s : Shared ι) (x : ι) (g : Session ι → Session ι) :
    (s.modify x g).waiting = s.waiting := rfl

@[simp] theorem modify_attached (s : Shared ι) (x : ι) (g : Session ι → Session ι) :
    (s.modify x g).attached = s.attached := rfl

/-- A write that keeps a part of the session it is about keeps it of every session. -/
theorem modify_keeps {β : Type*} (p : Session ι → β) {x : ι} {g : Session ι → Session ι}
    (keeps : ∀ c, p (g c) = p c) (y : ι) : p ((s.modify x g).session y) = p (s.session y) := by
  rw [modify_session]
  split
  · next same => rw [keeps, same]
  · rfl

/-! ## The registry -/

omit [DecidableEq ι] in
theorem mem_of_waitingIn {room : String} {w : ι} (found : s.waitingIn room = some w) :
    (room, w) ∈ s.waiting := by
  obtain ⟨⟨room', w'⟩, entry, same⟩ := Option.map_eq_some_iff.mp found
  have here : room' = room := by simpa using List.find?_some entry
  cases here
  cases same
  exact List.mem_of_find?_eq_some entry

omit [DecidableEq ι] in
theorem mem_eraseRoom {room : String} {e : String × ι} :
    e ∈ s.eraseRoom room ↔ e ∈ s.waiting ∧ e.1 ≠ room := by
  simp [eraseRoom]

omit [DecidableEq ι] in
theorem eraseRoom_of_none {room : String} (none : s.waitingIn room = none) :
    s.eraseRoom room = s.waiting := by
  refine List.filter_eq_self.mpr fun e inside => ?_
  have other := List.find?_eq_none.mp (Option.map_eq_none_iff.mp none) e inside
  simpa using other

omit [DecidableEq ι] in
/-- What `attach` does: the session waits under its room, alone there, or it gets the one that
waited, which is neither gone nor closing. -/
theorem attach_spec (s : Shared ι) (x : ι) :
    (s.attach x =
      ({ s with
          waiting := ((s.session x).info.room, x) :: s.eraseRoom (s.session x).info.room
          attached := (x, none) :: s.attached }, none)) ∨
    ∃ w, ((s.session x).info.room, w) ∈ s.waiting ∧ (s.session w).closing = false ∧
      s.attach x =
        ({ s with
            waiting := s.eraseRoom (s.session x).info.room
            attached := (x, some w) :: s.attached }, some w) := by
  cases found : s.waitingIn (s.session x).info.room with
  | none =>
      left
      simp only [attach, found, eraseRoom_of_none found]
  | some w =>
      by_cases gone : (s.session w).expired || (s.session w).closing
      · left
        simp only [attach, found, gone, if_true]
      · right
        refine ⟨w, mem_of_waitingIn found, ?_, ?_⟩
        · simp only [Bool.or_eq_true, not_or, Bool.not_eq_true] at gone
          exact gone.2
        · simp only [attach, found, gone, if_false, Bool.false_eq_true]

theorem removeIfWaiting_session (s : Shared ι) (x : ι) :
    (s.removeIfWaiting x).session = s.session := by
  rw [removeIfWaiting]
  repeat' split
  all_goals rfl

theorem removeIfWaiting_attached (s : Shared ι) (x : ι) :
    (s.removeIfWaiting x).attached = s.attached := by
  rw [removeIfWaiting]
  repeat' split
  all_goals rfl

theorem removeIfWaiting_waiting (s : Shared ι) (x : ι) :
    List.Sublist (s.removeIfWaiting x).waiting s.waiting := by
  rw [removeIfWaiting]
  repeat' split
  · exact List.Sublist.refl _
  · exact List.filter_sublist
  · exact List.Sublist.refl _

/-! ## One stretch of code -/

section

-- makes the equations of `exec` once, before the proofs that unfold it
attribute [local simp] exec

theorem exec_attached (run : s.exec op = some (s', ops)) : s'.attached = s.attached := by
  cases op <;> simp only [exec, sendJson, armWaitTimeout, cancelWaitTimeout] at run <;>
    (repeat' split at run) <;> cases run <;>
    first
    | rfl
    | exact removeIfWaiting_attached s _

theorem exec_waiting (run : s.exec op = some (s', ops)) :
    List.Sublist s'.waiting s.waiting := by
  cases op <;> simp only [exec, sendJson, armWaitTimeout, cancelWaitTimeout] at run <;>
    (repeat' split at run) <;> cases run <;>
    first
    | exact List.Sublist.refl _
    | exact removeIfWaiting_waiting s _

/-- The write of `g` to `x`, seen from `y`. -/
theorem modify_writes {x : ι} {g : Session ι → Session ι}
    (write : Session.Write op x (s.session x) (g (s.session x))) (y : ι) :
    (s.modify x g).session y = s.session y ∨
      Session.Write op y (s.session y) ((s.modify x g).session y) := by
  rw [modify_session]
  split
  · next same =>
      cases same
      exact .inr write
  · exact .inl rfl

/-- A stretch of code leaves a session alone or does one write to it. -/
theorem exec_writes (run : s.exec op = some (s', ops)) (y : ι) :
    s'.session y = s.session y ∨ Session.Write op y (s.session y) (s'.session y) := by
  cases op <;> simp only [exec, sendJson, armWaitTimeout, cancelWaitTimeout] at run <;>
    (repeat' split at run) <;> cases run <;>
    first
    | exact .inl rfl
    | exact .inl (congrFun (removeIfWaiting_session s _) y)
    | exact modify_writes (.control _ (by simp [Item.isReady, Session.errorFrame])) y
    | exact modify_writes (by constructor <;> rfl) y

/-- The callback goes on to fail the session only if it has found no peer. -/
theorem exec_timeoutFail {x : ι} (run : s.exec op = some (s', ops))
    (fails : .timeoutFail x ∈ ops) : op = .timeoutPeer x ∧ s.lock (s.session x).peer = none := by
  cases op with
  | timeoutPeer y =>
      cases run
      split at fails
      · cases fails
      · next none =>
          cases List.mem_singleton.mp fails
          exact ⟨rfl, by simpa using none⟩
  | _ =>
      simp only [exec, failSession, departure] at run
      (repeat' split at run) <;> cases run <;> simp at fails

/-- Only a `hello` sets peers. -/
theorem exec_setPeer (run : s.exec op = some (s', ops)) (x y : ι) : .setPeer x y ∉ ops := by
  cases op with
  | flushPendingToPeer =>
      cases run
      simp
  | _ =>
      simp only [exec, failSession, departure] at run
      (repeat' split at run) <;> cases run <;> simp

/-- A frame is parked when its reader has found no peer or a closing one. -/
theorem exec_parks {x : ι} {raw : Bytes} (run : s.exec op = some (s', ops))
    (parks : .appendPending x raw ∈ ops) :
    op = .lookUpPeer x raw ∧ s.lock (s.session x).peer = none ∨
      ∃ p, op = .testPeer x p raw ∧ (s.session p).closing = true := by
  cases op with
  | flushPendingToPeer =>
      cases run
      simp at parks
  | lookUpPeer =>
      simp only [exec] at run
      repeat' split at run
      · cases run
        simp at parks
      · next none =>
          cases run
          cases List.mem_singleton.mp parks
          exact .inl ⟨rfl, none⟩
      · cases run
        simp at parks
  | testPeer a p =>
      cases run
      split at parks
      · next closing =>
          cases List.mem_singleton.mp parks
          exact .inr ⟨p, rfl, closing⟩
      · simp at parks
  | _ =>
      simp only [exec, failSession, departure] at run
      (repeat' split at run) <;> cases run <;> simp at parks

end

/-! ## One frame -/

/-- The session has its settings and the registry's answer. -/
def register (s : Shared ι) (x : ι) (info : HandshakeInfo) (r : Option ι)
    (waiting : List (String × ι)) : Shared ι :=
  { s.modify x (fun c => { c with info := info, handshakeDone := true }) with
    waiting := waiting
    attached := (x, r) :: s.attached }

@[simp] theorem register_waiting (s : Shared ι) (x : ι) (info : HandshakeInfo) (r : Option ι)
    (waiting : List (String × ι)) : (s.register x info r waiting).waiting = waiting := rfl

@[simp] theorem register_attached (s : Shared ι) (x : ι) (info : HandshakeInfo) (r : Option ι)
    (waiting : List (String × ι)) :
    (s.register x info r waiting).attached = (x, r) :: s.attached := rfl

@[simp] theorem register_session (s : Shared ι) (x y : ι) (info : HandshakeInfo) (r : Option ι)
    (waiting : List (String × ι)) : (s.register x info r waiting).session y =
      if y = x then { s.session x with info := info, handshakeDone := true } else s.session y :=
  modify_session s x y fun c => { c with info := info, handshakeDone := true }

theorem register_keeps {β : Type*} (p : Session ι → β) {x : ι} {info : HandshakeInfo}
    {r : Option ι} {waiting : List (String × ι)}
    (keeps : ∀ c, p { c with info := info, handshakeDone := true } = p c) (y : ι) :
    p ((s.register x info r waiting).session y) = p (s.session y) :=
  modify_keeps p keeps y

/-- What the reader of `x` makes of a frame: nothing that concerns another session, a place in the
waiting map, the session that waits in the room it asks for, an accepted data frame, or one beyond
the plan. -/
inductive Receives (s : Shared ι) (x : ι) (asked : Option String) :
    Shared ι → List (Op ι) → Prop
  | aside (info : HandshakeInfo) (done : Bool) (sent : Nat) (ops : List (Op ι)) :
    ((s.session x).handshakeDone = true → info = (s.session x).info ∧ done = true) →
    (∀ op ∈ ops, op.plain = true) →
    Receives s x asked
      (s.modify x fun c =>
        { c with info := info, handshakeDone := done, clientReportedDone := sent })
      (ops ++ [.loop x])
  | waits {info : HandshakeInfo} : (s.session x).handshakeDone = false → info.soloMode = false →
    Receives s x asked (s.register x info none ((info.room, x) :: s.eraseRoom info.room))
      [.sendHelloAck x .waiting, .armWaitTimeout x, .loop x]
  | meets {info : HandshakeInfo} {w : ι} : (s.session x).handshakeDone = false →
    info.soloMode = false → asked = some info.room → (info.room, w) ∈ s.waiting →
    (s.session w).closing = false →
    Receives s x asked (s.register x info (some w) (s.eraseRoom info.room))
      (.sendHelloAck x .paired :: (pairing x w ++ [.loop x]))
  | accepted (payload : Bytes) : (s.session x).handshakeDone = true →
    lengthError (s.session x).info payload = none → (s.session x).WithinPlan 1 →
    Receives s x asked
      (s.modify x fun c =>
        { c with
          forwardedToPeer := c.forwardedToPeer + 1
          accepted := c.accepted ++ [makeFrame kFrameTypeData payload] })
      [.lookUpPeer x (makeFrame kFrameTypeData payload), .loop x]
  | exceeded : (s.session x).handshakeDone = true → ¬ (s.session x).WithinPlan 1 →
    Receives s x asked (s.modify x fun c => { c with forwardedToPeer := c.forwardedToPeer + 1 })
      (failure x "send_plan exceeded")

theorem modify_eq_self {x : ι} {g : Session ι → Session ι}
    (same : g (s.session x) = s.session x) : s.modify x g = s := by
  rw [modify, same, Function.update_eq_self]

/-- Code behind which the reader leaves its loop or goes on, with nothing changed. -/
theorem Receives.same {x : ι} {asked : Option String} (ops : List (Op ι))
    (plain : ∀ op ∈ ops, op.plain = true) :
    Receives s x asked s (ops ++ [.loop x]) := by
  have aside := @Receives.aside _ _ s x asked _ _ (s.session x).clientReportedDone ops
    (fun done => ⟨rfl, done⟩) plain
  rwa [modify_eq_self rfl] at aside

theorem Receives.failure {x : ι} {asked : Option String} (message : String) :
    Receives s x asked s (Chat.failure x message) :=
  Receives.same (failSession x message ++ [.setClosing x]) (by simp [failSession, Op.plain])

theorem modify_congr {x : ι} {g : Session ι → Session ι} (g' : Session ι → Session ι)
    (same : g (s.session x) = g' (s.session x)) : s.modify x g = s.modify x g' := by
  rw [modify, modify, same]

/-- A `hello` that comes to no place in the waiting map. -/
theorem Receives.assigned {x : ι} {asked : Option String} (info : HandshakeInfo) (done : Bool)
    (ops : List (Op ι)) (first : (s.session x).handshakeDone = false)
    (plain : ∀ op ∈ ops, op.plain = true) :
    Receives s x asked (s.modify x fun c => { c with info := info, handshakeDone := done })
      (ops ++ [.loop x]) := by
  have aside := @Receives.aside _ _ s x asked info done (s.session x).clientReportedDone ops
    (fun done => by rw [first] at done; cases done) plain
  rwa [modify_congr (fun c => { c with info := info, handshakeDone := done }) rfl] at aside

omit [DecidableEq ι] in
theorem failure_plain {x : ι} {message : String} :
    ∀ op ∈ failSession x message ++ [.setClosing x], op.plain = true := by
  simp [failSession, Op.plain]

/-- The session meets the one that waits under its room, or waits there itself. -/
theorem Receives.attach {x : ι} {asked : Option String} {info : HandshakeInfo}
    (first : (s.session x).handshakeDone = false) (pair : info.soloMode = false)
    (room : asked = some info.room) :
    ((s.modify x fun c => { c with info := info, handshakeDone := true }).attach x).2 = none ∧
      Receives s x asked
        ((s.modify x fun c => { c with info := info, handshakeDone := true }).attach x).1
        [.sendHelloAck x .waiting, .armWaitTimeout x, .loop x] ∨
    ∃ w,
      ((s.modify x fun c => { c with info := info, handshakeDone := true }).attach x).2 = some w ∧
        Receives s x asked
          ((s.modify x fun c => { c with info := info, handshakeDone := true }).attach x).1
          (.sendHelloAck x .paired :: (pairing x w ++ [.loop x])) := by
  rcases (s.modify x fun c => { c with info := info, handshakeDone := true }).attach_spec x with
    waits | ⟨w, waiting, alive, meets⟩
  · left
    rw [waits]
    simp only [modify_session, if_true]
    exact ⟨trivial, .waits first pair⟩
  · right
    refine ⟨w, ?_⟩
    rw [meets]
    have kept := modify_keeps (s := s) (x := x) Session.closing
      (g := fun c => { c with info := info, handshakeDone := true }) (fun _ => rfl) w
    rw [kept] at alive
    simp only [modify_session, if_true] at waiting ⊢
    exact ⟨trivial, .meets first pair room waiting alive⟩

/-- The room that a frame asks the registry for. -/
def roomAsked (ctx : ServerContext ι) (s : Shared ι) (x : ι) : Received → Option String
  | .closed => none
  | .frame _ payload =>
      match ctx.parse payload with
      | .hello h => some (assign (s.session x).info h.assignments).1.room
      | _ => none

theorem hello_spec (ctx : ServerContext ι) {x : ι} (h : Hello)
    (first : (s.session x).handshakeDone = false) :
    Receives s x (some (assign (s.session x).info h.assignments).1.room) (s.hello ctx x h).1
      (s.hello ctx x h).2 := by
  rw [hello]
  split
  · next info what same =>
      rw [same]
      have failed := @Receives.assigned _ _ s x (some info.room) info false _ first
        (@failure_plain ι x ("invalid handshake: " ++ what))
      rwa [modify_congr (fun c => { c with info := info }) (by rw [← first])] at failed
  · next info same =>
      rw [same]
      split
      · exact .assigned _ _ _ first failure_plain
      · have room : info.room = (if info.clientId = "" then
            { info with clientId :=
                if info.room = "" then "client#" ++ toString (ctx.address x)
                else info.room ++ "#" ++ toString (ctx.address x) }
          else info).room := by
          split <;> rfl
        revert room
        generalize (if info.clientId = "" then _ else info : HandshakeInfo) = named
        intro room
        dsimp only
        split
        · exact .assigned _ _ _ first failure_plain
        · split
          · exact .assigned _ _ [.sendHelloAck x .solo, .sendReadySolo x, .scheduleServerPush x]
              first (by simp [Op.plain])
          · next pair =>
              rcases Receives.attach first (Bool.eq_false_iff.mpr pair) (congrArg some room) with
                ⟨none, waits⟩ | ⟨w, some, meets⟩
              · split
                · next same =>
                    rw [same] at waits
                    exact waits
                · next same =>
                    rw [same] at none
                    cases none
              · split
                · next same =>
                    rw [same] at some
                    cases some
                · next same =>
                    rw [same] at some meets
                    cases some
                    exact meets

theorem control_spec {x : ι} {asked : Option String} (r : Request) :
    Receives s x asked (s.control x r).1 (s.control x r).2 := by
  rcases r with what | h | sent | _ | _
  · exact .failure _
  · exact .same [] (by simp)
  · rw [control]
    split
    · next n _ =>
        have aside := @Receives.aside _ _ s x asked _ _ n [.scheduleSummaryIfReady x]
          (fun done => ⟨rfl, done⟩) (by simp [Op.plain])
        rwa [modify_congr (fun c => { c with clientReportedDone := n }) rfl] at aside
    · exact .failure _
  · exact .same [.sendPong x] (by simp [Op.plain])
  · exact .same [] (by simp)

theorem data_spec {x : ι} {asked : Option String} (payload : Bytes)
    (done : (s.session x).handshakeDone = true) :
    Receives s x asked (s.data x payload).1 (s.data x payload).2 := by
  rw [data]
  split
  · exact .failure _
  · next fits =>
      split
      · next beyond =>
          refine .exceeded done fun within => ?_
          rcases within with free | room <;> omega
      · next inside =>
          refine .accepted payload done fits ?_
          rw [Session.WithinPlan]
          omega

theorem receive_spec (ctx : ServerContext ι) (s : Shared ι) (x : ι) (r : Received) :
    Receives s x (s.roomAsked ctx x r) (s.receive ctx x r).1 (s.receive ctx x r).2 := by
  rcases r with _ | ⟨type, payload⟩
  · exact .same [.setClosing x] (by simp [Op.plain])
  · rw [receive]
    repeat' split
    · exact .failure _
    · exact .failure _
    · exact .failure _
    · exact .failure _
    · next first _ _ h request =>
        have asks : s.roomAsked ctx x (.frame type payload) =
            some (assign (s.session x).info h.assignments).1.room := by
          simp only [roomAsked, request]
        rw [asks]
        exact hello_spec ctx h (by simpa using first)
    · exact .failure _
    · exact control_spec _
    · next done _ => exact data_spec _ (by simpa using done)

end Shared

/-! ## One move -/

/-- What only running code changes in a session. -/
structure Session.Kept (c c' : Session ι) : Prop where
  peer : c'.peer = c.peer
  pending : c'.pendingToPeer = c.pendingToPeer
  received : c'.receivedFromPeer = c.receivedFromPeer
  queued : c'.queued = c.queued
  closing : c'.closing = c.closing
  timedOut : c'.timedOut = c.timedOut

theorem Session.Kept.refl (c : Session ι) : c.Kept c :=
  ⟨rfl, rfl, rfl, rfl, rfl, rfl⟩

theorem Shared.kept_modify [DecidableEq ι] {s : Shared ι} {x : ι} {g : Session ι → Session ι}
    (kept : (s.session x).Kept (g (s.session x))) (y : ι) :
    (s.session y).Kept ((s.modify x g).session y) := by
  rw [modify_session]
  split
  · next here =>
      rw [here]
      exact kept
  · exact .refl _

theorem Session.write_kept [DecidableEq ι] {c c' : Session ι} {sent : Bool}
    (written : c.write sent = some c') : c.Kept c' := by
  have queue := write_queued written
  unfold Session.write at written
  split at written
  · cases written
    exact ⟨rfl, rfl, rfl, queue, rfl, rfl⟩
  · cases written

theorem Shared.Receives.kept [DecidableEq ι] {s s' : Shared ι} {x : ι} {asked : Option String}
    {ops : List (Op ι)} (spec : s.Receives x asked s' ops) (y : ι) :
    (s.session y).Kept (s'.session y) := by
  cases spec with
  | waits | meets =>
      rw [register_session]
      split
      · next here =>
          rw [here]
          exact ⟨rfl, rfl, rfl, rfl, rfl, rfl⟩
      · exact .refl _
  | aside | accepted | exceeded =>
      refine kept_modify ?_ y
      exact ⟨rfl, rfl, rfl, rfl, rfl, rfl⟩

namespace State

variable [DecidableEq ι] {ctx : ServerContext ι} {s s' : State ι}

@[simp] theorem goOn_shared (s : State ι) (t : Thread ι) (next : Shared ι × List (Op ι)) :
    (s.goOn t next).shared = next.1 := rfl

@[simp] theorem goOn_ops (s : State ι) (t u : Thread ι) (next : Shared ι × List (Op ι)) :
    (s.goOn t next).ops u = if u = t then next.2 else s.ops u := by
  simp only [goOn, Function.update_apply]

theorem step_run {t : Thread ι} (step : s.step ctx (.run t) = some s') :
    ∃ op rest shared ops, s.ops t = op :: rest ∧ s.shared.exec op = some (shared, ops) ∧
      s' = s.goOn t (shared, ops ++ rest) := by
  simp only [State.step] at step
  cases todo : s.ops t with
  | nil =>
      rw [todo] at step
      cases step
  | cons op rest =>
      rw [todo] at step
      obtain ⟨⟨shared, ops⟩, run, rfl⟩ := Option.map_eq_some_iff.mp step
      exact ⟨op, rest, shared, ops, rfl, run, rfl⟩

theorem step_receive {x : ι} {r : Received} (step : s.step ctx (.receive x r) = some s') :
    s.ops (.reader x) = [.readFrame x] ∧ s' = s.goOn (.reader x) (s.shared.receive ctx x r) := by
  obtain ⟨idle, step⟩ := Option.ite_none_right_eq_some.mp step
  cases step
  exact ⟨idle, rfl⟩

theorem step_fire {x : ι} (step : s.step ctx (.fire x) = some s') :
    (s.shared.session x).waitTimerPosted = true ∧
      s' = s.goOn (.callback x)
        (s.shared.modify x fun c => { c with waitTimerPosted := false },
          s.ops (.callback x) ++ [.waitTimeout x]) := by
  obtain ⟨posted, step⟩ := Option.ite_none_right_eq_some.mp step
  cases step
  exact ⟨posted, rfl⟩

theorem step_write {x : ι} {sent : Bool} (step : s.step ctx (.write x sent) = some s') :
    ∃ c, (s.shared.session x).write sent = some c ∧
      s' = { s with shared := s.shared.modify x fun _ => c } := by
  obtain ⟨c, written, rfl⟩ := Option.map_eq_some_iff.mp step
  exact ⟨c, written, rfl⟩

theorem step_expire {x : ι} (step : s.step ctx (.expire x) = some s') :
    s.ops (.reader x) = [] ∧
      s' = { s with shared := s.shared.modify x fun c => { c with expired := true } } := by
  obtain ⟨ended, step⟩ := Option.ite_none_right_eq_some.mp step
  cases step
  exact ⟨ended.1, rfl⟩

theorem step_kept {act : Action ι} (step : s.step ctx act = some s') (other : ∀ t, act ≠ .run t)
    (y : ι) : (s.shared.session y).Kept (s'.shared.session y) := by
  cases act with
  | run t => exact (other t rfl).elim
  | receive x r =>
      obtain ⟨-, rfl⟩ := step_receive step
      exact (s.shared.receive_spec ctx x r).kept y
  | fire x =>
      obtain ⟨-, rfl⟩ := step_fire step
      simp only [goOn_shared]
      refine Shared.kept_modify ?_ y
      exact ⟨rfl, rfl, rfl, rfl, rfl, rfl⟩
  | write x sent =>
      obtain ⟨c, written, rfl⟩ := step_write step
      dsimp only
      refine Shared.kept_modify ?_ y
      exact Session.write_kept written
  | expire x =>
      obtain ⟨-, rfl⟩ := step_expire step
      dsimp only
      refine Shared.kept_modify ?_ y
      exact ⟨rfl, rfl, rfl, rfl, rfl, rfl⟩

/-- The code that a move is about to run. -/
def next (s : State ι) : Action ι → Option (Op ι)
  | .run t => (s.ops t).head?
  | _ => none

/-- Code stays where it is until it is run, or until its reader gets its frame. -/
theorem step_ops {act : Action ι} {t : Thread ι} {op : Op ι} (step : s.step ctx act = some s')
    (here : op ∈ s.ops t) : op ∈ s'.ops t ∨ act = .run t ∧ s.next act = some op ∨
      ∃ x, op = .readFrame x ∧ t = .reader x ∧ ∃ r, act = .receive x r := by
  cases act with
  | run u =>
      obtain ⟨o, rest, shared, ops, todo, run, rfl⟩ := step_run step
      rw [goOn_ops]
      split
      · next same =>
          cases same
          rw [todo] at here
          rcases List.mem_cons.mp here with rfl | later
          · exact .inr (.inl ⟨rfl, by simp [next, todo]⟩)
          · exact .inl (List.mem_append_right _ later)
      · exact .inl here
  | receive x r =>
      obtain ⟨idle, rfl⟩ := step_receive step
      rw [goOn_ops]
      split
      · next same =>
          cases same
          rw [idle] at here
          cases List.mem_singleton.mp here
          exact .inr (.inr ⟨x, rfl, rfl, r, rfl⟩)
      · exact .inl here
  | fire x =>
      obtain ⟨-, rfl⟩ := step_fire step
      rw [goOn_ops]
      split
      · next same =>
          cases same
          exact .inl (List.mem_append_left _ here)
      · exact .inl here
  | write x sent =>
      obtain ⟨c, -, rfl⟩ := step_write step
      exact .inl here
  | expire x =>
      obtain ⟨-, rfl⟩ := step_expire step
      exact .inl here

end State

end CoWq.Chat
