import CoWq.Lib.Machine
import CoWq.Lib.Inbound
import Mathlib.Logic.Function.Basic

/-!
# The CONNECT tunnel

Behind a `CONNECT` request the HTTP proxy runs two loops, one for each direction, that receive from
one socket and send to the other.

* `Tunnel.step`: the two `pipe_data` coroutines and `handle_connect` around them.  A receive takes
  what is there and its answer is looked at later, when the coroutine is resumed.
* `Calm`: a step without socket error and outside a forced shutdown.
* `Inv`: nothing is lost on the way through the loops.
* `Clean`: the client's end of stream, which closes the upstream socket, is looked at when nothing
  is left to receive from the upstream.
* `via_clean_iff`: a run was clean exactly if the upstream's stream was received to its end.
-/

namespace CoWq.HttpProxy

abbrev Bytes := List UInt8

/-! ## The two loops -/

/-- The two ends of the tunnel. -/
inductive Side
  | client
  | upstream
  deriving DecidableEq, Repr

def Side.other : Side → Side
  | client => upstream
  | upstream => client

theorem Side.other_injective : Function.Injective Side.other := by
  intro a b same
  cases a <;> cases b <;> cases same <;> rfl

/-- The texts of `PipeOutcome::status`. -/
inductive Status
  | pending
  | cancelled
  | eof
  | recvError (rc : Int)
  | sendError (rc : Int)
  deriving DecidableEq, Repr

/-- `PipeOutcome` -/
structure PipeOutcome where
  status : Status := .pending
  hadError : Bool := false

/-- Where a loop is: at its top, in a receive, behind one with its answer and its data, in front
of the send for the rest of the data, or behind the loop. -/
inductive Phase
  | looping
  | receiving
  | received (n : Int) (data : Bytes)
  | sending (rest : Bytes)
  | finished
  deriving DecidableEq, Repr

/-- The loop that receives from a side. -/
structure Pipe where
  phase : Phase := .looping
  outcome : PipeOutcome := {}

/-- The socket of a side. -/
structure Socket where
  inbound : Inbound UInt8
  sent : Bytes := []
  closed : Bool := false
  txShutdown : Bool := false

/-- `close` -/
def Socket.close (s : Socket) : Socket := { s with closed := true, txShutdown := false }

/-- `shutdown_tx` -/
def Socket.shutdownTx (s : Socket) : Socket := if s.closed then s else { s with txShutdown := true }

/-- The sockets, and for each side the loop that receives from it. -/
structure Tunnel where
  sockets : Side → Socket
  pipes : Side → Pipe
  forceShutdown : Bool := false

/-- The steps: the check at the top of a loop, its receive, what it does with the answer, a send
with its answer, the end of `handle_connect`, and a signal. -/
inductive Action
  | check (a : Side)
  | recv (a : Side)
  | resume (a : Side)
  | send (a : Side) (answer : Int)
  | close
  | forceShutdown
  deriving DecidableEq, Repr

/-- `buffer.size()` -/
def bufferSize : Nat := 16384

/-- The argument of the two loops. -/
def propagateShutdown (_ : Side) : Bool := true

/-- The same, `true` for the loop from the client. -/
def closeDstOnEof (a : Side) : Bool := a = .client

namespace Tunnel

def onSocket (s : Tunnel) (a : Side) (f : Socket → Socket) : Tunnel :=
  { s with sockets := Function.update s.sockets a (f (s.sockets a)) }

def goTo (s : Tunnel) (a : Side) (phase : Phase) : Tunnel :=
  { s with pipes := Function.update s.pipes a { s.pipes a with phase } }

/-- Leave the loop. -/
def finish (s : Tunnel) (a : Side) (status : Status) (hadError : Bool) : Tunnel :=
  { s with pipes := Function.update s.pipes a ⟨.finished, ⟨status, hadError⟩⟩ }

def shutdownDst (s : Tunnel) (a : Side) : Tunnel :=
  if propagateShutdown a then s.onSocket a.other Socket.shutdownTx else s

def closeDst (s : Tunnel) (a : Side) : Tunnel :=
  if closeDstOnEof a then s.onSocket a.other Socket.close else s

/-- Both loops have ended. -/
def Done (s : Tunnel) : Prop := ∀ a, (s.pipes a).phase = .finished

/-- The check of `g_force_shutdown` at the top of the loop. -/
def check (s : Tunnel) (a : Side) : Option Tunnel :=
  match (s.pipes a).phase with
  | .looping =>
      if s.forceShutdown then
        some (((s.onSocket a Socket.close).onSocket a.other Socket.close).finish a .cancelled true)
      else some (s.goTo a .receiving)
  | _ => none

/-- `src.recv`; on a closed socket it fails. -/
def recv (s : Tunnel) (a : Side) : Option Tunnel :=
  match (s.pipes a).phase with
  | .receiving =>
      if (s.sockets a).closed then some (s.goTo a (.received (-1) []))
      else
        let (n, data, rest) := (s.sockets a).inbound.recv bufferSize
        some ((s.onSocket a fun src => { src with inbound := rest }).goTo a (.received n data))
  | _ => none

/-- What the loop does with the answer of its receive. -/
def resume (s : Tunnel) (a : Side) : Option Tunnel :=
  match (s.pipes a).phase with
  | .received n data =>
      if n = 0 then some (((s.shutdownDst a).closeDst a).finish a .eof false)
      else if n < 0 then
        if (s.sockets a).closed then some ((s.closeDst a).finish a .cancelled false)
        else some ((s.closeDst a).finish a (.recvError n) true)
      else some (s.goTo a (.sending data))
  | _ => none

/-- One round of the loop around `dst.send_all`, which may send a part. -/
def send (s : Tunnel) (a : Side) (answer : Int) : Option Tunnel :=
  match (s.pipes a).phase with
  | .sending rest =>
      if s.forceShutdown then some (s.finish a .cancelled true)
      else if answer ≤ 0 then some (s.finish a (.sendError answer) true)
      else if (s.sockets a.other).closed ∨ rest.length < answer.toNat then none
      else
        some ((s.onSocket a.other fun dst =>
          { dst with sent := dst.sent ++ rest.take answer.toNat }).goTo a
            (if rest.drop answer.toNat = [] then .looping else .sending (rest.drop answer.toNat)))
  | _ => none

/-- What `handle_connect` does behind `when_all`. -/
def close (s : Tunnel) : Option Tunnel :=
  if (s.pipes .client).phase = .finished ∧ (s.pipes .upstream).phase = .finished then
    some ((s.onSocket .client Socket.close).onSocket .upstream Socket.close)
  else none

def step (s : Tunnel) : Action → Option Tunnel
  | .check a => s.check a
  | .recv a => s.recv a
  | .resume a => s.resume a
  | .send a answer => s.send a answer
  | .close => s.close
  | .forceShutdown => some { s with forceShutdown := true }

end Tunnel

/-- The response of the proxy to the client. -/
def established : Bytes :=
  ("HTTP/1.1 200 Connection Established\r\nProxy-Agent: co_wq-proxy\r\n\r\n".toList).map fun c =>
    UInt8.ofNat c.toNat

/-- The tunnel behind the response. -/
def Tunnel.start (client upstream : Inbound UInt8) : Tunnel where
  sockets
    | .client => { inbound := client, sent := established }
    | .upstream => { inbound := upstream }
  pipes _ := {}

/-! ## Steps without errors -/

/-- No socket error occurs and no shutdown is forced. -/
def Calm (_ : Tunnel) : Action → Prop
  | .send _ answer => 0 < answer
  | .forceShutdown => False
  | .check _ | .recv _ | .resume _ | .close => True

/-- What such a step does. -/
inductive Moves (s : Tunnel) : Action → Tunnel → Prop
  | check (a : Side) (top : (s.pipes a).phase = .looping) :
      Moves s (.check a) (s.goTo a .receiving)
  | refused (a : Side) (waits : (s.pipes a).phase = .receiving)
      (closed : (s.sockets a).closed = true) : Moves s (.recv a) (s.goTo a (.received (-1) []))
  | recv (a : Side) (waits : (s.pipes a).phase = .receiving)
      (isOpen : (s.sockets a).closed = false) :
      Moves s (.recv a) ((s.onSocket a fun src =>
        { src with inbound := ((s.sockets a).inbound.recv bufferSize).2.2 }).goTo a
          (.received ((s.sockets a).inbound.recv bufferSize).1
            ((s.sockets a).inbound.recv bufferSize).2.1))
  | eof (a : Side) {data : Bytes} (answer : (s.pipes a).phase = .received 0 data) :
      Moves s (.resume a) (((s.shutdownDst a).closeDst a).finish a .eof false)
  | failed (a : Side) {n : Int} {data : Bytes} (answer : (s.pipes a).phase = .received n data)
      (negative : n < 0) (status : Status) (hadError : Bool) :
      Moves s (.resume a) ((s.closeDst a).finish a status hadError)
  | forward (a : Side) {n : Int} {data : Bytes} (answer : (s.pipes a).phase = .received n data)
      (positive : 0 < n) : Moves s (.resume a) (s.goTo a (.sending data))
  | sent (a : Side) {rest : Bytes} (phase : (s.pipes a).phase = .sending rest) (answer : Int) :
      Moves s (.send a answer) ((s.onSocket a.other fun dst =>
        { dst with sent := dst.sent ++ rest.take answer.toNat }).goTo a
        (if rest.drop answer.toNat = [] then .looping else .sending (rest.drop answer.toNat)))
  | close (done : s.Done) :
      Moves s .close ((s.onSocket .client Socket.close).onSocket .upstream Socket.close)

theorem moves_of_step {s t : Tunnel} {act : Action} (unforced : s.forceShutdown = false)
    (calm : Calm s act) (run : s.step act = some t) : Moves s act t := by
  cases act with
  | check a =>
      simp only [Tunnel.step, Tunnel.check, unforced] at run
      split at run
      · rename_i top
        cases run
        exact .check a top
      · cases run
  | recv a =>
      simp only [Tunnel.step, Tunnel.recv] at run
      split at run
      · rename_i waits
        cases closed : (s.sockets a).closed with
        | true =>
            rw [closed] at run
            cases run
            exact .refused a waits closed
        | false =>
            rw [closed] at run
            cases run
            exact .recv a waits closed
      · cases run
  | resume a =>
      simp only [Tunnel.step, Tunnel.resume] at run
      split at run
      · rename_i n data answer
        by_cases zero : n = 0
        · rw [if_pos zero] at run
          cases run
          exact .eof a (zero ▸ answer)
        · rw [if_neg zero] at run
          by_cases negative : n < 0
          · rw [if_pos negative] at run
            split at run
            · cases run
              exact .failed a answer negative _ _
            · cases run
              exact .failed a answer negative _ _
          · rw [if_neg negative] at run
            cases run
            exact .forward a answer (by omega)
      · cases run
  | send a answer =>
      have positive : 0 < answer := calm
      simp only [Tunnel.step, Tunnel.send, unforced] at run
      split at run
      · rename_i rest phase
        rw [if_neg Bool.false_ne_true, if_neg (by omega)] at run
        obtain ⟨-, run⟩ := Option.ite_none_left_eq_some.mp run
        cases run
        exact .sent a phase answer
      · cases run
  | close =>
      simp only [Tunnel.step, Tunnel.close] at run
      obtain ⟨done, run⟩ := Option.ite_none_right_eq_some.mp run
      cases run
      exact .close fun a => by
        cases a with
        | client => exact done.1
        | upstream => exact done.2
  | forceShutdown => exact calm.elim

/-! ## Fields behind an update -/

namespace Tunnel

variable (s : Tunnel) (a b : Side)

@[simp] theorem sockets_goTo (phase : Phase) : (s.goTo a phase).sockets = s.sockets := rfl

@[simp] theorem sockets_finish (status : Status) (hadError : Bool) :
    (s.finish a status hadError).sockets = s.sockets := rfl

@[simp] theorem pipes_onSocket (f : Socket → Socket) : (s.onSocket a f).pipes = s.pipes := rfl

@[simp] theorem pipes_closeDst : (s.closeDst a).pipes = s.pipes := by
  rw [closeDst]
  split <;> rfl

theorem forceShutdown_closeDst : (s.closeDst a).forceShutdown = s.forceShutdown := by
  rw [closeDst]
  split <;> rfl

@[simp] theorem pipes_shutdownDst : (s.shutdownDst a).pipes = s.pipes := rfl

theorem phase_goTo (phase : Phase) :
    ((s.goTo a phase).pipes b).phase = if b = a then phase else (s.pipes b).phase := by
  by_cases same : b = a
  · subst same
    simp [goTo]
  · simp [goTo, same]

theorem phase_finish (status : Status) (hadError : Bool) :
    ((s.finish a status hadError).pipes b).phase =
      if b = a then .finished else (s.pipes b).phase := by
  by_cases same : b = a
  · subst same
    simp [finish]
  · simp [finish, same]

theorem sockets_onSocket (f : Socket → Socket) :
    (s.onSocket a f).sockets b = if b = a then f (s.sockets b) else s.sockets b := by
  by_cases same : b = a
  · subst same
    simp [onSocket]
  · simp [onSocket, same]

/-- Closing touches neither the stream nor what was sent. -/
structure SameBytes (s t : Socket) : Prop where
  inbound : t.inbound = s.inbound
  sent : t.sent = s.sent

theorem closeDst_bytes : SameBytes (s.sockets b) ((s.closeDst a).sockets b) := by
  rw [closeDst]
  split
  · rw [sockets_onSocket]
    split <;> exact ⟨rfl, rfl⟩
  · exact ⟨rfl, rfl⟩

theorem shutdownDst_bytes : SameBytes (s.sockets b) ((s.shutdownDst a).sockets b) := by
  show SameBytes (s.sockets b) ((s.onSocket a.other Socket.shutdownTx).sockets b)
  rw [sockets_onSocket, Socket.shutdownTx]
  split
  · split <;> exact ⟨rfl, rfl⟩
  · exact ⟨rfl, rfl⟩

theorem closed_shutdownDst : ((s.shutdownDst a).sockets b).closed = (s.sockets b).closed := by
  show ((s.onSocket a.other Socket.shutdownTx).sockets b).closed = _
  rw [sockets_onSocket, Socket.shutdownTx]
  split
  · split <;> rfl
  · rfl

/-- The loop from the client closes the upstream socket. -/
theorem closed_closeDst :
    ((s.closeDst a).sockets b).closed = true ↔
      (s.sockets b).closed = true ∨ a = .client ∧ b = .upstream := by
  cases a <;> cases b <;>
    simp [closeDst, closeDstOnEof, sockets_onSocket, Socket.close, Side.other]

end Tunnel

/-! ## Nothing is lost on the way -/

/-- What a loop holds. -/
def Phase.inflight : Phase → Bytes
  | received _ data => data
  | sending rest => rest
  | looping | receiving | finished => []

/-- The bytes of both directions add up; a loop ends at the end of its stream, or behind the
closing of the upstream socket, which only the loop from the client does. -/
structure Inv (stream : Side → Bytes) (s : Tunnel) : Prop where
  unforced : s.forceShutdown = false
  orderly : ∀ a, (s.sockets a).inbound.ending = 0
  conserved : ∀ a, (s.sockets a.other).sent ++ (s.pipes a).phase.inflight ++
    (s.sockets a).inbound.pending = stream a
  answered : ∀ a n data, (s.pipes a).phase = .received n data →
    (0 < n ∧ data ≠ []) ∨ (n ≤ 0 ∧ data = [] ∧
      ((s.sockets a).inbound.pending = [] ∨ a = .upstream ∧ (s.sockets a).closed = true))
  sending : ∀ a rest, (s.pipes a).phase = .sending rest → rest ≠ []
  finished : ∀ a, (s.pipes a).phase = .finished →
    (s.sockets a).inbound.pending = [] ∨ a = .upstream ∧ (s.sockets a).closed = true
  clientOpen : (s.sockets .client).closed = true → s.Done
  upstreamOpen : (s.sockets .upstream).closed = true → (s.pipes .client).phase = .finished

namespace Inv

variable {stream : Side → Bytes} {s t : Tunnel}

theorem start {client upstream : Inbound UInt8} (orderly : client.ending = 0)
    (orderly' : upstream.ending = 0) :
    Inv (fun | .client => client.pending | .upstream => established ++ upstream.pending)
      (Tunnel.start client upstream) where
  unforced := rfl
  orderly a := by
    cases a with
    | client => exact orderly
    | upstream => exact orderly'
  conserved a := by
    cases a with
    | client => rfl
    | upstream => simp [Tunnel.start, Side.other, Phase.inflight]
  answered a n data phase := by cases phase
  sending a rest phase := by cases phase
  finished a phase := by cases phase
  clientOpen closed := by cases closed
  upstreamOpen closed := by cases closed

/-- A loop goes on with the same bytes. -/
theorem goTo (inv : Inv stream s) (a : Side) {phase : Phase}
    (going : (s.pipes a).phase ≠ .finished) (onward : phase ≠ .finished)
    (same : phase.inflight = (s.pipes a).phase.inflight)
    (answered : ∀ n data, phase = .received n data →
      (0 < n ∧ data ≠ []) ∨ (n ≤ 0 ∧ data = [] ∧
        ((s.sockets a).inbound.pending = [] ∨ a = .upstream ∧ (s.sockets a).closed = true)))
    (sending : ∀ rest, phase = .sending rest → rest ≠ []) : Inv stream (s.goTo a phase) where
  unforced := inv.unforced
  orderly := inv.orderly
  conserved b := by
    rw [Tunnel.sockets_goTo, Tunnel.phase_goTo]
    split
    · rename_i here
      rw [same, ← here]
      exact inv.conserved b
    · exact inv.conserved b
  answered b n data there := by
    rw [Tunnel.phase_goTo] at there
    split at there
    · rename_i here
      exact here ▸ answered n data there
    · exact inv.answered b n data there
  sending b rest there := by
    rw [Tunnel.phase_goTo] at there
    split at there
    · exact sending rest there
    · exact inv.sending b rest there
  finished b there := by
    rw [Tunnel.phase_goTo] at there
    split at there
    · exact absurd there onward
    · exact inv.finished b there
  clientOpen closed := absurd (inv.clientOpen closed a) going
  upstreamOpen closed := by
    have last := inv.upstreamOpen closed
    rw [Tunnel.phase_goTo, if_neg (fun here : Side.client = a => going (here ▸ last))]
    exact last

/-- A loop ends behind an answer that is not positive. -/
theorem leave (inv : Inv stream s) (a : Side) {n : Int} {data : Bytes}
    (answer : (s.pipes a).phase = .received n data) (nothing : n ≤ 0)
    (bytes : ∀ b, Tunnel.SameBytes (s.sockets b) (t.sockets b))
    (closing : ∀ b, (t.sockets b).closed = true ↔
      (s.sockets b).closed = true ∨ a = .client ∧ b = .upstream)
    (phases : ∀ b, (t.pipes b).phase = if b = a then .finished else (s.pipes b).phase)
    (unforced : t.forceShutdown = s.forceShutdown) : Inv stream t := by
  have going : (s.pipes a).phase ≠ .finished := by
    rw [answer]
    exact fun h => by cases h
  obtain ⟨positive, -⟩ | ⟨-, rfl, ended⟩ := inv.answered a n data answer
  · omega
  refine ⟨unforced.trans inv.unforced, ?_, ?_, ?_, ?_, ?_, ?_, ?_⟩
  · intro b
    rw [(bytes b).inbound]
    exact inv.orderly b
  · intro b
    rw [(bytes b).inbound, (bytes b.other).sent, phases]
    split
    · rename_i here
      have before := inv.conserved b
      rw [here, answer] at before
      rw [here]
      exact before
    · exact inv.conserved b
  · intro b m data' there
    rw [phases] at there
    split at there
    · cases there
    · rw [(bytes b).inbound]
      rcases inv.answered b m data' there with some' | ⟨none', empty, last | ⟨up, closed⟩⟩
      · exact .inl some'
      · exact .inr ⟨none', empty, .inl last⟩
      · exact .inr ⟨none', empty, .inr ⟨up, (closing b).mpr (.inl closed)⟩⟩
  · intro b rest there
    rw [phases] at there
    split at there
    · cases there
    · exact inv.sending b rest there
  · intro b there
    rw [(bytes b).inbound]
    rw [phases] at there
    have before : (s.sockets b).inbound.pending = [] ∨
        b = .upstream ∧ (s.sockets b).closed = true := by
      split at there
      · rename_i here
        exact here ▸ ended
      · exact inv.finished b there
    rcases before with last | ⟨up, closed⟩
    · exact .inl last
    · exact .inr ⟨up, (closing b).mpr (.inl closed)⟩
  · intro closed
    rcases (closing .client).mp closed with before | ⟨-, other⟩
    · exact absurd (inv.clientOpen before a) going
    · cases other
  · intro closed
    rw [phases]
    rcases (closing .upstream).mp closed with before | ⟨rfl, -⟩
    · have last := inv.upstreamOpen before
      rw [if_neg (fun here : Side.client = a => going (here ▸ last))]
      exact last
    · exact if_pos rfl

/-- A loop takes something, or finds the end. -/
theorem recv (inv : Inv stream s) (a : Side) (waits : (s.pipes a).phase = .receiving) :
    Inv stream ((s.onSocket a fun src =>
      { src with inbound := ((s.sockets a).inbound.recv bufferSize).2.2 }).goTo a
        (.received ((s.sockets a).inbound.recv bufferSize).1
          ((s.sockets a).inbound.recv bufferSize).2.1)) := by
  have ending := Inbound.recv_ending (s.sockets a).inbound bufferSize
  have going : (s.pipes a).phase ≠ .finished := by simp [waits]
  obtain ⟨cut, kind⟩ : (s.sockets a).inbound.pending =
        ((s.sockets a).inbound.recv bufferSize).2.1 ++
          ((s.sockets a).inbound.recv bufferSize).2.2.pending ∧
      ((0 < ((s.sockets a).inbound.recv bufferSize).1 ∧
          ((s.sockets a).inbound.recv bufferSize).2.1 ≠ []) ∨
        (((s.sockets a).inbound.recv bufferSize).1 ≤ 0 ∧
          ((s.sockets a).inbound.recv bufferSize).2.1 = [] ∧
          ((s.sockets a).inbound.recv bufferSize).2.2.pending = [])) := by
    by_cases progress : 0 < ((s.sockets a).inbound.recv bufferSize).1
    · have answer := Inbound.recv_answer progress
      refine ⟨Inbound.recv_taken progress, .inl ⟨progress, fun none' => ?_⟩⟩
      rw [none', List.length_nil] at answer
      omega
    · obtain ⟨none', run⟩ := Inbound.recv_ended (by decide) (not_lt.mp progress)
      rw [run]
      exact ⟨rfl, .inr ⟨le_of_eq (inv.orderly a), rfl, none'⟩⟩
  generalize ((s.sockets a).inbound.recv bufferSize).1 = n at kind ⊢
  generalize ((s.sockets a).inbound.recv bufferSize).2.1 = data at cut kind ⊢
  generalize ((s.sockets a).inbound.recv bufferSize).2.2 = rest at ending cut kind ⊢
  have sent : ∀ b, ((s.onSocket a fun src => { src with inbound := rest }).sockets b).sent =
      (s.sockets b).sent := by
    intro b
    rw [Tunnel.sockets_onSocket]
    split <;> rfl
  have closed : ∀ b, ((s.onSocket a fun src => { src with inbound := rest }).sockets b).closed =
      (s.sockets b).closed := by
    intro b
    rw [Tunnel.sockets_onSocket]
    split <;> rfl
  have inbound : ∀ b, ((s.onSocket a fun src => { src with inbound := rest }).sockets b).inbound =
      if b = a then rest else (s.sockets b).inbound := by
    intro b
    rw [Tunnel.sockets_onSocket]
    split <;> rfl
  refine ⟨inv.unforced, ?_, ?_, ?_, ?_, ?_, ?_, ?_⟩
  · intro b
    rw [Tunnel.sockets_goTo, inbound]
    split
    · exact ending.trans (inv.orderly a)
    · exact inv.orderly b
  · intro b
    rw [Tunnel.sockets_goTo, sent, inbound, Tunnel.phase_goTo]
    by_cases here : b = a
    · subst here
      rw [if_pos rfl, if_pos rfl]
      have before := inv.conserved b
      rw [waits, cut] at before
      simpa [Phase.inflight] using before
    · rw [if_neg here, if_neg here]
      exact inv.conserved b
  · intro b m data' there
    rw [Tunnel.phase_goTo] at there
    rw [Tunnel.sockets_goTo, inbound, closed]
    by_cases here : b = a
    · rw [if_pos here] at there ⊢
      cases there
      rcases kind with some' | ⟨none', empty, last⟩
      · exact .inl some'
      · exact .inr ⟨none', empty, .inl last⟩
    · rw [if_neg here] at there ⊢
      exact inv.answered b m data' there
  · intro b rest' there
    rw [Tunnel.phase_goTo] at there
    split at there
    · cases there
    · exact inv.sending b rest' there
  · intro b there
    rw [Tunnel.phase_goTo] at there
    rw [Tunnel.sockets_goTo, inbound, closed]
    by_cases here : b = a
    · rw [if_pos here] at there
      cases there
    · rw [if_neg here] at there ⊢
      exact inv.finished b there
  · intro before
    rw [Tunnel.sockets_goTo, closed] at before
    exact absurd (inv.clientOpen before a) going
  · intro before
    rw [Tunnel.sockets_goTo, closed] at before
    have last := inv.upstreamOpen before
    rw [Tunnel.phase_goTo, if_neg (fun here : Side.client = a => going (here ▸ last))]
    exact last

/-- What is sent goes from the loop to the other side. -/
theorem sent (inv : Inv stream s) (a : Side) {rest : Bytes}
    (phase : (s.pipes a).phase = .sending rest) (n : Nat) :
    Inv stream ((s.onSocket a.other fun dst => { dst with sent := dst.sent ++ rest.take n }).goTo a
      (if rest.drop n = [] then .looping else .sending (rest.drop n))) := by
  have going : (s.pipes a).phase ≠ .finished := by simp [phase]
  have inbound : ∀ b, ((s.onSocket a.other fun dst =>
      { dst with sent := dst.sent ++ rest.take n }).sockets b).inbound = (s.sockets b).inbound := by
    intro b
    rw [Tunnel.sockets_onSocket]
    split <;> rfl
  have closed : ∀ b, ((s.onSocket a.other fun dst =>
      { dst with sent := dst.sent ++ rest.take n }).sockets b).closed = (s.sockets b).closed := by
    intro b
    rw [Tunnel.sockets_onSocket]
    split <;> rfl
  have onward :
      (if rest.drop n = [] then Phase.looping else .sending (rest.drop n)) ≠ .finished := by
    split <;> simp
  have holds : (if rest.drop n = [] then Phase.looping else .sending (rest.drop n)).inflight =
      rest.drop n := by
    split
    · rename_i empty
      exact empty.symm
    · rfl
  refine ⟨inv.unforced, ?_, ?_, ?_, ?_, ?_, ?_, ?_⟩
  · intro b
    rw [Tunnel.sockets_goTo, inbound]
    exact inv.orderly b
  · intro b
    rw [Tunnel.sockets_goTo, inbound, Tunnel.phase_goTo, Tunnel.sockets_onSocket]
    by_cases here : b = a
    · subst here
      have before := inv.conserved b
      rw [phase] at before
      rw [if_pos rfl, if_pos rfl, holds]
      simpa [Phase.inflight] using before
    · rw [if_neg here, if_neg (fun same => here (Side.other_injective same))]
      exact inv.conserved b
  · intro b m data there
    rw [Tunnel.phase_goTo] at there
    rw [Tunnel.sockets_goTo, inbound, closed]
    split at there
    · split at there <;> cases there
    · exact inv.answered b m data there
  · intro b rest' there
    rw [Tunnel.phase_goTo] at there
    split at there
    · split at there
      · cases there
      · rename_i some'
        cases there
        exact some'
    · exact inv.sending b rest' there
  · intro b there
    rw [Tunnel.phase_goTo] at there
    rw [Tunnel.sockets_goTo, inbound, closed]
    split at there
    · exact absurd there onward
    · exact inv.finished b there
  · intro before
    rw [Tunnel.sockets_goTo, closed] at before
    exact absurd (inv.clientOpen before a) going
  · intro before
    rw [Tunnel.sockets_goTo, closed] at before
    have last := inv.upstreamOpen before
    rw [Tunnel.phase_goTo, if_neg (fun here : Side.client = a => going (here ▸ last))]
    exact last

theorem close (inv : Inv stream s) (done : s.Done) :
    Inv stream ((s.onSocket .client Socket.close).onSocket .upstream Socket.close) := by
  have bytes : ∀ b, Tunnel.SameBytes (s.sockets b)
      (((s.onSocket .client Socket.close).onSocket .upstream Socket.close).sockets b) := by
    intro b
    cases b <;>
      rw [Tunnel.sockets_onSocket, Tunnel.sockets_onSocket] <;>
      exact ⟨rfl, rfl⟩
  refine ⟨inv.unforced, ?_, ?_, ?_, ?_, ?_, fun _ => done, fun _ => done .client⟩
  · intro b
    rw [(bytes b).inbound]
    exact inv.orderly b
  · intro b
    rw [(bytes b).inbound, (bytes b.other).sent]
    exact inv.conserved b
  · intro b m data there
    have last := done b
    rw [show (s.pipes b).phase = _ from there] at last
    cases last
  · intro b rest there
    exact inv.sending b rest there
  · intro b there
    rw [(bytes b).inbound]
    rcases inv.finished b there with last | ⟨up, closed⟩
    · exact .inl last
    · exact .inr ⟨up, by rw [up, Tunnel.sockets_onSocket]; rfl⟩

theorem moves (inv : Inv stream s) {act : Action} (move : Moves s act t) : Inv stream t := by
  cases move with
  | check a top =>
      exact inv.goTo a (by simp [top]) (by simp) (by rw [top]; rfl) (fun _ _ h => by cases h)
        fun _ h => by cases h
  | refused a waits closed =>
      have up : a = .upstream := by
        cases a with
        | client =>
            have last := inv.clientOpen closed .client
            rw [waits] at last
            cases last
        | upstream => rfl
      refine inv.goTo a (by simp [waits]) (by simp) (by rw [waits]; rfl) (fun n data h => ?_)
        fun _ h => by cases h
      cases h
      exact .inr ⟨by decide, rfl, .inr ⟨up, closed⟩⟩
  | recv a waits isOpen => exact inv.recv a waits
  | eof a answer =>
      refine inv.leave a answer (le_refl 0) (fun b => ?_) (fun b => ?_) (fun b => ?_) ?_
      · obtain ⟨inbound, sent⟩ := s.shutdownDst_bytes a b
        obtain ⟨inbound', sent'⟩ := (s.shutdownDst a).closeDst_bytes a b
        exact ⟨inbound'.trans inbound, sent'.trans sent⟩
      · rw [Tunnel.sockets_finish, Tunnel.closed_closeDst, Tunnel.closed_shutdownDst]
      · rw [Tunnel.phase_finish, Tunnel.pipes_closeDst, Tunnel.pipes_shutdownDst]
      · exact (s.shutdownDst a).forceShutdown_closeDst a
  | failed a answer negative status hadError =>
      refine inv.leave a answer (le_of_lt negative) (fun b => s.closeDst_bytes a b)
        (fun b => s.closed_closeDst a b) (fun b => ?_) (s.forceShutdown_closeDst a)
      rw [Tunnel.phase_finish, Tunnel.pipes_closeDst]
  | forward a answer positive =>
      refine inv.goTo a (by simp [answer]) (by simp) (by rw [answer]; rfl)
        (fun _ _ h => by cases h) fun rest h => ?_
      cases h
      rcases inv.answered a _ _ answer with ⟨-, some'⟩ | ⟨none', -⟩
      · exact some'
      · omega
  | sent a phase answer => exact inv.sent a phase answer.toNat
  | close done => exact inv.close done

end Inv

/-! ## The closing of the upstream -/

/-- The tunnel over two streams. -/
def tunnel (client upstream : Inbound UInt8) : Machine Tunnel Action where
  init s := s = Tunnel.start client upstream
  step := Tunnel.step

/-- When the loop from the client looks at the end of its stream, nothing is left to receive from
the upstream. -/
def Clean (s : Tunnel) (act : Action) : Prop :=
  ∀ n data, act = .resume .client → (s.pipes .client).phase = .received n data → n ≤ 0 →
    (s.sockets .upstream).inbound.pending = []

section Runs

variable {client upstream : Inbound UInt8} {s t : Tunnel}

theorem inv_of_calm (orderly : client.ending = 0) (orderly' : upstream.ending = 0)
    (run : (tunnel client upstream).Via Calm s) :
    Inv (fun | .client => client.pending | .upstream => established ++ upstream.pending) s := by
  refine run.invariant (fun s start => ?_) (fun s act t inv calm step => ?_)
  · cases start
    exact Inv.start orderly orderly'
  · exact inv.moves (moves_of_step inv.unforced calm step)

/-- Behind its closing nothing is received from the upstream socket, which the loop from the client
closes at the end of its stream, and the end of both loops. -/
theorem upstream_cases {act : Action} (move : Moves s act t) :
    ((s.sockets .upstream).closed = false ∧ (t.sockets .upstream).closed = false) ∨
      ((t.sockets .upstream).inbound = (s.sockets .upstream).inbound ∧
        ((t.sockets .upstream).closed = (s.sockets .upstream).closed ∨
          (t.sockets .upstream).closed = true ∧ (s.Done ∨ act = .resume .client ∧
            ∃ n data, (s.pipes .client).phase = .received n data ∧ n ≤ 0))) := by
  cases move with
  | check a | refused a | forward a => exact .inr ⟨rfl, .inl rfl⟩
  | recv a waits isOpen =>
      rw [Tunnel.sockets_goTo, Tunnel.sockets_onSocket]
      by_cases here : .upstream = a
      · rw [if_pos here]
        exact .inl ⟨here ▸ isOpen, here ▸ isOpen⟩
      · rw [if_neg here]
        exact .inr ⟨rfl, .inl rfl⟩
  | eof a answer =>
      obtain ⟨inbound, -⟩ := s.shutdownDst_bytes a .upstream
      obtain ⟨inbound', -⟩ := (s.shutdownDst a).closeDst_bytes a .upstream
      refine .inr ⟨inbound'.trans inbound, ?_⟩
      cases a with
      | client => exact .inr ⟨((s.shutdownDst .client).closed_closeDst .client .upstream).mpr
          (.inr ⟨rfl, rfl⟩), .inr ⟨rfl, 0, _, answer, le_refl 0⟩⟩
      | upstream => exact .inl (s.closed_shutdownDst .upstream .upstream)
  | failed a answer negative =>
      refine .inr ⟨(s.closeDst_bytes a .upstream).inbound, ?_⟩
      cases a with
      | client => exact .inr ⟨(s.closed_closeDst .client .upstream).mpr (.inr ⟨rfl, rfl⟩),
          .inr ⟨rfl, _, _, answer, le_of_lt negative⟩⟩
      | upstream => exact .inl rfl
  | sent a phase answer =>
      rw [Tunnel.sockets_goTo, Tunnel.sockets_onSocket]
      split
      · exact .inr ⟨rfl, .inl rfl⟩
      · exact .inr ⟨rfl, .inl rfl⟩
  | close done => exact .inr ⟨rfl, .inr ⟨rfl, .inl done⟩⟩

/-- The loop from the client closes the upstream socket at the end of its stream. -/
theorem closes {n : Int} {data : Bytes} (move : Moves s (.resume .client) t)
    (answer : (s.pipes .client).phase = .received n data) (nothing : n ≤ 0) :
    (t.sockets .upstream).inbound = (s.sockets .upstream).inbound ∧
      (t.sockets .upstream).closed = true := by
  cases move with
  | eof _ answer' =>
      obtain ⟨inbound, -⟩ := s.shutdownDst_bytes .client .upstream
      obtain ⟨inbound', -⟩ := (s.shutdownDst .client).closeDst_bytes .client .upstream
      exact ⟨inbound'.trans inbound,
        ((s.shutdownDst .client).closed_closeDst .client .upstream).mpr (.inr ⟨rfl, rfl⟩)⟩
  | failed _ answer' negative =>
      exact ⟨(s.closeDst_bytes .client .upstream).inbound,
        (s.closed_closeDst .client .upstream).mpr (.inr ⟨rfl, rfl⟩)⟩
  | forward _ answer' positive =>
      rw [answer] at answer'
      cases answer'
      omega

/-- A clean run closes the upstream socket behind its last byte. -/
theorem empty_of_clean (orderly : client.ending = 0) (orderly' : upstream.ending = 0)
    (run : (tunnel client upstream).Via (fun s act => Calm s act ∧ Clean s act) s) :
    (tunnel client upstream).Via Calm s ∧
      ((s.sockets .upstream).closed = true → (s.sockets .upstream).inbound.pending = []) := by
  induction run with
  | init start =>
      cases start
      exact ⟨.init rfl, fun closed => by cases closed⟩
  | step _ allowed step ih =>
      obtain ⟨before, empty⟩ := ih
      have inv := inv_of_calm orderly orderly' before
      refine ⟨before.step allowed.1 step, fun closed => ?_⟩
      rcases upstream_cases (moves_of_step inv.unforced allowed.1 step) with
        ⟨-, isOpen⟩ | ⟨inbound, same | ⟨-, done | ⟨rfl, n, data, answer, nothing⟩⟩⟩
      · rw [isOpen] at closed
        cases closed
      · rw [inbound]
        exact empty (same ▸ closed)
      · rw [inbound]
        rcases inv.finished .upstream (done .upstream) with last | ⟨-, closed'⟩
        · exact last
        · exact empty closed'
      · rw [inbound]
        exact allowed.2 n data rfl answer nothing

/-- A run that is not clean leaves something in the upstream socket. -/
theorem clean_or_left (orderly : client.ending = 0) (orderly' : upstream.ending = 0)
    (run : (tunnel client upstream).Via Calm s) :
    (tunnel client upstream).Via (fun s act => Calm s act ∧ Clean s act) s ∨
      (s.sockets .upstream).closed = true ∧ (s.sockets .upstream).inbound.pending ≠ [] := by
  induction run with
  | init start => exact .inl (.init start)
  | @step s t act before calm step ih =>
      have inv := inv_of_calm orderly orderly' before
      have move := moves_of_step inv.unforced calm step
      rcases ih with run | ⟨closed, left⟩
      · by_cases clean : Clean s act
        · exact .inl (run.step ⟨calm, clean⟩ step)
        · simp only [Clean, not_forall] at clean
          obtain ⟨n, data, rfl, answer, nothing, left⟩ := clean
          obtain ⟨inbound, closed⟩ := closes move answer nothing
          exact .inr ⟨closed, inbound ▸ left⟩
      · rcases upstream_cases move with ⟨isOpen, -⟩ | ⟨inbound, same | ⟨closed', -⟩⟩
        · rw [isOpen] at closed
          cases closed
        · exact .inr ⟨same.trans closed, inbound ▸ left⟩
        · exact .inr ⟨closed', inbound ▸ left⟩

/-- **A run to the end was clean exactly if the upstream's stream was received to its end.** -/
theorem via_clean_iff (orderly : client.ending = 0) (orderly' : upstream.ending = 0)
    (run : (tunnel client upstream).Via Calm s) (done : s.Done) :
    (tunnel client upstream).Via (fun s act => Calm s act ∧ Clean s act) s ↔
      (s.sockets .upstream).inbound.pending = [] := by
  constructor
  · intro clean
    obtain ⟨-, empty⟩ := empty_of_clean orderly orderly' clean
    rcases (inv_of_calm orderly orderly' run).finished .upstream (done .upstream) with
      last | ⟨-, closed⟩
    · exact last
    · exact empty closed
  · intro last
    rcases clean_or_left orderly orderly' run with clean | ⟨-, left⟩
    · exact clean
    · exact absurd last left

/-- What the two ends have received at the end of a run. -/
theorem sent_of_done (orderly : client.ending = 0) (orderly' : upstream.ending = 0)
    (run : (tunnel client upstream).Via Calm s) (done : s.Done) :
    (s.sockets .upstream).sent = client.pending ∧
      (s.sockets .client).sent ++ (s.sockets .upstream).inbound.pending =
        established ++ upstream.pending := by
  have inv := inv_of_calm orderly orderly' run
  have toUpstream := inv.conserved .client
  have toClient := inv.conserved .upstream
  rw [done] at toUpstream toClient
  rcases inv.finished .client (done .client) with last | ⟨other, -⟩
  · rw [last] at toUpstream
    exact ⟨by simpa [Phase.inflight, Side.other] using toUpstream,
      by simpa [Phase.inflight, Side.other] using toClient⟩
  · cases other

end Runs

/-! ## Runs come to their end -/

/-- What is left to do in a phase. -/
def Phase.weight : Phase → Nat
  | looping => 4
  | receiving => 3
  | received _ data => 5 * data.length + 2
  | sending rest => 5 * rest.length
  | finished => 0

/-- What is left to do for a loop. -/
def Tunnel.weight (s : Tunnel) (a : Side) : Nat :=
  5 * (s.sockets a).inbound.pending.length + (s.pipes a).phase.weight

section Progress

variable {client upstream : Inbound UInt8} {stream : Side → Bytes} {s : Tunnel}

theorem Inv.dst_open (inv : Inv stream s) {a : Side} (going : (s.pipes a).phase ≠ .finished) :
    (s.sockets a.other).closed = false := by
  cases a with
  | client =>
      by_contra closed
      exact going (inv.upstreamOpen (Bool.not_eq_false _ ▸ closed))
  | upstream =>
      by_contra closed
      exact going (inv.clientOpen (Bool.not_eq_false _ ▸ closed) .upstream)

/-- A loop that has not ended can take a step, which leaves the other one as it is. -/
theorem Inv.goes_on (inv : Inv stream s) {a : Side} (going : (s.pipes a).phase ≠ .finished) :
    ∃ act t, Calm s act ∧ s.step act = some t ∧ t.weight a < s.weight a ∧
      t.weight a.other = s.weight a.other := by
  have apart : a.other ≠ a := by cases a <;> decide
  cases phase : (s.pipes a).phase with
  | looping =>
      refine ⟨.check a, s.goTo a .receiving, trivial, ?_, ?_, ?_⟩
      · simp only [Tunnel.step, Tunnel.check, phase, inv.unforced]
        rfl
      · simp [Tunnel.weight, Tunnel.phase_goTo, phase, Phase.weight]
      · simp [Tunnel.weight, Tunnel.phase_goTo, apart]
  | receiving =>
      cases closed : (s.sockets a).closed with
      | true =>
          refine ⟨.recv a, s.goTo a (.received (-1) []), trivial, ?_, ?_, ?_⟩
          · simp only [Tunnel.step, Tunnel.recv, phase, closed]
            rfl
          · simp [Tunnel.weight, Tunnel.phase_goTo, phase, Phase.weight]
          · simp [Tunnel.weight, Tunnel.phase_goTo, apart]
      | false =>
          refine ⟨.recv a, _, trivial, by
            simp only [Tunnel.step, Tunnel.recv, phase, closed]
            rfl, ?_, ?_⟩
          · rw [Tunnel.weight, Tunnel.weight, Tunnel.sockets_goTo, Tunnel.sockets_onSocket,
              Tunnel.phase_goTo, if_pos rfl, if_pos rfl, phase]
            show 5 * ((s.sockets a).inbound.recv bufferSize).2.2.pending.length +
              (5 * ((s.sockets a).inbound.recv bufferSize).2.1.length + 2) <
              5 * (s.sockets a).inbound.pending.length + 3
            by_cases progress : 0 < ((s.sockets a).inbound.recv bufferSize).1
            · have taken := congrArg List.length (Inbound.recv_taken progress)
              rw [List.length_append] at taken
              omega
            · obtain ⟨none', run⟩ := Inbound.recv_ended (by decide) (not_lt.mp progress)
              rw [run]
              show 5 * (s.sockets a).inbound.pending.length + 2 <
                5 * (s.sockets a).inbound.pending.length + 3
              omega
          · simp [Tunnel.weight, Tunnel.phase_goTo, Tunnel.sockets_onSocket, apart]
  | received n data =>
      rcases inv.answered a n data phase with ⟨positive, -⟩ | ⟨nothing, rfl, -⟩
      · refine ⟨.resume a, s.goTo a (.sending data), trivial, ?_, ?_, ?_⟩
        · simp only [Tunnel.step, Tunnel.resume, phase]
          rw [if_neg (by omega), if_neg (by omega)]
        · simp [Tunnel.weight, Tunnel.phase_goTo, phase, Phase.weight]
        · simp [Tunnel.weight, Tunnel.phase_goTo, apart]
      · -- the loop ends, and at most closes the other socket
        have ends : ∃ (t : Tunnel) (status : Status) (hadError : Bool),
            s.step (.resume a) = some (t.finish a status hadError) ∧
            t.pipes = s.pipes ∧ ∀ b, (t.sockets b).inbound = (s.sockets b).inbound := by
          simp only [Tunnel.step, Tunnel.resume, phase]
          by_cases zero : n = 0
          · rw [if_pos zero]
            refine ⟨_, _, _, rfl, (s.shutdownDst a).pipes_closeDst a, fun b => ?_⟩
            exact ((s.shutdownDst a).closeDst_bytes a b).inbound.trans
              (s.shutdownDst_bytes a b).inbound
          · rw [if_neg zero, if_pos (by omega)]
            split
            · exact ⟨_, _, _, rfl, s.pipes_closeDst a, fun b => (s.closeDst_bytes a b).inbound⟩
            · exact ⟨_, _, _, rfl, s.pipes_closeDst a, fun b => (s.closeDst_bytes a b).inbound⟩
        obtain ⟨t, status, hadError, step, pipes, inbound⟩ := ends
        refine ⟨.resume a, _, trivial, step, ?_, ?_⟩
        · simp [Tunnel.weight, Tunnel.phase_finish, phase, Phase.weight, inbound]
        · simp [Tunnel.weight, Tunnel.phase_finish, apart, inbound, pipes]
  | sending rest =>
      have some' := List.length_pos_of_ne_nil (inv.sending a rest phase)
      have isOpen := inv.dst_open going
      refine ⟨.send a rest.length, _, Int.natCast_pos.mpr some', by
        simp only [Tunnel.step, Tunnel.send, phase, inv.unforced]
        rw [if_neg Bool.false_ne_true, if_neg (by omega), if_neg (by simp [isOpen])], ?_, ?_⟩
      · rw [Tunnel.weight, Tunnel.weight, Tunnel.sockets_goTo, Tunnel.sockets_onSocket,
          Tunnel.phase_goTo, if_neg (Ne.symm apart), if_pos rfl, phase,
          if_pos (by rw [Int.toNat_natCast, List.drop_length])]
        show _ + 4 < _ + 5 * rest.length
        omega
      · rw [Tunnel.weight, Tunnel.weight, Tunnel.sockets_goTo, Tunnel.sockets_onSocket,
          Tunnel.phase_goTo, if_pos rfl, if_neg apart]
        rfl
  | finished => exact absurd phase going

/-- **Every such run can be carried to the end of both loops.** -/
theorem leads_done (inv : Inv stream s) :
    ∃ t, (tunnel client upstream).Leads Calm s t ∧ t.Done := by
  induction size : s.weight .client + s.weight .upstream using Nat.strongRecOn generalizing s with
  | ind n ih =>
      by_cases done : s.Done
      · exact ⟨s, .refl, done⟩
      · obtain ⟨a, going⟩ := not_forall.mp done
        obtain ⟨act, t, calm, step, less, same⟩ := inv.goes_on going
        have smaller : t.weight .client + t.weight .upstream < n := by
          subst size
          cases a with
          | client => exact Nat.add_lt_add_of_lt_of_le less (le_of_eq same)
          | upstream => exact Nat.add_lt_add_of_le_of_lt (le_of_eq same) less
        obtain ⟨u, later, ended⟩ :=
          ih _ smaller (inv.moves (moves_of_step inv.unforced calm step)) rfl
        exact ⟨u, .head ⟨act, calm, step⟩ later, ended⟩

end Progress

end CoWq.HttpProxy
