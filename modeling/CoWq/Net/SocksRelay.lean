import CoWq.Lib.Inbound
import CoWq.Net.StreamSend

/-!
# The relay of the SOCKS proxy

`pipe_data` receives chunks from one socket and sends each of them to the other one with partial
`send`s.

* `State`, `step`, `pipeData`: one relay, with the awaiter of the current `send`.  A wait is
  invisible here.
* `Faithful`: what has been written, and when the relay may end.
* `Momentary`: the kernel accepts something or is full.  `Begun`: it is full only for an awaiter
  that has sent something already.
* `faithful_iff`: the runs that lose nothing.
-/

namespace CoWq.SocksRelay

open StreamSocket IoSerial

/-! ## The relay -/

/-- How the relay has ended. -/
inductive Ending
  | closed
  | recvError
  | sendError
  deriving DecidableEq, Repr

inductive Phase
  | receiving
  /-- in `co_await dst.send` -/
  | sending
  | ended (how : Ending)
  deriving DecidableEq, Repr

structure State where
  phase : Phase
  src : Inbound UInt8
  dst : Flags
  /-- the first `n` bytes of `buffer` -/
  buffer : List UInt8
  offset : Nat
  awaiter : SendAwaiter
  /-- for the statements: what the kernel has accepted -/
  written : List UInt8

/-- A relay that is about to receive. -/
def State.start (src : Inbound UInt8) (dst : Flags) : State where
  phase := .receiving
  src := src
  dst := dst
  buffer := []
  offset := 0
  awaiter := .ofBuf [] false
  written := []

inductive Action
  | recv
  /-- the kernel answers a call of the awaiter -/
  | answer (r : Result)
  deriving DecidableEq, Repr

/-- `dst.send(buffer.data() + offset, n - offset)` -/
def State.send (s : State) (offset : Nat) : State :=
  { s with phase := .sending, offset, awaiter := .ofBuf (s.buffer.drop offset) false }

/-- Behind `co_await dst.send`. -/
def State.sent (s : State) (sent : Int) : State :=
  if sent ≤ 0 then { s with phase := .ended .sendError }
  else if s.offset + sent.toNat < s.buffer.length then s.send (s.offset + sent.toNat)
  else { s with phase := .receiving, offset := s.offset + sent.toNat }

/-- `dst.shutdown_tx()` unless it is shut down already -/
def shutdownTx (propagateShutdown : Bool) (dst : Flags) : Flags :=
  if propagateShutdown && !dst.txShutdown then { dst with txShutdown := true } else dst

/-- Behind `co_await src.recv(buffer.data(), 8192)`. -/
def State.received (s : State) (propagateShutdown : Bool) (n : Int) (data : List UInt8)
    (src : Inbound UInt8) : State :=
  if n = 0 then
    { s with phase := .ended .closed, src, dst := shutdownTx propagateShutdown s.dst }
  else if n < 0 then { s with phase := .ended .recvError, src }
  else State.send { s with src, buffer := data } 0

def State.step (propagateShutdown : Bool) (s : State) : Action → Option State
  | .recv =>
      if s.phase = .receiving then
        some (s.received propagateShutdown (s.src.recv 8192).1 (s.src.recv 8192).2.1
          (s.src.recv 8192).2.2)
      else none
  | .answer r =>
      if s.phase = .sending then
        match s.awaiter.attemptOnce s.dst with
        | .quit => some (s.sent s.awaiter.awaitResume)
        | .call req answer =>
            if allowed req r then
              let ((dst, awaiter), verdict) := answer r
              let s := { s with dst, awaiter, written := s.written ++ req.take r.n.toNat }
              if verdict = .done then some (s.sent awaiter.awaitResume) else some s
            else none
      else none

def pipeData (src : Inbound UInt8) (dst : Flags) (propagateShutdown : Bool) :
    Machine State Action where
  init s := s = .start src dst
  step := State.step propagateShutdown

/-! ## Runs that lose nothing -/

/-- What the kernel has accepted is the front of the stream, and the relay ends behind the end of
the stream, when all of it has been accepted. -/
structure Faithful (stream : List UInt8) (s : State) : Prop where
  inOrder : s.written <+: stream
  whole : ∀ how, s.phase = .ended how → s.written = stream ∧ s.src.pending = []

/-- The kernel accepts something, or it is full for now. -/
def Momentary : Action → Prop
  | .recv => True
  | .answer r => 0 < r.n ∨ r.n < 0 ∧ r.again = true

/-- It is full only for an awaiter that has sent something. -/
def Begun (s : State) : Action → Prop
  | .recv => True
  | .answer r => r.n < 0 → 0 < s.awaiter.sent

/-- The awaiter of the current `send`, and the bytes that are not written yet. -/
structure Sending (stream : List UInt8) (s : State) : Prop where
  size : s.buffer.length ≤ 8192
  awaiter : s.awaiter =
    { SendAwaiter.ofBuf (s.buffer.drop s.offset) false with sent := s.awaiter.sent }
  rest : s.offset + s.awaiter.sent < s.buffer.length
  conserved : s.written ++ s.buffer.drop (s.offset + s.awaiter.sent) ++ s.src.pending = stream

/-- Nothing is lost or reordered before the relay ends, and an error of `send` ends it with bytes in
the buffer. -/
def Inv (stream : List UInt8) (s : State) : Prop :=
  match s.phase with
  | .receiving => s.written ++ s.src.pending = stream
  | .sending => Sending stream s
  | .ended .sendError => s.written <+: stream ∧ s.written ≠ stream
  | .ended _ => s.written = stream ∧ s.src.pending = []

variable {stream : List UInt8} {s : State}

/-- A `send` of bytes that are there. -/
theorem Sending.send {offset : Nat} (size : s.buffer.length ≤ 8192)
    (rest : offset < s.buffer.length)
    (conserved : s.written ++ s.buffer.drop offset ++ s.src.pending = stream) :
    Sending stream (s.send offset) :=
  ⟨size, rfl, rest, conserved⟩

theorem Inv.received (inv : Inv stream s) (receiving : s.phase = .receiving)
    (propagateShutdown : Bool) :
    Inv stream (s.received propagateShutdown (s.src.recv 8192).1 (s.src.recv 8192).2.1
      (s.src.recv 8192).2.2) := by
  rw [Inv, receiving] at inv
  dsimp only at inv
  unfold State.received
  by_cases progress : 0 < (s.src.recv 8192).1
  · have amount := Inbound.recv_answer progress
    have taken := Inbound.recv_taken progress
    have most : (s.src.recv 8192).2.1.length ≤ 8192 := Inbound.recv_le
    rw [if_neg (by omega), if_neg (by omega)]
    refine Sending.send most (by dsimp only; omega) ?_
    dsimp only
    rw [List.drop_zero, List.append_assoc, ← taken, inv]
  · obtain ⟨nothing, same⟩ := Inbound.recv_ended (by decide) (not_lt.mp progress)
    rw [nothing, List.append_nil] at inv
    rw [same]
    split
    · exact ⟨inv, nothing⟩
    · rw [same] at progress
      rw [if_pos (by omega)]
      exact ⟨inv, nothing⟩

/-- What a call of the awaiter offers, and what it makes of the answer. -/
theorem Sending.attemptOnce (sending : Sending stream s) :
    s.awaiter.attemptOnce s.dst = .call (s.buffer.drop (s.offset + s.awaiter.sent)) fun r =>
      if 0 < r.n then
        ((s.dst, { s.awaiter with sent := s.awaiter.sent + r.n.toNat }),
          if s.offset + (s.awaiter.sent + r.n.toNat) = s.buffer.length then .done else .progress)
      else s.awaiter.refused s.dst r := by
  have rest := sending.rest
  have size : (s.buffer.drop s.offset).length = s.buffer.length - s.offset := List.length_drop
  have len : s.awaiter.len = s.buffer.length - s.offset := by
    rw [sending.awaiter]
    exact size
  have flat : s.awaiter.useVec = false := by
    rw [sending.awaiter]
    rfl
  have buf : s.awaiter.buf = s.buffer.drop s.offset := by
    rw [sending.awaiter]
    rfl
  have offer : (s.awaiter.buf.drop s.awaiter.sent).take (s.awaiter.len - s.awaiter.sent) =
      s.buffer.drop (s.offset + s.awaiter.sent) := by
    rw [buf, len, List.drop_drop, List.take_of_length_le (by rw [List.length_drop]; omega)]
  rw [SendAwaiter.attemptOnce, if_neg (by simp [flat]), if_pos (by omega), offer]
  congr 1
  funext r
  have all : s.awaiter.sent + r.n.toNat = s.awaiter.len ↔
      s.offset + (s.awaiter.sent + r.n.toNat) = s.buffer.length := by omega
  simp only [all]

/-- The value of an awaiter that has met no error. -/
theorem Sending.awaitResume (sending : Sending stream s) {sent : Nat}
    (within : s.offset + sent ≤ s.buffer.length) :
    SendAwaiter.awaitResume { s.awaiter with sent } = sent := by
  have size := sending.size
  have fine : s.awaiter.err = 0 := by
    rw [sending.awaiter]
    rfl
  rw [SendAwaiter.awaitResume, if_neg (by simp [fine]), ssize_of_lt]
  dsimp only
  omega

/-- **An answer that accepts something, or finds the kernel full.**  Behind the second one the next
`send` goes on if the awaiter had begun, and the relay ends otherwise. -/
theorem Sending.answered {propagateShutdown : Bool} {r : Result} {t : State}
    (sending : Sending stream s) (phase : s.phase = .sending) (momentary : Momentary (.answer r))
    (step : s.step propagateShutdown (.answer r) = some t) :
    Inv stream t ∧ (Begun s (.answer r) ↔ t.phase ≠ .ended .sendError) := by
  have rest := sending.rest
  have conserved := sending.conserved
  rw [State.step, if_pos phase, sending.attemptOnce] at step
  dsimp only at step
  obtain ⟨may, step⟩ := Option.ite_none_right_eq_some.mp step
  have bound : r.n ≤ (s.buffer.length - (s.offset + s.awaiter.sent) : Nat) := by
    simpa [allowed] using may
  rcases momentary with accepts | ⟨full, again⟩
  · have begun : Begun s (.answer r) := fun fails => by omega
    have split : s.buffer.drop (s.offset + s.awaiter.sent) =
        (s.buffer.drop (s.offset + s.awaiter.sent)).take r.n.toNat ++
          s.buffer.drop (s.offset + (s.awaiter.sent + r.n.toNat)) := by
      have later := List.take_append_drop r.n.toNat (s.buffer.drop (s.offset + s.awaiter.sent))
      rw [List.drop_drop, Nat.add_assoc] at later
      exact later.symm
    rw [split] at conserved
    simp only [if_pos accepts] at step
    by_cases last : s.offset + (s.awaiter.sent + r.n.toNat) = s.buffer.length
    · rw [if_pos last, if_pos rfl, sending.awaitResume (by omega)] at step
      cases step
      rw [State.sent, if_neg (by omega), if_neg (by dsimp only; omega)]
      refine ⟨?_, fun _ => by simp, fun _ => begun⟩
      rw [last, List.drop_length, List.append_nil] at conserved
      exact conserved
    · rw [if_neg last, if_neg (by simp)] at step
      cases step
      refine ⟨?_, fun _ => by simp [phase], fun _ => begun⟩
      rw [Inv]
      simp only [phase]
      refine ⟨sending.size, ?_, by dsimp only; omega, ?_⟩
      · dsimp only
        rw [sending.awaiter]
      · rw [← List.append_assoc] at conserved
        exact conserved
  · have none' : ¬ 0 < r.n := by omega
    have partly : s.awaiter.full = false := by
      rw [sending.awaiter]
      rfl
    have nothing : r.n.toNat = 0 := by omega
    simp only [if_neg none', SendAwaiter.refused, if_neg (show r.n ≠ 0 by omega), again, partly,
      if_true, Bool.false_eq_true, if_false, nothing, List.take_zero, List.append_nil] at step
    have value : s.awaiter.awaitResume = s.awaiter.sent :=
      @Sending.awaitResume _ _ sending s.awaiter.sent (by omega)
    rw [value] at step
    cases step
    by_cases some' : 0 < s.awaiter.sent
    · rw [State.sent, if_neg (by omega), Int.toNat_natCast, if_pos rest]
      exact ⟨Sending.send sending.size rest conserved, fun _ => by simp [State.send],
        fun _ _ => some'⟩
    · rw [State.sent, if_pos (by omega)]
      refine ⟨⟨?_, ?_⟩, fun begun => absurd (begun full) some', fun fails => absurd rfl fails⟩
      · exact ⟨_, (List.append_assoc _ _ _).symm.trans conserved⟩
      · intro whole
        have size := congrArg List.length conserved
        simp only [← whole, List.length_append, List.length_drop] at size
        omega

/-- Every step keeps the invariant, and those alone that are begun do not end in an error. -/
theorem Inv.step {propagateShutdown : Bool} {act : Action} {t : State} (inv : Inv stream s)
    (momentary : Momentary act) (step : s.step propagateShutdown act = some t) :
    Inv stream t ∧ (Begun s act ↔ t.phase ≠ .ended .sendError) := by
  cases act with
  | recv =>
      obtain ⟨receiving, took⟩ := Option.ite_none_right_eq_some.mp step
      cases took
      refine ⟨inv.received receiving propagateShutdown, fun _ => ?_, fun _ => trivial⟩
      unfold State.received
      split
      · simp
      · split
        · simp
        · simp [State.send]
  | answer r =>
      obtain ⟨sending, -⟩ := Option.ite_none_right_eq_some.mp step
      rw [Inv, sending] at inv
      exact inv.answered sending momentary step

theorem inv_of_via {src : Inbound UInt8} {dst : Flags} {propagateShutdown : Bool}
    {ok : State → Action → Prop} (run : (pipeData src dst propagateShutdown).Via ok s)
    (momentary : ∀ s act, ok s act → Momentary act) : Inv src.pending s := by
  refine run.invariant (fun s start => ?_) fun s act t inv allowed step =>
    (inv.step (momentary s act allowed) step).1
  cases start
  rfl

/-- The relay is faithful until an error of `send` ends it. -/
theorem Inv.faithful_ended (inv : Inv stream s) :
    Faithful stream s ↔ s.phase ≠ .ended .sendError := by
  unfold Inv at inv
  constructor
  · intro faithful failed
    rw [failed] at inv
    exact inv.2 (faithful.whole _ failed).1
  · intro fine
    cases phase : s.phase with
    | receiving =>
        rw [phase] at inv
        exact ⟨⟨_, inv⟩, fun how ended => by cases phase.symm.trans ended⟩
    | sending =>
        rw [phase] at inv
        exact ⟨⟨_, (List.append_assoc _ _ _).symm.trans inv.conserved⟩,
          fun how ended => by cases phase.symm.trans ended⟩
    | ended how =>
        rw [phase] at inv
        cases how with
        | closed => exact ⟨inv.1 ▸ List.prefix_refl _, fun _ _ => inv⟩
        | recvError => exact ⟨inv.1 ▸ List.prefix_refl _, fun _ _ => inv⟩
        | sendError => exact (fine phase).elim

/-- A relay that has not ended can go on, by a receive or by any answer to its call. -/
theorem Inv.goes_on (inv : Inv stream s) (propagateShutdown : Bool)
    (running : ∀ how, s.phase ≠ .ended how) :
    ∃ act t, Momentary act ∧ Begun s act ∧ s.step propagateShutdown act = some t := by
  cases phase : s.phase with
  | receiving => exact ⟨.recv, _, trivial, trivial, if_pos phase⟩
  | sending =>
      rw [Inv, phase] at inv
      have rest := inv.rest
      have may : allowed (s.buffer.drop (s.offset + s.awaiter.sent)) ⟨1, 0⟩ = true := by
        simp only [allowed, List.length_drop, decide_eq_true_eq]
        omega
      have moves : (s.step propagateShutdown (.answer ⟨1, 0⟩)).isSome := by
        simp only [State.step, if_pos phase, inv.attemptOnce, if_pos may,
          apply_ite Option.isSome, Option.isSome_some, ite_self]
      obtain ⟨t, step⟩ := Option.isSome_iff_exists.mp moves
      have accepts : (0 : Int) < 1 := by decide
      exact ⟨.answer ⟨1, 0⟩, t, Or.inl accepts, fun fails => absurd fails (not_lt.mpr accepts.le),
        step⟩
  | ended how => exact (running how phase).elim

/-- **The relay.**  While the kernel of `dst` accepts something or is full, exactly those runs are
faithful in which it is full only for awaiters that have sent something. -/
theorem faithful_iff {src : Inbound UInt8} {dst : Flags} {propagateShutdown : Bool}
    (run : (pipeData src dst propagateShutdown).Via (fun _ act => Momentary act) s) :
    Faithful src.pending s ↔
      (pipeData src dst propagateShutdown).Via (fun s act => Momentary act ∧ Begun s act) s := by
  constructor
  · induction run with
    | init start => exact fun _ => .init start
    | @step s t act before momentary step ih =>
        intro faithful
        have inv : Inv src.pending s := inv_of_via before fun _ _ momentary => momentary
        obtain ⟨inv', begun⟩ := inv.step momentary step
        refine .step (ih (inv.faithful_ended.mpr fun failed => ?_))
          ⟨momentary, begun.mpr (inv'.faithful_ended.mp faithful)⟩ step
        -- a relay that has ended takes no step
        cases act with
        | recv =>
            obtain ⟨receiving, -⟩ := Option.ite_none_right_eq_some.mp step
            cases failed.symm.trans receiving
        | answer r =>
            obtain ⟨sending, -⟩ := Option.ite_none_right_eq_some.mp step
            cases failed.symm.trans sending
  · intro begun
    have inv : Inv src.pending s := inv_of_via begun fun _ _ both => both.1
    refine inv.faithful_ended.mpr ?_
    cases begun with
    | init start =>
        cases start
        simp [State.start]
    | step before both step =>
        have inv := inv_of_via before fun _ _ both => both.1
        exact ((inv.step both.1 step).2).mp both.2

/-! ## A destination that is full -/

namespace Example

/-- Three bytes in one chunk. -/
def three : Inbound UInt8 where
  chunks := [[1, 2, 3]]
  ending := 0
  positive := by simp
  stops := Inbound.orderly_stops

def opened : Flags := ⟨false, false⟩

instance (act : Action) : Decidable (Momentary act) :=
  match act with
  | .recv => isTrue trivial
  | .answer r => inferInstanceAs (Decidable (0 < r.n ∨ r.n < 0 ∧ r.again = true))

/-- The kernel accepts two bytes, is full, and then accepts the third one. -/
def fullBehindTwo : List Action :=
  [.recv, .answer ⟨2, 0⟩, .answer ⟨-1, EAGAIN⟩, .answer ⟨1, 0⟩, .recv]

theorem faithful_iff_three : ∃ s, (pipeData three opened true).Via
    (fun s act => Momentary act ∧ Begun s act) s ∧ s.phase = .ended .closed ∧
      Faithful three.pending s := by
  obtain ⟨s, run, phase⟩ : ∃ s, (pipeData three opened true).execOk (fun _ act => Momentary act)
      (.start three opened) fullBehindTwo = some s ∧ s.phase = .ended .closed :=
    ⟨_, rfl, rfl⟩
  have reach : (pipeData three opened true).Via (fun _ act => Momentary act) s :=
    .execOk (.init rfl) run
  have inv : Inv three.pending s := inv_of_via reach fun _ _ momentary => momentary
  have faithful := inv.faithful_ended.mpr (by simp [phase])
  exact ⟨s, (faithful_iff reach).mp faithful, phase, faithful⟩

/-- **The kernel is full at once**, and the relay ends with all bytes unwritten. -/
theorem full_at_once : ¬ ∀ s, (pipeData three opened true).Via (fun _ act => Momentary act) s →
    Faithful three.pending s := by
  intro always
  obtain ⟨s, run, phase, written⟩ : ∃ s, (pipeData three opened true).execOk
      (fun _ act => Momentary act) (.start three opened) [.recv, .answer ⟨-1, EAGAIN⟩] = some s ∧
      s.phase = .ended .sendError ∧ s.written = [] :=
    ⟨_, rfl, rfl, rfl⟩
  have whole := ((always s (.execOk (.init rfl) run)).whole _ phase).1
  rw [written] at whole
  cases whole

end Example

end CoWq.SocksRelay
