import CoWq.IO.SerialSlot
import CoWq.Net.WebSocket.RoundTrip

/-!
# Several writers on one WebSocket

Each call of `send_frame` is two `send_all` operations on the send queue of the
socket, one for the header and one for the payload.  The automatic pong of
`read_message` is one such call.  The machine runs any set of calls over the
serial slot of `CoWq.IoSerial`, with the bytes the kernel takes from each
operation.

* `Wired`: what is on the wire is, in the order of the grants of the slot, the
  part of each operation that the kernel took.
* `Alone`: a call starts while no other one is between its two operations, and
  an operation fails only before the first byte of a frame.
-/

namespace CoWq.WebSocket

open IoSerial (Phase late)

/-- The arguments of one call of `send_frame`. -/
structure Call where
  op : Opcode
  payload : List UInt8
  opts : SendOptions
  random : UInt32

namespace Call

def header (c : Call) : List UInt8 :=
  frameHeader c.op (UInt64.ofNat c.payload.length) c.opts (c.opts.key c.random)

def body (c : Call) : List UInt8 := frameBody c.payload c.opts (c.opts.key c.random)

def frame (c : Call) : List UInt8 := c.header ++ c.body

end Call

/-- The two `send_all` operations of a call. -/
inductive Part
  | header
  | body
  deriving DecidableEq, Repr

structure State (C : Type*) where
  io : IoSerial.State (C × Part)
  wire : List UInt8
  /-- `send_awaiter::sent` -/
  sent : C × Part → Nat
  /-- `send_awaiter::err < 0` -/
  err : C × Part → Bool
  /-- the calls, in the order they enqueue their headers -/
  begun : List C

inductive Action (C : Type*)
  | sendFrame (c : C)
  /-- the coroutine, resumed behind the header, enqueues the payload -/
  | sendBody (c : C)
  /-- `os::send` takes `n` bytes -/
  | kernelSend (a : C × Part) (n : Nat)
  /-- `os::send` answers `0` or an error, which ends `attempt_once` -/
  | kernelStop (a : C × Part) (err : Bool)
  /-- `os::send` answers `EAGAIN` -/
  | kernelAgain (a : C × Part)
  /-- `attempt_once` ends with everything sent -/
  | sentAll (a : C × Part)
  /-- a step of the serial slot that neither suspends nor attempts -/
  | io (a : IoSerial.Action (C × Part))
  deriving DecidableEq

/-- The steps of the slot that a writer's own steps do not cover, on an open socket. -/
def passive {A : Type*} : IoSerial.Action A → Bool
  | .workOnce => true
  | .cbqRun => true
  | .registerWait _ => true
  | .wake _ _ => true
  | .serialRelease _ => true
  | .postNext _ => true
  | .resume _ => true
  | _ => false

variable {C : Type*} [DecidableEq C]

/-- The call ended with its header: `send_all` answered a negative count. -/
def Failed (s : State C) (c : C) : Prop := s.err (c, .header) = true ∧ s.sent (c, .header) = 0

instance (s : State C) (c : C) : Decidable (Failed s c) :=
  inferInstanceAs (Decidable (_ ∧ _))

section Machine

variable (calls : C → Call)

/-- The buffer of an operation. -/
def buf (a : C × Part) : List UInt8 :=
  match a.2 with
  | .header => (calls a.1).header
  | .body => (calls a.1).body

def init (s : State C) : Prop :=
  IoSerial.init s.io ∧ s.wire = [] ∧ (∀ a, s.sent a = 0) ∧ (∀ a, s.err a = false) ∧ s.begun = []

def step (s : State C) : Action C → Option (State C)
  | .sendFrame c =>
      (IoSerial.step s.io (.awaitSuspend (c, .header))).map fun io =>
        { s with io := io, begun := s.begun ++ [c] }
  | .sendBody c =>
      if s.io.phase (c, .header) = .resumed ∧ ¬ Failed s c ∧ (calls c).payload ≠ [] then
        (IoSerial.step s.io (.awaitSuspend (c, .body))).map fun io => { s with io := io }
      else none
  | .kernelSend a n =>
      if s.io.phase a = .running ∧ 0 < n ∧ s.sent a + n ≤ (buf calls a).length then
        some { s with
          wire := s.wire ++ ((buf calls a).drop (s.sent a)).take n
          sent := fun x => if x = a then s.sent a + n else s.sent x }
      else none
  | .kernelStop a err =>
      if s.sent a < (buf calls a).length then
        (IoSerial.step s.io (.attemptOnce a .done)).map fun io =>
          { s with io := io, err := fun x => if x = a then err else s.err x }
      else none
  | .kernelAgain a =>
      if s.sent a < (buf calls a).length then
        (IoSerial.step s.io (.attemptOnce a .wouldBlock)).map fun io => { s with io := io }
      else none
  | .sentAll a =>
      if s.sent a = (buf calls a).length then
        (IoSerial.step s.io (.attemptOnce a .done)).map fun io => { s with io := io }
      else none
  | .io act =>
      if passive act then (IoSerial.step s.io act).map fun io => { s with io := io } else none

def machine : Machine (State C) (Action C) := ⟨init, step calls⟩

/-- `send_frame` has returned: behind its header when that failed or there is no
payload, else behind its payload. -/
def Returned (s : State C) (c : C) : Prop :=
  s.io.phase (c, .header) = .resumed ∧
    (Failed s c ∨ (calls c).payload = [] ∨ s.io.phase (c, .body) = .resumed)

/-- Between the operations of a call: the payload is still to be enqueued. -/
def Mid (s : State C) (c : C) : Prop :=
  (c, .header) ∈ s.io.calls ∧ (c, .body) ∉ s.io.calls ∧ (calls c).payload ≠ [] ∧ ¬ Failed s c

instance (s : State C) (c : C) : Decidable (Mid calls s c) :=
  inferInstanceAs (Decidable (_ ∧ _ ∧ _ ∧ _))

/-- A call starts while no other one is between its operations, and the kernel stops
an operation only with an error before the first byte of a frame. -/
def Alone (s : State C) : Action C → Prop
  | .sendFrame _ => ∀ d ∈ s.begun, ¬ Mid calls s d
  | .kernelStop a err => a.2 = .header ∧ err = true ∧ s.sent a = 0
  | _ => True

end Machine

/-! ## The slot under the writers -/

variable {calls : C → Call} {s t : State C}

/-- A step is one of the open serial slot, or leaves the slot alone. -/
theorem step_io {a : Action C} (run : step calls s a = some t) :
    t.io = s.io ∨ ∃ act, act ≠ .removeFd ∧ IoSerial.step s.io act = some t.io := by
  cases a with
  | sendFrame c =>
      obtain ⟨io, slot, rfl⟩ := Option.map_eq_some_iff.mp run
      exact .inr ⟨_, by simp, slot⟩
  | sendBody c =>
      simp only [step, Option.ite_none_right_eq_some] at run
      obtain ⟨io, slot, rfl⟩ := Option.map_eq_some_iff.mp run.2
      exact .inr ⟨_, by simp, slot⟩
  | kernelSend a n =>
      simp only [step, Option.ite_none_right_eq_some, Option.some.injEq] at run
      exact .inl (run.2 ▸ rfl)
  | kernelStop a err =>
      simp only [step, Option.ite_none_right_eq_some] at run
      obtain ⟨io, slot, rfl⟩ := Option.map_eq_some_iff.mp run.2
      exact .inr ⟨_, by simp, slot⟩
  | kernelAgain a =>
      simp only [step, Option.ite_none_right_eq_some] at run
      obtain ⟨io, slot, rfl⟩ := Option.map_eq_some_iff.mp run.2
      exact .inr ⟨_, by simp, slot⟩
  | sentAll a =>
      simp only [step, Option.ite_none_right_eq_some] at run
      obtain ⟨io, slot, rfl⟩ := Option.map_eq_some_iff.mp run.2
      exact .inr ⟨_, by simp, slot⟩
  | io act =>
      simp only [step, Option.ite_none_right_eq_some] at run
      obtain ⟨io, slot, rfl⟩ := Option.map_eq_some_iff.mp run.2
      refine .inr ⟨act, fun same => ?_, slot⟩
      rw [same] at run
      exact Bool.false_ne_true run.1

/-- The writers run an open serial slot. -/
theorem io_via {ok : State C → Action C → Prop} (run : (machine calls).Via ok s) :
    IoSerial.machine.Via IoSerial.Open s.io := by
  induction run with
  | init start => exact .init start.1
  | step _ _ step ih =>
      rcases step_io step with same | ⟨act, opened, slot⟩
      · exact same ▸ ih
      · exact .step ih opened slot

/-! ## What is on the wire -/

/-- The part of an operation that the kernel has taken. -/
def piece (calls : C → Call) (sent : C × Part → Nat) (a : C × Part) : List UInt8 :=
  (buf calls a).take (sent a)

/-- The wire holds the pieces in the order of the grants, and an error ends its
operation. -/
structure Wired (calls : C → Call) (s : State C) : Prop where
  wire : s.wire = s.io.grants.flatMap (piece calls s.sent)
  bound : ∀ a, s.sent a ≤ (buf calls a).length
  unsent : ∀ a, a ∉ s.io.grants → s.sent a = 0
  ended : ∀ a, s.err a → late (s.io.phase a)

/-- A step of the slot under which the kernel takes nothing. -/
theorem Wired.slot {act : IoSerial.Action (C × Part)} {io : IoSerial.State (C × Part)}
    {err : C × Part → Bool} {begun : List C} (h : Wired calls s)
    (placed : IoSerial.Placed s.io) (slot : IoSerial.step s.io act = some io)
    (ended : ∀ a, err a → late (io.phase a)) :
    Wired calls { s with io := io, err := err, begun := begun } := by
  rcases IoSerial.grants_step placed slot with same | ⟨n, new, grants⟩
  · refine ⟨?_, h.bound, fun a out => h.unsent a (same ▸ out), ended⟩
    rw [h.wire, same]
  · refine ⟨?_, h.bound, fun a out => h.unsent a fun mem => out ?_, ended⟩
    · have nothing : piece calls s.sent n = [] := by rw [piece, h.unsent n new, List.take_zero]
      rw [grants, List.flatMap_append, List.flatMap_singleton, nothing, List.append_nil]
      exact h.wire
    · rw [grants]
      exact List.mem_append_left _ mem

/-- The kernel takes bytes of the operation that holds the slot, the last one granted. -/
theorem Wired.kernelSend {a : C × Part} {n : Nat} (h : Wired calls s)
    (fifo : IoSerial.Fifo s.io) (placed : IoSerial.Placed s.io)
    (place : s.io.phase a = .running) (room : s.sent a + n ≤ (buf calls a).length) :
    Wired calls { s with
      wire := s.wire ++ ((buf calls a).drop (s.sent a)).take n
      sent := fun x => if x = a then s.sent a + n else s.sent x } := by
  have holds : IoSerial.Holds s.io a := (placed.recorded.holds a).mpr (by rw [place]; rfl)
  have last := (fifo.holder holds).2
  have others : ∀ x ∈ s.io.releases, piece calls s.sent x =
      piece calls (fun x => if x = a then s.sent a + n else s.sent x) x := by
    intro x mem
    have ne : x ≠ a := fun same => holds.2 (same ▸ mem)
    simp only [piece, if_neg ne]
  refine ⟨?_, fun x => ?_, fun x out => ?_, h.ended⟩
  · dsimp only
    rw [h.wire, last, List.flatMap_append, List.flatMap_append, List.flatMap_congr others,
      List.flatMap_singleton, List.flatMap_singleton, List.append_assoc]
    simp only [piece, if_true, List.take_add]
  · by_cases same : x = a
    · simpa [same] using room
    · simpa [same] using h.bound x
  · have ne : x ≠ a := fun same => out (same ▸ holds.1)
    simpa [ne] using h.unsent x out

theorem Wired.step {a : Action C} (h : Wired calls s) (fifo : IoSerial.Fifo s.io)
    (placed : IoSerial.Placed s.io) (run : step calls s a = some t) : Wired calls t := by
  have kept : ∀ {act io}, IoSerial.step s.io act = some io →
      ∀ x, s.err x → late (io.phase x) := fun slot x failed =>
    IoSerial.late_mono placed slot (h.ended x failed)
  cases a with
  | sendFrame c =>
      obtain ⟨io, slot, rfl⟩ := Option.map_eq_some_iff.mp run
      exact h.slot placed slot (kept slot)
  | sendBody c =>
      simp only [WebSocket.step, Option.ite_none_right_eq_some] at run
      obtain ⟨io, slot, rfl⟩ := Option.map_eq_some_iff.mp run.2
      exact h.slot placed slot (kept slot)
  | kernelSend a n =>
      simp only [WebSocket.step, Option.ite_none_right_eq_some, Option.some.injEq] at run
      obtain ⟨⟨place, -, room⟩, rfl⟩ := run
      exact h.kernelSend fifo placed place room
  | kernelStop a err =>
      simp only [WebSocket.step, Option.ite_none_right_eq_some] at run
      obtain ⟨io, slot, rfl⟩ := Option.map_eq_some_iff.mp run.2
      refine h.slot placed slot fun x failed => ?_
      by_cases same : x = a
      · simp only [IoSerial.step, Option.ite_none_right_eq_some, Option.some.injEq] at slot
        rw [← slot.2, same]
        simp [IoSerial.State.setPhase, late]
      · rw [if_neg same] at failed
        exact kept slot x failed
  | kernelAgain a =>
      simp only [WebSocket.step, Option.ite_none_right_eq_some] at run
      obtain ⟨io, slot, rfl⟩ := Option.map_eq_some_iff.mp run.2
      exact h.slot placed slot (kept slot)
  | sentAll a =>
      simp only [WebSocket.step, Option.ite_none_right_eq_some] at run
      obtain ⟨io, slot, rfl⟩ := Option.map_eq_some_iff.mp run.2
      exact h.slot placed slot (kept slot)
  | io act =>
      simp only [WebSocket.step, Option.ite_none_right_eq_some] at run
      obtain ⟨io, slot, rfl⟩ := Option.map_eq_some_iff.mp run.2
      exact h.slot placed slot (kept slot)

theorem Wired.via {ok : State C → Action C → Prop} (run : (machine calls).Via ok s) :
    Wired calls s := by
  refine run.invariant_reach (fun s start => ?_) fun s a t before h _ step =>
    h.step (IoSerial.Fifo.via (io_via before)) (IoSerial.Placed.via (io_via before)) step
  obtain ⟨⟨-, -, -, -, -, -, -, -, -, grants, -⟩, wire, sent, err, -⟩ := start
  constructor <;> simp [wire, grants, sent, err]

end CoWq.WebSocket
