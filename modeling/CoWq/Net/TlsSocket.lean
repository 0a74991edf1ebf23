import Mathlib.Data.Fintype.Basic
import CoWq.Lib.Machine

/-!
# The SSL object of a TLS socket

`basic_tls_socket` with its awaiters and `close`, which drops the SSL object before it closes the
transport.  A handshake drives itself, receives and sends take turns on a serial queue each.

* `Action`, `step`, `tlsSocket`: the machine.  A call of OpenSSL and the `SSL_get_error` behind it
  are two steps.  A posted awaiter may be run at any time, whichever queue it goes through, and the
  reactor may wake a registered one at any time.
* `Idle`: an awaiter that makes no more calls.
* `Settled`: `close` drops the SSL object while all awaiters are idle, and none starts behind it.
* `no_null_call`: in the runs of settled steps no call is made with a null handle.
* `null_call`, `null_call_follows`: other runs.
-/

namespace CoWq.TlsSocket

/-! ## The machine -/

def EIO : Int := 5

def ECONNRESET : Int := 104

/-- The values of `SSL_get_error` behind a call that failed. -/
inductive SslError
  | wantRead
  | wantWrite
  | zeroReturn
  | syscall (errno : Int)
  | ssl
  | other (code : Int)
  deriving DecidableEq, Repr

/-- `translate_failure` -/
def translateFailure : SslError → Int
  | .syscall errno => if errno ≠ 0 then -errno else - EIO
  | .ssl => - EIO
  | .zeroReturn => -ECONNRESET
  | .wantRead => -2
  | .wantWrite => -3
  | .other code => -code

/-- The serial queues, `_recv_q` and `_send_q`. -/
inductive Dir
  | recv
  | send
  deriving DecidableEq, Repr

/-- `handshake_awaiter`, or `recv_awaiter` and `send_awaiter` with their length. -/
inductive Kind
  | handshake
  | io (dir : Dir) (len : Nat) (full : Bool)
  deriving DecidableEq, Repr

structure SerialQueue (A : Type*) where
  locked : Bool
  waiters : List A
  deriving DecidableEq

/-- Where an awaiter is. -/
inductive Phase
  | fresh
  /-- among the waiters of its serial queue -/
  | waiting
  /-- posted: it has got the slot, or an event, or `remove_fd` has posted it -/
  | queued
  /-- in the loop, at `attempt_once` or `SSL_do_handshake` -/
  | running
  /-- the call has failed; at `SSL_get_error` -/
  | called
  /-- at `register_wait` or `add_waiter_custom` -/
  | blocked
  /-- in the reactor -/
  | armed
  /-- behind the loop -/
  | finished
  /-- behind `serial_release` -/
  | released
  | resumed
  deriving DecidableEq, Repr

/-- How far `close` has come. -/
inductive Closing
  | idle
  /-- behind the test of `_active` -/
  | entered
  /-- behind `_ssl.reset` -/
  | dropped
  /-- behind `close_transport` -/
  | transportClosed
  deriving DecidableEq, Repr

inductive Op
  | SSL_read
  | SSL_write
  | SSL_do_handshake
  | SSL_get_error
  deriving DecidableEq, Repr

/-- A call of OpenSSL: by whom, and whether the handle is one. -/
structure Call (A : Type*) where
  op : Op
  awaiter : A
  handle : Bool
  deriving DecidableEq, Repr

structure State (A : Type*) where
  active : Bool
  /-- `_ssl` is not null -/
  ssl : Bool
  handshakeDone : Bool
  rxEof : Bool
  txShutdown : Bool
  queue : Dir → SerialQueue A
  phase : A → Phase
  /-- `recvd` or `sent` -/
  got : A → Nat
  /-- `err` or `result` -/
  err : A → Int
  closing : Closing
  calls : List (Call A)

inductive Action (A : Type*)
  | awaitSuspend (a : A)
  /-- a worker runs the node -/
  | work (a : A)
  | sslCall (a : A) (rc : Int)
  | getError (a : A) (e : SslError)
  | registerWait (a : A)
  | wake (a : A)
  | serialRelease (a : A)
  | resume (a : A)
  /-- the steps of `close` -/
  | closeEnter
  | closeReset
  | closeTransport
  | closeFinish
  deriving DecidableEq, Repr

section Step

variable {A : Type*} [DecidableEq A] (kind : A → Kind)

def State.setPhase (s : State A) (a : A) (p : Phase) : State A :=
  { s with phase := Function.update s.phase a p }

def State.setQueue (s : State A) (d : Dir) (q : SerialQueue A) : State A :=
  { s with queue := Function.update s.queue d q }

def State.log (s : State A) (op : Op) (a : A) : State A :=
  { s with calls := s.calls ++ [⟨op, a, s.ssl⟩] }

/-- `serial_acquire_or_enqueue` -/
def serialAcquireOrEnqueue (s : State A) (d : Dir) (a : A) : State A :=
  let q := s.queue d
  if q.locked = false ∧ q.waiters = [] then
    (s.setQueue d { q with locked := true }).setPhase a .queued
  else (s.setQueue d { q with waiters := q.waiters ++ [a] }).setPhase a .waiting

/-- `serial_release` -/
def serialRelease (s : State A) (d : Dir) : State A :=
  match (s.queue d).waiters with
  | n :: rest => (s.setQueue d { s.queue d with waiters := rest }).setPhase n .queued
  | [] => s.setQueue d { s.queue d with locked := false }

/-- The peer has closed, or the write side is down. -/
def State.atEnd (s : State A) : Dir → State A
  | .recv => { s with rxEof := true }
  | .send => { s with txShutdown := true }

def Dir.op : Dir → Op
  | .recv => .SSL_read
  | .send => .SSL_write

/-- A round of `attempt_once` up to the answer `rc` of its call, which it does not make when
there is nothing left to do. -/
def attemptOnce (s : State A) (a : A) (d : Dir) (len : Nat) (full : Bool) (rc : Int) :
    Option (State A) :=
  if len ≤ s.got a then some (s.setPhase a .finished)
  else if 0 < rc then
    if rc.toNat ≤ len - s.got a then
      let got := s.got a + rc.toNat
      some ((State.log { s with got := Function.update s.got a got } d.op a).setPhase a
        (if !full || got = len then .finished else .running))
    else none
  else if rc = 0 then some (((s.log d.op a).atEnd d).setPhase a .finished)
  else some ((s.log d.op a).setPhase a .called)

/-- A round of `drive` up to the answer of `SSL_do_handshake`. -/
def drive (s : State A) (a : A) (rc : Int) : State A :=
  if s.handshakeDone then s.setPhase a .finished
  else if rc = 1 then
    State.setPhase { s.log .SSL_do_handshake a with handshakeDone := true } a .finished
  else (s.log .SSL_do_handshake a).setPhase a .called

def step (s : State A) : Action A → Option (State A)
  | .awaitSuspend a =>
      if s.phase a = .fresh then
        match kind a with
        | .handshake =>
            -- `await_ready`
            some (s.setPhase a (if s.handshakeDone then .resumed else .running))
        | .io d _ _ => some (serialAcquireOrEnqueue s d a)
      else none
  | .work a => if s.phase a = .queued then some (s.setPhase a .running) else none
  | .sslCall a rc =>
      if s.phase a = .running then
        match kind a with
        | .handshake => some (drive s a rc)
        | .io d len full => attemptOnce s a d len full rc
      else none
  | .getError a e =>
      if s.phase a = .called then
        let s := s.log .SSL_get_error a
        match e, kind a with
        | .wantRead, _ | .wantWrite, _ => some (s.setPhase a .blocked)
        | .zeroReturn, .io d _ _ => some ((s.atEnd d).setPhase a .finished)
        | e, _ =>
            some (State.setPhase { s with err := Function.update s.err a (translateFailure e) } a
              .finished)
      else none
  | .registerWait a => if s.phase a = .blocked then some (s.setPhase a .armed) else none
  | .wake a => if s.phase a = .armed then some (s.setPhase a .queued) else none
  | .serialRelease a =>
      if s.phase a = .finished then
        match kind a with
        | .handshake => some (s.setPhase a .released)
        | .io d _ _ => some ((serialRelease s d).setPhase a .released)
      else none
  | .resume a => if s.phase a = .released then some (s.setPhase a .resumed) else none
  | .closeEnter =>
      if s.closing = .idle ∧ s.active then some { s with closing := .entered } else none
  | .closeReset =>
      if s.closing = .entered then some { s with closing := .dropped, ssl := false } else none
  | .closeTransport =>
      -- `remove_fd` posts every awaiter of the reactor
      if s.closing = .dropped then
        some
          { s with
            closing := .transportClosed
            phase := fun a => if s.phase a = .armed then .queued else s.phase a }
      else none
  | .closeFinish =>
      if s.closing = .transportClosed then
        some
          { s with
            closing := .idle
            handshakeDone := false
            rxEof := true
            txShutdown := true }
      else none

/-- Behind the constructor. -/
structure init (s : State A) : Prop where
  active : s.active = true
  ssl : s.ssl = true
  handshakeDone : s.handshakeDone = false
  queue : ∀ d, s.queue d = ⟨false, []⟩
  phase : ∀ a, s.phase a = .fresh
  got : ∀ a, s.got a = 0
  closing : s.closing = .idle
  calls : s.calls = []

def tlsSocket : Machine (State A) (Action A) where
  init := init
  step := step kind

/-- No call was made with a null handle. -/
def NoNullCall (s : State A) : Prop := ∀ c ∈ s.calls, c.handle = true

/-- A receive or a send that has all its bytes. -/
def Spent (s : State A) (a : A) : Prop :=
  match kind a with
  | .handshake => False
  | .io _ len _ => len ≤ s.got a

/-- The awaiter makes no call any more, or has not begun. -/
def Idle (s : State A) (a : A) : Prop :=
  match s.phase a with
  | .fresh | .finished | .released | .resumed => True
  | .waiting | .queued | .running => Spent kind s a
  | .called | .blocked | .armed => False

/-- An awaiter that makes no call when it starts now. -/
def Harmless (s : State A) (a : A) : Prop :=
  Spent kind s a ∨ kind a = .handshake ∧ s.handshakeDone = true

/-- `close` drops the SSL object while all awaiters are idle, and behind it none starts that has
something to do. -/
def Settled (s : State A) : Action A → Prop
  | .closeReset => ∀ a, Idle kind s a
  | .awaitSuspend a => s.ssl = true ∨ Harmless kind s a
  | _ => True

instance (s : State A) (a : A) : Decidable (Spent kind s a) := by
  unfold Spent
  split <;> infer_instance

instance (s : State A) (a : A) : Decidable (Idle kind s a) := by
  unfold Idle
  split <;> infer_instance

instance (s : State A) (a : A) : Decidable (Harmless kind s a) :=
  inferInstanceAs (Decidable (_ ∨ _))

instance [Fintype A] (s : State A) (a : Action A) : Decidable (Settled kind s a) :=
  match a with
  | .closeReset => inferInstanceAs (Decidable (∀ a, Idle kind s a))
  | .awaitSuspend a => inferInstanceAs (Decidable (s.ssl = true ∨ Harmless kind s a))
  | .work _ | .sslCall _ _ | .getError _ _ | .registerWait _ | .wake _ | .serialRelease _
  | .resume _ | .closeEnter | .closeTransport | .closeFinish => inferInstanceAs (Decidable True)

end Step

/-! ## Runs of settled steps -/

section Settled

variable {A : Type*} {kind : A → Kind} {s t : State A}

variable (kind) in
/-- The waiters wait, and without an SSL object all awaiters are idle. -/
structure Sound (s : State A) : Prop where
  waiting : ∀ d, ∀ a ∈ (s.queue d).waiters,
    s.phase a = .waiting ∧ ∃ len full, kind a = .io d len full
  nodup : ∀ d, (s.queue d).waiters.Nodup
  quiet : s.ssl = false → ∀ a, Idle kind s a
  calls : NoNullCall s

theorem Sound.init (start : init s) : Sound kind s where
  waiting d a listed := by
    rw [start.queue d] at listed
    cases listed
  nodup d := by
    rw [start.queue d]
    exact List.nodup_nil
  quiet dropped := by
    rw [start.ssl] at dropped
    cases dropped
  calls c listed := by
    rw [start.calls] at listed
    cases listed

/-- Only the phase and the count of an awaiter tell whether it is idle. -/
theorem Idle.congr {a : A} (idle : Idle kind s a) (phase : t.phase a = s.phase a)
    (got : t.got a = s.got a) : Idle kind t a := by
  simp only [Idle, Spent, phase, got] at idle ⊢
  exact idle

/-- An awaiter that has not done its call has the SSL object. -/
theorem Sound.ssl_of_not_idle (sound : Sound kind s) {a : A} (busy : ¬ Idle kind s a) :
    s.ssl = true := by
  by_contra dropped
  exact busy (sound.quiet (Bool.eq_false_iff.mpr dropped) a)

/-- With the SSL object nothing is asked of the awaiters. -/
theorem Sound.live (sound : Sound kind s) (ssl : t.ssl = true) (queue : t.queue = s.queue)
    (phase : t.phase = s.phase) (calls : NoNullCall t) : Sound kind t where
  waiting := by
    rw [queue, phase]
    exact sound.waiting
  nodup := by
    rw [queue]
    exact sound.nodup
  quiet dropped := by
    rw [ssl] at dropped
    cases dropped
  calls := calls

theorem Sound.log (sound : Sound kind s) (ssl : s.ssl = true) (op : Op) (a : A) :
    Sound kind (s.log op a) := by
  apply sound.live (t := s.log op a) ssl rfl rfl
  intro c listed
  rcases List.mem_append.mp listed with listed | last
  · exact sound.calls c listed
  · rw [List.mem_singleton.mp last]
    exact ssl

theorem Sound.atEnd (sound : Sound kind s) (d : Dir) : Sound kind (s.atEnd d) := by
  cases d with
  | recv | send => exact ⟨sound.waiting, sound.nodup, sound.quiet, sound.calls⟩

variable [DecidableEq A]

/-- An awaiter goes on that is in no queue. -/
theorem Sound.setPhase (sound : Sound kind s) {a : A} {p : Phase} (was : s.phase a ≠ .waiting)
    (idle : s.ssl = false → Idle kind (s.setPhase a p) a) : Sound kind (s.setPhase a p) where
  waiting d b listed := by
    have waits := sound.waiting d b listed
    have other : b ≠ a := by
      rintro rfl
      exact was waits.1
    rw [show (s.setPhase a p).phase b = s.phase b from Function.update_of_ne other _ _]
    exact waits
  nodup := sound.nodup
  quiet dropped b := by
    rcases eq_or_ne b a with rfl | other
    · exact idle dropped
    · exact (sound.quiet dropped b).congr (Function.update_of_ne other _ _) rfl
  calls := sound.calls

/-- The same for one that is through with its calls. -/
theorem Sound.leave (sound : Sound kind s) {a : A} {p : Phase} (was : s.phase a ≠ .waiting)
    (through : p = .finished ∨ p = .released ∨ p = .resumed) : Sound kind (s.setPhase a p) := by
  apply sound.setPhase was
  intro _
  rcases through with rfl | rfl | rfl <;> simp [Idle, State.setPhase]

/-- The same for one that has not been idle. -/
theorem Sound.goOn (sound : Sound kind s) {a : A} {p : Phase} (was : s.phase a ≠ .waiting)
    (ssl : s.ssl = true) : Sound kind (s.setPhase a p) := by
  apply sound.setPhase was
  intro dropped
  rw [ssl] at dropped
  cases dropped

theorem Sound.attemptOnce (sound : Sound kind s) {a : A} {d : Dir} {len : Nat} {full : Bool}
    {rc : Int} (runs : s.phase a = .running) (here : kind a = .io d len full)
    (run : attemptOnce s a d len full rc = some t) : Sound kind t := by
  have was : s.phase a ≠ .waiting := by rw [runs]; simp
  simp only [TlsSocket.attemptOnce] at run
  by_cases spent : len ≤ s.got a
  · rw [if_pos spent] at run
    cases run
    exact sound.leave was (.inl rfl)
  · have ssl : s.ssl = true :=
      sound.ssl_of_not_idle (a := a) (by simp [Idle, Spent, runs, here, spent])
    rw [if_neg spent] at run
    split at run
    · obtain ⟨-, run⟩ := Option.ite_none_right_eq_some.mp run
      cases run
      have got : Sound kind { s with got := Function.update s.got a (s.got a + rc.toNat) } :=
        sound.live ssl rfl rfl sound.calls
      exact (got.log ssl d.op a).goOn was ssl
    · split at run <;> cases run
      · have ended : Sound kind ((s.log d.op a).atEnd d) := (sound.log ssl d.op a).atEnd d
        exact ended.leave (by cases d <;> exact was) (.inl rfl)
      · exact (sound.log ssl d.op a).goOn was ssl

theorem Sound.drive (sound : Sound kind s) {a : A} (runs : s.phase a = .running)
    (here : kind a = .handshake) (rc : Int) : Sound kind (drive s a rc) := by
  have was : s.phase a ≠ .waiting := by rw [runs]; simp
  have ssl : s.ssl = true := sound.ssl_of_not_idle (a := a) (by simp [Idle, Spent, runs, here])
  simp only [TlsSocket.drive]
  split_ifs
  · exact sound.leave was (.inl rfl)
  · have done : Sound kind { s.log .SSL_do_handshake a with handshakeDone := true } :=
      (sound.log ssl .SSL_do_handshake a).live ssl rfl rfl (sound.log ssl _ a).calls
    exact done.leave was (.inl rfl)
  · exact (sound.log ssl _ a).goOn was ssl

omit [DecidableEq A] in
/-- A serial queue changes its flag, or loses waiters. -/
theorem Sound.setQueue (sound : Sound kind s) {d : Dir} {q : SerialQueue A}
    (fewer : q.waiters.Sublist (s.queue d).waiters) : Sound kind (s.setQueue d q) where
  waiting e a listed := by
    simp only [State.setQueue] at listed
    rcases eq_or_ne e d with rfl | other
    · rw [Function.update_self] at listed
      exact sound.waiting e a (fewer.subset listed)
    · rw [Function.update_of_ne other] at listed
      exact sound.waiting e a listed
  nodup e := by
    simp only [State.setQueue]
    rcases eq_or_ne e d with rfl | other
    · rw [Function.update_self]
      exact (sound.nodup e).sublist fewer
    · rw [Function.update_of_ne other]
      exact sound.nodup e
  quiet := sound.quiet
  calls := sound.calls

theorem Sound.serialAcquireOrEnqueue (sound : Sound kind s) {a : A} {d : Dir} {len : Nat}
    {full : Bool} (fresh : s.phase a = .fresh) (here : kind a = .io d len full)
    (may : s.ssl = false → Spent kind s a) : Sound kind (serialAcquireOrEnqueue s d a) := by
  have was : s.phase a ≠ .waiting := by rw [fresh]; simp
  simp only [TlsSocket.serialAcquireOrEnqueue]
  split
  · have locked := sound.setQueue (d := d) (q := { s.queue d with locked := true }) (.refl _)
    apply locked.setPhase was
    intro dropped
    simp only [Idle, State.setPhase, Function.update_self]
    exact may dropped
  · exact {
      waiting := by
        intro e b listed
        simp only [State.setPhase, State.setQueue] at listed ⊢
        rcases eq_or_ne e d with rfl | other
        · rw [Function.update_self] at listed
          rcases List.mem_append.mp listed with listed | last
          · have waits := sound.waiting e b listed
            rw [Function.update_of_ne (by rintro rfl; exact was waits.1)]
            exact waits
          · rw [List.mem_singleton.mp last, Function.update_self]
            exact ⟨rfl, len, full, here⟩
        · rw [Function.update_of_ne other] at listed
          have waits := sound.waiting e b listed
          rw [Function.update_of_ne (by rintro rfl; exact was waits.1)]
          exact waits
      nodup := by
        intro e
        simp only [State.setPhase, State.setQueue]
        rcases eq_or_ne e d with rfl | other
        · rw [Function.update_self]
          apply (sound.nodup e).append (List.nodup_singleton a)
          intro b listed last
          rw [List.mem_singleton.mp last] at listed
          exact was (sound.waiting e a listed).1
        · rw [Function.update_of_ne other]
          exact sound.nodup e
      quiet := by
        intro dropped b
        rcases eq_or_ne b a with rfl | other
        · simp only [Idle, State.setPhase, Function.update_self]
          exact may dropped
        · exact (sound.quiet dropped b).congr (Function.update_of_ne other _ _) rfl
      calls := sound.calls }

theorem Sound.serialRelease (sound : Sound kind s) {a : A} {d : Dir}
    (through : s.phase a = .finished) :
    Sound kind ((serialRelease s d).setPhase a .released) := by
  simp only [TlsSocket.serialRelease]
  split
  · next n rest waiters =>
      have first : n ∈ (s.queue d).waiters := by rw [waiters]; exact List.mem_cons_self
      obtain ⟨waits, len, full, here⟩ := sound.waiting d n first
      have ne : a ≠ n := by
        rintro rfl
        rw [waits] at through
        cases through
      have fewer := sound.setQueue (d := d) (q := { s.queue d with waiters := rest })
        (by rw [waiters]; exact List.sublist_cons_self n rest)
      -- the next one is in no queue any more
      have granted : Sound kind
          ((s.setQueue d { s.queue d with waiters := rest }).setPhase n .queued) := {
        waiting := by
          intro e b listed
          have other : b ≠ n := by
            rintro rfl
            obtain ⟨-, len', full', here'⟩ := fewer.waiting e b listed
            rw [here] at here'
            cases here'
            have nodup := sound.nodup d
            simp only [State.setPhase, State.setQueue, Function.update_self] at listed
            rw [waiters, List.nodup_cons] at nodup
            exact nodup.1 listed
          have waits := fewer.waiting e b listed
          simp only [State.setPhase]
          rw [Function.update_of_ne other]
          exact waits
        nodup := fewer.nodup
        quiet := by
          intro dropped b
          rcases eq_or_ne b n with rfl | other
          · have idle := sound.quiet dropped b
            simp only [Idle, waits] at idle
            simp only [Idle, State.setPhase, Function.update_self]
            exact idle
          · exact (fewer.quiet dropped b).congr (Function.update_of_ne other _ _) rfl
        calls := sound.calls }
      refine granted.leave ?_ (.inr (.inl rfl))
      simp only [State.setPhase, State.setQueue, Function.update_of_ne ne, through, ne_eq,
        reduceCtorEq, not_false_eq_true]
  · have free := sound.setQueue (d := d) (q := { s.queue d with locked := false }) (.refl _)
    refine free.leave ?_ (.inr (.inl rfl))
    simp only [State.setQueue, through, ne_eq, reduceCtorEq, not_false_eq_true]

theorem Sound.getError (sound : Sound kind s) {a : A} (called : s.phase a = .called)
    (e : SslError) (run : step kind s (.getError a e) = some t) : Sound kind t := by
  have was : s.phase a ≠ .waiting := by rw [called]; simp
  have ssl : s.ssl = true := sound.ssl_of_not_idle (a := a) (by simp [Idle, called])
  have logged := sound.log ssl .SSL_get_error a
  simp only [step, if_pos called] at run
  split at run <;> cases run
  · exact logged.goOn was ssl
  · exact logged.goOn was ssl
  · next d _ _ _ => exact (logged.atEnd d).leave (by cases d <;> exact was) (.inl rfl)
  · refine Sound.leave (s := { s.log .SSL_get_error a with err := _ }) ?_ was (.inl rfl)
    exact logged.live ssl rfl rfl logged.calls

theorem Sound.step (sound : Sound kind s) {a : Action A} (settled : Settled kind s a)
    (run : step kind s a = some t) : Sound kind t := by
  cases a with
  | awaitSuspend a =>
      obtain ⟨fresh, run⟩ := Option.ite_none_right_eq_some.mp run
      split at run <;> cases run
      · next here =>
          split
          · exact sound.leave (by rw [fresh]; simp) (.inr (.inr rfl))
          · next running =>
              apply sound.goOn (by rw [fresh]; simp)
              rcases settled with ssl | harmless | ⟨-, done⟩
              · exact ssl
              · simp only [Spent, here] at harmless
              · exact absurd done running
      · next d len full here =>
          apply sound.serialAcquireOrEnqueue fresh here
          intro dropped
          rcases settled with ssl | spent | ⟨handshake, -⟩
          · rw [ssl] at dropped
            cases dropped
          · exact spent
          · rw [here] at handshake
            cases handshake
  | work a =>
      obtain ⟨queued, run⟩ := Option.ite_none_right_eq_some.mp run
      cases run
      apply sound.setPhase (by rw [queued]; simp)
      intro dropped
      have idle := sound.quiet dropped a
      simp only [Idle, queued] at idle
      simp only [Idle, State.setPhase, Function.update_self]
      exact idle
  | sslCall a rc =>
      obtain ⟨runs, run⟩ := Option.ite_none_right_eq_some.mp run
      split at run
      · next here =>
          cases run
          exact sound.drive runs here rc
      · next d len full here => exact sound.attemptOnce runs here run
  | getError a e =>
      exact sound.getError (Option.ite_none_right_eq_some.mp run).1 e run
  | registerWait a =>
      obtain ⟨blocked, run⟩ := Option.ite_none_right_eq_some.mp run
      cases run
      exact sound.goOn (by rw [blocked]; simp)
        (sound.ssl_of_not_idle (a := a) (by simp [Idle, blocked]))
  | wake a =>
      obtain ⟨armed, run⟩ := Option.ite_none_right_eq_some.mp run
      cases run
      exact sound.goOn (by rw [armed]; simp)
        (sound.ssl_of_not_idle (a := a) (by simp [Idle, armed]))
  | serialRelease a =>
      obtain ⟨through, run⟩ := Option.ite_none_right_eq_some.mp run
      split at run <;> cases run
      · exact sound.leave (by rw [through]; simp) (.inr (.inl rfl))
      · exact sound.serialRelease through
  | resume a =>
      obtain ⟨released, run⟩ := Option.ite_none_right_eq_some.mp run
      cases run
      exact sound.leave (by rw [released]; simp) (.inr (.inr rfl))
  | closeEnter | closeFinish =>
      obtain ⟨-, run⟩ := Option.ite_none_right_eq_some.mp run
      cases run
      exact ⟨sound.waiting, sound.nodup, sound.quiet, sound.calls⟩
  | closeReset =>
      obtain ⟨-, run⟩ := Option.ite_none_right_eq_some.mp run
      cases run
      exact ⟨sound.waiting, sound.nodup, fun _ => settled, sound.calls⟩
  | closeTransport =>
      obtain ⟨-, run⟩ := Option.ite_none_right_eq_some.mp run
      cases run
      exact {
        waiting := by
          intro d b listed
          have waits := sound.waiting d b listed
          simp only [waits.1, reduceCtorEq, if_false]
          exact ⟨trivial, waits.2⟩
        nodup := sound.nodup
        quiet := by
          -- nothing is in the reactor any more
          intro dropped b
          have idle := sound.quiet dropped b
          refine idle.congr (if_neg fun armed => ?_) rfl
          simp only [Idle, armed] at idle
        calls := sound.calls }

variable (kind) in
/-- **No call of OpenSSL is made with a null handle** in the runs of settled steps. -/
theorem no_null_call (reach : (tlsSocket kind).Via (Settled kind) s) : NoNullCall s := by
  have sound : Sound kind s :=
    reach.invariant (fun _ start => Sound.init start)
      fun _ _ t sound settled run => Sound.step (t := t) sound settled run
  exact sound.calls

/-! ## Other runs -/

omit [DecidableEq A] in
/-- A step that logs a call without the SSL object. -/
theorem null_call_of_log (op : Op) (a : A) (dropped : s.ssl = false)
    (calls : t.calls = (s.log op a).calls) : ¬ NoNullCall t := by
  intro clean
  have handle := clean ⟨op, a, s.ssl⟩ (by rw [calls]; exact List.mem_append_right _ (by simp))
  rw [dropped] at handle
  cases handle

variable (kind) in
/-- A call with a null handle may follow. -/
def MayCallNull (s : State A) : Prop :=
  ∃ t, (tlsSocket kind).Leads (fun _ _ => True) s t ∧ ¬ NoNullCall t

theorem MayCallNull.of_step {a : Action A} (later : MayCallNull kind t)
    (run : step kind s a = some t) : MayCallNull kind s := by
  obtain ⟨u, leads, null⟩ := later
  exact ⟨u, .head ⟨a, trivial, run⟩ leads, null⟩

theorem mayCallNull_of_null (null : ¬ NoNullCall s) : MayCallNull kind s := ⟨s, .refl, null⟩

/-- In the loop, an awaiter that has something to do makes its call. -/
theorem mayCallNull_of_running {a : A} (dropped : s.ssl = false) (busy : ¬ Harmless kind s a)
    (running : s.phase a = .running) : MayCallNull kind s := by
  obtain ⟨left, notDone⟩ := not_or.mp busy
  cases here : kind a with
  | handshake =>
      have fresh : s.handshakeDone ≠ true := fun done => notDone ⟨here, done⟩
      have run : step kind s (.sslCall a 0) =
          some ((s.log .SSL_do_handshake a).setPhase a .called) := by
        simp only [step, if_pos running, here, drive, if_neg fresh]
        rfl
      have null : ¬ NoNullCall ((s.log .SSL_do_handshake a).setPhase a .called) :=
        null_call_of_log .SSL_do_handshake a dropped rfl
      exact (mayCallNull_of_null null).of_step run
  | io d len full =>
      simp only [Spent, here] at left
      have run : step kind s (.sslCall a 0) =
          some (((s.log d.op a).atEnd d).setPhase a .finished) := by
        simp only [step, if_pos running, here, attemptOnce, if_neg left]
        rfl
      have null : ¬ NoNullCall (((s.log d.op a).atEnd d).setPhase a .finished) :=
        null_call_of_log d.op a dropped (by cases d <;> rfl)
      exact (mayCallNull_of_null null).of_step run

theorem mayCallNull_of_queued {a : A} (dropped : s.ssl = false) (busy : ¬ Harmless kind s a)
    (queued : s.phase a = .queued) : MayCallNull kind s := by
  have ran : MayCallNull kind (s.setPhase a .running) :=
    mayCallNull_of_running dropped busy (Function.update_self ..)
  exact ran.of_step (a := .work a) (if_pos queued)

theorem mayCallNull_of_armed {a : A} (dropped : s.ssl = false) (busy : ¬ Harmless kind s a)
    (armed : s.phase a = .armed) : MayCallNull kind s := by
  have posted : MayCallNull kind (s.setPhase a .queued) :=
    mayCallNull_of_queued dropped busy (Function.update_self ..)
  exact posted.of_step (a := .wake a) (if_pos armed)

/-- **The condition is needed**: without the SSL object, an awaiter with something to do, wherever
it is but among the waiters, may go on to a call with a null handle. -/
theorem null_call_follows {a : A} (dropped : s.ssl = false) (busy : ¬ Harmless kind s a)
    (pending : s.phase a = .queued ∨ s.phase a = .running ∨ s.phase a = .called ∨
      s.phase a = .blocked ∨ s.phase a = .armed) : MayCallNull kind s := by
  rcases pending with queued | running | called | blocked | armed
  · exact mayCallNull_of_queued dropped busy queued
  · exact mayCallNull_of_running dropped busy running
  · have run : step kind s (.getError a .wantRead) =
        some ((s.log .SSL_get_error a).setPhase a .blocked) := by
      simp only [step, if_pos called]
    have null : ¬ NoNullCall ((s.log .SSL_get_error a).setPhase a .blocked) :=
      null_call_of_log .SSL_get_error a dropped rfl
    exact (mayCallNull_of_null null).of_step run
  · have waits : MayCallNull kind (s.setPhase a .armed) :=
      mayCallNull_of_armed dropped busy (Function.update_self ..)
    exact waits.of_step (a := .registerWait a) (if_pos blocked)
  · exact mayCallNull_of_armed dropped busy armed

end Settled

/-! ## Concrete runs -/

/-- A handshake, a receive of 4 bytes or less and a send of 3. -/
def three : Fin 3 → Kind
  | 0 => .handshake
  | 1 => .io .recv 4 false
  | 2 => .io .send 3 true

def constructed (A : Type*) : State A where
  active := true
  ssl := true
  handshakeDone := false
  rxEof := false
  txShutdown := false
  queue := fun _ => ⟨false, []⟩
  phase := fun _ => .fresh
  got := fun _ => 0
  err := fun _ => 0
  closing := .idle
  calls := []

theorem init_constructed {A : Type*} [DecidableEq A] (kind : A → Kind) :
    (tlsSocket kind).init (constructed A) where
  active := rfl
  ssl := rfl
  handshakeDone := rfl
  queue _ := rfl
  phase _ := rfl
  got _ := rfl
  closing := rfl
  calls := rfl

/-- A handshake that waits once, a receive, a send in two parts, and then the close. -/
theorem no_null_call_three :
    ∃ s, (tlsSocket three).execOk (Settled three) (constructed (Fin 3))
        [.awaitSuspend 0, .sslCall 0 (-1), .getError 0 .wantRead, .registerWait 0, .wake 0, .work 0,
          .sslCall 0 1, .awaitSuspend 1, .awaitSuspend 2, .work 1, .sslCall 1 2, .work 2,
          .sslCall 2 2, .sslCall 2 1, .closeEnter, .closeReset, .serialRelease 1, .closeTransport,
          .closeFinish] = some s ∧
      s.ssl = false ∧ s.calls.length = 6 ∧ NoNullCall s := by
  have run : (tlsSocket three).execOk (Settled three) (constructed (Fin 3))
      ([.awaitSuspend 0, .sslCall 0 (-1), .getError 0 .wantRead, .registerWait 0, .wake 0, .work 0,
        .sslCall 0 1, .awaitSuspend 1, .awaitSuspend 2, .work 1, .sslCall 1 2, .work 2,
        .sslCall 2 2, .sslCall 2 1, .closeEnter, .closeReset, .serialRelease 1, .closeTransport,
        .closeFinish] : List (Action (Fin 3))) = some _ := rfl
  exact ⟨_, run, rfl, rfl, no_null_call three (.execOk (.init (init_constructed three)) run)⟩

/-- A receive waits in the reactor when `close` drops the SSL object; `remove_fd` posts it, and it
calls `SSL_read` again.  A close between a call and its `SSL_get_error` does the same. -/
theorem null_call :
    (∃ s, (tlsSocket three).Reachable s ∧ ⟨.SSL_read, 1, false⟩ ∈ s.calls) ∧
      (∃ s, (tlsSocket three).Reachable s ∧ ⟨.SSL_get_error, 2, false⟩ ∈ s.calls) ∧
      ¬ ∀ s, (tlsSocket three).Reachable s → NoNullCall s := by
  have woken : (tlsSocket three).exec (constructed (Fin 3))
      ([.awaitSuspend 1, .work 1, .sslCall 1 (-1), .getError 1 .wantRead, .registerWait 1,
        .closeEnter, .closeReset, .closeTransport, .work 1, .sslCall 1 (-1)] :
        List (Action (Fin 3))) = some _ := rfl
  have between : (tlsSocket three).exec (constructed (Fin 3))
      ([.awaitSuspend 2, .work 2, .sslCall 2 (-1), .closeEnter, .closeReset, .getError 2 .ssl] :
        List (Action (Fin 3))) = some _ := rfl
  have reach := Machine.Via.exec (.init (init_constructed three)) woken
  have last : (⟨.SSL_read, 1, false⟩ : Call (Fin 3)) ∈
      [⟨.SSL_read, 1, true⟩, ⟨.SSL_get_error, 1, true⟩, ⟨.SSL_read, 1, false⟩] := by decide
  refine ⟨⟨_, reach, last⟩, ⟨_, Machine.Via.exec (.init (init_constructed three)) between, ?_⟩, ?_⟩
  · exact List.mem_append_right _ (List.mem_singleton.mpr rfl)
  · intro clean
    exact absurd (clean _ reach _ last) (by decide)

end CoWq.TlsSocket
