import CoWq.IO.SerialSlot
import CoWq.Net.StreamSend

/-!
# What `send_all` and `recv_all` promise

The awaiters of a stream socket on their serial queues, up to the values they return.  `send_all`
is documented to send all bytes or to return an error, `recv_all` to receive all bytes unless the
peer ends the stream.

* `RecvAwaiter`, `sendClass`, `recvClass`: the derived classes.
* `SendAll`, `RecvAll`: the promises.
* `SendSettled`, `RecvSettled`: no call of the awaiter fails behind its first byte, no `send` with
  bytes to offer returns 0, and no close finds the awaiter waiting for the slot.
* `all_or_error`: in the runs of settled steps the promises are kept.
* `short_of_all`: other runs.
-/

namespace CoWq.StreamSocket

open IoSerial

/-! ## The classes -/

structure RecvAwaiter where
  full : Bool
  len : Nat
  recvd : Nat
  err : Int
  deriving DecidableEq, Repr

/-- `attempt_once` behind its `recv`. -/
def RecvAwaiter.answered (o : Flags) (a : RecvAwaiter) (r : Result) :
    (Flags × RecvAwaiter) × Attempt :=
  if 0 < r.n then
    ((o, { a with recvd := a.recvd + r.n.toNat }),
      if !a.full then .done else if a.recvd + r.n.toNat = a.len then .done else .progress)
  else if r.n = 0 then (({ o with rxEof := true }, a), .done)
  else if r.again then ((o, a), if !a.full && 0 < a.recvd then .done else .wouldBlock)
  else ((o, if a.recvd = 0 then { a with err := r.n } else a), .done)

/-- `attempt_once`: a `recv` at an offset of the buffer, with the length that is left. -/
def RecvAwaiter.attemptOnce (o : Flags) (a : RecvAwaiter) :
    Round (Flags × RecvAwaiter) (Nat × Nat) Result Attempt :=
  if a.len ≤ a.recvd then .quit else .call (a.recvd, a.len - a.recvd) (a.answered o)

/-- `await_resume` -/
def RecvAwaiter.awaitResume (a : RecvAwaiter) : Int :=
  if a.err < 0 ∧ a.recvd = 0 then a.err else ssize a.recvd

/-- `send`, `sendv` and both forms of `send_all`.  `close` resets the flags behind `close_fd`. -/
def sendClass : Derived Flags SendAwaiter (List UInt8) where
  init a := (∃ buf full, a = .ofBuf buf full) ∨ ∃ iov full, a = .ofIov iov full
  attemptOnce _ o a := a.attemptOnce o
  allowed := allowed
  closing o := o
  closed _ := ⟨false, false⟩

/-- `recv` and `recv_all` -/
def recvClass : Derived Flags RecvAwaiter (Nat × Nat) where
  init a := a.recvd = 0 ∧ a.err = 0
  attemptOnce _ o a := a.attemptOnce o
  allowed req r := r.n ≤ req.2
  closing o := o
  closed _ := ⟨false, false⟩

/-- The bytes that calls have received. -/
def received (log : List ((Nat × Nat) × Result)) : Nat :=
  log.foldl (fun n call => n + call.2.n.toNat) 0

/-- A `recv` has returned 0, where `attempt_once` marks the end of the stream. -/
def Ended (log : List ((Nat × Nat) × Result)) : Prop := ∃ call ∈ log, call.2.n = 0

/-! ## The promises -/

/-- All bytes were accepted, or the value is negative. -/
def SendAll (a : SendAwaiter) (log : List (List UInt8 × Result)) : Prop :=
  a.awaitResume = ssize a.len ∧ (accepted log).length = a.len ∨ a.awaitResume < 0

/-- All bytes were received, or some of them and the end of the stream, or the value is
negative. -/
def RecvAll (a : RecvAwaiter) (log : List ((Nat × Nat) × Result)) : Prop :=
  a.awaitResume = ssize a.len ∧ received log = a.len ∨
    (∃ n, n < a.len ∧ a.awaitResume = ssize n ∧ received log = n ∧ Ended log) ∨ a.awaitResume < 0

variable {A : Type*} [DecidableEq A]

/-- For one awaiter: its calls return 0 only if nothing is left to send, and fail only before the
first byte; a close does not find it among the waiters. -/
def SendSettled (a : A) (s : Drain A Flags SendAwaiter (List UInt8)) : Move A → Prop
  | .call b r => b = a → 0 < r.n ∨ (s.awaiter a).left = [] ∨
      r.n < 0 ∧ (r.again = true ∨ (s.awaiter a).sent = 0)
  | .serial .collectWaiters => a ∉ s.waiters
  | _ => True

/-- For one awaiter: its calls fail only before the first byte; a close does not find it among
the waiters. -/
def RecvSettled (a : A) (s : Drain A Flags RecvAwaiter (Nat × Nat)) : Move A → Prop
  | .call b r => b = a → 0 ≤ r.n ∨ r.again = true ∨ (s.awaiter a).recvd = 0
  | .serial .collectWaiters => a ∉ s.waiters
  | _ => True

/-! ## Sending -/

section Send

variable {a : SendAwaiter} {o : Flags} {log : List (List UInt8 × Result)}
  {req : List UInt8} {answer : Result → (Flags × SendAwaiter) × Attempt} {r : Result}

/-- In its rounds an awaiter has sent a prefix without an error. -/
def Sending (a : SendAwaiter) (log : List (List UInt8 × Result)) : Prop :=
  (∃ bytes, Sent bytes a log) ∧ a.err = 0

/-- Behind them one that is to send everything has, or it has an error and sent nothing. -/
def SendDone (a : SendAwaiter) (log : List (List UInt8 × Result)) : Prop :=
  (∃ bytes, Sent bytes a log) ∧ (a.full = true → a.sent = a.len ∨ a.err < 0 ∧ a.sent = 0)

theorem Sending.init (start : sendClass.init a) : Sending a [] := by
  rcases start with ⟨buf, full, rfl⟩ | ⟨iov, full, rfl⟩
  · exact ⟨⟨buf, .ofBuf buf full⟩, rfl⟩
  · exact ⟨⟨_, .ofIov iov full⟩, rfl⟩

/-- Nothing is left exactly when all is sent. -/
theorem Sent.left_eq_nil {bytes : List UInt8} (sent : Sent bytes a log) :
    a.left = [] ↔ a.sent = a.len := by
  have within := sent.within
  rw [sent.left, List.drop_eq_nil_iff, sent.len]
  omega

theorem Sending.leave (sending : Sending a log) (quit : a.attemptOnce o = .quit) :
    SendDone a log := by
  obtain ⟨⟨bytes, sent⟩, -⟩ := sending
  refine ⟨⟨bytes, sent⟩, fun _ => .inl (sent.left_eq_nil.mp ?_)⟩
  rw [SendAwaiter.attemptOnce] at quit
  rw [SendAwaiter.left]
  by_cases form : a.useVec = true
  · rw [if_pos form] at quit ⊢
    by_cases none' : a.vec = []
    · rw [none', List.flatten_nil]
    · rw [if_neg none'] at quit
      cases quit
  · rw [if_neg form] at quit ⊢
    have buf := sent.flat (by simpa using form)
    by_cases more : a.sent < a.len
    · rw [if_pos more] at quit
      cases quit
    · rw [buf]
      exact List.drop_eq_nil_of_le (by rw [← sent.len]; omega)

/-- A round that ends the loop by accepting something leaves nothing. -/
theorem SendAwaiter.accepts_last {bytes : List UInt8} (sent : Sent bytes a log)
    (calls : a.attemptOnce o = .call req answer) (may : allowed req r = true)
    (some' : 0 < r.n) (last : (answer r).2 = .done) :
    (answer r).1.2.sent = (answer r).1.2.len := by
  have next := sent.call calls may
  obtain ⟨-, data⟩ := SendAwaiter.accepts calls some'
  refine next.left_eq_nil.mp ?_
  rw [SendAwaiter.left, data]
  rw [SendAwaiter.attemptOnce] at calls
  by_cases form : a.useVec = true
  · rw [if_pos form] at calls
    by_cases none' : a.vec = []
    · rw [if_pos none'] at calls
      cases calls
    · rw [if_neg none'] at calls
      cases calls
      simp only [if_pos some'] at last
      by_cases empty : advanceIov r.n.toNat a.vec = []
      · simp [form, empty]
      · rw [if_neg empty] at last
        cases last
  · rw [if_neg form] at calls
    have buf := sent.flat (by simpa using form)
    by_cases more : a.sent < a.len
    · rw [if_pos more] at calls
      cases calls
      simp only [if_pos some'] at last
      by_cases all : a.sent + r.n.toNat = a.len
      · simp only [form, buf, Bool.false_eq_true, if_false, all]
        exact List.drop_eq_nil_of_le (by rw [← sent.len])
      · rw [if_neg all] at last
        cases last
    · rw [if_neg more] at calls
      cases calls

theorem Sending.call (sending : Sending a log) (calls : a.attemptOnce o = .call req answer)
    (may : allowed req r = true)
    (settled : 0 < r.n ∨ a.left = [] ∨ r.n < 0 ∧ (r.again = true ∨ a.sent = 0)) :
    if (answer r).2 = .done then SendDone (answer r).1.2 (log ++ [(req, r)])
    else Sending (answer r).1.2 (log ++ [(req, r)]) := by
  obtain ⟨⟨bytes, sent⟩, noErr⟩ := sending
  have next := sent.call calls may
  by_cases some' : 0 < r.n
  · obtain ⟨-, data⟩ := SendAwaiter.accepts calls some'
    by_cases last : (answer r).2 = .done
    · rw [if_pos last]
      exact ⟨⟨bytes, next⟩, fun _ => .inl (SendAwaiter.accepts_last sent calls may some' last)⟩
    · rw [if_neg last]
      exact ⟨⟨bytes, next⟩, by rw [data]; exact noErr⟩
  · have same := SendAwaiter.refuses calls some'
    rw [same] at next ⊢
    have all : a.left = [] → a.sent = a.len := sent.left_eq_nil.mp
    rw [SendAwaiter.refused] at next ⊢
    by_cases zero : r.n = 0
    · rw [if_pos zero] at next ⊢
      rw [if_pos rfl]
      refine ⟨⟨bytes, next⟩, fun _ => .inl (all ?_)⟩
      rcases settled with accepts | left | ⟨fails, -⟩
      · omega
      · exact left
      · omega
    · rw [if_neg zero] at next ⊢
      by_cases again : r.again = true
      · rw [if_pos again] at next ⊢
        by_cases full : a.full = true
        · rw [if_neg (by simp [full])]
          exact ⟨⟨bytes, next⟩, noErr⟩
        · rw [if_pos (by simp [full])]
          exact ⟨⟨bytes, next⟩, fun full' => (full full').elim⟩
      · rw [if_neg again] at next ⊢
        rw [if_pos rfl]
        refine ⟨⟨bytes, next⟩, fun _ => ?_⟩
        rcases settled with accepts | left | ⟨fails, again' | nothing⟩
        · omega
        · exact .inl (all left)
        · exact (again again').elim
        · exact .inr ⟨fails, nothing⟩

theorem SendDone.sendAll (done : SendDone a log) (full : a.full = true) : SendAll a log := by
  obtain ⟨⟨bytes, sent⟩, ends⟩ := done
  rcases ends full with all | ⟨error, nothing⟩
  · have size : (accepted log).length = a.len := by
      rw [sent.wire, List.length_take, Nat.min_eq_left sent.within, all]
    by_cases both : a.err < 0 ∧ a.sent = 0
    · exact .inr (by rw [SendAwaiter.awaitResume, if_pos both]; exact both.1)
    · exact .inl ⟨by rw [SendAwaiter.awaitResume, if_neg both, all], size⟩
  · exact .inr (by rw [SendAwaiter.awaitResume, if_pos ⟨error, nothing⟩]; exact error)

end Send

/-! ## Receiving -/

section Recv

variable {a : RecvAwaiter} {o : Flags} {log : List ((Nat × Nat) × Result)} {req : Nat × Nat}
  {answer : Result → (Flags × RecvAwaiter) × Attempt} {r : Result}

theorem received_append : received (log ++ [(req, r)]) = received log + r.n.toNat := by
  rw [received, List.foldl_append, List.foldl_cons, List.foldl_nil, received]

structure Receiving (a : RecvAwaiter) (log : List ((Nat × Nat) × Result)) : Prop where
  within : a.recvd ≤ a.len
  count : received log = a.recvd
  err : a.err = 0

/-- Behind its rounds an awaiter that is to receive everything has, or it has seen the end of the
stream, or it has an error and received nothing. -/
structure RecvDone (a : RecvAwaiter) (log : List ((Nat × Nat) × Result)) : Prop where
  within : a.recvd ≤ a.len
  count : received log = a.recvd
  ends : a.full = true → a.recvd = a.len ∨ Ended log ∨ a.err < 0 ∧ a.recvd = 0

theorem Receiving.init (start : recvClass.init a) : Receiving a [] :=
  ⟨by rw [start.1]; exact Nat.zero_le _, start.1.symm, start.2⟩

theorem Receiving.leave (receiving : Receiving a log) (quit : a.attemptOnce o = .quit) :
    RecvDone a log := by
  refine ⟨receiving.within, receiving.count, fun _ => .inl ?_⟩
  rw [RecvAwaiter.attemptOnce] at quit
  by_cases all : a.len ≤ a.recvd
  · exact Nat.le_antisymm receiving.within all
  · rw [if_neg all] at quit
    cases quit

theorem Receiving.call (receiving : Receiving a log)
    (calls : a.attemptOnce o = .call req answer) (may : recvClass.allowed req r = true)
    (settled : 0 ≤ r.n ∨ r.again = true ∨ a.recvd = 0) :
    if (answer r).2 = .done then RecvDone (answer r).1.2 (log ++ [(req, r)])
    else Receiving (answer r).1.2 (log ++ [(req, r)]) := by
  obtain ⟨within, count, noErr⟩ := receiving
  obtain ⟨bound, rfl⟩ : r.n ≤ (a.len - a.recvd : Nat) ∧ answer = a.answered o := by
    rw [RecvAwaiter.attemptOnce] at calls
    by_cases all : a.len ≤ a.recvd
    · rw [if_pos all] at calls
      cases calls
    · rw [if_neg all] at calls
      cases calls
      exact ⟨by simpa [recvClass] using may, rfl⟩
  rw [RecvAwaiter.answered]
  by_cases some' : 0 < r.n
  · have count' : received (log ++ [(req, r)]) = a.recvd + r.n.toNat := by
      rw [received_append, count]
    have within' : a.recvd + r.n.toNat ≤ a.len := by omega
    rw [if_pos some']
    by_cases full : a.full = true
    · by_cases last : a.recvd + r.n.toNat = a.len
      · rw [if_pos (by simp [full, last])]
        exact ⟨within', count', fun _ => .inl last⟩
      · rw [if_neg (by simp [full, last])]
        exact ⟨within', count', noErr⟩
    · rw [if_pos (by simp [full])]
      exact ⟨within', count', fun full' => (full full').elim⟩
  · have count' : received (log ++ [(req, r)]) = a.recvd := by
      rw [received_append, count]
      omega
    rw [if_neg some']
    by_cases zero : r.n = 0
    · rw [if_pos zero, if_pos rfl]
      have here : (req, r) ∈ log ++ [(req, r)] := by simp
      exact ⟨within, count', fun _ => .inr (.inl ⟨_, here, zero⟩)⟩
    · rw [if_neg zero]
      by_cases again : r.again = true
      · rw [if_pos again]
        by_cases full : a.full = true
        · rw [if_neg (by simp [full])]
          exact ⟨within, count', noErr⟩
        · by_cases some'' : 0 < a.recvd
          · rw [if_pos (by simp [full, some''])]
            exact ⟨within, count', fun full' => (full full').elim⟩
          · rw [if_neg (by simp [full, some''])]
            exact ⟨within, count', noErr⟩
      · have nothing : a.recvd = 0 := by
          rcases settled with accepts | again' | nothing
          · omega
          · exact (again again').elim
          · exact nothing
        rw [if_neg again, if_pos rfl, if_pos nothing]
        exact ⟨within, count', fun _ => .inr (.inr ⟨by dsimp only; omega, nothing⟩)⟩

theorem RecvDone.recvAll (done : RecvDone a log) (full : a.full = true) : RecvAll a log := by
  by_cases both : a.err < 0 ∧ a.recvd = 0
  · exact .inr (.inr (by rw [RecvAwaiter.awaitResume, if_pos both]; exact both.1))
  · have value : a.awaitResume = ssize a.recvd := by rw [RecvAwaiter.awaitResume, if_neg both]
    rcases Nat.lt_or_eq_of_le done.within with short | all
    · rcases done.ends full with all | ended | error
      · omega
      · exact .inr (.inl ⟨a.recvd, short, value, done.count, ended⟩)
      · exact (both error).elim
    · exact .inl ⟨value.trans (by rw [all]), done.count.trans all⟩

end Recv

/-! ## Every run -/

variable {a : A} {s t : Drain A Flags SendAwaiter (List UInt8)}
  {s' t' : Drain A Flags RecvAwaiter (Nat × Nat)}

theorem SendAll.of_settled (reach : sendClass.machine.Via (SendSettled a) s)
    (resumed : sendClass.step s (.serial (.resume a)) = some t)
    (full : (s.awaiter a).full = true) : SendAll (s.awaiter a) (s.log a) := by
  have lived : Lived sendClass Sending SendDone s a :=
    .via (fun _ => Sending.init) Sending.leave
      (fun settled sending calls may => sending.call calls may (settled rfl)) reach
  rcases Derived.resume_stage resumed with ended | off
  · exact (lived.ended ended).sendAll full
  · exact (Drain.not_calledOff (fun _ apart => apart) reach off).elim

theorem RecvAll.of_settled (reach : recvClass.machine.Via (RecvSettled a) s')
    (resumed : recvClass.step s' (.serial (.resume a)) = some t')
    (full : (s'.awaiter a).full = true) : RecvAll (s'.awaiter a) (s'.log a) := by
  have lived : Lived recvClass Receiving RecvDone s' a :=
    .via (fun _ => Receiving.init) Receiving.leave
      (fun settled receiving calls may => receiving.call calls may (settled rfl)) reach
  rcases Derived.resume_stage resumed with ended | off
  · exact (lived.ended ended).recvAll full
  · exact (Drain.not_calledOff (fun _ apart => apart) reach off).elim

/-- **`send_all` and `recv_all` keep their promises over settled runs.**  As long as the calls of
an awaiter fail only before its first byte, a `send` returns 0 only with nothing left, and no
close finds the awaiter waiting for the slot, its value is the length, or negative, or, for
`recv_all`, a smaller count behind the end of the stream. -/
theorem all_or_error (reach : sendClass.machine.Via (SendSettled a) s)
    (resumed : sendClass.step s (.serial (.resume a)) = some t)
    (full : (s.awaiter a).full = true) (reach' : recvClass.machine.Via (RecvSettled a) s')
    (resumed' : recvClass.step s' (.serial (.resume a)) = some t')
    (full' : (s'.awaiter a).full = true) :
    SendAll (s.awaiter a) (s.log a) ∧ RecvAll (s'.awaiter a) (s'.log a) :=
  ⟨.of_settled reach resumed full, .of_settled reach' resumed' full'⟩

/-! ## Runs -/

instance (a : A) (s : Drain A Flags SendAwaiter (List UInt8)) (m : Move A) :
    Decidable (SendSettled a s m) :=
  match m with
  | .call b r => inferInstanceAs (Decidable (b = a → 0 < r.n ∨ (s.awaiter a).left = [] ∨
      r.n < 0 ∧ (r.again = true ∨ (s.awaiter a).sent = 0)))
  | .leave _ => .isTrue trivial
  | .serial .collectWaiters => inferInstanceAs (Decidable (a ∉ s.waiters))
  | .serial (.awaitSuspend _) => .isTrue trivial
  | .serial .workOnce => .isTrue trivial
  | .serial .cbqRun => .isTrue trivial
  | .serial (.attemptOnce _ _) => .isTrue trivial
  | .serial (.registerWait _) => .isTrue trivial
  | .serial (.wake _ _) => .isTrue trivial
  | .serial (.serialRelease _) => .isTrue trivial
  | .serial (.postNext _) => .isTrue trivial
  | .serial (.resume _) => .isTrue trivial
  | .serial .removeFd => .isTrue trivial
  | .serial .postPending => .isTrue trivial
  | .serial (.reinit _) => .isTrue trivial

instance (a : A) (s : Drain A Flags RecvAwaiter (Nat × Nat)) (m : Move A) :
    Decidable (RecvSettled a s m) :=
  match m with
  | .call b r => inferInstanceAs (Decidable (b = a → 0 ≤ r.n ∨ r.again = true ∨
      (s.awaiter a).recvd = 0))
  | .leave _ => .isTrue trivial
  | .serial .collectWaiters => inferInstanceAs (Decidable (a ∉ s.waiters))
  | .serial (.awaitSuspend _) => .isTrue trivial
  | .serial .workOnce => .isTrue trivial
  | .serial .cbqRun => .isTrue trivial
  | .serial (.attemptOnce _ _) => .isTrue trivial
  | .serial (.registerWait _) => .isTrue trivial
  | .serial (.wake _ _) => .isTrue trivial
  | .serial (.serialRelease _) => .isTrue trivial
  | .serial (.postNext _) => .isTrue trivial
  | .serial (.resume _) => .isTrue trivial
  | .serial .removeFd => .isTrue trivial
  | .serial .postPending => .isTrue trivial
  | .serial (.reinit _) => .isTrue trivial

/-- A socket whose awaiters all are a `send_all` of two bytes. -/
def sendStart : Drain Nat Flags SendAwaiter (List UInt8) :=
  { start with
    owner := ⟨false, false⟩
    awaiter := fun _ => .ofBuf [7, 8] true
    log := fun _ => [] }

/-- A socket whose awaiters all are a `recv_all` of two bytes. -/
def recvStart : Drain Nat Flags RecvAwaiter (Nat × Nat) :=
  { start with
    owner := ⟨false, false⟩
    awaiter := fun _ => ⟨true, 2, 0, 0⟩
    log := fun _ => [] }

theorem sendStart_init : sendClass.machine.init sendStart :=
  ⟨start_init, fun _ => ⟨.inl ⟨_, _, rfl⟩, rfl⟩⟩

theorem recvStart_init : recvClass.machine.init recvStart :=
  ⟨start_init, fun _ => ⟨⟨rfl, rfl⟩, rfl⟩⟩

/-- The first awaiter makes two calls and is about to be resumed. -/
def twoCalls (first second : Result) : List (Move Nat) :=
  [.serial (.awaitSuspend 0), .serial .workOnce, .call 0 first, .call 0 second,
    .serial (.serialRelease 0)]

/-- The first awaiter waits for the slot of another when the socket is closed. -/
def closeWaiting : List (Move Nat) :=
  [.serial (.awaitSuspend 1), .serial (.awaitSuspend 0), .serial .removeFd,
    .serial .collectWaiters, .serial .postPending, .serial .workOnce, .serial .workOnce]

/-- Both bytes go in two calls; the `recv_all` gets one of them before the peer is done. -/
theorem all_or_error_twoCalls : ∃ s s',
    sendClass.machine.execOk (SendSettled 0) sendStart (twoCalls ⟨1, 0⟩ ⟨1, 0⟩) = some s ∧
    recvClass.machine.execOk (RecvSettled 0) recvStart (twoCalls ⟨1, 0⟩ ⟨0, 0⟩) = some s' ∧
    (s.awaiter 0).awaitResume = 2 ∧ (s'.awaiter 0).awaitResume = 1 ∧
    SendAll (s.awaiter 0) (s.log 0) ∧ RecvAll (s'.awaiter 0) (s'.log 0) := by
  obtain ⟨s, t, run, resumed, full, value⟩ : ∃ s t,
      sendClass.machine.execOk (SendSettled 0) sendStart (twoCalls ⟨1, 0⟩ ⟨1, 0⟩) = some s ∧
      sendClass.step s (.serial (.resume 0)) = some t ∧ (s.awaiter 0).full = true ∧
      (s.awaiter 0).awaitResume = 2 := ⟨_, _, rfl, rfl, rfl, rfl⟩
  obtain ⟨s', t', run', resumed', full', value'⟩ : ∃ s' t',
      recvClass.machine.execOk (RecvSettled 0) recvStart (twoCalls ⟨1, 0⟩ ⟨0, 0⟩) = some s' ∧
      recvClass.step s' (.serial (.resume 0)) = some t' ∧ (s'.awaiter 0).full = true ∧
      (s'.awaiter 0).awaitResume = 1 := ⟨_, _, rfl, rfl, rfl, rfl⟩
  obtain ⟨sendAll, recvAll⟩ := all_or_error (Machine.Via.execOk (.init sendStart_init) run) resumed
    full (Machine.Via.execOk (.init recvStart_init) run') resumed' full'
  exact ⟨s, s', run, run', value, value', sendAll, recvAll⟩

/-- A connection that breaks behind the first of two bytes, and a close that finds the awaiter
waiting: `send_all` returns 1 and 0, and so does `recv_all` without an end of the stream. -/
theorem short_of_all :
    (∃ s t, sendClass.machine.Reachable s ∧ sendClass.step s (.serial (.resume 0)) = some t ∧
      s.awaiter 0 = { SendAwaiter.ofBuf [7, 8] true with sent := 1, err := -1 } ∧
      (s.awaiter 0).awaitResume = 1 ∧ ¬ SendAll (s.awaiter 0) (s.log 0)) ∧
    (∃ s t, sendClass.machine.Reachable s ∧ sendClass.step s (.serial (.resume 0)) = some t ∧
      s.awaiter 0 = .ofBuf [7, 8] true ∧ (s.awaiter 0).awaitResume = 0 ∧
      ¬ SendAll (s.awaiter 0) (s.log 0)) ∧
    (∃ s t, recvClass.machine.Reachable s ∧ recvClass.step s (.serial (.resume 0)) = some t ∧
      s.awaiter 0 = ⟨true, 2, 1, 0⟩ ∧ (s.awaiter 0).awaitResume = 1 ∧
      ¬ RecvAll (s.awaiter 0) (s.log 0)) ∧
    ∃ s t, recvClass.machine.Reachable s ∧ recvClass.step s (.serial (.resume 0)) = some t ∧
      s.awaiter 0 = ⟨true, 2, 0, 0⟩ ∧ (s.awaiter 0).awaitResume = 0 ∧
      ¬ RecvAll (s.awaiter 0) (s.log 0) := by
  -- a value between 0 and the length keeps neither promise
  have short : ∀ {a : SendAwaiter} {log} {n : Nat}, a.len = 2 → a.awaitResume = n → n < 2 →
      ¬ SendAll a log := by
    rintro a log n len value few (⟨all, -⟩ | negative)
    · rw [value, len, ssize_of_lt (by omega)] at all
      omega
    · omega
  have short' : ∀ {a : RecvAwaiter} {log} {n : Nat}, a.len = 2 → a.awaitResume = n → n < 2 →
      ¬ Ended log → ¬ RecvAll a log := by
    rintro a log n len value few open' (⟨all, -⟩ | ⟨-, -, -, -, ended⟩ | negative)
    · rw [value, len, ssize_of_lt (by omega)] at all
      omega
    · exact open' ended
    · omega
  refine ⟨?_, ?_, ?_, ?_⟩
  · obtain ⟨s, t, run, resumed, data⟩ : ∃ s t,
        sendClass.machine.exec sendStart (twoCalls ⟨1, 0⟩ ⟨-1, EPIPE⟩) = some s ∧
        sendClass.step s (.serial (.resume 0)) = some t ∧
        s.awaiter 0 = { SendAwaiter.ofBuf [7, 8] true with sent := 1, err := -1 } :=
      ⟨_, _, rfl, rfl, rfl⟩
    refine ⟨s, t, .exec (.init sendStart_init) run, resumed, data, by rw [data]; rfl, ?_⟩
    exact short (n := 1) (by rw [data]; rfl) (by rw [data]; rfl) (by omega)
  · obtain ⟨s, t, run, resumed, data⟩ : ∃ s t,
        sendClass.machine.exec sendStart closeWaiting = some s ∧
        sendClass.step s (.serial (.resume 0)) = some t ∧
        s.awaiter 0 = .ofBuf [7, 8] true := ⟨_, _, rfl, rfl, rfl⟩
    refine ⟨s, t, .exec (.init sendStart_init) run, resumed, data, by rw [data]; rfl, ?_⟩
    exact short (n := 0) (by rw [data]; rfl) (by rw [data]; rfl) (by omega)
  · obtain ⟨s, t, run, resumed, data, log⟩ : ∃ s t,
        recvClass.machine.exec recvStart (twoCalls ⟨1, 0⟩ ⟨-1, ECONNRESET⟩) = some s ∧
        recvClass.step s (.serial (.resume 0)) = some t ∧ s.awaiter 0 = ⟨true, 2, 1, 0⟩ ∧
        s.log 0 = [((0, 2), ⟨1, 0⟩), ((1, 1), ⟨-1, ECONNRESET⟩)] := ⟨_, _, rfl, rfl, rfl, rfl⟩
    refine ⟨s, t, .exec (.init recvStart_init) run, resumed, data, by rw [data]; rfl, ?_⟩
    refine short' (n := 1) (by rw [data]) (by rw [data]; rfl) (by omega) ?_
    rw [log]
    simp [Ended]
  · obtain ⟨s, t, run, resumed, data, log⟩ : ∃ s t,
        recvClass.machine.exec recvStart closeWaiting = some s ∧
        recvClass.step s (.serial (.resume 0)) = some t ∧ s.awaiter 0 = ⟨true, 2, 0, 0⟩ ∧
        s.log 0 = [] := ⟨_, _, rfl, rfl, rfl, rfl⟩
    refine ⟨s, t, .exec (.init recvStart_init) run, resumed, data, by rw [data]; rfl, ?_⟩
    refine short' (n := 0) (by rw [data]) (by rw [data]; rfl) (by omega) ?_
    rw [log]
    simp [Ended]

end CoWq.StreamSocket
