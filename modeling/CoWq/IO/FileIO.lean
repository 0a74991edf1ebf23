import CoWq.IO.SerialSlot
import CoWq.IO.SerialDrain

/-!
# Reads and writes of a file handle

`write_awaiter` and `read_awaiter` of `file_handle` on their serial queues, with or without an
offset of the caller's that they advance, up to the values they return.

* `WriteAwaiter`, `ReadAwaiter`, `writeClass`, `readClass`: the derived classes.
* `Written`: the calls of a write are consecutive pieces of the buffer.
* `WriteReports`: what the value of a write says about them.
* `write_reports_iff`: it is right unless the first byte failed on an open handle.
* `silent_failure`: such a write.
-/

namespace CoWq.FileIO

open IoSerial

/-! ## The classes -/

structure WriteAwaiter where
  buf : List UInt8
  len : Nat
  done : Nat
  useOffset : Bool
  /-- `*pofs`, and its value when the awaiter was made -/
  pofs : Int
  pofs₀ : Int
  deriving DecidableEq, Repr

/-- `write` or `pwrite`: the offset, and the bytes offered. -/
abbrev Piece := Option Int × List UInt8

/-- `write_awaiter(f, b, l)` and `write_awaiter(f, b, l, ofs)` -/
def WriteAwaiter.make (buf : List UInt8) (ofs : Option Int) : WriteAwaiter :=
  ⟨buf, buf.length, 0, ofs.isSome, ofs.getD 0, ofs.getD 0⟩

/-- The loop of `try_write` behind its call. -/
def WriteAwaiter.answered (a : WriteAwaiter) (r : Result) : WriteAwaiter × Attempt :=
  let a := if a.useOffset && 0 < r.n then { a with pofs := a.pofs + r.n } else a
  if 0 < r.n then ({ a with done := a.done + r.n.toNat }, .progress)
  else if r.n < 0 && r.again then (a, .wouldBlock)
  else (a, .done)

/-- A round of `attempt_once`, that is of the loop of `try_write`. -/
def WriteAwaiter.attemptOnce (closed : Bool) (a : WriteAwaiter) :
    Round (Bool × WriteAwaiter) Piece Result Attempt :=
  if a.done < a.len then
    .call (if a.useOffset then some a.pofs else none, (a.buf.drop a.done).take (a.len - a.done))
      fun r => ((closed, (a.answered r).1), (a.answered r).2)
  else .quit

/-- `await_resume`, on a handle that is `closed()` or not. -/
def WriteAwaiter.awaitResume (closed : Bool) (a : WriteAwaiter) : Int :=
  if a.done = 0 ∧ closed = true then -1 else ssize a.done

structure ReadAwaiter where
  len : Nat
  nrd : Int
  useOffset : Bool
  pofs : Int
  deriving DecidableEq, Repr

/-- `read_awaiter(f, b, l)` and `read_awaiter(f, b, l, ofs)` -/
def ReadAwaiter.make (len : Nat) (ofs : Option Int) : ReadAwaiter :=
  ⟨len, -1, ofs.isSome, ofs.getD 0⟩

/-- `attempt_once` behind its call. -/
def ReadAwaiter.answered (a : ReadAwaiter) (r : Result) : ReadAwaiter × Attempt :=
  ({ a with nrd := r.n, pofs := if a.useOffset && 0 < r.n then a.pofs + r.n else a.pofs },
    if 0 ≤ r.n then .done else if r.again then .wouldBlock else .done)

/-- `attempt_once`.  Without a descriptor `try_read` answers -1 itself, behind the errno of some
earlier call. -/
def ReadAwaiter.attemptOnce (fdValid closed : Bool) (a : ReadAwaiter) :
    Round (Bool × ReadAwaiter) (Option (Option Int × Nat)) Result Attempt :=
  .call (if fdValid then some (if a.useOffset then some a.pofs else none, a.len) else none)
    fun r => ((closed, (a.answered r).1), (a.answered r).2)

/-- `await_resume`, on a handle that is `closed()` or not. -/
def ReadAwaiter.awaitResume (closed : Bool) (a : ReadAwaiter) : Int :=
  if a.nrd < 0 ∧ closed = true then -1 else a.nrd

/-- `write` and `pwrite` of a handle with the flag `_closed`, which `close` sets first.  The length
of the buffer is a `size_t`. -/
def writeClass : Derived Bool WriteAwaiter Piece where
  init a := ∃ buf ofs, buf.length < 2 ^ 64 ∧ a = .make buf ofs
  attemptOnce _ closed a := a.attemptOnce closed
  allowed req r := r.n ≤ req.2.length
  closing _ := true
  closed closed := closed

/-- `read` and `pread` -/
def readClass : Derived Bool ReadAwaiter (Option (Option Int × Nat)) where
  init a := ∃ len ofs, a = .make len ofs
  attemptOnce fdValid closed a := a.attemptOnce fdValid closed
  allowed req r :=
    match req with
    | none => r.n = -1
    | some (_, n) => r.n ≤ n
  closing _ := true
  closed closed := closed

variable {A D Req : Type*} [DecidableEq A]

/-- `closed()` -/
def isClosed (s : Drain A Bool D Req) : Bool := s.owner || !s.fdValid

/-- The handle may be closed at any time; no other is assigned to it. -/
def Kept (_ : Drain A Bool D Req) : Move A → Prop
  | .serial (.reinit _) => False
  | _ => True

/-! ## What the values say -/

/-- The bytes that calls have accepted. -/
def accepted (log : List (Piece × Result)) : List UInt8 :=
  log.flatMap fun call => call.1.2.take call.2.n.toNat

/-- An error other than a would-block has ended the calls. -/
def Failed {Req : Type*} (log : List (Req × Result)) : Prop :=
  ∃ call ∈ log, call.2.n < 0 ∧ call.2.again = false

/-- Each call offers the bytes behind those accepted before it, at the offset behind them. -/
def Consecutive (a : WriteAwaiter) : List (Piece × Result) → Prop :=
  Round.Each fun before call =>
    call.1 = (if a.useOffset then some (a.pofs₀ + (accepted before).length) else none,
      a.buf.drop (accepted before).length)

/-- The pieces are consecutive; a value that is not negative is the number of bytes accepted,
which are the first ones, and the growth of the offset; and the value is negative if nothing was
accepted and an error or a close has ended the write. -/
structure WriteReports (s : Drain A Bool WriteAwaiter Piece) (a : A) : Prop where
  pieces : Consecutive (s.awaiter a) (s.log a)
  count : ∀ n : Nat, (s.awaiter a).awaitResume (isClosed s) = n →
    accepted (s.log a) = (s.awaiter a).buf.take n ∧ n ≤ (s.awaiter a).len ∧
      ((s.awaiter a).useOffset = true → (s.awaiter a).pofs = (s.awaiter a).pofs₀ + n)
  failure : accepted (s.log a) = [] → Failed (s.log a) ∨ stage s.toState a = .calledOff →
    (s.awaiter a).awaitResume (isClosed s) < 0

/-! ## Writing -/

section Write

variable {a : WriteAwaiter} {log : List (Piece × Result)} {req : Piece} {r : Result}
  {closed : Bool} {answer : Result → (Bool × WriteAwaiter) × Attempt}

structure Written (a : WriteAwaiter) (log : List (Piece × Result)) : Prop where
  within : a.done ≤ a.len
  len : a.len = a.buf.length
  size : a.len < 2 ^ 64
  wire : accepted log = a.buf.take a.done
  pofs : a.useOffset = true → a.pofs = a.pofs₀ + a.done
  pieces : Consecutive a log

theorem accepted_append :
    accepted (log ++ [(req, r)]) = accepted log ++ req.2.take r.n.toNat := by
  rw [accepted, List.flatMap_append, List.flatMap_singleton, accepted]

theorem Written.length (written : Written a log) : (accepted log).length = a.done := by
  have within := written.within
  have len := written.len
  rw [written.wire, List.length_take]
  omega

theorem Written.init (start : writeClass.init a) : Written a [] := by
  obtain ⟨buf, ofs, small, rfl⟩ := start
  exact ⟨Nat.zero_le _, rfl, small, rfl, fun _ => by simp [WriteAwaiter.make], .nil⟩

theorem Written.offers (written : Written a log)
    (calls : a.attemptOnce closed = .call req answer) :
    req = (if a.useOffset then some (a.pofs₀ + (accepted log).length) else none,
      a.buf.drop (accepted log).length) ∧
      answer = fun r => ((closed, (a.answered r).1), (a.answered r).2) := by
  have size := written.length
  have len := written.len
  rw [WriteAwaiter.attemptOnce] at calls
  by_cases more : a.done < a.len
  · rw [if_pos more] at calls
    cases calls
    refine ⟨?_, rfl⟩
    rw [size, List.take_of_length_le (by rw [List.length_drop]; omega)]
    by_cases offset : a.useOffset = true
    · rw [if_pos offset, if_pos offset, written.pofs offset]
    · rw [if_neg offset, if_neg offset]
  · rw [if_neg more] at calls
    cases calls

/-- A call that accepts something moves count and offset together. -/
theorem WriteAwaiter.answered_accepts (some' : 0 < r.n) :
    a.answered r = ({ a with
      done := a.done + r.n.toNat
      pofs := if a.useOffset then a.pofs + r.n else a.pofs }, .progress) := by
  rw [WriteAwaiter.answered]
  by_cases offset : a.useOffset = true <;> simp [offset, some']

theorem WriteAwaiter.answered_refuses (none' : ¬ 0 < r.n) :
    a.answered r = (a, if r.n < 0 ∧ r.again = true then .wouldBlock else .done) := by
  rw [WriteAwaiter.answered]
  by_cases again : r.n < 0 ∧ r.again = true
  · simp [none', again]
  · rw [if_neg again]
    simp only [none', decide_false, Bool.and_false, Bool.false_eq_true, if_false]
    exact if_neg (by simpa using again)

theorem Written.call (written : Written a log)
    (calls : a.attemptOnce closed = .call req answer) (may : writeClass.allowed req r = true) :
    Written (answer r).1.2 (log ++ [(req, r)]) := by
  obtain ⟨offer, rfl⟩ := written.offers calls
  have size := written.length
  have len := written.len
  have within := written.within
  show Written (a.answered r).1 _
  by_cases some' : 0 < r.n
  · rw [WriteAwaiter.answered_accepts some']
    have bound : r.n ≤ (a.len - a.done : Nat) := by
      have fits : r.n ≤ req.2.length := by simpa [writeClass] using may
      rw [offer, List.length_drop, size, ← len] at fits
      exact fits
    refine ⟨?_, len, written.size, ?_, fun offset => ?_, written.pieces.append offer⟩
    · show a.done + r.n.toNat ≤ a.len
      omega
    · rw [accepted_append, written.wire, offer, size, List.take_add]
    · show (if a.useOffset then a.pofs + r.n else a.pofs) = a.pofs₀ + (a.done + r.n.toNat : Nat)
      rw [if_pos offset, written.pofs offset]
      omega
  · rw [WriteAwaiter.answered_refuses some']
    refine ⟨within, len, written.size, ?_, written.pofs, written.pieces.append offer⟩
    have nothing : r.n.toNat = 0 := by omega
    rw [accepted_append, nothing, List.take_zero, List.append_nil]
    exact written.wire

/-- A value that is not negative is the count. -/
theorem Written.of_awaitResume (written : Written a log) {n : Nat}
    (value : a.awaitResume closed = n) : a.done = n := by
  have within := written.within
  have size := written.size
  rw [WriteAwaiter.awaitResume] at value
  by_cases both : a.done = 0 ∧ closed = true
  · rw [if_pos both] at value
    omega
  · rw [if_neg both, ssize] at value
    by_cases small : a.done < 2 ^ 63
    · rw [if_pos small] at value
      omega
    · rw [if_neg small] at value
      omega

end Write

/-! ## Reading -/

section Read

variable {a : ReadAwaiter} {log : List (Option (Option Int × Nat) × Result)}
  {req : Option (Option Int × Nat)} {r : Result} {fdValid closed : Bool}
  {answer : Result → (Bool × ReadAwaiter) × Attempt}

theorem failed_append {Req : Type*} {log : List (Req × Result)} {req : Req} {r : Result} :
    Failed (log ++ [(req, r)]) ↔ Failed log ∨ r.n < 0 ∧ r.again = false := by
  simp only [Failed, List.mem_append, List.mem_singleton, or_and_right, exists_or,
    exists_eq_left]

/-- A read that goes on has not failed, and its value is still negative. -/
def Reading (a : ReadAwaiter) (log : List (Option (Option Int × Nat) × Result)) : Prop :=
  a.nrd < 0 ∧ ¬ Failed log

def ReadDone (a : ReadAwaiter) (log : List (Option (Option Int × Nat) × Result)) : Prop :=
  Failed log → a.nrd < 0

theorem Reading.call (reading : Reading a log)
    (calls : a.attemptOnce fdValid closed = .call req answer) :
    if (answer r).2 = .done then ReadDone (answer r).1.2 (log ++ [(req, r)])
    else Reading (answer r).1.2 (log ++ [(req, r)]) := by
  obtain ⟨-, open'⟩ := reading
  cases calls
  show if (a.answered r).2 = .done then ReadDone (a.answered r).1 _ else Reading (a.answered r).1 _
  rw [ReadAwaiter.answered]
  by_cases some' : 0 ≤ r.n
  · rw [if_pos some', if_pos rfl]
    intro failed
    rcases failed_append.mp failed with before | ⟨negative, -⟩
    · exact (open' before).elim
    · omega
  · rw [if_neg some']
    have negative : r.n < 0 := by omega
    by_cases again : r.again = true
    · rw [if_pos again, if_neg (by simp)]
      refine ⟨negative, fun failed => ?_⟩
      rcases failed_append.mp failed with before | ⟨-, not⟩
      · exact open' before
      · rw [again] at not
        cases not
    · rw [if_neg again, if_pos rfl]
      exact fun _ => negative

end Read

/-! ## Every run -/

variable {Req : Type*} {a : A} {s t : Drain A Bool WriteAwaiter Piece}
  {s' t' : Drain A Bool ReadAwaiter (Option (Option Int × Nat))}

/-- `close` sets the flag first, and nothing clears it. -/
theorem owner_of_calledOff {cls : Derived Bool D Req} {s : Drain A Bool D Req}
    {ok : Drain A Bool D Req → Move A → Prop} (closing : ∀ o, cls.closing o = true)
    (closed : ∀ o, cls.closed o = o)
    (keeps : ∀ {fd o d req answer r}, cls.attemptOnce fd o d = .call req answer →
      (answer r).1.1 = o)
    (reach : cls.machine.Via ok s) (a : A) (off : stage s.toState a = .calledOff) :
    s.owner = true := by
  have both : (s.closer ≠ .idle → s.owner = true) ∧
      (stage s.toState a = .calledOff → s.owner = true) := by
    refine reach.invariant_reach (I := fun s => (s.closer ≠ .idle → s.owner = true) ∧
      (stage s.toState a = .calledOff → s.owner = true)) (fun s start => ?_)
      fun s move t before held _ run => ?_
    · refine ⟨fun busy => (busy start.1.2.2.2.2.2.2.1).elim, fun off => ?_⟩
      rw [stage, start.1.2.2.2.2.2.1 a] at off
      cases off
    · -- the flag is only ever set
      obtain ⟨busy, off⟩ := held
      have stays : s.owner = true → t.owner = true := by
        intro set
        rcases Derived.step_owner run with ⟨act, -, -, owner⟩ |
          ⟨-, -, -, same | ⟨fd, d, req, answer, r, calls, owner⟩⟩
        · rw [owner]
          cases act <;> simp [Derived.flags, closing, closed, set]
        · rw [same, set]
        · rw [owner, keeps calls, set]
      refine ⟨fun busy' => ?_, fun off' => ?_⟩
      · rcases Derived.step_owner run with ⟨act, -, step, owner⟩ | ⟨b, v, step, -⟩
        · rcases step_closer step busy' with before | rfl
          · exact stays (busy before)
          · exact owner.trans (closing _)
        · rcases step_closer step busy' with before | wrong
          · exact stays (busy before)
          · cases wrong
      · cases Derived.step_affects (Drain.placed before) run a with
        | stays same => exact stays (off (same.symm.trans off'))
        | starts _ now =>
            have wrong := now.symm.trans off'
            cases wrong
        | callsOff move =>
            subst move
            have made : (IoSerial.step s.toState .collectWaiters).map _ = some t := run
            obtain ⟨u, step, -⟩ := Option.map_eq_some_iff.mp made
            obtain ⟨removing, -⟩ := Option.ite_none_right_eq_some.mp step
            exact stays (busy (by simp [removing]))
        | goes now =>
            have wrong := now.symm.trans off'
            cases wrong
        | leaves _ now =>
            have wrong := now.symm.trans off'
            cases wrong
        | calls _ _ now =>
            rw [now] at off'
            split at off' <;> cases off'
  exact both.2 off

/-- **A write reports what happened, unless its first byte failed on an open handle.**  The pieces
are always consecutive and the count is always right; what can be missing is the failure. -/
theorem WriteReports.iff_run (reach : writeClass.machine.Via Kept s)
    (resumed : writeClass.step s (.serial (.resume a)) = some t) :
    WriteReports s a ↔
      ¬ (accepted (s.log a) = [] ∧ Failed (s.log a) ∧ isClosed s = false) := by
  have lived : Lived writeClass Written Written s a := by
    refine .via (fun _ => Written.init) (fun written _ => written) ?_ reach
    intro s r req answer _ written calls may
    have next := written.call calls may
    split <;> exact next
  have written : Written (s.awaiter a) (s.log a) := by
    rcases Derived.resume_stage resumed with ended | off
    · exact lived.ended ended
    · obtain ⟨data, log⟩ := lived.calledOff off
      rw [log]
      exact .init data
  have none' : accepted (s.log a) = [] ↔ (s.awaiter a).done = 0 := by
    rw [← List.length_eq_zero_iff, written.length]
  have count : ∀ n : Nat, (s.awaiter a).awaitResume (isClosed s) = n →
      accepted (s.log a) = (s.awaiter a).buf.take n ∧ n ≤ (s.awaiter a).len ∧
        ((s.awaiter a).useOffset = true → (s.awaiter a).pofs = (s.awaiter a).pofs₀ + n) := by
    intro n value
    obtain rfl := written.of_awaitResume value
    exact ⟨written.wire, written.within, written.pofs⟩
  constructor
  · rintro reports ⟨nothing, failed, open'⟩
    have negative := reports.failure nothing (.inl failed)
    rw [WriteAwaiter.awaitResume, none'.mp nothing, open'] at negative
    simp [ssize] at negative
  · intro apart
    refine ⟨written.pieces, count, fun nothing ends => ?_⟩
    have closed : isClosed s = true := by
      rcases ends with failed | off
      · by_contra open'
        exact apart ⟨nothing, failed, by simpa using open'⟩
      · have owner := owner_of_calledOff (fun _ => rfl) (fun _ => rfl)
          (fun {fd o d req answer r} calls => ?_) reach a off
        · simp [isClosed, owner]
        · simp only [writeClass, WriteAwaiter.attemptOnce] at calls
          split at calls <;> cases calls
          rfl
    rw [WriteAwaiter.awaitResume, if_pos ⟨none'.mp nothing, closed⟩]
    omega

/-- The value of a read is negative whenever an error or a close has ended it. -/
theorem read_failure (reach : readClass.machine.Via Kept s')
    (resumed : readClass.step s' (.serial (.resume a)) = some t')
    (ends : Failed (s'.log a) ∨ stage s'.toState a = .calledOff) :
    (s'.awaiter a).awaitResume (isClosed s') < 0 := by
  have lived : Lived readClass Reading ReadDone s' a := by
    refine .via ?_ ?_ (fun _ reading calls _ => reading.call calls) reach
    · rintro d ⟨len, ofs, rfl⟩
      exact ⟨by simp [ReadAwaiter.make], by simp [Failed]⟩
    · intro fd o d log _ quit
      cases quit
  have negative : (s'.awaiter a).nrd < 0 := by
    rcases Derived.resume_stage resumed with ended | off
    · rcases ends with failed | off
      · exact lived.ended ended failed
      · exact nomatch ended.symm.trans off
    · obtain ⟨⟨len, ofs, data⟩, -⟩ := lived.calledOff off
      rw [data]
      simp [ReadAwaiter.make]
  rw [ReadAwaiter.awaitResume]
  by_cases both : (s'.awaiter a).nrd < 0 ∧ isClosed s' = true
  · rw [if_pos both]
    omega
  · rw [if_neg both]
    exact negative

/-- **File writes report what happened, unless the first byte fails on an open handle**, and reads
report every failure: in every run, closed at any point, of whatever length the buffer. -/
theorem write_reports_iff (reach : writeClass.machine.Via Kept s)
    (resumed : writeClass.step s (.serial (.resume a)) = some t)
    (reach' : readClass.machine.Via Kept s')
    (resumed' : readClass.step s' (.serial (.resume a)) = some t') :
    (WriteReports s a ↔
      ¬ (accepted (s.log a) = [] ∧ Failed (s.log a) ∧ isClosed s = false)) ∧
    (Failed (s'.log a) ∨ stage s'.toState a = .calledOff →
      (s'.awaiter a).awaitResume (isClosed s') < 0) :=
  ⟨WriteReports.iff_run reach resumed, read_failure reach' resumed'⟩

/-! ## Runs -/

def ENOSPC : Int := 28

instance (s : Drain A Bool D Req) (m : Move A) : Decidable (Kept s m) :=
  match m with
  | .call _ _ => .isTrue trivial
  | .leave _ => .isTrue trivial
  | .serial (.reinit _) => .isFalse id
  | .serial (.awaitSuspend _) => .isTrue trivial
  | .serial .workOnce => .isTrue trivial
  | .serial .cbqRun => .isTrue trivial
  | .serial (.attemptOnce _ _) => .isTrue trivial
  | .serial (.registerWait _) => .isTrue trivial
  | .serial (.wake _ _) => .isTrue trivial
  | .serial (.serialRelease _) => .isTrue trivial
  | .serial (.postNext _) => .isTrue trivial
  | .serial (.resume _) => .isTrue trivial
  | .serial .removeFd => .isTrue trivial
  | .serial .collectWaiters => .isTrue trivial
  | .serial .postPending => .isTrue trivial

/-- A handle whose awaiters all write two bytes at the offset 10. -/
def writeStart : Drain Nat Bool WriteAwaiter Piece :=
  { start with owner := false, awaiter := fun _ => .make [7, 8] (some 10), log := fun _ => [] }

/-- A handle whose awaiters all read up to two bytes. -/
def readStart : Drain Nat Bool ReadAwaiter (Option (Option Int × Nat)) :=
  { start with owner := false, awaiter := fun _ => .make 2 none, log := fun _ => [] }

theorem writeStart_init : writeClass.machine.init writeStart :=
  ⟨start_init, fun _ => ⟨⟨_, _, by simp, rfl⟩, rfl⟩⟩

theorem readStart_init : readClass.machine.init readStart :=
  ⟨start_init, fun _ => ⟨⟨_, _, rfl⟩, rfl⟩⟩

/-- A call would block, and the handle is closed while the awaiter is armed in the reactor. -/
def closeArmed (first : List Result) : List (Move Nat) :=
  [.serial (.awaitSuspend 0), .serial .workOnce] ++ first.map (.call 0) ++
    [.call 0 ⟨-1, EAGAIN⟩, .serial (.registerWait 0), .serial .removeFd, .serial (.wake 0 false),
      .serial .collectWaiters, .serial .postPending, .serial .workOnce, .call 0 ⟨-1, EBADF⟩,
      .serial (.serialRelease 0)]

/-- A `pwrite` of one byte out of two before the handle is closed, and a read of none. -/
theorem write_reports_iff_closeArmed : ∃ s s',
    writeClass.machine.execOk Kept writeStart (closeArmed [⟨1, 0⟩]) = some s ∧
    readClass.machine.execOk Kept readStart (closeArmed []) = some s' ∧
    (s.awaiter 0).awaitResume (isClosed s) = 1 ∧ (s.awaiter 0).pofs = 11 ∧ WriteReports s 0 ∧
    (s'.awaiter 0).awaitResume (isClosed s') < 0 := by
  obtain ⟨s, t, run, resumed, value, pofs, wire⟩ : ∃ s t,
      writeClass.machine.execOk Kept writeStart (closeArmed [⟨1, 0⟩]) = some s ∧
      writeClass.step s (.serial (.resume 0)) = some t ∧
      (s.awaiter 0).awaitResume (isClosed s) = 1 ∧ (s.awaiter 0).pofs = 11 ∧
      accepted (s.log 0) = [7] := ⟨_, _, rfl, rfl, rfl, rfl, rfl⟩
  obtain ⟨s', t', run', resumed', log⟩ : ∃ s' t',
      readClass.machine.execOk Kept readStart (closeArmed []) = some s' ∧
      readClass.step s' (.serial (.resume 0)) = some t' ∧
      s'.log 0 = [(some (none, 2), ⟨-1, EAGAIN⟩), (none, ⟨-1, EBADF⟩)] := ⟨_, _, rfl, rfl, rfl⟩
  obtain ⟨reports, failure⟩ := write_reports_iff (Machine.Via.execOk (.init writeStart_init) run)
    resumed (Machine.Via.execOk (.init readStart_init) run') resumed'
  have failed : Failed (s'.log 0) := ⟨(none, ⟨-1, EBADF⟩), by rw [log]; simp, by decide⟩
  exact ⟨s, s', run, run', value, pofs, reports.mpr (by simp [wire]), failure (.inl failed)⟩

/-- The disk is full at the first byte: the value is 0. -/
theorem silent_failure : ∃ s t, writeClass.machine.Via Kept s ∧
    writeClass.step s (.serial (.resume 0)) = some t ∧
    s.log 0 = [((some 10, [7, 8]), ⟨-1, ENOSPC⟩)] ∧
    (s.awaiter 0).awaitResume (isClosed s) = 0 ∧ ¬ WriteReports s 0 := by
  obtain ⟨s, t, run, resumed, log, value⟩ : ∃ s t,
      writeClass.machine.execOk Kept writeStart [.serial (.awaitSuspend 0), .serial .workOnce,
        .call 0 ⟨-1, ENOSPC⟩, .serial (.serialRelease 0)] = some s ∧
      writeClass.step s (.serial (.resume 0)) = some t ∧
      s.log 0 = [((some 10, [7, 8]), ⟨-1, ENOSPC⟩)] ∧
      (s.awaiter 0).awaitResume (isClosed s) = 0 := ⟨_, _, rfl, rfl, rfl, rfl⟩
  refine ⟨s, t, Machine.Via.execOk (.init writeStart_init) run, resumed, log, value,
    fun reports => ?_⟩
  have negative := reports.failure (by rw [log]; rfl)
    (.inl ⟨_, by rw [log]; exact List.mem_singleton_self _, by decide⟩)
  rw [value] at negative
  exact absurd negative (by decide)

end CoWq.FileIO
