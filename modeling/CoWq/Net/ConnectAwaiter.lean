import Mathlib.Data.List.Count
import CoWq.Lib.Machine
import CoWq.IO.Reactor

/-!
# What a connect results in

A `connect_awaiter` that waits in the reactor, the event loop, `close_fd` of another worker, and
the kernel, step by step.  The loop may hold an event of an earlier socket with the same number,
and a later socket may get the number.

* `State.awaitSuspend`, `awaitResume`: the awaiter.
* `Action`, `step`, `connecting`: the machine.
* `Right`: what a result is to mean.  `Settled`: the awaiter is not resumed while the socket is
  connecting, nor behind `os::close_fd`, unless its deadline woke it.
* `right_of_settled`: in the runs of settled steps results are right.
* `resumed_once`: in all runs the coroutine is resumed once.
* `zero_while_connecting`: other runs.
-/

namespace CoWq.ConnectAwaiter

open EpollReactor

/-! ## The machine -/

def ETIMEDOUT : Nat := 110
def EINPROGRESS : Nat := 115
def EWOULDBLOCK : Nat := 11

/-- The socket in the kernel. -/
inductive Conn
  /-- also behind `EAGAIN`, when the backlog of a unix socket is full: then it may stay so -/
  | connecting
  | connected
  | failed (err : Nat)
  deriving DecidableEq, Repr

/-- `SO_ERROR` -/
def Conn.soError : Conn → Nat
  | .connecting | .connected => 0
  | .failed err => err

/-- What the number of the socket names in the process. -/
inductive File
  | own
  | other (soError : Nat)
  | none
  deriving DecidableEq, Repr

/-- The event of the number in the batch, and whether it is about this socket. -/
structure Event where
  flags : UInt32
  own : Bool
  deriving DecidableEq, Repr

/-- How far `close_fd` has come. -/
inductive Closing (W : Type*)
  | opened
  /-- `remove_fd` has erased the entry -/
  | erased (toResume : List (WaiterItem W))
  /-- `remove_fd` has called `epoll_ctl` and posts -/
  | deleted (toResume : List (WaiterItem W))
  | woken
  /-- behind `os::close_fd` -/
  | fileClosed
  /-- `_fd` is invalid -/
  | closed
  deriving DecidableEq

def Closing.toResume {W : Type*} : Closing W → List (WaiterItem W)
  | .erased toResume | .deleted toResume => toResume
  | _ => []

/-- The socket has its file. -/
def Closing.Holds {W : Type*} : Closing W → Prop
  | .fileClosed | .closed => False
  | _ => True

/-- What took the awaiter out of the vector. -/
inductive Cause
  | event (own : Bool)
  | deadline
  | removed
  deriving DecidableEq, Repr

structure State (W : Type*) where
  kernel : Conn
  /-- the socket has been connected -/
  reached : Bool
  file : File
  slot : Slot W
  batch : Option Event
  /-- `to_resume` of the event loop -/
  toResume : List (WaiterItem W)
  /-- `timed_out` of the event loop -/
  timedOuts : List (WaiterItem W)
  closing : Closing W
  ret : Int
  timedOut : Bool
  /-- `timeout_func` is set -/
  timeoutFunc : Bool
  /-- posts of the awaiter that have not been run -/
  posted : Nat
  results : List (Int × Option Nat)
  cause : Option Cause
  /-- a sweep has read a clock behind the deadline -/
  swept : Bool

variable {W : Type*}

section

variable (awaiter : W) (deadline : Int)

/-- `await_suspend` behind `os::connect`, with the `errno` of a call that fails, else 0. -/
def State.awaitSuspend (s : State W) (errno : Nat) : State W :=
  if errno = 0 then { s with ret := 0, posted := s.posted + 1 }
  else if errno ≠ EINPROGRESS ∧ errno ≠ EWOULDBLOCK then
    { s with ret := -1, posted := s.posted + 1 }
  else
    { s with
      timedOut := false
      timeoutFunc := true
      slot := s.slot.registerWaiter ⟨EPOLLOUT, awaiter, true, deadline⟩ }

end

/-- `getsockopt` for `SO_ERROR` on `native_handle()`. -/
def getsockopt (s : State W) : Option Nat :=
  if s.closing matches .closed then none
  else
    match s.file with
    | .own => some s.kernel.soError
    | .other soError => some soError
    | .none => none

/-- `await_resume`: the result, and `errno` if it is set. -/
def awaitResume (s : State W) : Int × Option Nat :=
  if s.timedOut then (-1, some ETIMEDOUT)
  else if s.ret = 0 then
    match getsockopt s with
    | some 0 => (0, none)
    | some err => (-1, some err)
    -- a call that fails leaves `err` alone
    | none => (-1, some 0)
  else (s.ret, none)

/-- How often the awaiter is in a vector. -/
def copies [DecidableEq W] (awaiter : W) (items : List (WaiterItem W)) : Nat :=
  items.countP fun wi => wi.waiter = awaiter

inductive Action (W : Type*)
  /-- the kernel gets through -/
  | connect
  | fail (err : Nat)
  /-- `epoll_wait` -/
  | fetch (flags : UInt32)
  | dispatch
  /-- `collect_timeouts` -/
  | sweep (now : Int)
  /-- one round of the loop behind a critical section of the event loop -/
  | loopPost
  /-- the steps of `close_fd` -/
  | eraseFd
  | ctlDel
  | closePost
  | closeFile
  | invalidate
  /-- a later socket gets the number -/
  | openOther (soError : Nat)
  /-- other awaiters register on the number -/
  | registerWaiter (wi : WaiterItem W)
  /-- the executor runs `resume_cb` -/
  | resume
  deriving DecidableEq

section Step

variable [DecidableEq W] (awaiter : W) (deadline : Int)

/-- The awaiter may have been taken out of the vector. -/
def State.taken (s : State W) (items : List (WaiterItem W)) (cause : Cause) : State W :=
  { s with cause := if copies awaiter items = 0 then s.cause else some cause }

/-- `post_via_route` -/
def State.post (s : State W) (wi : WaiterItem W) : State W :=
  { s with posted := if wi.waiter = awaiter then s.posted + 1 else s.posted }

/-- `timeout_cb` -/
def State.timeoutCb (s : State W) (wi : WaiterItem W) : State W :=
  if wi.waiter = awaiter ∧ s.timeoutFunc then
    { s with timedOut := true, ret := -1, timeoutFunc := false }
  else s

/-- The event loop is through with its vectors. -/
def State.Free (s : State W) : Prop := s.toResume = [] ∧ s.timedOuts = []

instance (s : State W) : Decidable s.Free := inferInstanceAs (Decidable (_ ∧ _))

def step (s : State W) : Action W → Option (State W)
  | .connect =>
      if s.kernel = .connecting then some { s with kernel := .connected, reached := true } else none
  | .fail err =>
      if err ≠ 0 ∧ (s.kernel = .connecting ∨ s.kernel = .connected) then
        some { s with kernel := .failed err }
      else none
  | .fetch flags =>
      -- a unix socket behind `EAGAIN` reports `EPOLLOUT` and `EPOLLHUP`
      if s.batch = none ∧ s.Free ∧ s.file ≠ .none then
        some { s with batch := some ⟨flags, decide (s.file = .own)⟩ }
      else none
  | .dispatch =>
      match s.batch with
      | some e =>
          if s.Free then
            some (State.taken awaiter
              { s with
                batch := none
                slot := (s.slot.dispatch e.flags).2
                toResume := (s.slot.dispatch e.flags).1 }
              (s.slot.dispatch e.flags).1 (.event e.own))
          else none
      | none => none
  | .sweep now =>
      if s.batch = none ∧ s.Free then
        some (State.taken awaiter
          { s with
            slot := (s.slot.collectTimeouts now).2
            timedOuts := (s.slot.collectTimeouts now).1
            swept := s.swept || decide (deadline ≤ now) }
          (s.slot.collectTimeouts now).1 .deadline)
      else none
  | .loopPost =>
      match s.toResume, s.timedOuts with
      | wi :: items, _ => some (State.post awaiter { s with toResume := items } wi)
      | [], wi :: items =>
          some (State.post awaiter (State.timeoutCb awaiter { s with timedOuts := items } wi) wi)
      | [], [] => none
  | .eraseFd =>
      match s.closing with
      | .opened =>
          some (State.taken awaiter
            { s with closing := .erased s.slot.erase.1, slot := s.slot.erase.2 }
            s.slot.erase.1 .removed)
      | _ => none
  | .ctlDel =>
      match s.closing with
      | .erased items => some { s with closing := .deleted items, slot := s.slot.ctlDel }
      | _ => none
  | .closePost =>
      match s.closing with
      | .deleted (wi :: items) => some (State.post awaiter { s with closing := .deleted items } wi)
      | .deleted [] => some { s with closing := .woken }
      | _ => none
  | .closeFile =>
      match s.closing with
      | .woken =>
          some
            { s with
              closing := .fileClosed
              file := .none
              slot := { s.slot with kernel := ⟨false, none⟩ } }
      | _ => none
  | .invalidate =>
      match s.closing with
      | .fileClosed => some { s with closing := .closed }
      | _ => none
  | .openOther soError =>
      if s.file = .none then
        some { s with file := .other soError, slot := { s.slot with kernel := ⟨true, none⟩ } }
      else none
  | .registerWaiter wi =>
      if wi.waiter ≠ awaiter then some { s with slot := s.slot.registerWaiter wi } else none
  | .resume =>
      if 0 < s.posted then
        some
          { s with
            posted := s.posted - 1
            timeoutFunc := false
            timedOut := false
            results := s.results ++ [awaitResume s] }
      else none

/-- The connect has begun, and nobody knows of the awaiter; the event loop may have a batch from
before, with an event of an earlier socket. -/
structure Begun (s : State W) : Prop where
  kernel : s.kernel = .connecting
  reached : s.reached = false
  file : s.file = .own
  unknown : copies awaiter s.slot.waiters = 0
  batch : ∀ e ∈ s.batch, e.own = false
  toResume : s.toResume = []
  timedOuts : s.timedOuts = []
  closing : s.closing = .opened
  ret : s.ret = 0
  posted : s.posted = 0
  results : s.results = []
  cause : s.cause = none
  swept : s.swept = false

/-- The awaiter has been registered by `await_suspend`. -/
def init (s : State W) : Prop :=
  ∃ before errno, Begun awaiter before ∧ (errno = EINPROGRESS ∨ errno = EWOULDBLOCK) ∧
    s = State.awaitSuspend awaiter deadline before errno

def connecting : Machine (State W) (Action W) where
  init := init awaiter deadline
  step := step awaiter deadline

/-! ## What a result is to mean -/

/-- The result `r` of the awaiter in the state `s`, and in the later ones. -/
structure Right (s : State W) (r : Int × Option Nat) : Prop where
  connected : r.1 = 0 → s.reached = true
  deadline : r = (-1, some ETIMEDOUT) ↔ s.cause = some .deadline
  error : r.1 = 0 ∨ r.1 = -1 ∧ ∃ err, r.2 = some err ∧ err ≠ 0

/-- Unless its deadline has woken the awaiter, it is resumed before `os::close_fd`, and not while
the socket is connecting; and the kernel does not give up with `ETIMEDOUT` by itself. -/
def Settled (s : State W) : Action W → Prop
  | .fail err => err ≠ ETIMEDOUT
  | .resume => s.cause ≠ some .deadline → s.file = .own ∧ s.kernel ≠ .connecting
  | _ => True

instance (s : State W) (a : Action W) : Decidable (Settled s a) :=
  match a with
  | .fail err => inferInstanceAs (Decidable (err ≠ ETIMEDOUT))
  | .resume => inferInstanceAs (Decidable (s.cause ≠ some .deadline →
      s.file = .own ∧ s.kernel ≠ .connecting))
  | .connect | .fetch _ | .dispatch | .sweep _ | .loopPost | .eraseFd | .ctlDel | .closePost
  | .closeFile | .invalidate | .openOther _ | .registerWaiter _ =>
      inferInstanceAs (Decidable True)

/-- A sweep has found the deadline passed, and nothing is left to post or to run. -/
def State.Quiet (s : State W) : Prop :=
  s.swept = true ∧ s.Free ∧ s.closing.toResume = [] ∧ s.posted = 0

end Step

/-! ## Where the awaiter is -/

section Place

variable [DecidableEq W] {awaiter : W} {deadline : Int} {s t : State W}

theorem copies_cons (wi : WaiterItem W) (items : List (WaiterItem W)) :
    copies awaiter (wi :: items) = copies awaiter items + if wi.waiter = awaiter then 1 else 0 := by
  simp [copies, List.countP_cons]

theorem copies_append (xs ys : List (WaiterItem W)) :
    copies awaiter (xs ++ ys) = copies awaiter xs + copies awaiter ys :=
  List.countP_append

/-- A predicate splits a vector. -/
theorem copies_filter (pred : WaiterItem W → Bool) (items : List (WaiterItem W)) :
    copies awaiter (items.filter pred) + copies awaiter (items.filter fun wi => !pred wi) =
      copies awaiter items := by
  rw [copies, copies, copies, List.countP_eq_countP_filter_add items _ pred]

theorem exists_of_copies {items : List (WaiterItem W)} (some' : copies awaiter items ≠ 0) :
    ∃ wi ∈ items, wi.waiter = awaiter := by
  obtain ⟨wi, listed, here⟩ := List.countP_pos_iff.mp (Nat.pos_of_ne_zero some')
  exact ⟨wi, listed, of_decide_eq_true here⟩

variable (awaiter deadline) in
/-- The awaiter is at one place, and its fields say what took it out of the vector. -/
structure Placed (s : State W) : Prop where
  one : copies awaiter s.slot.waiters + copies awaiter s.toResume + copies awaiter s.timedOuts +
    copies awaiter s.closing.toResume + s.posted + s.results.length = 1
  item : ∀ wi ∈ s.slot.waiters, wi.waiter = awaiter → wi = ⟨EPOLLOUT, awaiter, true, deadline⟩
  waits : s.cause = none ↔ copies awaiter s.slot.waiters ≠ 0
  timing : copies awaiter s.timedOuts ≠ 0 → s.cause = some .deadline
  told : s.results = [] → (s.timedOut = true ↔
    s.cause = some .deadline ∧ copies awaiter s.timedOuts = 0)
  ret : s.results = [] → s.ret = if s.timedOut then -1 else 0
  func : s.results = [] → s.timeoutFunc = !s.timedOut
  file : s.file = .own ↔ s.closing.Holds
  swept : s.swept = true → copies awaiter s.slot.waiters = 0

omit [DecidableEq W] in
theorem awaitSuspend_pending {errno : Nat} (pending : errno = EINPROGRESS ∨ errno = EWOULDBLOCK) :
    State.awaitSuspend awaiter deadline s errno =
      { s with
        timedOut := false
        timeoutFunc := true
        slot := s.slot.registerWaiter ⟨EPOLLOUT, awaiter, true, deadline⟩ } := by
  rcases pending with rfl | rfl <;> rfl

theorem Placed.init (start : init awaiter deadline s) : Placed awaiter deadline s := by
  obtain ⟨before, errno, begun, pending, rfl⟩ := start
  rw [awaitSuspend_pending pending]
  have once : copies awaiter
      (before.slot.registerWaiter ⟨EPOLLOUT, awaiter, true, deadline⟩).waiters = 1 := by
    rw [Slot.waiters_registerWaiter, copies_append, begun.unknown, copies_cons, if_pos rfl]
    rfl
  exact {
    one := by
      simp only [once, begun.toResume, begun.timedOuts, begun.closing, begun.posted, begun.results]
      rfl
    item := by
      intro wi listed here
      rw [Slot.waiters_registerWaiter] at listed
      rcases List.mem_append.mp listed with old | new
      · exact absurd here (of_decide_eq_false (by
          simpa using List.countP_eq_zero.mp begun.unknown wi old))
      · exact List.mem_singleton.mp new
    waits := iff_of_true begun.cause (once.trans_ne Nat.one_ne_zero)
    timing := by
      intro some'
      rw [begun.timedOuts] at some'
      exact absurd rfl some'
    told := fun _ => by simp [begun.cause]
    ret := fun _ => by simp [begun.ret]
    func := fun _ => rfl
    file := by simp [begun.file, begun.closing, Closing.Holds]
    swept := by
      intro here
      rw [begun.swept] at here
      cases here }

/-- The awaiter waits until it is taken. -/
theorem Placed.cause_taken (placed : Placed awaiter deadline s) {items kept : List (WaiterItem W)}
    {cause : Cause}
    (parts : copies awaiter items + copies awaiter kept = copies awaiter s.slot.waiters) :
    (if copies awaiter items = 0 then s.cause else some cause) = none ↔
      copies awaiter kept ≠ 0 := by
  have one := placed.one
  by_cases none' : copies awaiter items = 0
  · rw [if_pos none', placed.waits]
    omega
  · rw [if_neg none']
    constructor
    · intro h
      cases h
    · intro some'
      omega

/-- What takes the awaiter is the first to do so. -/
theorem Placed.cause_fresh (placed : Placed awaiter deadline s) {items : List (WaiterItem W)}
    (some' : copies awaiter items ≠ 0)
    (part : copies awaiter items ≤ copies awaiter s.slot.waiters) :
    s.cause = none :=
  placed.waits.mpr (by omega)

/-- The parts of a critical section that takes waiters out of the vector. -/
theorem copies_dispatch (awaiter : W) (slot : Slot W) (flags : UInt32) :
    copies awaiter (slot.dispatch flags).1 + copies awaiter (slot.dispatch flags).2.waiters =
      copies awaiter slot.waiters := by
  rw [Slot.dispatch_fst, Slot.waiters_dispatch, copies_filter]

@[inherit_doc copies_dispatch]
theorem copies_collectTimeouts (awaiter : W) (slot : Slot W) (now : Int) :
    copies awaiter (slot.collectTimeouts now).1 +
      copies awaiter (slot.collectTimeouts now).2.waiters = copies awaiter slot.waiters := by
  rw [Slot.collectTimeouts_fst, Slot.waiters_collectTimeouts, copies_filter]

/-- A critical section takes waiters out of the vector: those behind their deadline into
`timed_out`, others into the vector of who has taken them. -/
theorem Placed.taken (placed : Placed awaiter deadline s) {cause : Cause} {batch : Option Event}
    {slot : Slot W} {items toResume timedOuts : List (WaiterItem W)} {closing : Closing W}
    {swept : Bool}
    (parts : copies awaiter items + copies awaiter slot.waiters = copies awaiter s.slot.waiters)
    (kept : ∀ wi ∈ slot.waiters, wi ∈ s.slot.waiters)
    (late : copies awaiter timedOuts =
      copies awaiter s.timedOuts + if cause = .deadline then copies awaiter items else 0)
    (early : copies awaiter toResume + copies awaiter closing.toResume =
      copies awaiter s.toResume + copies awaiter s.closing.toResume +
        if cause = .deadline then 0 else copies awaiter items)
    (holds : closing.Holds ↔ s.closing.Holds)
    (now : swept = true → s.swept = true ∨ copies awaiter slot.waiters = 0) :
    Placed awaiter deadline (State.taken awaiter
      { s with
        batch := batch
        slot := slot
        toResume := toResume
        timedOuts := timedOuts
        closing := closing
        swept := swept } items cause) where
  one := by
    have one := placed.one
    simp only [State.taken]
    split_ifs at late early <;> omega
  item wi listed := placed.item wi (kept wi listed)
  waits := placed.cause_taken parts
  timing some' := by
    simp only [State.taken] at some' ⊢
    by_cases none' : copies awaiter items = 0
    · rw [if_pos none']
      apply placed.timing
      split_ifs at late <;> omega
    · rw [if_neg none']
      have before := placed.cause_fresh none' (by omega)
      have waits := mt placed.timing (by rw [before]; simp)
      split_ifs at late with deadline
      · rw [deadline]
      · omega
  told none' := by
    simp only [State.taken]
    rw [placed.told none']
    by_cases untouched : copies awaiter items = 0
    · rw [if_pos untouched, late, untouched, ite_self, Nat.add_zero]
    · have before := placed.cause_fresh untouched (by omega)
      rw [if_neg untouched, before, late]
      constructor
      · rintro ⟨h, -⟩
        cases h
      · rintro ⟨h, zero⟩
        rw [if_pos (Option.some.inj h)] at zero
        omega
  ret := placed.ret
  func := placed.func
  file := placed.file.trans holds.symm
  swept here := by
    rcases now here with before | zero
    · have none' := placed.swept before
      simp only [State.taken]
      omega
    · exact zero

/-- The event of the batch is dispatched. -/
theorem Placed.dispatch (placed : Placed awaiter deadline s) (e : Event) (free : s.Free) :
    Placed awaiter deadline (State.taken awaiter
      { s with
        batch := none
        slot := (s.slot.dispatch e.flags).2
        toResume := (s.slot.dispatch e.flags).1 }
      (s.slot.dispatch e.flags).1 (.event e.own)) := by
  have parts := copies_dispatch awaiter s.slot e.flags
  apply placed.taken parts
  · intro wi listed
    rw [Slot.waiters_dispatch] at listed
    exact List.mem_of_mem_filter listed
  · rfl
  · rw [free.1, if_neg (by simp)]
    simp only [copies, List.countP_nil]
    omega
  · rfl
  · exact .inl

/-- The clock is read, and the waiters behind their deadline are taken. -/
theorem Placed.sweep (placed : Placed awaiter deadline s) (free : s.Free) (now : Int) :
    Placed awaiter deadline (State.taken awaiter
      { s with
        slot := (s.slot.collectTimeouts now).2
        timedOuts := (s.slot.collectTimeouts now).1
        swept := s.swept || decide (deadline ≤ now) }
      (s.slot.collectTimeouts now).1 .deadline) := by
  have parts := copies_collectTimeouts awaiter s.slot now
  apply placed.taken parts
  · intro wi listed
    rw [Slot.waiters_collectTimeouts] at listed
    exact List.mem_of_mem_filter listed
  · rw [free.2, if_pos rfl]
    simp only [copies, List.countP_nil]
    omega
  · rfl
  · rfl
  · intro swept
    rcases Bool.or_eq_true_iff.mp swept with before | late
    · exact .inl before
    · -- the awaiter has this deadline
      right
      by_contra some'
      obtain ⟨wi, listed, rfl⟩ := exists_of_copies some'
      rw [Slot.waiters_collectTimeouts, List.mem_filter] at listed
      obtain ⟨listed, early⟩ := listed
      rw [placed.item wi listed rfl] at early
      simp only [Slot.timedOut, Bool.true_and, late] at early
      cases early

/-- `remove_fd` takes all waiters. -/
theorem Placed.erase (placed : Placed awaiter deadline s) (opened : s.closing = .opened) :
    Placed awaiter deadline (State.taken awaiter
      { s with closing := .erased s.slot.erase.1, slot := s.slot.erase.2 }
      s.slot.erase.1 .removed) := by
  apply placed.taken
  · rw [Slot.erase_fst, Slot.waiters_erase]
    rfl
  · intro wi listed
    rw [Slot.waiters_erase] at listed
    cases listed
  · rw [if_neg (by simp)]
    rfl
  · rw [if_neg (by simp), opened]
    simp only [Closing.toResume, copies, List.countP_nil]
    omega
  · rw [opened]
    rfl
  · exact .inl

/-- A waiter is posted out of the vector of who has taken it. -/
theorem Placed.post (placed : Placed awaiter deadline s) (wi : WaiterItem W)
    (toResume : List (WaiterItem W)) (closing : Closing W)
    (held : copies awaiter toResume + copies awaiter closing.toResume +
        (if wi.waiter = awaiter then 1 else 0) =
      copies awaiter s.toResume + copies awaiter s.closing.toResume)
    (holds : closing.Holds ↔ s.closing.Holds) :
    Placed awaiter deadline
      (State.post awaiter { s with toResume := toResume, closing := closing } wi) :=
  { placed with
    one := by
      have one := placed.one
      simp only [State.post]
      split_ifs at held ⊢ <;> omega
    file := placed.file.trans holds.symm }

/-- A waiter behind its deadline is told so and posted. -/
theorem Placed.postTimedOut (placed : Placed awaiter deadline s) {wi : WaiterItem W}
    {items : List (WaiterItem W)} (here : s.timedOuts = wi :: items) :
    Placed awaiter deadline
      (State.post awaiter (State.timeoutCb awaiter { s with timedOuts := items } wi) wi) := by
  have one := placed.one
  have timing := placed.timing
  rw [here, copies_cons] at one timing
  by_cases hit : wi.waiter = awaiter
  · rw [if_pos hit] at one timing
    have told := fun none' => placed.told none'
    have due := timing (by omega)
    have fresh : s.results = [] := List.length_eq_zero_iff.mp (by omega)
    have before : s.timedOut = false := by
      rw [Bool.eq_false_iff, ne_eq, told fresh, here, copies_cons, if_pos hit]
      omega
    have set : s.timeoutFunc = true := by rw [placed.func fresh, before, Bool.not_false]
    have run : State.timeoutCb awaiter { s with timedOuts := items } wi =
        { s with timedOuts := items, timedOut := true, ret := -1, timeoutFunc := false } :=
      if_pos ⟨hit, set⟩
    rw [run]
    exact { placed with
      one := by
        simp only [State.post, if_pos hit]
        omega
      timing := fun _ => due
      told := fun _ => by
        have none' : copies awaiter items = 0 := by omega
        simp only [State.post, due, none', true_and]
      ret := fun _ => rfl
      func := fun _ => rfl }
  · rw [if_neg hit] at one timing
    have run : State.timeoutCb awaiter { s with timedOuts := items } wi =
        { s with timedOuts := items } := if_neg fun h => hit h.1
    rw [run]
    exact { placed with
      one := by
        simp only [State.post, if_neg hit]
        omega
      timing := timing
      told := fun none' => by
        have told := placed.told none'
        rw [here, copies_cons, if_neg hit] at told
        exact told }

/-- The coroutine is resumed. -/
theorem Placed.resume (placed : Placed awaiter deadline s) (due : 0 < s.posted) :
    Placed awaiter deadline
      { s with
        posted := s.posted - 1
        timeoutFunc := false
        timedOut := false
        results := s.results ++ [awaitResume s] } :=
  { placed with
    one := by
      have one := placed.one
      simp only [List.length_append, List.length_singleton]
      omega
    told := fun none' => absurd none' (by simp)
    ret := fun none' => absurd none' (by simp)
    func := fun none' => absurd none' (by simp) }

/-- `close_fd` goes on with the items it has. -/
theorem Placed.close (placed : Placed awaiter deadline s) {closing : Closing W} {file : File}
    {slot : Slot W} (waiters : slot.waiters = s.slot.waiters)
    (items : closing.toResume = s.closing.toResume) (holds : file = .own ↔ closing.Holds) :
    Placed awaiter deadline { s with closing, file, slot } :=
  { placed with
    one := by
      rw [waiters, items]
      exact placed.one
    item := by
      rw [waiters]
      exact placed.item
    waits := by
      rw [waiters]
      exact placed.waits
    file := holds
    swept := by
      rw [waiters]
      exact placed.swept }

/-- Another awaiter registers. -/
theorem Placed.registerWaiter (placed : Placed awaiter deadline s) {wi : WaiterItem W}
    (other : wi.waiter ≠ awaiter) :
    Placed awaiter deadline { s with slot := s.slot.registerWaiter wi } := by
  have same : copies awaiter (s.slot.registerWaiter wi).waiters =
      copies awaiter s.slot.waiters := by
    rw [Slot.waiters_registerWaiter, copies_append, copies_cons, if_neg other]
    rfl
  exact { placed with
    one := by
      rw [same]
      exact placed.one
    item := by
      intro wi' listed here
      rw [Slot.waiters_registerWaiter] at listed
      rcases List.mem_append.mp listed with listed | last
      · exact placed.item wi' listed here
      · rw [List.mem_singleton.mp last] at here
        exact absurd here other
    waits := by
      rw [same]
      exact placed.waits
    swept := by
      rw [same]
      exact placed.swept }

theorem Placed.step (placed : Placed awaiter deadline s) {a : Action W}
    (run : step awaiter deadline s a = some t) : Placed awaiter deadline t := by
  cases a with
  | connect | fail | fetch =>
      obtain ⟨-, run⟩ := Option.ite_none_right_eq_some.mp run
      cases run
      exact { placed with }
  | dispatch =>
      simp only [ConnectAwaiter.step] at run
      split at run
      · next e here =>
          obtain ⟨free, run⟩ := Option.ite_none_right_eq_some.mp run
          cases run
          exact placed.dispatch e free
      · cases run
  | sweep now =>
      obtain ⟨⟨-, free⟩, run⟩ := Option.ite_none_right_eq_some.mp run
      cases run
      exact placed.sweep free now
  | loopPost =>
      simp only [ConnectAwaiter.step] at run
      split at run
      · next wi items here =>
          cases run
          apply placed.post wi items s.closing
          · rw [here, copies_cons]
            omega
          · rfl
      · next wi items here =>
          cases run
          exact placed.postTimedOut here
      · cases run
  | eraseFd =>
      simp only [ConnectAwaiter.step] at run
      split at run
      · next opened =>
          cases run
          exact placed.erase opened
      · cases run
  | ctlDel =>
      simp only [ConnectAwaiter.step] at run
      split at run
      · next items here =>
          cases run
          refine placed.close rfl (by rw [here]; rfl) ?_
          rw [placed.file, here]
          rfl
      · cases run
  | closePost =>
      simp only [ConnectAwaiter.step] at run
      split at run
      · next wi items here =>
          cases run
          apply placed.post wi s.toResume (.deleted items)
          · rw [here]
            simp only [Closing.toResume, copies_cons]
            omega
          · rw [here]
            rfl
      · next here =>
          cases run
          refine placed.close rfl (by rw [here]; rfl) ?_
          rw [placed.file, here]
          rfl
      · cases run
  | closeFile =>
      simp only [ConnectAwaiter.step] at run
      split at run
      · next here =>
          cases run
          exact placed.close rfl (by rw [here]; rfl) (iff_of_false (by simp) id)
      · cases run
  | invalidate =>
      simp only [ConnectAwaiter.step] at run
      split at run
      · next here =>
          cases run
          refine placed.close rfl (by rw [here]; rfl) ?_
          rw [placed.file, here]
          rfl
      · cases run
  | openOther soError =>
      obtain ⟨free, run⟩ := Option.ite_none_right_eq_some.mp run
      cases run
      have file := placed.file
      rw [free] at file
      exact { placed with
        file := iff_of_false (by simp) fun holds => absurd (file.mpr holds) (by simp) }
  | registerWaiter wi =>
      obtain ⟨other, run⟩ := Option.ite_none_right_eq_some.mp run
      cases run
      exact placed.registerWaiter other
  | resume =>
      obtain ⟨due, run⟩ := Option.ite_none_right_eq_some.mp run
      cases run
      exact placed.resume due

/-! ## The results -/

/-- The awaiter is resumed at most once, and has been when nothing is left to be done. -/
theorem Placed.resumed (placed : Placed awaiter deadline s) :
    s.results.length ≤ 1 ∧ (s.Quiet → s.results.length = 1) := by
  have one := placed.one
  constructor
  · omega
  · rintro ⟨swept, ⟨resuming, timing⟩, closing, posted⟩
    rw [placed.swept swept, resuming, timing, closing, posted] at one
    simpa [copies] using one

variable (awaiter deadline) in
/-- **The coroutine is resumed once** in all runs: never again, and by the time a sweep behind the
deadline has been made and everything has been posted and run. -/
theorem resumed_once (reach : (connecting awaiter deadline).Reachable s) :
    s.results.length ≤ 1 ∧ (s.Quiet → s.results.length = 1) := by
  have placed : Placed awaiter deadline s :=
    reach.invariant (fun _ start => Placed.init start)
      fun _ _ t placed _ run => Placed.step (t := t) placed run
  exact placed.resumed

/-- What is known of a result along settled runs. -/
structure Told (s : State W) : Prop where
  right : ∀ r ∈ s.results, Right s r
  failed : ∀ err, s.kernel = .failed err → err ≠ 0 ∧ err ≠ ETIMEDOUT
  reached : s.kernel = .connected → s.reached = true

omit [DecidableEq W] in
/-- A result stays right while nothing is taken back. -/
theorem Right.mono {r : Int × Option Nat} (right : Right s r)
    (reached : s.reached = true → t.reached = true) (cause : t.cause = s.cause) : Right t r where
  connected zero := reached (right.connected zero)
  deadline := by rw [cause, right.deadline]
  error := right.error

/-- Behind its deadline the awaiter reports `ETIMEDOUT`, else what the kernel has. -/
theorem awaitResume_right (placed : Placed awaiter deadline s) (told : Told s)
    (due : 0 < s.posted) (settled : Settled s .resume) : Right s (awaitResume s) := by
  have one := placed.one
  have fresh : s.results = [] := List.length_eq_zero_iff.mp (by omega)
  have none' : copies awaiter s.timedOuts = 0 := by omega
  have flag := placed.told fresh
  rw [none', eq_self, and_true] at flag
  by_cases late : s.cause = some .deadline
  · rw [awaitResume, if_pos (flag.mpr late)]
    exact ⟨fun h => absurd h (by decide), iff_of_true rfl late,
      .inr ⟨rfl, ETIMEDOUT, rfl, by decide⟩⟩
  · have early : s.timedOut = false := Bool.eq_false_iff.mpr (mt flag.mp late)
    obtain ⟨file, ended⟩ := settled late
    have open' : getsockopt s = some s.kernel.soError := by
      have holds := placed.file.mp file
      rw [getsockopt, file]
      cases here : s.closing with
      | closed =>
          rw [here] at holds
          cases holds
      | opened | erased | deleted | woken | fileClosed => rfl
    have ret : s.ret = 0 := by
      rw [placed.ret fresh, early]
      rfl
    rw [awaitResume, if_neg (by simp [early]), if_pos ret, open']
    cases here : s.kernel with
    | connecting => exact absurd here ended
    | connected =>
        exact ⟨fun _ => told.reached here, iff_of_false (by simp [Conn.soError]) late, .inl rfl⟩
    | failed err =>
        obtain ⟨some', other⟩ := told.failed err here
        obtain ⟨n, rfl⟩ := Nat.exists_eq_succ_of_ne_zero some'
        refine ⟨fun h => absurd h (by simp [Conn.soError]), iff_of_false ?_ late,
          .inr ⟨rfl, _, rfl, some'⟩⟩
        intro same
        exact other (Option.some.inj (congrArg Prod.snd same))

/-- The kernel's part of a step. -/
theorem step_kernel {a : Action W} (run : step awaiter deadline s a = some t) :
    t.kernel = s.kernel ∧ t.reached = s.reached ∨
      t.kernel = .connected ∧ t.reached = true ∨
        ∃ err, a = .fail err ∧ err ≠ 0 ∧ t.kernel = .failed err ∧ t.reached = s.reached := by
  cases a with
  | connect =>
      obtain ⟨-, run⟩ := Option.ite_none_right_eq_some.mp run
      cases run
      exact .inr (.inl ⟨rfl, rfl⟩)
  | fail err =>
      obtain ⟨⟨some', -⟩, run⟩ := Option.ite_none_right_eq_some.mp run
      cases run
      exact .inr (.inr ⟨err, rfl, some', rfl, rfl⟩)
  | fetch | sweep | openOther | registerWaiter | resume =>
      obtain ⟨-, run⟩ := Option.ite_none_right_eq_some.mp run
      cases run
      exact .inl ⟨rfl, rfl⟩
  | dispatch =>
      simp only [step] at run
      split at run
      · obtain ⟨-, run⟩ := Option.ite_none_right_eq_some.mp run
        cases run
        exact .inl ⟨rfl, rfl⟩
      · cases run
  | loopPost =>
      simp only [step] at run
      split at run <;> cases run
      · exact .inl ⟨rfl, rfl⟩
      · simp only [State.post, State.timeoutCb]
        split <;> exact .inl ⟨rfl, rfl⟩
  | eraseFd | ctlDel | closeFile | invalidate =>
      simp only [step] at run
      split at run <;> cases run
      exact .inl ⟨rfl, rfl⟩
  | closePost =>
      simp only [step] at run
      split at run <;> cases run <;> exact .inl ⟨rfl, rfl⟩

/-- Nothing is taken behind a result. -/
theorem Placed.taken_cause (placed : Placed awaiter deadline s) (done : s.results ≠ [])
    {items : List (WaiterItem W)} (part : copies awaiter items ≤ copies awaiter s.slot.waiters)
    (cause : Cause) : (if copies awaiter items = 0 then s.cause else some cause) = s.cause := by
  have one := placed.one
  have length := List.length_pos_of_ne_nil done
  rw [if_pos (by omega)]

/-- The results and what is known of their cause stay. -/
theorem Placed.step_results (placed : Placed awaiter deadline s) {a : Action W}
    (run : ConnectAwaiter.step awaiter deadline s a = some t) :
    (t.results = s.results ∨ a = .resume ∧ 0 < s.posted ∧
        t.results = s.results ++ [awaitResume s] ∧ t.cause = s.cause) ∧
      (s.results ≠ [] → t.cause = s.cause) := by
  cases a with
  | connect | fail | fetch | openOther | registerWaiter =>
      obtain ⟨-, run⟩ := Option.ite_none_right_eq_some.mp run
      cases run
      exact ⟨.inl rfl, fun _ => rfl⟩
  | resume =>
      obtain ⟨due, run⟩ := Option.ite_none_right_eq_some.mp run
      cases run
      exact ⟨.inr ⟨rfl, due, rfl, rfl⟩, fun _ => rfl⟩
  | sweep now =>
      obtain ⟨-, run⟩ := Option.ite_none_right_eq_some.mp run
      cases run
      have parts := copies_collectTimeouts awaiter s.slot now
      exact ⟨.inl rfl, fun done => placed.taken_cause done (by omega) _⟩
  | dispatch =>
      simp only [ConnectAwaiter.step] at run
      split at run
      · next e here =>
          obtain ⟨-, run⟩ := Option.ite_none_right_eq_some.mp run
          cases run
          have parts := copies_dispatch awaiter s.slot e.flags
          exact ⟨.inl rfl, fun done => placed.taken_cause done (by omega) _⟩
      · cases run
  | eraseFd =>
      simp only [ConnectAwaiter.step] at run
      split at run <;> cases run
      exact ⟨.inl rfl, fun done => placed.taken_cause done (by rw [Slot.erase_fst]) _⟩
  | loopPost =>
      simp only [ConnectAwaiter.step] at run
      split at run <;> cases run
      · exact ⟨.inl rfl, fun _ => rfl⟩
      · simp only [State.post, State.timeoutCb]
        split <;> exact ⟨.inl rfl, fun _ => rfl⟩
  | ctlDel | closeFile | invalidate =>
      simp only [ConnectAwaiter.step] at run
      split at run <;> cases run
      exact ⟨.inl rfl, fun _ => rfl⟩
  | closePost =>
      simp only [ConnectAwaiter.step] at run
      split at run <;> cases run <;> exact ⟨.inl rfl, fun _ => rfl⟩

omit [DecidableEq W] in
theorem Told.init (results : s.results = []) (kernel : s.kernel = .connecting) : Told s where
  right r listed := by
    rw [results] at listed
    cases listed
  failed err here := by
    cases kernel.symm.trans here
  reached here := by
    cases kernel.symm.trans here

theorem Told.step (told : Told s) (placed : Placed awaiter deadline s) {a : Action W}
    (settled : Settled s a) (run : ConnectAwaiter.step awaiter deadline s a = some t) : Told t := by
  have kernel := step_kernel run
  have reached : s.reached = true → t.reached = true := by
    intro before
    rcases kernel with ⟨-, same⟩ | ⟨-, now⟩ | ⟨_, -, -, -, same⟩
    · rw [same, before]
    · exact now
    · rw [same, before]
  obtain ⟨results, cause⟩ := placed.step_results run
  exact {
    right := by
      intro r listed
      rcases results with same | ⟨rfl, due, more, same⟩
      · rw [same] at listed
        exact (told.right r listed).mono reached (cause (List.ne_nil_of_mem listed))
      · rw [more] at listed
        rcases List.mem_append.mp listed with listed | last
        · exact (told.right r listed).mono reached same
        · rw [List.mem_singleton.mp last]
          exact (awaitResume_right placed told due settled).mono reached same
    failed := by
      intro err here
      rcases kernel with ⟨same, -⟩ | ⟨now, -⟩ | ⟨err', rfl, some', now, -⟩
      · exact told.failed err (same ▸ here)
      · rw [now] at here
        cases here
      · rw [now] at here
        cases here
        exact ⟨some', settled⟩
    reached := by
      intro here
      rcases kernel with ⟨same, -⟩ | ⟨-, now⟩ | ⟨_, -, -, now, -⟩
      · exact reached (told.reached (same ▸ here))
      · exact now
      · rw [now] at here
        cases here }

variable (awaiter deadline) in
/-- **A result of 0 means connected**, `ETIMEDOUT` that the deadline has passed, and the coroutine
is resumed once, in the runs of settled steps. -/
theorem right_of_settled (reach : (connecting awaiter deadline).Via Settled s) :
    (∀ r ∈ s.results, Right s r) ∧ s.results.length ≤ 1 ∧
      (s.Quiet → s.results.length = 1) := by
  have both : Placed awaiter deadline s ∧ Told s := by
    refine reach.invariant (I := fun s => Placed awaiter deadline s ∧ Told s)
      (fun _ start => ⟨Placed.init start, ?_⟩) ?_
    · obtain ⟨before, errno, begun, pending, rfl⟩ := start
      rw [awaitSuspend_pending pending]
      exact Told.init begun.results begun.kernel
    rintro s a t ⟨placed, told⟩ settled run
    exact ⟨placed.step run, told.step placed settled run⟩
  exact ⟨both.2.right, both.1.resumed⟩

end Place

/-! ## Concrete runs -/

/-- A socket that has begun to connect, with or without an event of before for its number. -/
def begin (batch : Option Event) : State Unit where
  kernel := .connecting
  reached := false
  file := .own
  slot := ⟨none, ⟨true, none⟩⟩
  batch
  toResume := []
  timedOuts := []
  closing := .opened
  ret := 0
  timedOut := false
  timeoutFunc := false
  posted := 0
  results := []
  cause := none
  swept := false

/-- An awaiter that has registered behind this `errno`, alone on its number. -/
def start (errno : Nat) (batch : Option Event) : State Unit :=
  State.awaitSuspend () 10000 (begin batch) errno

theorem init_start {errno : Nat} {batch : Option Event}
    (pending : errno = EINPROGRESS ∨ errno = EWOULDBLOCK) (stale : ∀ e ∈ batch, e.own = false) :
    (connecting () 10000).init (start errno batch) := by
  refine ⟨begin batch, errno, ?_, pending, rfl⟩
  constructor <;> first | rfl | exact stale

theorem init_start_none : (connecting () 10000).init (start EINPROGRESS none) :=
  init_start (.inl rfl) (by simp)

/-- A connect that gets through. -/
theorem right_of_settled_connect :
    ∃ s, (connecting () 10000).execOk Settled (start EINPROGRESS none)
        [.connect, .fetch EPOLLOUT, .dispatch, .loopPost, .resume, .sweep 10000] = some s ∧
      s.results = [(0, none)] ∧ (∀ r ∈ s.results, Right s r) ∧ s.results.length ≤ 1 ∧
        (s.Quiet → s.results.length = 1) := by
  have run : (connecting () 10000).execOk Settled (start EINPROGRESS none)
      ([.connect, .fetch EPOLLOUT, .dispatch, .loopPost, .resume, .sweep 10000] :
        List (Action Unit)) = some _ := rfl
  exact ⟨_, run, rfl, right_of_settled () 10000 (.execOk (.init init_start_none) run)⟩

/-- A `close_fd` while the connect goes on makes its result 0, and so does an event of an earlier
socket, and what a unix socket reports behind `EAGAIN`; behind `os::close_fd` the result is -1 with
an `errno` of 0. -/
theorem zero_while_connecting :
    (∃ s, (connecting () 10000).Reachable s ∧ s.cause = some .removed ∧
        s.kernel = .connecting ∧ s.results = [(0, none)]) ∧
      (∃ s, (connecting () 10000).Reachable s ∧ s.cause = some (.event false) ∧
        s.kernel = .connecting ∧ s.results = [(0, none)]) ∧
      (∃ s, (connecting () 10000).Reachable s ∧ s.cause = some (.event true) ∧
        s.kernel = .connecting ∧ s.results = [(0, none)]) ∧
      (∃ s, (connecting () 10000).Reachable s ∧ s.results = [(-1, some 0)]) ∧
      ¬ ∀ s, (connecting () 10000).Reachable s → ∀ r ∈ s.results, Right s r := by
  have removed : (connecting () 10000).exec (start EINPROGRESS none)
      ([.eraseFd, .ctlDel, .closePost, .resume] : List (Action Unit)) = some _ := rfl
  have stale : (connecting () 10000).exec (start EINPROGRESS (some ⟨EPOLLHUP, false⟩))
      ([.dispatch, .loopPost, .resume] : List (Action Unit)) = some _ := rfl
  have full : (connecting () 10000).exec (start EWOULDBLOCK none)
      ([.fetch (EPOLLOUT ||| EPOLLHUP), .dispatch, .loopPost, .resume] : List (Action Unit)) =
        some _ := rfl
  have closed : (connecting () 10000).exec (start EINPROGRESS none)
      ([.eraseFd, .ctlDel, .closePost, .closePost, .closeFile, .invalidate, .resume] :
        List (Action Unit)) = some _ := rfl
  have reach := Machine.Via.exec (.init init_start_none) removed
  have earlier : ∀ e ∈ some (Event.mk EPOLLHUP false), e.own = false := by
    intro e here
    rw [← Option.some.inj here]
  refine ⟨⟨_, reach, rfl, rfl, rfl⟩,
    ⟨_, Machine.Via.exec (.init (init_start (.inl rfl) earlier)) stale, rfl, rfl, rfl⟩,
    ⟨_, Machine.Via.exec (.init (init_start (.inr rfl) (by simp))) full, rfl, rfl, rfl⟩,
    ⟨_, Machine.Via.exec (.init init_start_none) closed, rfl⟩, ?_⟩
  intro right
  have result := right _ reach (0, none) (List.mem_singleton.mpr rfl)
  exact absurd (result.connected rfl) (by decide)

end CoWq.ConnectAwaiter
