import CoWq.Sync.Timer
import CoWq.Sync.Wait

/-!
# A semaphore, a timer queue and one executor

`Semaphore` and `Timer_check_queue` share the executor and its lock; every critical
section is one step, and so is every access to `armed`, to the clock or to a list
outside the lock.  Any number of workers run `work_once`: a worker inside a callback
is the program point of the node it has popped.

* `State` extends `Timer.State`, whose `wsHead` is the executor's queue.
* `Action`, `step`, `semaphore`: the machine.
* `taken` and `incs` are ghosts: for whom `_cur_val` was lowered, and how often
  `release` raised it.
-/

namespace CoWq.Semaphore

open Workqueue

/-- The worknodes of the executor: the semaphore, the timer queue, and of every awaiter
its request and its `TimeoutNode`. -/
inductive Node (A : Type*)
  | sem
  | timer
  | req (a : A)
  | tmo (a : A)
  deriving DecidableEq, Repr

structure State (A : Type*) extends Timer.State (Node A) Unit where
  curVal : Int
  maxVal : Int
  acquireList : List A
  /-- the calls of `release` behind the lock that will `post` -/
  releasing : Nat
  /-- the workers before the `list_empty` of `sem_chk_cb` -/
  semPopped : Nat
  /-- the workers before its critical section -/
  semPassed : Nat
  /-- the workers before the critical section of `tim_chk_cb` -/
  timPopped : Nat
  /-- the calls of `tick_update` that will `post` -/
  ticking : Nat
  wait : A → Wait
  taken : List A
  incs : Nat

inductive Action (A : Type*)
  | release
  | releasePost
  | tickUpdate
  | tickPost
  | workOnce
  | semEmpty
  | semChkCb
  | timChkCb (now : Int) (fuel : Nat)
  | awaitReady (a : A)
  | store (a : A)
  | postDelayed (a : A) (now : Int)
  | acquire (a : A)
  | reqExchange (a : A)
  | reqCancel (a : A) (fuel : Nat)
  | reqResume (a : A)
  | tmoExchange (a : A)
  | cancelWaiter (a : A)
  | tmoMark (a : A)
  | tmoResume (a : A)
  | awaitResume (a : A)
  | destroy (a : A) (fuel : Nat)
  deriving DecidableEq, Repr

variable {A : Type*} [DecidableEq A]

def State.setWait (s : State A) (a : A) (w : Wait) : State A :=
  { s with wait := Function.update s.wait a w }

/-- `try_acquire` for the awaiter `a`. -/
def tryAcquire (s : State A) (a : A) : State A × Bool :=
  if 0 < s.curVal then
    ({ s with curVal := s.curVal - 1, taken := s.taken ++ [a] }, true)
  else (s, false)

/-- `acquire`: the fast path leaves `req_sta` alone. -/
def acquire (s : State A) (a : A) : State A :=
  if 0 < s.curVal then
    { s with
      curVal := s.curVal - 1
      taken := s.taken ++ [a]
      wsHead := addNewNolock s.wsHead (.req a) }
  else { s with acquireList := s.acquireList ++ [a] }

/-- `release` up to the end of its critical section. -/
def release (s : State A) : State A :=
  if s.curVal < s.maxVal then
    { s with
      curVal := s.curVal + 1
      incs := s.incs + 1
      releasing := if s.acquireList = [] then s.releasing else s.releasing + 1 }
  else s

/-- One round of the loop of `sem_chk_cb`. -/
def chkReq (s : State A) (a : A) : State A :=
  if (s.wait a).cancelled then { s with acquireList := s.acquireList.erase a }
  else if 0 < s.curVal then
    { s with
      curVal := s.curVal - 1
      taken := s.taken ++ [a]
      acquireList := s.acquireList.erase a
      wait := Function.update s.wait a { s.wait a with reqSta := reqOk }
      wsHead := addNewNolock s.wsHead (.req a) }
  else s

/-- The critical section of `sem_chk_cb`. -/
def semChkCb (s : State A) : State A :=
  s.acquireList.foldl chkReq s

/-- `cancel_waiter`. -/
def cancelWaiter (s : State A) (a : A) : State A :=
  { s with
    acquireList := s.acquireList.erase a
    wait := Function.update s.wait a { s.wait a with cancelled := true } }

/-- `work_once`: the popped node's callback begins. -/
def dispatch (s : State A) : Node A → State A
  | .sem => { s with semPopped := s.semPopped + 1 }
  | .timer => { s with timPopped := s.timPopped + 1 }
  | .req a => s.setWait a { s.wait a with reqPc := .popped }
  | .tmo a => s.setWait a { s.wait a with tmoPc := .popped }

/-- `mTimerQ.cancel(&mTimeout)` -/
def cancelTimeout (s : State A) (a : A) (fuel : Nat) : Option (State A) :=
  (Timer.cancel () fuel s.toState (some (.tmo a))).map fun t => { s with toState := t }

def step (kind : A → Kind) (s : State A) : Action A → Option (State A)
  | .release => some (release s)
  | .releasePost =>
      if 0 < s.releasing then
        some { s with releasing := s.releasing - 1, wsHead := addNewNolock s.wsHead .sem }
      else none
  | .tickUpdate =>
      some { s with ticking := if s.heapRoot = none then s.ticking else s.ticking + 1 }
  | .tickPost =>
      if 0 < s.ticking then
        some { s with ticking := s.ticking - 1, wsHead := addNewNolock s.wsHead .timer }
      else none
  | .workOnce =>
      match s.wsHead with
      | [] => none
      | n :: rest => some (dispatch { s with wsHead := rest } n)
  | .semEmpty =>
      if 0 < s.semPopped then
        some { s with
          semPopped := s.semPopped - 1
          semPassed := if s.acquireList = [] then s.semPassed else s.semPassed + 1 }
      else none
  | .semChkCb =>
      if 0 < s.semPassed then some (semChkCb { s with semPassed := s.semPassed - 1 }) else none
  | .timChkCb now fuel =>
      if 0 < s.timPopped then
        (Timer.timChkCb now fuel s.toState).map fun r =>
          { s with toState := r.1, timPopped := s.timPopped - 1 }
      else none
  | .awaitReady a =>
      let w := s.wait a
      if w.suspend = .fresh ∧ w.life = .waiting then
        if kind a = .waitSemTry then some (s.setWait a { w with life := .resumed })
        else
          match tryAcquire s a with
          | (t, true) =>
              some (t.setWait a { w with life := .resumed, immediate := (kind a).timed })
          | (t, false) => some (t.setWait a { w with suspend := .suspending })
      else none
  | .store a =>
      let w := s.wait a
      if w.suspend = .suspending then
        some (s.setWait a { w with suspend := .stored, armed := (kind a).timed })
      else none
  | .postDelayed a now =>
      let w := s.wait a
      if w.suspend = .stored then
        let t := s.setWait a { w with suspend := .posted }
        match kind a with
        | .waitSemFor ms =>
            if ms ≠ 0xffffffff then
              some { t with toState := Timer.postDelayedWork () s.toState (.tmo a) now ms }
            else some t
        | _ => some t
      else none
  | .acquire a =>
      let w := s.wait a
      if w.suspend = .posted then some ((acquire s a).setWait a { w with suspend := .done })
      else none
  | .reqExchange a =>
      let w := s.wait a
      if (kind a).timed = true ∧ w.reqPc = .popped then
        if w.armed then some (s.setWait a { w with armed := false, reqPc := .won })
        else some (s.setWait a { w with reqPc := .returned })
      else none
  | .reqCancel a fuel =>
      let w := s.wait a
      if w.reqPc = .won then
        cancelTimeout (s.setWait a { w with reqPc := .cancelled }) a fuel
      else none
  | .reqResume a =>
      let w := s.wait a
      if w.reqPc = (if (kind a).timed then .cancelled else .popped) then
        some (s.setWait a { w with reqPc := .returned, life := .resumed })
      else none
  | .tmoExchange a =>
      let w := s.wait a
      if w.tmoPc = .popped then
        if w.armed then some (s.setWait a { w with armed := false, tmoPc := .won })
        else some (s.setWait a { w with tmoPc := .returned })
      else none
  | .cancelWaiter a =>
      let w := s.wait a
      if w.tmoPc = .won then
        some (cancelWaiter (s.setWait a { w with tmoPc := .cancelled }) a)
      else none
  | .tmoMark a =>
      let w := s.wait a
      if w.tmoPc = .cancelled then
        some (s.setWait a { w with tmoPc := .marked, reqSta := reqTimeOut })
      else none
  | .tmoResume a =>
      let w := s.wait a
      if w.tmoPc = .marked then some (s.setWait a { w with tmoPc := .returned, life := .resumed })
      else none
  | .awaitResume a =>
      let w := s.wait a
      if w.life = .resumed ∧ w.result = none then
        if kind a = .waitSemTry then
          let (t, succ) := tryAcquire s a
          some (t.setWait a { w with result := some succ })
        else some (s.setWait a { w with result := some (w.answer (kind a)) })
      else none
  | .destroy a fuel =>
      let w := s.wait a
      if w.life = .resumed ∧ w.result ≠ none then
        let t := s.setWait a { w with life := .destroyed }
        if (kind a).timed then cancelTimeout t a fuel else some t
      else none

/-- The states before the first await, with `v₀` tokens. -/
structure Init (v₀ : Int) (s : State A) : Prop where
  curVal : s.curVal = v₀
  taken : s.taken = []
  incs : s.incs = 0
  acquireList : s.acquireList = []
  wsHead : s.wsHead = []
  heapRoot : s.heapRoot = none
  ownerQueue : ∀ n, s.mem.ownerQueue n = none
  func : ∀ n, s.mem.func n = true
  releasing : s.releasing = 0
  semPopped : s.semPopped = 0
  semPassed : s.semPassed = 0
  timPopped : s.timPopped = 0
  ticking : s.ticking = 0
  wait : ∀ a, (s.wait a).Init

/-- The awaiters `A`, each awaited by the function `kind` names, on a semaphore that
starts with `v₀` tokens. -/
def semaphore (kind : A → Kind) (v₀ : Int) : Machine (State A) (Action A) where
  init := Init v₀
  step := step kind

/-- The requests `sem_chk_cb` will grant: as many of those not cancelled as there are
tokens, in the order of the list. -/
def State.granted (s : State A) : List A :=
  (s.acquireList.filter fun a => !(s.wait a).cancelled).take s.curVal.toNat

end CoWq.Semaphore
