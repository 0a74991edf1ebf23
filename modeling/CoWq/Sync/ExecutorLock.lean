import CoWq.Lib.Locking
import CoWq.Sync.Notify
import CoWq.Sync.Timer

/-!
# The lock of the executor

The operations of `workqueue`, `Semaphore`, `Timer_check_queue` and `Notify` as programs of
threads that share the executor's lock, one access after the other.  Any number of
semaphores, timer queues and notifications belong to the executor.

* `Shared`, `Op`, `program`: what is shared, the operations and their programs.
* `Answered`: a request that `inotify_num` looks at is cancelled.
* `program_balanced`: as long as this is so, every path of every operation takes the lock and
  releases it.
* `disciplined_of_answered`: then no thread waits for itself.
* `self_deadlock`: otherwise the thread takes the lock it holds.
-/

namespace CoWq.ExecutorLock

open Workqueue

/-- The worknodes: semaphores, timer queues, notifications and all others, among them the
requests and the timers. -/
inductive Node (S Q N W : Type*)
  | sem (i : S)
  | timer (q : Q)
  | notify (n : N)
  | work (w : W)
  deriving DecidableEq, Repr

/-- A `Semaphore`. -/
structure Sem (W : Type*) where
  curVal : Int
  maxVal : Int
  acquireList : List W

/-- What the lock guards, with the flags and counters that are accessed without it. -/
structure Shared (S Q N W : Type*) where
  mem : Timer.Mem (Node S Q N W) Q
  heapRoot : Q → Option (Node S Q N W)
  wsHead : List (Node S Q N W)
  sem : S → Sem W
  /-- `cancelled` and `req_sta` of the `Sem_req`s -/
  cancelled : W → Bool
  reqSta : W → Int
  ntf : N → Notify W

/-- `look n w` is the read of `cancelled` in `inotify_num`. -/
inductive Access (N W : Type*)
  | plain
  | look (n : N) (w : W)

/-- The operations, with the clock and the fuel of the loops over the heap where they need
it; `work_once` needs them for `tim_chk_cb`. -/
inductive Op (S Q N W : Type*)
  | workOnce (now : Int) (fuel : Nat)
  | post (pnode : Node S Q N W)
  | postBatch (batch : List (Node S Q N W))
  | semChkCb (i : S)
  | acquire (i : S) (req : W)
  | tryAcquire (i : S)
  | release (i : S)
  | cancelWaiter (i : S) (req : W)
  /-- `~Semaphore` -/
  | semDestroy (i : S)
  | timChkCb (q : Q) (now : Int) (fuel : Nat)
  | postDelayedWork (q : Q) (dwork : W) (now : Int) (ms : UInt32)
  | tickUpdate (q : Q)
  | cancel (q : Q) (node : Option W) (fuel : Nat)
  /-- `~Timer_worknode` -/
  | timerDestroy (node : W) (fuel : Nat)
  | inotifyCb (n : N)
  | notifyOne (n : N)
  | notifyAll (n : N)
  | regist (n : N) (req : W)
  | unregist (n : N) (req : W)
  /-- the store to `cancelled` when a wait times out -/
  | expire (n : N) (req : W)

variable {S Q N W : Type*} [DecidableEq S] [DecidableEq Q] [DecidableEq N] [DecidableEq W]

abbrev Code (S Q N W : Type*) := Prog (Access N W) (Shared S Q N W)

/-! ## The pieces -/

def read (rest : Shared S Q N W → Code S Q N W) : Code S Q N W := .act .plain some rest

def write (f : Shared S Q N W → Shared S Q N W) (rest : Code S Q N W) : Code S Q N W :=
  .act .plain (fun s => some (f s)) fun _ => rest

def Shared.addNewNolock (s : Shared S Q N W) (pnode : Node S Q N W) : Shared S Q N W :=
  { s with wsHead := Workqueue.addNewNolock s.wsHead pnode }

def Shared.setSem (s : Shared S Q N W) (i : S) (sem : Sem W) : Shared S Q N W :=
  { s with sem := Function.update s.sem i sem }

def Shared.setNtf (s : Shared S Q N W) (n : N) (ntf : Notify W) : Shared S Q N W :=
  { s with ntf := Function.update s.ntf n ntf }

/-- The `Timer_check_queue` `q`. -/
def Shared.timer (s : Shared S Q N W) (q : Q) : Timer.State (Node S Q N W) Q :=
  ⟨s.mem, s.heapRoot q, s.wsHead⟩

def Shared.setTimer (s : Shared S Q N W) (q : Q) (t : Timer.State (Node S Q N W) Q) :
    Shared S Q N W :=
  { s with mem := t.mem, heapRoot := Function.update s.heapRoot q t.heapRoot, wsHead := t.wsHead }

/-! ## `workqueue` -/

/-- `post`, and `rest` behind it. -/
def post (pnode : Node S Q N W) (rest : Code S Q N W) : Code S Q N W :=
  .lock <| write (·.addNewNolock pnode) <| .unlock rest

def postBatch (batch : List (Node S Q N W)) : Code S Q N W :=
  if batch = [] then .done
  else .lock <| write (fun s => { s with wsHead := Workqueue.postBatch s.wsHead batch }) <|
    .unlock .done

/-! ## `Semaphore` -/

/-- One round of the loop of `sem_chk_cb`. -/
def chkReq (i : S) (s : Shared S Q N W) (req : W) : Shared S Q N W :=
  let sem := s.sem i
  let removed := sem.acquireList.erase req
  if s.cancelled req then s.setSem i { sem with acquireList := removed }
  else if 0 < sem.curVal then
    { s.setSem i { sem with curVal := sem.curVal - 1, acquireList := removed } with
      reqSta := Function.update s.reqSta req 0 }.addNewNolock (.work req)
  else s

/-- One round of the loop of `~Semaphore`. -/
def failReq (i : S) (s : Shared S Q N W) (req : W) : Shared S Q N W :=
  { s.setSem i { s.sem i with acquireList := (s.sem i).acquireList.erase req } with
    reqSta := Function.update s.reqSta req 1 }.addNewNolock (.work req)

/-- A loop over a list, one step each. -/
def forEach (f : Shared S Q N W → W → Shared S Q N W) : List W → Code S Q N W → Code S Q N W
  | [], rest => rest
  | req :: reqs, rest => write (fun s => f s req) (forEach f reqs rest)

/-- `sem_chk_cb` and `~Semaphore`: nothing happens to an empty list. -/
def overWaiters (f : Shared S Q N W → W → Shared S Q N W) (i : S) : Code S Q N W :=
  read fun s =>
    if (s.sem i).acquireList = [] then .done
    else .lock <| read fun s => forEach f (s.sem i).acquireList (.unlock .done)

def semChkCb (i : S) : Code S Q N W := overWaiters (chkReq i) i

def semDestroy (i : S) : Code S Q N W := overWaiters (failReq i) i

def acquire (i : S) (req : W) : Code S Q N W :=
  .lock <|
    write (fun s =>
      let sem := s.sem i
      if 0 < sem.curVal then
        (s.setSem i { sem with curVal := sem.curVal - 1 }).addNewNolock (.work req)
      else s.setSem i { sem with acquireList := sem.acquireList ++ [req] }) <|
    .unlock .done

def tryAcquire (i : S) : Code S Q N W :=
  .lock <|
    write (fun s =>
      let sem := s.sem i
      if 0 < sem.curVal then s.setSem i { sem with curVal := sem.curVal - 1 } else s) <|
    .unlock .done

/-- `release`: the semaphore is posted behind the lock. -/
def release (i : S) : Code S Q N W :=
  .lock <| read fun s =>
    let sem := s.sem i
    if sem.curVal < sem.maxVal then
      write (fun s => s.setSem i { s.sem i with curVal := (s.sem i).curVal + 1 }) <|
      .unlock <| if sem.acquireList = [] then .done else post (.sem i) .done
    else .unlock .done

/-- The walk of `cancel_waiter`. -/
def removeWaiter (i : S) (req : W) : List W → Code S Q N W → Code S Q N W
  | [], rest => rest
  | pos :: reqs, rest =>
      if pos = req then
        write (fun s => s.setSem i
          { s.sem i with acquireList := (s.sem i).acquireList.erase req }) rest
      else removeWaiter i req reqs rest

def cancelWaiter (i : S) (req : W) : Code S Q N W :=
  .lock <|
    write (fun s => { s with cancelled := Function.update s.cancelled req true }) <|
    read fun s => removeWaiter i req (s.sem i).acquireList (.unlock .done)

/-! ## `Timer_check_queue` -/

def timChkCb (q : Q) (now : Int) (fuel : Nat) : Code S Q N W :=
  .lock <|
    .act .plain (fun s => (Timer.timChkCb now fuel (s.timer q)).map fun r => s.setTimer q r.1)
      fun _ => .unlock .done

def postDelayedWork (q : Q) (dwork : W) (now : Int) (ms : UInt32) : Code S Q N W :=
  .lock <|
    write (fun s => s.setTimer q (Timer.postDelayedWork q (s.timer q) (.work dwork) now ms)) <|
    .unlock .done

def tickUpdate (q : Q) : Code S Q N W :=
  read fun s => if s.heapRoot q = none then .done else post (.timer q) .done

/-- `cancel`, with the early return for a null node and for one of another queue. -/
def cancel (q : Q) (node : Option W) (fuel : Nat) : Code S Q N W :=
  .lock <| read fun s =>
    match node with
    | none => .unlock .done
    | some node =>
        if s.mem.ownerQueue (.work node) ≠ some q then .unlock .done
        else
          .act .plain (fun s =>
            (Timer.cancel q fuel (s.timer q) (some (.work node))).map (s.setTimer q))
            fun _ => .unlock .done

def timerDestroy (node : W) (fuel : Nat) : Code S Q N W :=
  read fun s =>
    match s.mem.ownerQueue (.work node) with
    | none => .done
    | some q => cancel q (some node) fuel

/-! ## `Notify` -/

/-- The loop of `inotify_num` from the request it has come to: `post` takes the lock that is
held. -/
def inotifyLoop (n : N) (reqCnt : Int) : Int → List W → Code S Q N W → Code S Q N W
  | _, [], rest => rest
  | curcnt, pos :: reqs, rest =>
      .act (.look n pos) some fun s =>
        if (s.ntf n).cancelled pos then inotifyLoop n reqCnt curcnt reqs rest
        else if 0 < reqCnt then
          if curcnt ≤ 0 then rest
          else post (.work pos) (inotifyLoop n reqCnt (curcnt - 1) reqs rest)
        else post (.work pos) (inotifyLoop n reqCnt curcnt reqs rest)

def inotifyNum (n : N) (reqCnt : Int) (rest : Code S Q N W) : Code S Q N W :=
  .lock <| read fun s =>
    inotifyLoop n reqCnt reqCnt (s.ntf n).acquireList (.unlock rest)

def inotifyCb (n : N) : Code S Q N W :=
  read fun s =>
    if (s.ntf n).acquireList = [] then .done
    else read fun s =>
      if 0 < (s.ntf n).notifyAll then
        inotifyNum n (-1) <|
          write (fun s => s.setNtf n { s.ntf n with notifyAll := 0 }) <|
          write (fun s => s.setNtf n { s.ntf n with notifyOne := 0 }) .done
      else read fun s =>
        inotifyNum n (s.ntf n).notifyOne.toInt <|
          write (fun s => s.setNtf n { s.ntf n with notifyOne := 0 }) .done

def notifyOne (n : N) : Code S Q N W :=
  write (fun s => s.setNtf n { s.ntf n with notifyOne := (s.ntf n).notifyOne + 1 }) <|
    post (.notify n) .done

def notifyAll (n : N) : Code S Q N W :=
  write (fun s => s.setNtf n { s.ntf n with notifyAll := (s.ntf n).notifyAll + 1 }) <|
    post (.notify n) .done

def regist (n : N) (req : W) : Code S Q N W :=
  .lock <| write (fun s => s.setNtf n ((s.ntf n).regist req)) <| .unlock .done

def unregist (n : N) (req : W) : Code S Q N W :=
  .lock <| write (fun s => s.setNtf n ((s.ntf n).unregist req)) <| .unlock .done

def expire (n : N) (req : W) : Code S Q N W :=
  write (fun s => s.setNtf n
    { s.ntf n with cancelled := Function.update (s.ntf n).cancelled req true }) .done

/-! ## All operations -/

/-- The callback of a popped node.  Those of other nodes are not operations of the executor;
what they call, the thread calls next. -/
def callback (now : Int) (fuel : Nat) : Node S Q N W → Code S Q N W
  | .sem i => semChkCb i
  | .timer q => timChkCb q now fuel
  | .notify n => inotifyCb n
  | .work _ => .done

def workOnce (now : Int) (fuel : Nat) : Code S Q N W :=
  .lock <| read fun s =>
    match s.wsHead with
    | [] => .unlock .done
    | pnod :: _ =>
        write (fun s => { s with wsHead := s.wsHead.tail }) <|
        .unlock <| if s.mem.func pnod then callback now fuel pnod else .done

def program : Op S Q N W → Code S Q N W
  | .workOnce now fuel => workOnce now fuel
  | .post pnode => post pnode .done
  | .postBatch batch => postBatch batch
  | .semChkCb i => semChkCb i
  | .acquire i req => acquire i req
  | .tryAcquire i => tryAcquire i
  | .release i => release i
  | .cancelWaiter i req => cancelWaiter i req
  | .semDestroy i => semDestroy i
  | .timChkCb q now fuel => timChkCb q now fuel
  | .postDelayedWork q dwork now ms => postDelayedWork q dwork now ms
  | .tickUpdate q => tickUpdate q
  | .cancel q node fuel => cancel q node fuel
  | .timerDestroy node fuel => timerDestroy node fuel
  | .inotifyCb n => inotifyCb n
  | .notifyOne n => notifyOne n
  | .notifyAll n => notifyAll n
  | .regist n req => regist n req
  | .unregist n req => unregist n req
  | .expire n req => expire n req

/-- The threads `T` on the executor, from any shared state. -/
def executor (T S Q N W : Type*) [DecidableEq T] [DecidableEq S] [DecidableEq Q] [DecidableEq N]
    [DecidableEq W] :
    Machine (Threads T (Access N W) (Shared S Q N W)) (Threads.Action T (Op S Q N W)) :=
  Threads.locking T program fun _ => True

/-! ## Every path takes and releases the lock -/

/-- `inotify_num` finds only cancelled requests. -/
def Answered : Access N W → Shared S Q N W → Prop
  | .plain, _ => True
  | .look n w, s => (s.ntf n).cancelled w = true

variable {held : Bool} {rest : Code S Q N W}

section Pieces

omit [DecidableEq S] [DecidableEq Q] [DecidableEq N] [DecidableEq W]

theorem balanced_read {rest : Shared S Q N W → Code S Q N W}
    (balanced : ∀ s, (rest s).Balanced Answered held) : (read rest).Balanced Answered held :=
  fun s _ => balanced s

theorem balanced_write {f : Shared S Q N W → Shared S Q N W}
    (balanced : rest.Balanced Answered held) : (write f rest).Balanced Answered held :=
  fun _ _ => balanced

/-- A critical section of one access. -/
theorem balanced_section {f : Shared S Q N W → Option (Shared S Q N W)}
    (balanced : rest.Balanced Answered false) :
    (Prog.lock <| .act .plain f fun _ => .unlock rest).Balanced Answered false :=
  ⟨rfl, fun _ _ => ⟨rfl, balanced⟩⟩

theorem balanced_forEach {f : Shared S Q N W → W → Shared S Q N W} {reqs : List W}
    (balanced : rest.Balanced Answered held) : (forEach f reqs rest).Balanced Answered held := by
  induction reqs with
  | nil => exact balanced
  | cons req reqs ih => exact balanced_write ih

end Pieces

/-- `post` is called without the lock. -/
theorem balanced_post {pnode : Node S Q N W} (balanced : rest.Balanced Answered false) :
    (post pnode rest).Balanced Answered false :=
  balanced_section balanced

omit [DecidableEq S] [DecidableEq Q] [DecidableEq N] [DecidableEq W] in
theorem balanced_postBatch {batch : List (Node S Q N W)} :
    (postBatch batch).Balanced Answered false := by
  unfold postBatch
  split
  · exact rfl
  · exact balanced_section rfl

omit [DecidableEq S] [DecidableEq Q] [DecidableEq N] [DecidableEq W] in
theorem balanced_overWaiters {f : Shared S Q N W → W → Shared S Q N W} {i : S} :
    (overWaiters f i).Balanced Answered false := by
  refine balanced_read fun s => ?_
  split
  · exact rfl
  · exact ⟨rfl, balanced_read fun s => balanced_forEach ⟨rfl, rfl⟩⟩

theorem balanced_release {i : S} : (release i : Code S Q N W).Balanced Answered false := by
  refine ⟨rfl, balanced_read fun s => ?_⟩
  dsimp only
  split
  · refine balanced_write ⟨rfl, ?_⟩
    split
    · exact rfl
    · exact balanced_post rfl
  · exact ⟨rfl, rfl⟩

omit [DecidableEq Q] [DecidableEq N] in
theorem balanced_removeWaiter {i : S} {req : W} {reqs : List W}
    (balanced : rest.Balanced Answered held) :
    (removeWaiter i req reqs rest).Balanced Answered held := by
  induction reqs with
  | nil => exact balanced
  | cons pos reqs ih =>
      unfold removeWaiter
      split
      · exact balanced_write balanced
      · exact ih

omit [DecidableEq Q] [DecidableEq N] in
theorem balanced_cancelWaiter {i : S} {req : W} :
    (cancelWaiter i req : Code S Q N W).Balanced Answered false :=
  ⟨rfl, balanced_write (balanced_read fun _ => balanced_removeWaiter ⟨rfl, rfl⟩)⟩

theorem balanced_tickUpdate {q : Q} : (tickUpdate q : Code S Q N W).Balanced Answered false := by
  refine balanced_read fun s => ?_
  split
  · exact rfl
  · exact balanced_post rfl

/-- The early return releases the lock too. -/
theorem balanced_cancel {q : Q} {node : Option W} {fuel : Nat} :
    (cancel q node fuel : Code S Q N W).Balanced Answered false := by
  refine ⟨rfl, balanced_read fun s => ?_⟩
  cases node with
  | none => exact ⟨rfl, rfl⟩
  | some node =>
      dsimp only
      split
      · exact ⟨rfl, rfl⟩
      · exact fun _ _ => ⟨rfl, rfl⟩

theorem balanced_timerDestroy {node : W} {fuel : Nat} :
    (timerDestroy node fuel : Code S Q N W).Balanced Answered false := by
  refine balanced_read fun s => ?_
  split
  · exact rfl
  · exact balanced_cancel

/-- A cancelled request is passed over, and any other would be posted under the lock. -/
theorem balanced_inotifyLoop {n : N} {reqCnt curcnt : Int} {reqs : List W}
    (balanced : rest.Balanced Answered true) :
    (inotifyLoop n reqCnt curcnt reqs rest).Balanced Answered true := by
  induction reqs generalizing curcnt with
  | nil => exact balanced
  | cons pos reqs ih =>
      intro s answered
      have cancelled : (s.ntf n).cancelled pos = true := answered
      simp only [cancelled, if_true]
      exact ih

theorem balanced_inotifyNum {n : N} {reqCnt : Int} (balanced : rest.Balanced Answered false) :
    (inotifyNum n reqCnt rest).Balanced Answered false :=
  ⟨rfl, balanced_read fun _ => balanced_inotifyLoop ⟨rfl, balanced⟩⟩

theorem balanced_inotifyCb {n : N} : (inotifyCb n : Code S Q N W).Balanced Answered false := by
  refine balanced_read fun s => ?_
  split
  · exact rfl
  · refine balanced_read fun s => ?_
    split
    · exact balanced_inotifyNum (balanced_write (balanced_write rfl))
    · exact balanced_read fun s => balanced_inotifyNum (balanced_write rfl)

theorem balanced_workOnce {now : Int} {fuel : Nat} :
    (workOnce now fuel : Code S Q N W).Balanced Answered false := by
  refine ⟨rfl, balanced_read fun s => ?_⟩
  split
  · exact ⟨rfl, rfl⟩
  · rename_i pnod _ _
    refine balanced_write ⟨rfl, ?_⟩
    split
    · cases pnod with
      | sem i => exact balanced_overWaiters
      | timer q => exact balanced_section rfl
      | notify n => exact balanced_inotifyCb
      | work w => exact rfl
    · exact rfl

theorem program_balanced (op : Op S Q N W) : (program op).Balanced Answered false := by
  cases op with
  | workOnce now fuel => exact balanced_workOnce
  | post pnode => exact balanced_post rfl
  | postBatch batch => exact balanced_postBatch
  | semChkCb i => exact balanced_overWaiters
  | acquire i req => exact balanced_section rfl
  | tryAcquire i => exact balanced_section rfl
  | release i => exact balanced_release
  | cancelWaiter i req => exact balanced_cancelWaiter
  | semDestroy i => exact balanced_overWaiters
  | timChkCb q now fuel => exact balanced_section rfl
  | postDelayedWork q dwork now ms => exact balanced_section rfl
  | tickUpdate q => exact balanced_tickUpdate
  | cancel q node fuel => exact balanced_cancel
  | timerDestroy node fuel => exact balanced_timerDestroy
  | inotifyCb n => exact balanced_inotifyCb
  | notifyOne n => exact balanced_write (balanced_post rfl)
  | notifyAll n => exact balanced_write (balanced_post rfl)
  | regist n req => exact balanced_section rfl
  | unregist n req => exact balanced_section rfl
  | expire n req => exact balanced_write rfl

/-- **No thread waits for itself as long as `inotify_num` finds only cancelled requests**: no
thread is at `lock` while it holds the lock, each releases what it holds and nothing else, and
an operation that is over holds nothing. -/
theorem disciplined_of_answered {T : Type*} [DecidableEq T]
    {s : Threads T (Access N W) (Shared S Q N W)}
    (run : (executor T S Q N W).Via (Threads.Meets Answered) s) (t : T) :
    Threads.Disciplined s t :=
  Threads.disciplined program_balanced run t

/-! ## Runs -/

/-- A semaphore without tokens, and nothing else. -/
def fresh : Shared Unit Unit Unit Nat where
  mem := ⟨fun _ => ⟨none, none, none⟩, fun _ => 0, fun _ => true, fun _ => none⟩
  heapRoot _ := none
  wsHead := []
  sem _ := ⟨0, 1, []⟩
  cancelled _ := false
  reqSta _ := 0
  ntf _ := ⟨[], fun _ => false, 0, 0⟩

/-- One thread, and nothing begun. -/
def idle : Threads Unit (Access Unit Nat) (Shared Unit Unit Unit Nat) :=
  ⟨none, fresh, fun _ => .done⟩

theorem idle_init : (executor Unit Unit Unit Unit Nat).init idle :=
  ⟨rfl, trivial, fun _ => rfl⟩

/-- An operation and its steps. -/
def calls (op : Op Unit Unit Unit Nat) (steps : Nat) :
    List (Threads.Action Unit (Op Unit Unit Unit Nat)) :=
  .call () op :: List.replicate steps (.step ())

instance (a : Access N W) (s : Shared S Q N W) : Decidable (Answered a s) :=
  match a with
  | .plain => .isTrue trivial
  | .look n w => inferInstanceAs (Decidable ((s.ntf n).cancelled w = true))

/-- `inotify_cb` passes over a request that has timed out, and the thread is back. -/
theorem disciplined_of_answered_expired : ∃ s,
    (executor Unit Unit Unit Unit Nat).execOk (Threads.Meets Answered) idle
      (calls (.regist () 0) 3 ++ calls (.notifyOne ()) 4 ++ calls (.expire () 0) 1 ++
        calls (.workOnce 0 1) 12) = some s ∧
      s.prog () = .done ∧ s.holder = none ∧ Threads.Disciplined s () := by
  obtain ⟨s, run, back, free⟩ : ∃ s,
      (executor Unit Unit Unit Unit Nat).execOk (Threads.Meets Answered) idle
        (calls (.regist () 0) 3 ++ calls (.notifyOne ()) 4 ++ calls (.expire () 0) 1 ++
          calls (.workOnce 0 1) 12) = some s ∧
        s.prog () = .done ∧ s.holder = none := ⟨_, rfl, rfl, rfl⟩
  exact ⟨s, run, back, free, disciplined_of_answered (.execOk (.init idle_init) run) ()⟩

/-- A registered request and one notification: `inotify_cb` takes the lock that its own
thread holds. -/
theorem self_deadlock : ∃ s, (executor Unit Unit Unit Unit Nat).Reachable s ∧
    s.holder = some () ∧ ∃ rest, s.prog () = .lock rest := by
  obtain ⟨s, run, held, waits⟩ : ∃ s,
      (executor Unit Unit Unit Unit Nat).exec idle
        (calls (.regist () 0) 3 ++ calls (.notifyOne ()) 4 ++ calls (.workOnce 0 1) 10) = some s ∧
        s.holder = some () ∧ ∃ rest, s.prog () = .lock rest := ⟨_, rfl, rfl, _, rfl⟩
  exact ⟨s, .exec (.init idle_init) run, held, waits⟩

end CoWq.ExecutorLock
