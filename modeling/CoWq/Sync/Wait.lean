import CoWq.Lib.Machine

/-!
# One wait on a semaphore

What happens to a single awaiter, whoever does it: the steps of its own
`await_ready`, `await_suspend` and `await_resume`, the places of its request node and
of its `TimeoutNode`, and the steps of the two callbacks that race for `armed`.

* `View`, `Event`, `View.step`: an awaiter with the containers its nodes are in.
* `Local`: where the nodes are and what was taken, whatever the order.
* `Tidy`: with grant and expiry apart, nothing is left behind when the wait ends.
* `Accounted`: with grants only while the wait is undecided, the result tells the token.
-/

namespace CoWq.Semaphore

/-- `wait_sem_for`, with `0xffffffff` for `wait_sem_forever`, `wait_sem`, `wait_sem_try`. -/
inductive Kind
  | waitSemFor (ms : UInt32)
  | waitSem
  | waitSemTry
  deriving DecidableEq, Repr

namespace Kind

/-- A `SemReqTimeoutAwaiter`. -/
def timed : Kind → Bool
  | .waitSemFor _ => true
  | _ => false

/-- `mTimeoutMs != 0xffffffffu` -/
def hasTimer : Kind → Bool
  | .waitSemFor ms => ms != 0xffffffff
  | _ => false

theorem timed_of_hasTimer {k : Kind} (h : k.hasTimer) : k.timed := by
  cases k <;> first | rfl | cases h

end Kind

/-- How far `await_suspend` is. -/
inductive Suspend
  | fresh
  /-- `await_ready` answered false -/
  | suspending
  /-- the fields are stored and `armed` is set -/
  | stored
  /-- behind `post_delayed_work` -/
  | posted
  /-- behind `acquire` -/
  | done
  deriving DecidableEq, Repr

/-- The program points of the two callbacks. -/
inductive Pc
  | idle
  /-- popped by a worker, at `armed.exchange` -/
  | popped
  /-- the exchange answered true -/
  | won
  /-- behind `mTimerQ.cancel` or `cancel_waiter` -/
  | cancelled
  /-- behind `req_sta = REQ_TIME_OUT` -/
  | marked
  | returned
  deriving DecidableEq, Repr

inductive Life
  | waiting
  | resumed
  | destroyed
  deriving DecidableEq, Repr

/-- `REQ_OK` -/
def reqOk : Int := 0

/-- `REQ_TIME_OUT` -/
def reqTimeOut : Int := 2

/-- An awaiter. -/
structure Wait where
  suspend : Suspend
  reqPc : Pc
  tmoPc : Pc
  life : Life
  armed : Bool
  cancelled : Bool
  /-- `mImmediateAcquired` -/
  immediate : Bool
  /-- `req_sta`, which no constructor sets -/
  reqSta : Int
  /-- what `await_resume` answered -/
  result : Option Bool
  deriving DecidableEq, Repr

/-- As the constructors leave it. -/
def Wait.Init (w : Wait) : Prop :=
  w.suspend = .fresh ∧ w.reqPc = .idle ∧ w.tmoPc = .idle ∧ w.life = .waiting ∧ w.armed = false ∧
    w.cancelled = false ∧ w.immediate = false ∧ w.result = none

/-- An awaiter with the places of its nodes and the tokens taken for it. -/
structure View extends Wait where
  /-- the request is in `acquire_list` -/
  list : Bool
  /-- the request is in the executor's queue -/
  queue : Bool
  /-- the `TimeoutNode` is in the executor's queue -/
  due : Bool
  /-- the `TimeoutNode` is in the timer heap -/
  heap : Bool
  /-- the tokens taken for it -/
  taken : Nat

inductive Event
  /-- `await_ready` of `wait_sem_try` -/
  | pass
  /-- `await_ready` takes a token -/
  | immediate
  | suspend
  | store
  | postDelayed
  /-- `acquire` links the request -/
  | enlist
  /-- `acquire` takes a token -/
  | acquired
  /-- `sem_chk_cb` takes a token -/
  | grant
  /-- `sem_chk_cb` removes a cancelled request -/
  | drop
  /-- `tim_chk_cb` pops the `TimeoutNode` -/
  | expire
  | popReq
  | popTmo
  | reqExchange
  | reqCancel
  | reqResume
  | tmoExchange
  | cancelWaiter
  | tmoMark
  | tmoResume
  | awaitResume
  /-- `await_resume` of `wait_sem_try` -/
  | tryAcquire (got : Bool)
  | destroy
  deriving DecidableEq, Repr

/-- What `await_resume` answers. -/
def Wait.answer (k : Kind) (w : Wait) : Bool :=
  if k.timed then (if w.immediate then true else w.reqSta = reqOk) else true

def View.step (k : Kind) (v : View) : Event → Option View
  | .pass =>
      if k = .waitSemTry ∧ v.suspend = .fresh ∧ v.life = .waiting then
        some { v with life := .resumed }
      else none
  | .immediate =>
      if k ≠ .waitSemTry ∧ v.suspend = .fresh ∧ v.life = .waiting then
        some { v with life := .resumed, immediate := k.timed, taken := v.taken + 1 }
      else none
  | .suspend =>
      if k ≠ .waitSemTry ∧ v.suspend = .fresh ∧ v.life = .waiting then
        some { v with suspend := .suspending }
      else none
  | .store =>
      if v.suspend = .suspending then some { v with suspend := .stored, armed := k.timed } else none
  | .postDelayed =>
      if v.suspend = .stored then some { v with suspend := .posted, heap := k.hasTimer || v.heap }
      else none
  | .enlist =>
      if v.suspend = .posted then some { v with suspend := .done, list := true } else none
  | .acquired =>
      if v.suspend = .posted then
        some { v with suspend := .done, queue := true, taken := v.taken + 1 }
      else none
  | .grant =>
      if v.list = true ∧ v.cancelled = false then
        some { v with list := false, queue := true, reqSta := reqOk, taken := v.taken + 1 }
      else none
  | .drop =>
      if v.list = true ∧ v.cancelled = true then some { v with list := false } else none
  | .expire => if v.heap = true then some { v with heap := false, due := true } else none
  | .popReq => if v.queue = true then some { v with queue := false, reqPc := .popped } else none
  | .popTmo => if v.due = true then some { v with due := false, tmoPc := .popped } else none
  | .reqExchange =>
      if k.timed = true ∧ v.reqPc = .popped then
        if v.armed then some { v with armed := false, reqPc := .won }
        else some { v with reqPc := .returned }
      else none
  | .reqCancel =>
      if v.reqPc = .won then some { v with reqPc := .cancelled, heap := false } else none
  | .reqResume =>
      if v.reqPc = (if k.timed then .cancelled else .popped) then
        some { v with reqPc := .returned, life := .resumed }
      else none
  | .tmoExchange =>
      if v.tmoPc = .popped then
        if v.armed then some { v with armed := false, tmoPc := .won }
        else some { v with tmoPc := .returned }
      else none
  | .cancelWaiter =>
      if v.tmoPc = .won then some { v with tmoPc := .cancelled, cancelled := true, list := false }
      else none
  | .tmoMark =>
      if v.tmoPc = .cancelled then some { v with tmoPc := .marked, reqSta := reqTimeOut } else none
  | .tmoResume =>
      if v.tmoPc = .marked then some { v with tmoPc := .returned, life := .resumed } else none
  | .awaitResume =>
      if k ≠ .waitSemTry ∧ v.life = .resumed ∧ v.result = none then
        some { v with result := some (v.answer k) }
      else none
  | .tryAcquire got =>
      if k = .waitSemTry ∧ v.life = .resumed ∧ v.result = none then
        some { v with result := some got, taken := v.taken + got.toNat }
      else none
  | .destroy =>
      if v.life = .resumed ∧ v.result ≠ none then
        some { v with life := .destroyed, heap := v.heap && !k.timed }
      else none

variable {k : Kind} {v v' : View} {e : Event}

/-! ## Any order of the events -/

/-- The request was granted at some time. -/
def View.granted (v : View) : Bool := v.queue || v.reqPc != .idle

/-- Each node is in one place, and in none before `await_suspend` has put it there; one
token is taken at most. -/
structure Local (k : Kind) (v : View) : Prop where
  list : v.list = true → v.suspend = .done ∧ v.queue = false ∧ v.reqPc = .idle
  queue : v.queue = true → v.suspend = .done ∧ v.reqPc = .idle
  req : v.reqPc ≠ .idle → v.suspend = .done
  heap : v.heap = true →
    k.hasTimer ∧ (v.suspend = .posted ∨ v.suspend = .done) ∧ v.due = false ∧ v.tmoPc = .idle
  due : v.due = true → k.hasTimer ∧ (v.suspend = .posted ∨ v.suspend = .done) ∧ v.tmoPc = .idle
  tmo : v.tmoPc ≠ .idle → k.hasTimer ∧ (v.suspend = .posted ∨ v.suspend = .done)
  pending : v.suspend = .done → v.reqPc = .idle → v.cancelled = false →
    v.list = true ∨ v.queue = true
  token : k ≠ .waitSemTry → v.taken =
    if (v.suspend = .fresh ∧ v.life ≠ .waiting) ∨ v.granted = true then 1 else 0
  tried : k = .waitSemTry → v.suspend = .fresh ∧ v.taken = if v.result = some true then 1 else 0

theorem Local.step (h : Local k v) (run : v.step k e = some v') : Local k v' := by
  cases h
  cases e <;>
    simp only [View.step, Option.ite_none_right_eq_some, Option.some.injEq] at run <;>
    obtain ⟨guard, run⟩ := run
  case reqExchange | tmoExchange =>
    split at run <;> cases run <;> constructor <;> dsimp only <;> grind -linarith [View.granted]
  case tryAcquire got =>
    subst run
    cases got <;> constructor <;> dsimp only <;> grind -linarith [View.granted]
  all_goals
    subst run
    constructor <;> dsimp only <;> grind -linarith [View.granted]

/-- One token at most is taken for a wait. -/
theorem Local.taken_le_one (h : Local k v) : v.taken ≤ 1 := by
  by_cases try_ : k = .waitSemTry
  · rw [(h.tried try_).2]
    split <;> decide
  · rw [h.token try_]
    split <;> decide

/-! ## Grant and expiry apart -/

namespace View

/-- The request was granted and its callback is not over. -/
def reqOut (v : View) : Bool := v.queue || (v.reqPc != .idle && v.reqPc != .returned)

/-- The `TimeoutNode` was popped and `on_timer` is not over. -/
def tmoOut (v : View) : Bool := v.due || (v.tmoPc != .idle && v.tmoPc != .returned)

/-- The request is granted only while the `TimeoutNode` is not out, and expires only
while the request is not; `on_timer` wins only behind `acquire`. -/
def Separate (v : View) : Event → Prop
  | .grant => v.tmoOut = false
  | .acquired => v.tmoOut = false
  | .expire => v.reqOut = false
  | .tmoExchange => v.armed = true → v.suspend = .done
  | _ => True

/-- The two nodes are nowhere, and no code is left that would link or run them. -/
def Gone (v : View) : Prop :=
  v.list = false ∧ v.queue = false ∧ v.due = false ∧ v.heap = false ∧
    (v.reqPc = .idle ∨ v.reqPc = .returned) ∧ (v.tmoPc = .idle ∨ v.tmoPc = .returned) ∧
    (v.suspend = .fresh ∨ v.suspend = .done)

end View

/-- What grant and expiry apart lead to: when the coroutine goes on, nothing is left. -/
structure Tidy (k : Kind) (v : View) : Prop where
  apart : v.reqOut = false ∨ v.tmoOut = false
  cleared : v.reqPc = .cancelled → v.heap = false
  behind : v.tmoPc = .won ∨ v.tmoPc = .cancelled ∨ v.tmoPc = .marked → v.suspend = .done
  removed : v.tmoPc = .cancelled ∨ v.tmoPc = .marked → v.list = false
  ended : v.life ≠ .waiting → v.Gone

theorem Tidy.step (h : Tidy k v) (loc : Local k v) (separate : v.Separate e)
    (run : v.step k e = some v') : Tidy k v' := by
  have timer := Kind.timed_of_hasTimer (k := k)
  cases h
  cases loc
  cases e <;>
    simp only [View.step, Option.ite_none_right_eq_some, Option.some.injEq] at run <;>
    obtain ⟨guard, run⟩ := run <;> simp only [View.Separate] at separate
  case reqExchange | tmoExchange =>
    split at run <;> cases run <;> constructor <;>
      dsimp only [View.reqOut, View.tmoOut, View.Gone] <;>
      grind -linarith [View.reqOut, View.tmoOut, View.Gone]
  all_goals
    subst run
    constructor <;> dsimp only [View.reqOut, View.tmoOut, View.Gone] <;>
      grind -linarith [View.reqOut, View.tmoOut, View.Gone]

/-! ## Grants of undecided waits -/

/-- A token is taken for a request only while its wait is undecided, by `acquire` only
with `req_sta` at `REQ_OK`, and `on_timer` wins only over a request not granted. -/
def View.Undecided (k : Kind) (v : View) : Event → Prop
  | .grant => k.timed = true → v.armed = true
  | .acquired => k.timed = true → v.armed = true ∧ v.reqSta = reqOk
  | .tmoExchange => v.armed = true → v.reqOut = false
  | _ => True

/-- What this leads to: the fields tell whether a token was taken. -/
structure Accounted (k : Kind) (v : View) : Prop where
  immediate : k.timed = true → (v.immediate = true ↔ v.suspend = .fresh ∧ v.life ≠ .waiting)
  status : k.timed = true → v.granted = true → v.reqSta = reqOk
  armed : k.timed = true → v.queue = true ∨ v.reqPc = .popped → v.armed = true
  unarmed : v.suspend = .fresh ∨ v.suspend = .suspending → v.armed = false
  decided : k.timed = true → v.reqPc = .won ∨ v.reqPc = .cancelled ∨ v.reqPc = .returned →
    v.armed = false
  timedOut : v.tmoPc = .won ∨ v.tmoPc = .cancelled ∨ v.tmoPc = .marked →
    v.granted = false ∧ v.armed = false ∧ v.life = .waiting
  marked : v.tmoPc = .marked → v.reqSta = reqTimeOut
  ended : k ≠ .waitSemTry → v.life ≠ .waiting → v.suspend ≠ .fresh → v.reqPc = .returned ∨
    (k.timed = true ∧ v.tmoPc = .returned ∧ v.armed = false ∧ v.granted = false ∧
      v.reqSta = reqTimeOut)
  result : ∀ b, v.result = some b → v.life ≠ .waiting ∧ v.taken = b.toNat

/-- The coroutine that goes on is told about the token. -/
theorem Accounted.taken_eq_answer (h : Accounted k v) (loc : Local k v)
    (not_try : k ≠ .waitSemTry) (on : v.life ≠ .waiting) : v.taken = (v.answer k).toNat := by
  have token := loc.token not_try
  have status := h.status
  have ended := h.ended not_try on
  have immediate := h.immediate
  unfold Wait.answer
  by_cases fresh : v.suspend = .fresh
  · cases timed : k.timed with
    | false => simp [token, fresh, on]
    | true => simp [token, fresh, on, (immediate timed).mpr ⟨fresh, on⟩]
  · cases timed : k.timed with
    | false =>
        rcases ended fresh with returned | ⟨timed', _⟩
        · simp [token, View.granted, returned]
        · rw [timed] at timed'
          cases timed'
    | true =>
        have later : v.immediate = false := by
          by_contra earlier
          exact fresh ((immediate timed).mp (by simpa using earlier)).left
        rcases ended fresh with returned | ⟨_, _, _, refused, sta⟩
        · have granted : v.granted = true := by simp [View.granted, returned]
          simp [token, granted, later, status timed granted]
        · simp [token, refused, fresh, later, sta, reqTimeOut, reqOk]

theorem Accounted.step (h : Accounted k v) (loc : Local k v) (undecided : v.Undecided k e)
    (run : v.step k e = some v') : Accounted k v' := by
  have timer := Kind.timed_of_hasTimer (k := k)
  have tried : k = .waitSemTry → k.timed = false := by
    rintro rfl
    rfl
  have answer := h.taken_eq_answer loc
  cases h
  cases loc
  cases e <;>
    simp only [View.step, Option.ite_none_right_eq_some, Option.some.injEq] at run <;>
    obtain ⟨guard, run⟩ := run <;> simp only [View.Undecided] at undecided
  case reqExchange | tmoExchange =>
    split at run <;> cases run <;> constructor <;> dsimp only <;>
      grind -linarith [View.reqOut, View.granted]
  case tryAcquire got =>
    subst run
    cases got <;> constructor <;> dsimp only <;> grind -linarith [View.granted]
  all_goals
    subst run
    constructor <;> dsimp only <;> grind -linarith [View.reqOut, View.granted, reqOk, reqTimeOut]

end CoWq.Semaphore
