import CoWq.Lib.Machine
import CoWq.Task.Workqueue

/-!
# A coroutine on a workqueue

One coroutine that `post_to` has started, and the threads that may touch it: workers
that run its node with `wk_cb`, threads whose awaiter callback resumes it, and
whichever of them it happens to complete on.

* `State`, `Action`, `machine`: the accesses of each thread, one step each.
* `State.late`: some step touched the promise behind its destruction.
* `Apart`: no clear of `_running_on_executor` and no test of `done()` falls between
  the final suspend of another thread and its look at the flag.
-/

namespace CoWq.Worker

open Workqueue

/-- The nodes on the executor's queue: the promise, and those of others. -/
inductive Node (O : Type*)
  | self
  | other (o : O)
  deriving DecidableEq, Repr

inductive Func
  | wkCb
  | destroyOnExecutor
  deriving DecidableEq, Repr

/-- Where the coroutine is. -/
inductive Coro
  /-- at its initial suspend -/
  | initial
  | running
  /-- in the `co_await` of an awaiter that will resume it -/
  | suspended
  /-- at its final suspend: `done()` -/
  | final
  deriving DecidableEq, Repr

/-- The program points of a thread; `wk` says whether `wk_cb` is below on its stack. -/
inductive Pc
  | idle
  /-- in `wk_cb`, at `_running_on_executor = true` -/
  | wkSet
  /-- at the first `done()` -/
  | wkTest
  /-- in the body of the coroutine -/
  | body (wk : Bool)
  /-- in `FinalAwaiter::await_suspend` -/
  | final (wk : Bool)
  /-- in `on_completed_adapter`, at the user's callback -/
  | adapter (wk : Bool)
  /-- at the test of `_completion_posted` and `_running_on_executor` -/
  | check (wk : Bool)
  /-- at `_completion_posted = true` -/
  | mark (wk : Bool)
  /-- in `post` -/
  | relink (wk : Bool)
  /-- in `wk_cb`, at `_running_on_executor = false` -/
  | wkClear
  /-- at the second `done()` -/
  | wkDone
  /-- at `destroy()` -/
  | wkDestroy
  /-- in `destroy_on_executor` -/
  | destroyNode
  deriving DecidableEq, Repr

structure State (T O : Type*) where
  wsHead : List (Node O)
  func : Func
  /-- `_excutor` is set -/
  excutor : Bool
  runningOnExecutor : Bool
  completionPosted : Bool
  coro : Coro
  pc : T → Pc
  /-- how often the frame was destroyed -/
  destroys : Nat
  /-- a step touched the promise when it was destroyed -/
  late : Bool

inductive Action (T O : Type*)
  /-- somebody posts another node to the executor -/
  | postOther (o : O)
  | workOnce (t : T)
  | setRunning (t : T)
  /-- `if (!coro.done()) coro.resume()` -/
  | resume (t : T)
  /-- an awaiter's callback resumes the coroutine -/
  | callback (t : T)
  /-- the body suspends in an awaiter -/
  | suspend (t : T)
  | finalSuspend (t : T)
  /-- `mPrevious` and `mOnCompleted` are read -/
  | awaitSuspend (t : T)
  /-- `_user_on_completed` is read and called -/
  | userOnCompleted (t : T)
  | check (t : T)
  | mark (t : T)
  | post (t : T)
  | clearRunning (t : T)
  | testDone (t : T)
  | destroy (t : T)
  | destroyOnExecutor (t : T)
  deriving DecidableEq, Repr

section Machine

variable {T O : Type*} [DecidableEq T] [DecidableEq O]

def State.setPc (s : State T O) (t : T) (p : Pc) : State T O :=
  { s with pc := fun x => if x = t then p else s.pc x }

/-- An access to the promise. -/
def State.touch (s : State T O) : State T O := { s with late := s.late || s.destroys != 0 }

/-- As `post_to` leaves it. -/
def init (s : State T O) : Prop :=
  s.wsHead.count .self = 1 ∧ s.func = .wkCb ∧ s.excutor = true ∧ s.runningOnExecutor = false ∧
    s.completionPosted = false ∧ s.coro = .initial ∧ (∀ t, s.pc t = .idle) ∧ s.destroys = 0 ∧
    s.late = false

/-- Where a call that the coroutine has returned from goes on. -/
def returnTo (wk : Bool) : Pc := if wk then .wkClear else .idle

def step (s : State T O) : Action T O → Option (State T O)
  | .postOther o => some { s with wsHead := addNewNolock s.wsHead (.other o) }
  | .workOnce t =>
      if s.pc t = .idle then
        match s.wsHead with
        | [] => none
        | .other _ :: rest => some { s with wsHead := rest }
        | .self :: rest =>
            match s.func with
            | .wkCb => some ({ s.touch with wsHead := rest }.setPc t .wkSet)
            | .destroyOnExecutor => some ({ s.touch with wsHead := rest }.setPc t .destroyNode)
      else none
  | .setRunning t =>
      if s.pc t = .wkSet then some ({ s.touch with runningOnExecutor := true }.setPc t .wkTest)
      else none
  | .resume t =>
      if s.pc t = .wkTest then
        if s.coro = .final then some (s.touch.setPc t .wkClear)
        else some ({ s.touch with coro := .running }.setPc t (.body true))
      else none
  | .callback t =>
      if s.pc t = .idle ∧ s.coro = .suspended then
        some ({ s.touch with coro := .running }.setPc t (.body false))
      else none
  | .suspend t =>
      match s.pc t with
      | .body wk => some ({ s.touch with coro := .suspended }.setPc t (returnTo wk))
      | _ => none
  | .finalSuspend t =>
      match s.pc t with
      | .body wk => some ({ s.touch with coro := .final }.setPc t (.final wk))
      | _ => none
  | .awaitSuspend t =>
      match s.pc t with
      | .final wk => some (s.touch.setPc t (.adapter wk))
      | _ => none
  | .userOnCompleted t =>
      match s.pc t with
      | .adapter wk => some (s.touch.setPc t (.check wk))
      | _ => none
  | .check t =>
      match s.pc t with
      | .check wk =>
          if s.completionPosted = false ∧ s.excutor = true ∧ s.runningOnExecutor = false then
            some (s.touch.setPc t (.mark wk))
          else some (s.touch.setPc t (returnTo wk))
      | _ => none
  | .mark t =>
      match s.pc t with
      | .mark wk =>
          some ({ s.touch with
            completionPosted := true
            func := .destroyOnExecutor }.setPc t (.relink wk))
      | _ => none
  | .post t =>
      match s.pc t with
      | .relink wk =>
          -- `post` puts `wk_cb` back over `destroy_on_executor`
          some ({ s.touch with
            func := .wkCb
            wsHead := addNewNolock s.wsHead .self }.setPc t (returnTo wk))
      | _ => none
  | .clearRunning t =>
      if s.pc t = .wkClear then some ({ s.touch with runningOnExecutor := false }.setPc t .wkDone)
      else none
  | .testDone t =>
      if s.pc t = .wkDone then
        some (s.touch.setPc t (if s.coro = .final then .wkDestroy else .idle))
      else none
  | .destroy t =>
      if s.pc t = .wkDestroy then
        some ({ s.touch with
          completionPosted := false
          destroys := s.destroys + 1 }.setPc t .idle)
      else none
  | .destroyOnExecutor t =>
      if s.pc t = .destroyNode then
        some ({ s.touch with destroys := s.destroys + 1 }.setPc t .idle)
      else none

def machine : Machine (State T O) (Action T O) := ⟨init, step⟩

end Machine

/-- Between the final suspend and the look at `_running_on_executor`. -/
def Pc.finishing : Pc → Bool
  | .final _ => true
  | .adapter _ => true
  | .check _ => true
  | _ => false

/-- `_running_on_executor` is cleared only with no thread between its final suspend and
its look at the flag, and the coroutine comes to its final suspend only with no thread
between its clear and its test of `done()`. -/
def Apart {T O : Type*} (s : State T O) : Action T O → Prop
  | .clearRunning _ => ∀ u, (s.pc u).finishing = false
  | .finalSuspend _ => ∀ u, s.pc u ≠ .wkDone
  | _ => True

end CoWq.Worker
