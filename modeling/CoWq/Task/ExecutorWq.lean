import CoWq.Lib.Machine
import CoWq.Lib.Monitor
import CoWq.Task.Workqueue

/-!
# The threaded executor

`executor_wq` lets worker threads wait for nodes on a condition variable with the queue's lock.
A post signals once and behind the lock; `stop_and_join` stores its flag without the lock and
then notifies everybody.

* `Pc`, `State`, `step`, `executorWq`: the workers, the posts that are under way and the stops.
* `Awake`: no wake-up is lost.
* `Settled`: nobody has found the predicate of the wait false and has yet to block when
  `notify_all` is called.
* `queue_served`: posts lose no wake-up in any run.
* `awake_of_settled`, `late_block`: stops lose none in the runs of settled steps, and a call that
  is not settled leaves a worker to block behind it.
-/

namespace CoWq.ExecutorWq

open Monitor Workqueue

/-! ## The machine -/

/-- Where a worker is; the node type is `N`. -/
inductive Pc (N : Type*)
  /-- before `while (!stopping.load(..))` -/
  | looping
  | exited
  /-- at `lk.lock()` of `work_once` -/
  | locking
  /-- at the test of `stopping` in `wait_and_get` -/
  | testing
  /-- at `workqueue::get_work_node` -/
  | taking
  /-- at the predicate of `cv.wait` -/
  | checking
  /-- has found the predicate false -/
  | deciding
  /-- in `cv.wait`, with the lock released -/
  | blocked
  /-- notified, and about to take the lock again -/
  | woken
  /-- `wait_and_get` has returned, `lk.unlock()` comes next -/
  | leaving (pnod : Option N)
  /-- at `fn(pnod)` -/
  | running (pnod : N)
  deriving DecidableEq, Repr

/-- The worker holds `lk`. -/
def Pc.Inside {N : Type*} : Pc N → Prop
  | .testing | .taking | .checking | .deciding | .leaving _ => True
  | .looping | .exited | .locking | .blocked | .woken | .running _ => False

/-- `executor_wq::cv` -/
def cv (N : Type*) : CondVar (Pc N) where
  blocked := .blocked
  woken := .woken
  differ := by simp

structure State (W N : Type*) where
  /-- the holder of `lk` among the workers -/
  holder : Option W
  wsHead : List N
  stopping : Bool
  trigCnt : Nat
  pc : W → Pc N
  /-- the posts that have released the lock, their `trig` still to come -/
  trigs : Nat
  /-- the calls of `stop_and_join` between the store and `notify_all` -/
  stops : Nat
  /-- `stop_and_join` has called `notify_all` -/
  notified : Bool

inductive Action (W N : Type*)
  /-- the loop of a worker thread tests `stopping` -/
  | loop (w : W)
  | lock (w : W)
  /-- `wait_and_get` tests `stopping` -/
  | test (w : W)
  | getWorkNode (w : W)
  /-- the predicate of the wait -/
  | check (w : W)
  /-- `cv.wait` releases the lock and blocks -/
  | block (w : W)
  /-- `cv.wait` takes the lock again -/
  | relock (w : W)
  | unlock (w : W)
  /-- `fn(pnod)` returns -/
  | run (w : W)
  | post (pnode : N)
  | postBatch (batch : List N)
  /-- `lock`, `add_new_nolock` for each node, `unlock` -/
  | addNewNolock (pnodes : List N)
  /-- `trig`, and the worker `notify_one` chooses -/
  | trig (chosen : Option W)
  /-- the store of `stop_and_join` -/
  | stop
  | notifyAll
  deriving DecidableEq, Repr

section Machine

variable {W N : Type*} [DecidableEq W]

def State.setPc (s : State W N) (w : W) (pc : Pc N) : State W N :=
  { s with pc := Function.update s.pc w pc }

/-- A post has put its nodes in and released the lock. -/
def State.posted (s : State W N) (wsHead : List N) : State W N :=
  { s with wsHead := wsHead, trigs := s.trigs + 1 }

variable [DecidableEq N] [Fintype W]

def step (s : State W N) : Action W N → Option (State W N)
  | .loop w =>
      match s.pc w with
      | .looping => some (s.setPc w (if s.stopping then .exited else .locking))
      | _ => none
  | .lock w =>
      match s.pc w, s.holder with
      | .locking, none => some { s.setPc w .testing with holder := some w }
      | _, _ => none
  | .test w =>
      match s.pc w with
      | .testing => some (s.setPc w (if s.stopping then .leaving none else .taking))
      | _ => none
  | .getWorkNode w =>
      match s.pc w with
      | .taking =>
          match s.wsHead with
          | [] => some (s.setPc w .checking)
          | pnod :: rest => some { s.setPc w (.leaving (some pnod)) with wsHead := rest }
      | _ => none
  | .check w =>
      match s.pc w with
      | .checking =>
          some (s.setPc w (if s.stopping ∨ s.wsHead ≠ [] then .testing else .deciding))
      | _ => none
  | .block w =>
      match s.pc w with
      | .deciding => some { s.setPc w .blocked with holder := none }
      | _ => none
  | .relock w =>
      match s.pc w, s.holder with
      | .woken, none => some { s.setPc w .checking with holder := some w }
      | _, _ => none
  | .unlock w =>
      match s.pc w with
      | .leaving none => some { s.setPc w .looping with holder := none }
      | .leaving (some pnod) => some { s.setPc w (.running pnod) with holder := none }
      | _ => none
  | .run w =>
      match s.pc w with
      | .running _ => some (s.setPc w .looping)
      | _ => none
  | .post pnode =>
      if s.holder = none then some (s.posted (Workqueue.addNewNolock s.wsHead pnode)) else none
  | .postBatch batch =>
      -- an empty batch returns at once
      if s.holder = none ∧ batch ≠ [] then some (s.posted (Workqueue.postBatch s.wsHead batch))
      else none
  | .addNewNolock pnodes =>
      if s.holder = none then some (s.posted (pnodes.foldl Workqueue.addNewNolock s.wsHead))
      else none
  | .trig chosen =>
      if 0 < s.trigs then
        ((cv N).notifyOne s.pc chosen).map fun pc =>
          { s with pc := pc, trigs := s.trigs - 1, trigCnt := s.trigCnt + 1 }
      else none
  | .stop => some { s with stopping := true, stops := s.stops + 1 }
  | .notifyAll =>
      if 0 < s.stops then
        some { s with pc := (cv N).notifyAll s.pc, stops := s.stops - 1, notified := true }
      else none

variable (W N) in
/-- The workers have been started; nobody holds the lock. -/
def executorWq : Machine (State W N) (Action W N) where
  init s := s.holder = none ∧ s.stopping = false ∧ s.trigs = 0 ∧ s.stops = 0 ∧
    s.notified = false ∧ ∀ w, s.pc w = .looping
  step := step

/-- No wake-up is lost. -/
structure Awake (s : State W N) : Prop where
  /-- not everybody is blocked, with something to do and no notification to come -/
  served : ¬((∀ w, s.pc w = .blocked) ∧ s.trigs = 0 ∧ s.stops = 0 ∧
    (s.wsHead ≠ [] ∨ s.stopping = true))
  /-- behind the `notify_all` of a stop nobody is blocked -/
  stopped : s.notified = true → ∀ w, s.pc w ≠ .blocked

/-- `notify_all` is called when nobody is between the predicate and the block. -/
def Settled (s : State W N) : Action W N → Prop
  | .notifyAll => ∀ w, s.pc w ≠ .deciding
  | _ => True

instance (s : State W N) (a : Action W N) : Decidable (Settled s a) :=
  match a with
  | .notifyAll => inferInstanceAs (Decidable (∀ w, s.pc w ≠ .deciding))
  | .loop _ | .lock _ | .test _ | .getWorkNode _ | .check _ | .block _ | .relock _ | .unlock _
  | .run _ | .post _ | .postBatch _ | .addNewNolock _ | .trig _ | .stop =>
      inferInstanceAs (Decidable True)

end Machine

variable {W N : Type*} {s t : State W N}

/-! ## Posts -/

structure Tidy (s : State W N) : Prop where
  exclusive : Exclusive Pc.Inside s.holder s.pc
  /-- what the predicate has seen stays: the lock is held -/
  empty : ∀ w, s.pc w = .deciding → s.wsHead = []
  served : s.wsHead ≠ [] → 0 < s.trigs ∨ ∃ w, s.pc w ≠ .blocked

/-- A worker goes on to a point where it is not blocked. -/
theorem tidy_move [DecidableEq W] {w : W} {p : Pc N} {holder : Option W} {wsHead : List N}
    (exclusive : Exclusive Pc.Inside holder (Function.update s.pc w p)) (awake : p ≠ .blocked)
    (here : p = .deciding → wsHead = [])
    (others : ∀ u, u ≠ w → s.pc u = .deciding → wsHead = []) :
    Tidy { s.setPc w p with holder := holder, wsHead := wsHead } where
  exclusive := exclusive
  empty := by
    intro u decides
    rcases eq_or_ne u w with rfl | other
    · simp only [State.setPc, Function.update_self] at decides
      exact here decides
    · simp only [State.setPc, Function.update_of_ne other] at decides
      exact others u other decides
  served := by
    intro _
    refine .inr ⟨w, ?_⟩
    simpa only [State.setPc, Function.update_self] using awake

/-- A worker goes on without a change of the lock or the queue. -/
theorem Tidy.goOn [DecidableEq W] {w : W} {p : Pc N} (tidy : Tidy s)
    (same : Pc.Inside (s.pc w) ↔ Pc.Inside p) (awake : p ≠ .blocked)
    (here : p = .deciding → s.wsHead = []) : Tidy (s.setPc w p) := by
  refine tidy_move ?_ awake here fun u _ decides => tidy.empty u decides
  by_cases inside : Pc.Inside (s.pc w)
  · exact tidy.exclusive.stay inside (same.mp inside)
  · exact tidy.exclusive.outside inside (same.not.mp inside)

/-- With the lock free nobody has evaluated the predicate and not blocked yet. -/
theorem Tidy.none_deciding (tidy : Tidy s) (free : s.holder = none) (w : W) :
    s.pc w ≠ .deciding := by
  intro decides
  have outside := (free ▸ tidy.exclusive).not_inside w
  rw [decides] at outside
  exact outside trivial

theorem Tidy.posted (tidy : Tidy s) (free : s.holder = none) (wsHead : List N) :
    Tidy (s.posted wsHead) where
  exclusive := tidy.exclusive
  empty := fun w decides => absurd decides (tidy.none_deciding free w)
  served := fun _ => .inl (Nat.succ_pos _)

/-- A worker that takes the lock. -/
theorem Tidy.enter [DecidableEq W] {w : W} {p : Pc N} (tidy : Tidy s) (free : s.holder = none)
    (inside : Pc.Inside p) (awake : p ≠ .blocked) (here : p ≠ .deciding) :
    Tidy { s.setPc w p with holder := some w } := by
  have exclusive := free ▸ tidy.exclusive
  apply tidy_move (exclusive.enter inside) awake fun decides => absurd decides here
  exact fun u _ decides => tidy.empty u decides

/-- A worker that releases the lock and goes on. -/
theorem Tidy.leave [DecidableEq W] {w : W} {p : Pc N} (tidy : Tidy s)
    (inside : Pc.Inside (s.pc w)) (outside : ¬Pc.Inside p) (awake : p ≠ .blocked) :
    Tidy { s.setPc w p with holder := none } := by
  apply tidy_move (tidy.exclusive.leave inside outside) awake
  · rintro rfl
    exact absurd trivial outside
  · exact fun u _ decides => tidy.empty u decides

/-- The lock is released in one step with the block, so nothing has been posted in between. -/
theorem Tidy.block [DecidableEq W] {w : W} (tidy : Tidy s) (decides : s.pc w = .deciding) :
    Tidy { s.setPc w .blocked with holder := none } where
  exclusive := tidy.exclusive.leave (decides ▸ trivial) id
  empty := by
    intro u decides
    rcases eq_or_ne u w with rfl | other
    · simp [State.setPc] at decides
    · simp only [State.setPc, Function.update_of_ne other] at decides
      exact tidy.empty u decides
  served := fun work => absurd (tidy.empty w decides) work

/-- Taking a node. -/
theorem Tidy.take [DecidableEq W] {w : W} {pnod : N} {rest : List N} (tidy : Tidy s)
    (takes : s.pc w = .taking) :
    Tidy { s.setPc w (.leaving (some pnod)) with wsHead := rest } := by
  have inside : Pc.Inside (s.pc w) := takes ▸ trivial
  apply tidy_move (p := .leaving (some pnod)) (tidy.exclusive.stay inside trivial) (by simp)
    (by simp)
  intro u other decides
  exact absurd (tidy.exclusive.unique inside (decides ▸ trivial)) other

theorem Tidy.trig [DecidableEq W] [DecidableEq N] [Fintype W] [Inhabited W] {chosen : Option W}
    {pc : W → Pc N} (tidy : Tidy s) (wakes : (cv N).notifyOne s.pc chosen = some pc) :
    Tidy { s with pc := pc, trigs := s.trigs - 1, trigCnt := s.trigCnt + 1 } where
  exclusive := CondVar.exclusive_notifyOne tidy.exclusive id id wakes
  empty := by
    intro u decides
    rcases CondVar.notifyOne_inv wakes with ⟨w, _, rfl⟩ | ⟨rfl, _⟩
    · rcases eq_or_ne u w with rfl | other
      · simp [cv] at decides
      · simp only [Function.update_of_ne other] at decides
        exact tidy.empty u decides
    · exact tidy.empty u decides
  served := fun _ => .inr (CondVar.notifyOne_awake wakes)

theorem Tidy.notifyAll [DecidableEq N] [Inhabited W] (tidy : Tidy s) :
    Tidy { s with pc := (cv N).notifyAll s.pc, stops := s.stops - 1, notified := true } where
  exclusive := CondVar.exclusive_notifyAll tidy.exclusive id id
  empty := by
    intro u decides
    simp only [CondVar.notifyAll] at decides
    split_ifs at decides with asleep
    · cases decides
    · exact tidy.empty u decides
  served := fun _ => .inr ⟨default, CondVar.notifyAll_ne_blocked default⟩

theorem Tidy.step [DecidableEq W] [DecidableEq N] [Fintype W] [Inhabited W] {a : Action W N}
    (tidy : Tidy s) (run : step s a = some t) : Tidy t := by
  cases a with
  | loop w =>
      simp only [ExecutorWq.step] at run
      split at run <;> cases run
      next here => split_ifs <;> exact tidy.goOn (by simp [here, Pc.Inside]) (by simp) (by simp)
  | lock w =>
      simp only [ExecutorWq.step] at run
      split at run <;> cases run
      next free => exact tidy.enter free trivial (by simp) (by simp)
  | test w =>
      simp only [ExecutorWq.step] at run
      split at run <;> cases run
      next here => split_ifs <;> exact tidy.goOn (by simp [here, Pc.Inside]) (by simp) (by simp)
  | getWorkNode w =>
      simp only [ExecutorWq.step] at run
      split at run
      next here =>
        split at run <;> cases run
        · exact tidy.goOn (by simp [here, Pc.Inside]) (by simp) (by simp)
        · exact tidy.take here
      next => cases run
  | check w =>
      simp only [ExecutorWq.step] at run
      split at run <;> cases run
      next here =>
        split_ifs with goes
        · exact tidy.goOn (by simp [here, Pc.Inside]) (by simp) (by simp)
        · refine tidy.goOn (by simp [here, Pc.Inside]) (by simp) fun _ => ?_
          simpa using (not_or.mp goes).2
  | block w =>
      simp only [ExecutorWq.step] at run
      split at run <;> cases run
      next here => exact tidy.block here
  | relock w =>
      simp only [ExecutorWq.step] at run
      split at run <;> cases run
      next free => exact tidy.enter free trivial (by simp) (by simp)
  | unlock w =>
      simp only [ExecutorWq.step] at run
      split at run <;> cases run
      next here => exact tidy.leave (here ▸ trivial) id (by simp)
      next here => exact tidy.leave (here ▸ trivial) id (by simp)
  | run w =>
      simp only [ExecutorWq.step] at run
      split at run <;> cases run
      next here => exact tidy.goOn (by simp [here, Pc.Inside]) (by simp) (by simp)
  | post pnode =>
      obtain ⟨free, run⟩ := Option.ite_none_right_eq_some.mp run
      cases run
      exact tidy.posted free _
  | postBatch batch =>
      obtain ⟨⟨free, _⟩, run⟩ := Option.ite_none_right_eq_some.mp run
      cases run
      exact tidy.posted free _
  | addNewNolock pnodes =>
      obtain ⟨free, run⟩ := Option.ite_none_right_eq_some.mp run
      cases run
      exact tidy.posted free _
  | trig chosen =>
      obtain ⟨_, run⟩ := Option.ite_none_right_eq_some.mp run
      obtain ⟨pc, wakes, rfl⟩ := Option.map_eq_some_iff.mp run
      exact tidy.trig wakes
  | stop =>
      cases run
      exact ⟨tidy.exclusive, tidy.empty, tidy.served⟩
  | notifyAll =>
      obtain ⟨_, run⟩ := Option.ite_none_right_eq_some.mp run
      cases run
      exact tidy.notifyAll

section Runs

variable [DecidableEq W] [DecidableEq N] [Fintype W] [Inhabited W]

theorem reachable_tidy {ok : State W N → Action W N → Prop} (h : (executorWq W N).Via ok s) :
    Tidy s := by
  refine h.invariant (I := Tidy) ?_ fun _ _ _ tidy _ run => tidy.step run
  rintro s ⟨free, _, _, _, _, looping⟩
  refine ⟨?_, ?_, ?_⟩
  · intro w
    simp [looping w, free, Pc.Inside]
  · intro w decides
    rw [looping w] at decides
    cases decides
  · exact fun _ => .inr ⟨default, by simp [looping default]⟩

/-- Posts lose no wake-up: in every run, with a node in the queue somebody is not blocked or the
signal of a post is still to come. -/
theorem queue_served (h : (executorWq W N).Reachable s) (work : s.wsHead ≠ []) :
    0 < s.trigs ∨ ∃ w, s.pc w ≠ .blocked :=
  (reachable_tidy h).served work

end Runs

/-! ## Stops -/

/-- Once everybody has been notified of the stop nobody comes to block again. -/
structure Stopped (s : State W N) : Prop where
  flag : s.notified = true → s.stopping = true
  begun : 0 < s.stops → s.stopping = true
  stops : s.stopping = true → 0 < s.stops ∨ s.notified = true
  late : s.notified = true → ∀ w, s.pc w ≠ .blocked ∧ s.pc w ≠ .deciding

/-- A worker goes on; it finds the predicate of the wait false only while `stopping` is unset. -/
theorem Stopped.move [DecidableEq W] {w : W} {p : Pc N} {holder : Option W} {wsHead : List N}
    (stopped : Stopped s) (here : s.stopping = true → p ≠ .deciding)
    (blocks : p = .blocked → s.pc w = .deciding) :
    Stopped { s.setPc w p with holder := holder, wsHead := wsHead } where
  flag := stopped.flag
  begun := stopped.begun
  stops := stopped.stops
  late := by
    intro notified u
    have before := stopped.late notified
    rcases eq_or_ne u w with rfl | other
    · simp only [State.setPc, Function.update_self]
      exact ⟨fun h => (before u).2 (blocks h), here (stopped.flag notified)⟩
    · simp only [State.setPc, Function.update_of_ne other]
      exact before u

theorem Stopped.goOn [DecidableEq W] {w : W} {p : Pc N} (stopped : Stopped s)
    (here : s.stopping = true → p ≠ .deciding) (blocks : p ≠ .blocked) :
    Stopped (s.setPc w p) :=
  have moved : Stopped { s.setPc w p with holder := s.holder, wsHead := s.wsHead } :=
    stopped.move here fun h => absurd h blocks
  moved

theorem Stopped.trig [DecidableEq W] [DecidableEq N] [Fintype W] {chosen : Option W}
    {pc : W → Pc N} (stopped : Stopped s) (wakes : (cv N).notifyOne s.pc chosen = some pc) :
    Stopped { s with pc := pc, trigs := s.trigs - 1, trigCnt := s.trigCnt + 1 } where
  flag := stopped.flag
  begun := stopped.begun
  stops := stopped.stops
  late := by
    intro notified w
    have before := stopped.late notified w
    rcases CondVar.notifyOne_of_ne (t := w) wakes with same | blocked
    · simpa only [same] using before
    · exact absurd blocked before.1

theorem Stopped.notifyAll [DecidableEq N] (stopped : Stopped s) (stops : 0 < s.stops)
    (settled : ∀ w, s.pc w ≠ .deciding) :
    Stopped { s with pc := (cv N).notifyAll s.pc, stops := s.stops - 1, notified := true } where
  flag := fun _ => stopped.begun stops
  begun := fun _ => stopped.begun stops
  stops := fun _ => .inr rfl
  late := by
    intro _ w
    refine ⟨CondVar.notifyAll_ne_blocked w, ?_⟩
    simp only [CondVar.notifyAll]
    split_ifs
    · simp [cv]
    · exact settled w

theorem Stopped.step [DecidableEq W] [DecidableEq N] [Fintype W] {a : Action W N}
    (stopped : Stopped s) (settled : Settled s a) (run : step s a = some t) : Stopped t := by
  cases a with
  | loop w =>
      simp only [ExecutorWq.step] at run
      split at run <;> cases run
      split_ifs <;> exact stopped.goOn (by simp) (by simp)
  | lock w =>
      simp only [ExecutorWq.step] at run
      split at run <;> cases run
      exact stopped.move (by simp) (by simp)
  | test w =>
      simp only [ExecutorWq.step] at run
      split at run <;> cases run
      split_ifs <;> exact stopped.goOn (by simp) (by simp)
  | getWorkNode w =>
      simp only [ExecutorWq.step] at run
      split at run
      · split at run <;> cases run
        · exact stopped.goOn (by simp) (by simp)
        · exact stopped.move (by simp) (by simp)
      · cases run
  | check w =>
      simp only [ExecutorWq.step] at run
      split at run <;> cases run
      split_ifs with goes
      · exact stopped.goOn (by simp) (by simp)
      · exact stopped.goOn (fun set => absurd (.inl set) goes) (by simp)
  | block w =>
      simp only [ExecutorWq.step] at run
      split at run <;> cases run
      next here => exact stopped.move (by simp) fun _ => here
  | relock w =>
      simp only [ExecutorWq.step] at run
      split at run <;> cases run
      exact stopped.move (by simp) (by simp)
  | unlock w =>
      simp only [ExecutorWq.step] at run
      split at run <;> cases run <;> exact stopped.move (by simp) (by simp)
  | run w =>
      simp only [ExecutorWq.step] at run
      split at run <;> cases run
      exact stopped.goOn (by simp) (by simp)
  | post pnode =>
      obtain ⟨_, run⟩ := Option.ite_none_right_eq_some.mp run
      cases run
      exact ⟨stopped.flag, stopped.begun, stopped.stops, stopped.late⟩
  | postBatch batch =>
      obtain ⟨_, run⟩ := Option.ite_none_right_eq_some.mp run
      cases run
      exact ⟨stopped.flag, stopped.begun, stopped.stops, stopped.late⟩
  | addNewNolock pnodes =>
      obtain ⟨_, run⟩ := Option.ite_none_right_eq_some.mp run
      cases run
      exact ⟨stopped.flag, stopped.begun, stopped.stops, stopped.late⟩
  | trig chosen =>
      obtain ⟨_, run⟩ := Option.ite_none_right_eq_some.mp run
      obtain ⟨pc, wakes, rfl⟩ := Option.map_eq_some_iff.mp run
      exact stopped.trig wakes
  | stop =>
      cases run
      exact ⟨fun _ => rfl, fun _ => rfl, fun _ => .inl (Nat.succ_pos _), stopped.late⟩
  | notifyAll =>
      obtain ⟨stops, run⟩ := Option.ite_none_right_eq_some.mp run
      cases run
      exact stopped.notifyAll stops settled

section Runs

variable [DecidableEq W] [DecidableEq N] [Fintype W]

theorem via_stopped (h : (executorWq W N).Via Settled s) : Stopped s := by
  refine h.invariant (I := Stopped) ?_ fun _ _ _ stopped settled run => stopped.step settled run
  rintro s ⟨_, unset, _, none, silent, _⟩
  refine ⟨?_, ?_, ?_, ?_⟩
  · simp [silent]
  · simp [none]
  · simp [unset]
  · simp [silent]

/-- No wake-up is lost as long as each `notify_all` finds no worker on its way from the predicate
to the block. -/
theorem awake_of_settled [Inhabited W] (h : (executorWq W N).Via Settled s) : Awake s := by
  have tidy := reachable_tidy h
  have stopped := via_stopped h
  refine ⟨?_, fun notified w => (stopped.late notified w).1⟩
  rintro ⟨asleep, no_trig, no_stop, work | set⟩
  · rcases tidy.served work with trigs | ⟨w, awake⟩
    · omega
    · exact awake (asleep w)
  · rcases stopped.stops set with stops | notified
    · omega
    · exact (stopped.late notified default).1 (asleep default)

/-- A `notify_all` that is not settled leaves a worker that may block behind it. -/
theorem late_block (step : (executorWq W N).step s .notifyAll = some t)
    (unsettled : ¬Settled s .notifyAll) :
    ∃ w u, (executorWq W N).step t (.block w) = some u ∧ ¬Awake u := by
  simp only [Settled, not_forall, not_not] at unsettled
  obtain ⟨w, decides⟩ := unsettled
  obtain ⟨_, run⟩ := Option.ite_none_right_eq_some.mp step
  have notified : t.notified = true := (congrArg State.notified (Option.some.inj run)).symm
  have still : t.pc w = .deciding := by
    rw [← congrArg State.pc (Option.some.inj run)]
    simp [CondVar.notifyAll, decides, cv]
  refine ⟨w, { t.setPc w .blocked with holder := none }, ?_, ?_⟩
  · simp only [executorWq, ExecutorWq.step, still]
  · intro awake
    apply awake.stopped notified w
    simp [State.setPc]

end Runs

/-- The workers have been started. -/
def started (W N : Type*) : State W N where
  holder := none
  wsHead := []
  stopping := false
  trigCnt := 0
  pc := fun _ => .looping
  trigs := 0
  stops := 0
  notified := false

theorem init_started [DecidableEq W] [DecidableEq N] [Fintype W] :
    (executorWq W N).init (started W N) :=
  ⟨rfl, rfl, rfl, rfl, rfl, fun _ => rfl⟩

/-- One worker finds nothing to do and blocks, a batch of two nodes wakes it, and a stop comes
while it runs the first one. -/
theorem awake_of_settled_stop :
    ∃ s, (executorWq (Fin 1) Nat).execOk Settled (started (Fin 1) Nat)
        [.loop 0, .lock 0, .test 0, .getWorkNode 0, .check 0, .block 0, .postBatch [7, 8],
          .trig (some 0), .relock 0, .check 0, .test 0, .getWorkNode 0, .unlock 0, .stop,
          .notifyAll, .run 0] = some s ∧
      s.notified = true ∧ s.wsHead = [8] ∧ Awake s := by
  have run : (executorWq (Fin 1) Nat).execOk Settled (started (Fin 1) Nat)
      ([.loop 0, .lock 0, .test 0, .getWorkNode 0, .check 0, .block 0, .postBatch [7, 8],
        .trig (some 0), .relock 0, .check 0, .test 0, .getWorkNode 0, .unlock 0, .stop,
        .notifyAll, .run 0] : List (Action (Fin 1) Nat)) = some _ := rfl
  exact ⟨_, run, rfl, rfl, awake_of_settled (Machine.Via.execOk (.init init_started) run)⟩

/-- The only worker has found the predicate false when `stop_and_join` stores its flag and calls
`notify_all`; then it blocks, and nobody is left to wake it. -/
theorem missed_stop : ¬∀ s, (executorWq (Fin 1) Nat).Reachable s → Awake s := by
  intro awake
  have run : (executorWq (Fin 1) Nat).exec (started (Fin 1) Nat)
      ([.loop 0, .lock 0, .test 0, .getWorkNode 0, .check 0, .stop, .notifyAll, .block 0] :
        List (Action (Fin 1) Nat)) = some _ := rfl
  apply (awake _ (Machine.Via.exec (.init init_started) run)).served
  exact ⟨by decide, rfl, rfl, .inr rfl⟩

end CoWq.ExecutorWq
