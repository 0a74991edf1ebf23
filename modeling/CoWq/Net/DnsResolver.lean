import CoWq.Lib.Machine
import CoWq.Lib.Monitor

/-!
# The asynchronous resolver

`async_resolver::Impl`: calls of `resolve` put jobs into a deque under a mutex, worker threads
take them, resolve them and post a `ResumeNode` to the executor of the job, and the destructor
stops and joins the workers.

* `Pc`, `State`, `step`, `resolver`: the machine.  Threads of the executors take nodes and run
  them, several at a time.
* `Delivered`, `Complete`: what is to hold in every state, and where a run cannot go on.
* `Synced`: what the workers know of the deque and the flag, and that no wake-up is lost.
-/

namespace CoWq.DnsResolver

open Monitor

/-! ## The machine -/

/-- Where a worker is in `worker_loop`. -/
inductive Pc (J : Type*)
  /-- at the constructor of `unique_lock` -/
  | locking
  /-- at the predicate of `cv.wait` -/
  | checking
  /-- has found the predicate false -/
  | deciding
  /-- in `cv.wait`, with the mutex released -/
  | blocked
  /-- notified, and about to take the mutex again -/
  | woken
  /-- behind `cv.wait` -/
  | taking
  /-- at `resolve_core` -/
  | resolving (job : J)
  /-- at `post_result` -/
  | posting (job : J)
  | exited
  deriving DecidableEq, Repr

/-- The worker holds the mutex. -/
def Pc.Inside {J : Type*} : Pc J → Prop
  | .checking | .deciding | .taking => True
  | .locking | .blocked | .woken | .resolving _ | .posting _ | .exited => False

/-- `Impl::cv` -/
def cv (J : Type*) : CondVar (Pc J) where
  blocked := .blocked
  woken := .woken
  differ := by simp

/-- The fields of a `Job` that change; `continuation` tells whether there is a handle. -/
structure Job (R : Type*) where
  continuation : Bool := false
  result : Option R := none
  deriving DecidableEq, Repr

/-- How far the destructor of `Impl` has come. -/
inductive Dtor
  | notCalled
  /-- `stop` is set -/
  | stopped
  /-- behind `notify_all`, at the joins -/
  | notified
  | joined
  deriving DecidableEq, Repr

/-- Where a job is. -/
inductive Stage (W E : Type*)
  | absent
  | queued
  | resolving (w : W)
  | posting (w : W)
  /-- its `ResumeNode` is in the queue of an executor -/
  | posted (e : E)
  /-- a thread of the executor has taken the node -/
  | running
  | resumed
  deriving DecidableEq, Repr

structure State (W J E R : Type*) where
  /-- the holder of `mutex` among the workers -/
  holder : Option W
  queue : List J
  stop : Bool
  pc : W → Pc J
  /-- the calls of `enqueue` that have released the mutex, their `notify_one` still to come -/
  notifies : Nat
  dtor : Dtor
  job : J → Job R
  /-- the `ResumeNode`s in the queue of each executor, named by their jobs -/
  nodes : E → List J
  /-- the nodes that have been taken from an executor and not run yet -/
  running : List J
  /-- for the statements: where each job is, and what has happened so far -/
  stage : J → Stage W E
  enqueued : List J
  takes : List (W × J)
  answers : List (J × R)
  resumes : List (J × Option R)

inductive Action (W J E R : Type*)
  /-- `await_suspend` of a call of `resolve` makes a job and pushes it -/
  | enqueue (j : J)
  /-- `cv.notify_one()` of `enqueue`, and the worker it chooses -/
  | notifyOne (chosen : Option W)
  | lock (w : W)
  /-- the predicate of the wait -/
  | check (w : W)
  | block (w : W)
  | relock (w : W)
  | spurious (w : W)
  /-- behind the wait: the worker exits or takes the first job -/
  | take (w : W)
  | resolve (w : W) (answer : R)
  | postResult (w : W)
  /-- a thread of executor `e` takes a node -/
  | takeNode (e : E)
  /-- `ResumeNode::run` -/
  | run (j : J)
  | stop
  | notifyAll
  | join
  deriving DecidableEq, Repr

section Machine

variable {W J E R : Type*} [DecidableEq W] [DecidableEq J] [DecidableEq E]

def State.setPc (s : State W J E R) (w : W) (pc : Pc J) : State W J E R :=
  { s with pc := Function.update s.pc w pc }

def State.setStage (s : State W J E R) (j : J) (stage : Stage W E) : State W J E R :=
  { s with stage := Function.update s.stage j stage }

/-- `handle.resume()`: the coroutine goes on with what is in `job->result`. -/
def State.resume (s : State W J E R) (j : J) : State W J E R :=
  { s.setStage j .resumed with resumes := s.resumes ++ [(j, (s.job j).result)] }

/-- `post_result`, by the executor of the job. -/
def postResult (s : State W J E R) (j : J) : Option E → State W J E R
  | none => if (s.job j).continuation then s.resume j else s
  | some e =>
      { s.setStage j (.posted e) with
        nodes := Function.update s.nodes e (s.nodes e ++ [j]) }

/-- `ResumeNode::run` -/
def runNode (s : State W J E R) (j : J) : State W J E R :=
  let handle := (s.job j).continuation
  let s := { s with job := Function.update s.job j { s.job j with continuation := false } }
  if handle then s.resume j else s

variable [Fintype W] (exec : J → Option E)

def step (s : State W J E R) : Action W J E R → Option (State W J E R)
  | .enqueue j =>
      if s.holder = none ∧ s.dtor = .notCalled ∧ j ∉ s.enqueued then
        some
          { s.setStage j .queued with
            queue := s.queue ++ [j]
            job := Function.update s.job j { continuation := true }
            notifies := s.notifies + 1
            enqueued := s.enqueued ++ [j] }
      else none
  | .notifyOne chosen =>
      if 0 < s.notifies then
        ((cv J).notifyOne s.pc chosen).map fun pc =>
          { s with pc := pc, notifies := s.notifies - 1 }
      else none
  | .lock w =>
      match s.pc w, s.holder with
      | .locking, none => some { s.setPc w .checking with holder := some w }
      | _, _ => none
  | .check w =>
      match s.pc w with
      | .checking => some (s.setPc w (if s.stop ∨ s.queue ≠ [] then .taking else .deciding))
      | _ => none
  | .block w =>
      match s.pc w with
      | .deciding => some { s.setPc w .blocked with holder := none }
      | _ => none
  | .relock w =>
      match s.pc w, s.holder with
      | .woken, none => some { s.setPc w .checking with holder := some w }
      | _, _ => none
  | .spurious w =>
      match s.pc w with
      | .blocked => some (s.setPc w .woken)
      | _ => none
  | .take w =>
      match s.pc w, s.queue with
      | .taking, [] =>
          -- `front()` of an empty deque is not an outcome
          if s.stop then some { s.setPc w .exited with holder := none } else none
      | .taking, j :: rest =>
          some
            { (s.setPc w (.resolving j)).setStage j (.resolving w) with
              holder := none
              queue := rest
              takes := s.takes ++ [(w, j)] }
      | _, _ => none
  | .resolve w answer =>
      match s.pc w with
      | .resolving j =>
          some
            { (s.setPc w (.posting j)).setStage j (.posting w) with
              job := Function.update s.job j { s.job j with result := some answer }
              answers := s.answers ++ [(j, answer)] }
      | _ => none
  | .postResult w =>
      match s.pc w with
      | .posting j => some (postResult (s.setPc w .locking) j (exec j))
      | _ => none
  | .takeNode e =>
      match s.nodes e with
      | [] => none
      | j :: rest =>
          some
            { s.setStage j .running with
              nodes := Function.update s.nodes e rest
              running := s.running ++ [j] }
  | .run j =>
      if j ∈ s.running then some (runNode { s with running := s.running.erase j } j) else none
  | .stop =>
      if s.holder = none ∧ s.dtor = .notCalled then
        some { s with stop := true, dtor := .stopped }
      else none
  | .notifyAll =>
      if s.dtor = .stopped then some { s with pc := (cv J).notifyAll s.pc, dtor := .notified }
      else none
  | .join =>
      if s.dtor = .notified ∧ ∀ w, s.pc w = .exited then some { s with dtor := .joined } else none

/-- The constructor has started the workers. -/
def started (W J E R : Type*) : State W J E R where
  holder := none
  queue := []
  stop := false
  pc := fun _ => .locking
  notifies := 0
  dtor := .notCalled
  job := fun _ => {}
  nodes := fun _ => []
  running := []
  stage := fun _ => .absent
  enqueued := []
  takes := []
  answers := []
  resumes := []

variable (W R) in
/-- The resolver, with the executor each job is for (`nullptr` is allowed). -/
def resolver : Machine (State W J E R) (Action W J E R) where
  init s := s = started W J E R
  step := step exec

end Machine

/-! ## What is to hold -/

variable {W J E R : Type*} {s t : State W J E R}

/-- In every state: jobs are taken in the order they came, nobody takes a job twice or resumes
it twice, a continuation goes on with its own answer, and an exit leaves no job behind. -/
structure Delivered [DecidableEq J] (s : State W J E R) : Prop where
  fifo : s.enqueued = s.takes.map Prod.snd ++ s.queue
  distinct : s.enqueued.Nodup
  once : ∀ j, (s.resumes.map Prod.fst).count j ≤ 1
  stored : ∀ j result, (j, result) ∈ s.resumes →
    ∃ answer, result = some answer ∧ (j, answer) ∈ s.answers ∧ ∃ w, (w, j) ∈ s.takes
  answered : ∀ j, (s.answers.map Prod.fst).count j ≤ 1
  exits : ∀ w, s.pc w = .exited → s.stop = true ∧ s.queue = []

/-- Every job has been taken by one worker, resolved and resumed, and behind a stop the workers
are joined. -/
structure Complete [DecidableEq J] (s : State W J E R) : Prop where
  taken : ∀ j, j ∈ s.enqueued → ∃! w, (w, j) ∈ s.takes
  resumed : ∀ j, j ∈ s.enqueued → (s.resumes.map Prod.fst).count j = 1
  joined : s.stop = true → s.dtor = .joined

/-! ## The workers and the deque -/

/-- What the workers and the destructor share. -/
structure Shared (W J : Type*) where
  holder : Option W
  queue : List J
  stop : Bool
  pc : W → Pc J
  notifies : Nat
  dtor : Dtor

def State.shared (s : State W J E R) : Shared W J :=
  ⟨s.holder, s.queue, s.stop, s.pc, s.notifies, s.dtor⟩

structure Synced (v : Shared W J) : Prop where
  exclusive : Exclusive Pc.Inside v.holder v.pc
  /-- what the predicate has seen stays: the mutex is held -/
  deciding : ∀ w, v.pc w = .deciding → v.queue = [] ∧ v.stop = false
  taking : ∀ w, v.pc w = .taking → v.stop = true ∨ v.queue ≠ []
  exited : ∀ w, v.pc w = .exited → v.stop = true ∧ v.queue = []
  served : v.queue ≠ [] → 0 < v.notifies ∨ ∃ w, v.pc w ≠ .blocked
  dtor : v.stop = true ↔ v.dtor ≠ .notCalled
  late : v.dtor = .notified ∨ v.dtor = .joined → ∀ w, v.pc w ≠ .blocked
  joined : v.dtor = .joined → ∀ w, v.pc w = .exited

variable {v : Shared W J}

theorem synced_started [Inhabited W] : Synced (started W J E R).shared where
  exclusive := by
    intro w
    simp [started, State.shared, Pc.Inside]
  deciding := nofun
  taking := nofun
  exited := nofun
  served := fun work => absurd rfl work
  dtor := by simp [started, State.shared]
  late := by
    rintro (h | h) <;> cases h
  joined := nofun

theorem Synced.set_of_notified (synced : Synced v)
    (notified : v.dtor = .notified ∨ v.dtor = .joined) : v.stop = true := by
  rw [synced.dtor]
  rcases notified with here | here <;> simp [here]

/-- A worker goes on to a point where it is not blocked; only a job may leave the deque, taken by
the holder of the mutex. -/
theorem Synced.move [DecidableEq W] {w : W} {p : Pc J} {holder : Option W} {queue : List J}
    (synced : Synced v) (exclusive : Exclusive Pc.Inside holder (Function.update v.pc w p))
    (awake : p ≠ .blocked) (running : v.pc w ≠ .exited)
    (deciding : p = .deciding → queue = [] ∧ v.stop = false)
    (taking : p = .taking → v.stop = true ∨ queue ≠ [])
    (exited : p = .exited → v.stop = true ∧ queue = [])
    (pops : queue = v.queue ∨ (v.pc w).Inside ∧ v.queue ≠ []) :
    Synced { v with holder := holder, queue := queue, pc := Function.update v.pc w p } where
  exclusive := exclusive
  deciding := by
    intro u decides
    rcases eq_or_ne u w with rfl | other
    · simp only [Function.update_self] at decides
      exact deciding decides
    · simp only [Function.update_of_ne other] at decides
      have before := synced.deciding u decides
      rcases pops with same | ⟨_, work⟩
      · rwa [same]
      · exact absurd before.1 work
  taking := by
    intro u takes
    rcases eq_or_ne u w with rfl | other
    · simp only [Function.update_self] at takes
      exact taking takes
    · simp only [Function.update_of_ne other] at takes
      rcases pops with same | ⟨inside, _⟩
      · rw [same]
        exact synced.taking u takes
      · exact absurd (synced.exclusive.unique inside (takes ▸ trivial)) other
  exited := by
    intro u exits
    rcases eq_or_ne u w with rfl | other
    · simp only [Function.update_self] at exits
      exact exited exits
    · simp only [Function.update_of_ne other] at exits
      have before := synced.exited u exits
      rcases pops with same | ⟨_, work⟩
      · rwa [same]
      · exact absurd before.2 work
  served := by
    intro _
    refine .inr ⟨w, ?_⟩
    simpa only [Function.update_self] using awake
  dtor := synced.dtor
  late := by
    intro notified u
    rcases eq_or_ne u w with rfl | other
    · simpa only [Function.update_self] using awake
    · simpa only [Function.update_of_ne other] using synced.late notified u
  joined := fun joined => absurd (synced.joined joined w) running

/-- A worker goes on without a change of the mutex or the deque. -/
theorem Synced.goOn [DecidableEq W] {w : W} {p : Pc J} (synced : Synced v)
    (same : (v.pc w).Inside ↔ p.Inside) (awake : p ≠ .blocked) (running : v.pc w ≠ .exited)
    (deciding : p = .deciding → v.queue = [] ∧ v.stop = false)
    (taking : p = .taking → v.stop = true ∨ v.queue ≠ []) (stays : p ≠ .exited) :
    Synced { v with pc := Function.update v.pc w p } := by
  refine synced.move ?_ awake running deciding taking (fun exits => absurd exits stays) (.inl rfl)
  by_cases inside : (v.pc w).Inside
  · exact synced.exclusive.stay inside (same.mp inside)
  · exact synced.exclusive.outside inside (same.not.mp inside)

/-- The mutex is released in one step with the block. -/
theorem Synced.block [DecidableEq W] {w : W} (synced : Synced v) (decides : v.pc w = .deciding) :
    Synced { v with holder := none, pc := Function.update v.pc w .blocked } where
  exclusive := synced.exclusive.leave (decides ▸ trivial) id
  deciding := by
    intro u decides
    rcases eq_or_ne u w with rfl | other
    · simp at decides
    · simp only [Function.update_of_ne other] at decides
      exact synced.deciding u decides
  taking := by
    intro u takes
    rcases eq_or_ne u w with rfl | other
    · simp at takes
    · simp only [Function.update_of_ne other] at takes
      exact synced.taking u takes
  exited := by
    intro u exits
    rcases eq_or_ne u w with rfl | other
    · simp at exits
    · simp only [Function.update_of_ne other] at exits
      exact synced.exited u exits
  served := fun work => absurd (synced.deciding w decides).1 work
  dtor := synced.dtor
  late := by
    intro notified
    have unset := (synced.deciding w decides).2
    rw [synced.set_of_notified notified] at unset
    cases unset
  joined := by
    intro joined
    have exits := synced.joined joined w
    rw [decides] at exits
    cases exits

/-- With the mutex free, nobody has looked at the deque without acting on it. -/
theorem Synced.push (synced : Synced v) (free : v.holder = none) (open_ : v.dtor = .notCalled)
    (queue : List J) : Synced { v with queue := queue, notifies := v.notifies + 1 } where
  exclusive := synced.exclusive
  deciding := by
    intro w decides
    have outside := (free ▸ synced.exclusive).not_inside w
    rw [decides] at outside
    exact absurd trivial outside
  taking := by
    intro w takes
    have outside := (free ▸ synced.exclusive).not_inside w
    rw [takes] at outside
    exact absurd trivial outside
  exited := by
    intro w exits
    exact absurd open_ (synced.dtor.mp (synced.exited w exits).1)
  served := fun _ => .inl (Nat.succ_pos _)
  dtor := synced.dtor
  late := synced.late
  joined := synced.joined

theorem Synced.stop (synced : Synced v) (free : v.holder = none) :
    Synced { v with stop := true, dtor := .stopped } where
  exclusive := synced.exclusive
  deciding := by
    intro w decides
    have outside := (free ▸ synced.exclusive).not_inside w
    rw [decides] at outside
    exact absurd trivial outside
  taking := fun _ _ => .inl rfl
  exited := fun w exits => ⟨rfl, (synced.exited w exits).2⟩
  served := synced.served
  dtor := by simp
  late := by
    rintro (h | h) <;> cases h
  joined := nofun

theorem Synced.notifyOne [DecidableEq W] [DecidableEq J] [Fintype W] [Inhabited W]
    {chosen : Option W} {pc : W → Pc J} (synced : Synced v)
    (wakes : (cv J).notifyOne v.pc chosen = some pc) :
    Synced { v with pc := pc, notifies := v.notifies - 1 } := by
  have served : ∃ w, pc w ≠ .blocked := CondVar.notifyOne_awake wakes
  have exclusive : Exclusive Pc.Inside v.holder pc :=
    CondVar.exclusive_notifyOne synced.exclusive id id wakes
  rcases CondVar.notifyOne_inv wakes with ⟨w, blocked, rfl⟩ | ⟨rfl, _⟩
  · have woken := synced.goOn (w := w) (p := .woken) (by simp [blocked, cv, Pc.Inside]) (by simp)
      (by simp [blocked, cv]) (by simp) (by simp) (by simp)
    exact { woken with served := fun _ => .inr served }
  · exact { synced with served := fun _ => .inr served }

theorem Synced.notifyAll [DecidableEq J] [Inhabited W] (synced : Synced v)
    (stopped : v.dtor = .stopped) :
    Synced { v with pc := (cv J).notifyAll v.pc, dtor := .notified } := by
  have of_notified : ∀ {w p}, (cv J).notifyAll v.pc w = p → p ≠ .woken → v.pc w = p := by
    intro w p at_p other
    simp only [CondVar.notifyAll] at at_p
    split_ifs at at_p
    · exact absurd at_p.symm other
    · exact at_p
  exact {
    exclusive := CondVar.exclusive_notifyAll synced.exclusive id id
    deciding := fun w decides => synced.deciding w (of_notified decides (by simp))
    taking := fun w takes => synced.taking w (of_notified takes (by simp))
    exited := fun w exits => synced.exited w (of_notified exits (by simp))
    served := fun _ => .inr ⟨default, CondVar.notifyAll_ne_blocked default⟩
    dtor := by
      have set := synced.dtor.mpr (by simp [stopped])
      simp [set]
    late := fun _ w => CondVar.notifyAll_ne_blocked w
    joined := fun joined => absurd joined (by simp) }

theorem shared_postResult [DecidableEq J] [DecidableEq E] (s : State W J E R) (j : J)
    (e : Option E) :
    (postResult s j e).shared = s.shared := by
  cases e with
  | some e => rfl
  | none =>
      simp only [postResult]
      split_ifs <;> rfl

theorem shared_runNode [DecidableEq J] (s : State W J E R) (j : J) :
    (runNode s j).shared = s.shared := by
  simp only [runNode]
  split_ifs <;> rfl

variable [DecidableEq W] [DecidableEq J] [DecidableEq E] [Fintype W] {exec : J → Option E}

theorem Synced.take {w : W} (synced : Synced s.shared) (run : step exec s (.take w) = some t) :
    Synced t.shared := by
  simp only [step] at run
  split at run
  next here empty =>
    obtain ⟨set, run⟩ := Option.ite_none_right_eq_some.mp run
    cases run
    have here : s.shared.pc w = .taking := here
    exact synced.move (synced.exclusive.leave (here ▸ trivial) id) (by simp) (by simp [here])
      (by simp) (by simp) (fun _ => ⟨set, empty⟩) (.inl rfl)
  next here work =>
    cases run
    have here : s.shared.pc w = .taking := here
    refine synced.move (synced.exclusive.leave (here ▸ trivial) id) (by simp) (by simp [here])
      (by simp) (by simp) (by simp) (.inr ⟨here ▸ trivial, ?_⟩)
    simp [State.shared, work]
  next => cases run

theorem Synced.step [Inhabited W] {a : Action W J E R} (synced : Synced s.shared)
    (run : step exec s a = some t) : Synced t.shared := by
  cases a with
  | enqueue j =>
      obtain ⟨⟨free, open_, _⟩, run⟩ := Option.ite_none_right_eq_some.mp run
      cases run
      exact synced.push free open_ _
  | notifyOne chosen =>
      obtain ⟨_, run⟩ := Option.ite_none_right_eq_some.mp run
      obtain ⟨pc, wakes, rfl⟩ := Option.map_eq_some_iff.mp run
      exact synced.notifyOne wakes
  | lock w =>
      simp only [DnsResolver.step] at run
      split at run <;> cases run
      next here free =>
        have here : s.shared.pc w = .locking := here
        have exclusive := (show s.shared.holder = none from free) ▸ synced.exclusive
        exact synced.move (exclusive.enter trivial) (by simp) (by simp [here]) (by simp) (by simp)
          (by simp) (.inl rfl)
  | check w =>
      simp only [DnsResolver.step] at run
      split at run <;> cases run
      next here =>
        have here : s.shared.pc w = .checking := here
        split_ifs with goes
        · exact synced.goOn (by simp [here, Pc.Inside]) (by simp) (by simp [here]) (by simp)
            (fun _ => goes) (by simp)
        · have unset := not_or.mp goes
          exact synced.goOn (by simp [here, Pc.Inside]) (by simp) (by simp [here])
            (fun _ => ⟨not_not.mp unset.2, eq_false_of_ne_true unset.1⟩) (by simp) (by simp)
  | block w =>
      simp only [DnsResolver.step] at run
      split at run <;> cases run
      next here => exact synced.block here
  | relock w =>
      simp only [DnsResolver.step] at run
      split at run <;> cases run
      next here free =>
        have here : s.shared.pc w = .woken := here
        have exclusive := (show s.shared.holder = none from free) ▸ synced.exclusive
        exact synced.move (exclusive.enter trivial) (by simp) (by simp [here]) (by simp) (by simp)
          (by simp) (.inl rfl)
  | spurious w =>
      simp only [DnsResolver.step] at run
      split at run <;> cases run
      next here =>
        have here : s.shared.pc w = .blocked := here
        exact synced.goOn (by simp [here, Pc.Inside]) (by simp) (by simp [here]) (by simp)
          (by simp) (by simp)
  | take w => exact synced.take run
  | resolve w answer =>
      simp only [DnsResolver.step] at run
      split at run <;> cases run
      next here =>
        have here : s.shared.pc w = .resolving _ := here
        exact synced.goOn (by simp [here, Pc.Inside]) (by simp) (by simp [here]) (by simp)
          (by simp) (by simp)
  | postResult w =>
      simp only [DnsResolver.step] at run
      split at run <;> cases run
      next here =>
        have here : s.shared.pc w = .posting _ := here
        rw [shared_postResult]
        exact synced.goOn (by simp [here, Pc.Inside]) (by simp) (by simp [here]) (by simp)
          (by simp) (by simp)
  | takeNode e =>
      simp only [DnsResolver.step] at run
      split at run <;> cases run
      exact synced
  | run j =>
      obtain ⟨_, run⟩ := Option.ite_none_right_eq_some.mp run
      cases run
      rw [shared_runNode]
      exact synced
  | stop =>
      obtain ⟨⟨free, _⟩, run⟩ := Option.ite_none_right_eq_some.mp run
      cases run
      exact synced.stop free
  | notifyAll =>
      obtain ⟨stopped, run⟩ := Option.ite_none_right_eq_some.mp run
      cases run
      exact synced.notifyAll stopped
  | join =>
      obtain ⟨⟨notified, exits⟩, run⟩ := Option.ite_none_right_eq_some.mp run
      cases run
      have late := synced.late (.inl notified)
      have set := synced.set_of_notified (.inl notified)
      exact { synced with
        dtor := by simpa [State.shared] using set
        late := fun _ => late
        joined := fun _ => exits }

end CoWq.DnsResolver
