import CoWq.Net.Chat.Steps
import CoWq.Sync.ForeverWait
import CoWq.Sync.TimedWait
import Mathlib.Algebra.BigOperators.Group.Finset.Basic

/-!
# The writers of the chat server

In `chat` a writer may look at its queue at any time.  In the code it waits for `send_sem` first,
which is released once for every frame, behind the critical section that puts it on the queue.  Here
each session has that semaphore, and each round of its `writer_loop` one awaiter of it.

* `Served.step`, `writers`: the machine, over the steps of `chat` and those of the semaphores.
* `Balanced`: the tokens given out and those still owed are the frames on the queue.
* `writer_keeps_up`: the machine refines `chat`; a writer that has waited finds a frame; and when a
  session is at rest nothing is left on its queue.

The executor's queue is modelled as far as one semaphore and its requests are in it.
-/

namespace CoWq.Chat

open Semaphore (Kind)

variable {ι : Type} [DecidableEq ι]

/-- `std::numeric_limits<int>::max()` -/
def intMax : Int := 2147483647

/-- The sessions with their semaphores.  `owed` counts the calls of `release` that are still to
come, `round` the rounds of the writer that are over; the awaiter of a round has its number. -/
structure Served (ι : Type) where
  state : State ι
  sem : ι → Semaphore.State Nat
  owed : ι → Nat
  round : ι → Nat

/-- The moves of the readers, the timers and the callbacks, those of a semaphore and its awaiters,
and the part of `writer_loop` behind its `co_await`. -/
inductive Served.Action (ι : Type)
  | chat (act : Chat.Action ι)
  | sem (session : ι) (act : Semaphore.Action Nat)
  | turn (session : ι) (sent : Bool)
  deriving DecidableEq

namespace Served

/-- `send_queue` -/
def queue (s : Served ι) (x : ι) : List (Item ι) := (s.state.shared.session x).sendQueue

/-- `release` is called for what is on the queue and `co_await` at the head of the loop.  The timer
queue has no part in a wait without a time limit. -/
def may (s : Served ι) (x : ι) : Semaphore.Action Nat → Bool
  | .release => decide (0 < s.owed x)
  | .awaitReady n => decide (n = s.round x) && (s.state.shared.session x).writing
  | act => !act.clock

/-- The next round. -/
def turned (s : Served ι) (x : ι) : ι → Nat := Function.update s.round x (s.round x + 1)

def step (ctx : ServerContext ι) (s : Served ι) : Served.Action ι → Option (Served ι)
  | .chat (.write ..) => none
  | .chat act =>
      (s.state.step ctx act).map fun t =>
        { s with
          state := t
          owed := fun x =>
            s.owed x + ((t.shared.session x).sendQueue.length - (s.queue x).length) }
  | .sem x act =>
      if s.may x act then
        (Semaphore.step (fun _ => .forever) (s.sem x) act).map fun t =>
          { s with
            sem := Function.update s.sem x t
            owed := Function.update s.owed x (s.owed x - if act = .release then 1 else 0) }
      else none
  | .turn x sent =>
      if ((s.sem x).wait (s.round x)).life = .destroyed then
        match s.queue x with
        | [] => some { s with round := s.turned x }
        | _ :: _ =>
            (s.state.step ctx (.write x sent)).map fun t =>
              { s with state := t, round := s.turned x }
      else none

/-- The states before the first connection has read anything. -/
structure Init (s : Served ι) : Prop where
  state : s.state = State.start
  sem : ∀ x, Semaphore.Init 0 (s.sem x) ∧ (s.sem x).maxVal = intMax
  owed : ∀ x, s.owed x = 0
  round : ∀ x, s.round x = 0

/-- No queue is longer than `send_sem` can count. -/
def Within (s : Served ι) (_ : Served.Action ι) : Prop :=
  ∀ x, ((s.queue x).length : Int) ≤ intMax

/-- Neither a worker, nor a pending `release`, nor the writer itself can do anything about the
session. -/
def AtRest (ctx : ServerContext ι) (s : Served ι) (x : ι) : Prop :=
  (∀ act, s.step ctx (.sem x act) = none) ∧ ∀ sent, s.step ctx (.turn x sent) = none

end Served

/-- The server with the semaphores of its writers. -/
def writers (ctx : ServerContext ι) : Machine (Served ι) (Served.Action ι) where
  init := Served.Init
  step := Served.step ctx

/-! ## What only the writer takes from a queue -/

/-- What everyone but the writer does to a session: the queue may grow. -/
structure Session.Fed (c c' : Session ι) : Prop where
  written : c'.written = c.written
  writing : c'.writing = c.writing
  queue : c.sendQueue <+: c'.sendQueue

namespace Session.Fed

variable {c c' : Session ι}

omit [DecidableEq ι]

theorem refl (c : Session ι) : c.Fed c := ⟨rfl, rfl, List.prefix_rfl⟩

theorem of_write {op : Op ι} {y : ι} (write : Session.Write op y c c') : c.Fed c' := by
  cases write with
  | stop =>
      rw [requestWriterStop]
      split
      · exact refl c
      · exact ⟨rfl, rfl, List.prefix_append _ _⟩
  | control | pushed | forwarded => exact ⟨rfl, rfl, List.prefix_append _ _⟩
  | _ => exact ⟨rfl, rfl, List.prefix_rfl⟩

theorem length_le (h : c.Fed c') : c.sendQueue.length ≤ c'.sendQueue.length :=
  h.queue.length_le

theorem queued_length (h : c.Fed c') : c'.queued.length =
    c.queued.length + (c'.sendQueue.length - c.sendQueue.length) := by
  have longer := h.length_le
  simp only [queued, List.length_append, h.written]
  omega

end Session.Fed

theorem Shared.fed_modify {s : Shared ι} {x : ι} {g : Session ι → Session ι}
    (fed : (s.session x).Fed (g (s.session x))) (y : ι) :
    (s.session y).Fed ((s.modify x g).session y) := by
  rw [modify_session]
  split
  · next here =>
      rw [here]
      exact fed
  · exact .refl _

theorem Shared.Receives.fed {s s' : Shared ι} {x : ι} {asked : Option String}
    {ops : List (Op ι)} (spec : s.Receives x asked s' ops) (y : ι) :
    (s.session y).Fed (s'.session y) := by
  cases spec with
  | waits | meets =>
      rw [register_session]
      split
      · next here =>
          rw [here]
          exact ⟨rfl, rfl, List.prefix_rfl⟩
      · exact .refl _
  | aside | accepted | exceeded =>
      exact fed_modify ⟨rfl, rfl, List.prefix_rfl⟩ y

theorem State.step_fed {ctx : ServerContext ι} {s s' : State ι} {act : Action ι}
    (step : s.step ctx act = some s') (other : ∀ x sent, act ≠ .write x sent) (y : ι) :
    (s.shared.session y).Fed (s'.shared.session y) := by
  cases act with
  | run t =>
      obtain ⟨op, rest, shared, ops, -, run, rfl⟩ := step_run step
      rw [goOn_shared]
      rcases Shared.exec_writes run y with same | write
      · rw [same]
        exact .refl _
      · exact .of_write write
  | receive x r =>
      obtain ⟨-, rfl⟩ := step_receive step
      exact (s.shared.receive_spec ctx x r).fed y
  | fire x =>
      obtain ⟨-, rfl⟩ := step_fire step
      simp only [goOn_shared]
      refine Shared.fed_modify ?_ y
      exact ⟨rfl, rfl, List.prefix_rfl⟩
  | write x sent => exact (other x sent rfl).elim
  | expire x =>
      obtain ⟨-, rfl⟩ := step_expire step
      dsimp only
      refine Shared.fed_modify ?_ y
      exact ⟨rfl, rfl, List.prefix_rfl⟩

/-- What the writer does to its session, with one item more written. -/
theorem State.step_turn {ctx : ServerContext ι} {s s' : State ι} {x : ι} {sent : Bool}
    (step : s.step ctx (.write x sent) = some s') :
    (∃ item, (s'.shared.session x).written = (s.shared.session x).written ++ [item]) ∧
      (s'.shared.session x).queued = (s.shared.session x).queued ∧
      ∀ y, y ≠ x → s'.shared.session y = s.shared.session y := by
  obtain ⟨c, written, rfl⟩ := step_write step
  have queued := Session.write_queued written
  refine ⟨?_, ?_, fun y other => by simp only [Shared.modify_session, if_neg other]⟩
  · simp only [Shared.modify_session, if_true]
    unfold Session.write at written
    split at written
    · next item rest _ _ =>
        cases written
        exact ⟨item, rfl⟩
    · cases written
  · simpa only [Shared.modify_session, if_true] using queued

/-! ## Tokens and frames -/

/-- A list that has the numbers below `r` once and none beyond. -/
theorem length_of_counts {l : List Nat} {r : Nat} (past : ∀ n, n < r → l.count n = 1)
    (later : ∀ n, r < n → l.count n = 0) : l.length = r + l.count r := by
  have inside : ∀ n ∈ (l : Multiset Nat), n ∈ Finset.range (r + 1) := by
    intro n mem
    rw [Finset.mem_range]
    by_contra beyond
    exact List.count_pos_iff.mpr (Multiset.mem_coe.mp mem) |>.ne' (later n (by omega))
  have total := Multiset.sum_count_eq_card inside
  rw [Finset.sum_range_succ, Finset.sum_congr rfl fun n below =>
    (Multiset.coe_count n l).trans (past n (Finset.mem_range.mp below))] at total
  simpa using total.symm

section

variable {c c' : Session ι} {m m' : Semaphore.State Nat} {owed round : Nat}

omit [DecidableEq ι]

/-- What every step keeps of a session, of its semaphore and of the two counts: a run of its own
reaches the semaphore, it has been released as often as the queue was filled but for the calls that
are still to come, each round took one item, and the awaiters of the rounds to come are as the
constructor leaves them. -/
structure InStep (c : Session ι) (m : Semaphore.State Nat) (owed round : Nat) : Prop where
  sem : (Semaphore.semaphore (fun _ => .forever) 0).Reachable m
  awake : Semaphore.Awake m
  maxVal : m.maxVal = intMax
  owed : m.incs + owed = c.queued.length
  written : c.written.length = round
  past : ∀ n, n < round → (m.wait n).life = .destroyed
  later : ∀ n, round < n → (m.wait n).Fresh
  stopped : c.writing = false → (m.wait round).Fresh

namespace InStep

theorem local_at (h : InStep c m owed round) (n : Nat) :
    Semaphore.Local .forever (Semaphore.view m n) :=
  (Semaphore.via_local h.sem).2 n

theorem forever (h : InStep c m owed round) (n : Nat) : Semaphore.Forever (Semaphore.view m n) :=
  .of_via h.sem n

/-- One token for each round that is over, and one for this round from the time it is granted. -/
theorem taken_length (h : InStep c m owed round) :
    m.taken.length = round + m.taken.count round := by
  refine length_of_counts (fun n below => ?_) fun n beyond => ?_
  · refine (h.forever n).taken_of_resumed (h.local_at n) ?_
    rw [Semaphore.view_toWait, h.past n below]
    decide
  · obtain ⟨fresh, idle⟩ := h.later n beyond
    exact (h.local_at n).not_taken_of_fresh fresh idle

/-- The frames on the queue: those not yet announced, the free tokens and the one of this round. -/
theorem length_queue (h : InStep c m owed round) :
    (c.sendQueue.length : Int) = owed + m.curVal + m.taken.count round := by
  have total : m.total = 0 := Semaphore.total_of_via h.sem
  have taken := h.taken_length
  have counted := h.owed
  have written := h.written
  simp only [Semaphore.State.total] at total
  simp only [Session.queued, List.length_append] at counted
  omega

/-- A writer that has waited finds something on its queue. -/
theorem queue_ne_nil (h : InStep c m owed round) (through : (m.wait round).life = .destroyed) :
    c.sendQueue ≠ [] := by
  have one : m.taken.count round = 1 := by
    refine (h.forever _).taken_of_resumed (h.local_at _) ?_
    rw [Semaphore.view_toWait, through]
    decide
  have length := h.length_queue
  have low := h.awake.low
  intro empty
  rw [empty, one] at length
  simp only [List.length_nil, Nat.cast_zero, Nat.cast_one] at length
  omega

/-! ### The steps -/

theorem fed (h : InStep c m owed round) (fed : c.Fed c') :
    InStep c' m (owed + (c'.sendQueue.length - c.sendQueue.length)) round where
  sem := h.sem
  awake := h.awake
  maxVal := h.maxVal
  owed := by
    have counted := h.owed
    rw [fed.queued_length]
    omega
  written := (congrArg List.length fed.written).trans h.written
  past := h.past
  later := h.later
  stopped stopped := h.stopped (fed.writing.symm.trans stopped)

/-- The awaiter of a round that is over stays gone, and no awaiter begins but by itself. -/
theorem awaiters (h : InStep c m owed round) {act : Semaphore.Action Nat}
    (run : Semaphore.step (fun _ => .forever) m act = some m') (n : Nat) :
    ((m.wait n).life = .destroyed → (m'.wait n).life = .destroyed) ∧
      ((m.wait n).Fresh → act = .awaitReady n ∨ (m'.wait n).Fresh) := by
  obtain ⟨q, loc⟩ := Semaphore.via_local h.sem
  refine ⟨fun gone => ?_, Semaphore.begun_by (loc n) run⟩
  rcases (Semaphore.step_spec q loc run).2 n with same | ⟨e, -, event⟩
  · have here : m'.wait n = m.wait n := congrArg Semaphore.View.toWait same
    rw [here, gone]
  · exact (h.forever n).destroyed (loc n) event gone

/-- A semaphore that is still owed a `release` has not reached its limit. -/
theorem room (h : InStep c m owed round) (within : (c.sendQueue.length : Int) ≤ intMax)
    (some_owed : 0 < owed) : m.curVal < m.maxVal := by
  have length := h.length_queue
  rw [h.maxVal]
  omega

theorem released (h : InStep c m owed round) (within : (c.sendQueue.length : Int) ≤ intMax)
    (some_owed : 0 < owed) :
    InStep c (Semaphore.release m) (owed - 1) round := by
  have run : Semaphore.step (fun _ => Kind.forever) m .release = some (Semaphore.release m) := rfl
  obtain ⟨q, loc⟩ := Semaphore.via_local h.sem
  have room := h.room within some_owed
  have counted := h.owed
  have same : (Semaphore.release m).wait = m.wait ∧ (Semaphore.release m).maxVal = m.maxVal ∧
      (Semaphore.release m).incs = m.incs + 1 := by
    rw [Semaphore.release, if_pos room]
    exact ⟨rfl, rfl, rfl⟩
  refine ⟨h.sem.step (a := .release) trivial run, h.awake.release, same.2.1.trans h.maxVal, ?_,
    h.written, ?_, ?_, ?_⟩
  · omega
  · rw [same.1]
    exact h.past
  · rw [same.1]
    exact h.later
  · rw [same.1]
    exact h.stopped

/-- Any other step of the semaphore; only the awaiter of the round may begin, in a writer that goes
on. -/
theorem moved (h : InStep c m owed round) {act : Semaphore.Action Nat}
    (run : Semaphore.step (fun _ => .forever) m act = some m') (offClock : act.clock = false)
    (other : act ≠ .release)
    (own : ∀ n, act = .awaitReady n → n = round ∧ c.writing = true) :
    InStep c m' owed round := by
  obtain ⟨q, loc⟩ := Semaphore.via_local h.sem
  obtain ⟨incs, maxVal⟩ := Semaphore.incs_step run other
  refine ⟨h.sem.step trivial run, h.awake.step q loc run offClock, maxVal.trans h.maxVal, ?_,
    h.written, fun n below => (h.awaiters run n).1 (h.past n below), fun n beyond => ?_,
    fun stopped => ?_⟩
  · rw [incs]
    exact h.owed
  · rcases (h.awaiters run n).2 (h.later n beyond) with begins | fresh
    · exact (beyond.ne' (own n begins).1).elim
    · exact fresh
  · rcases (h.awaiters run round).2 (h.stopped stopped) with begins | fresh
    · rw [(own round begins).2] at stopped
      cases stopped
    · exact fresh

/-- The end of a round. -/
theorem turned (h : InStep c m owed round) (through : (m.wait round).life = .destroyed)
    {item : Item ι} (written : c'.written = c.written ++ [item]) (queued : c'.queued = c.queued) :
    InStep c' m owed (round + 1) where
  sem := h.sem
  awake := h.awake
  maxVal := h.maxVal
  owed := h.owed.trans (congrArg List.length queued.symm)
  written := by rw [written, List.length_append, List.length_singleton, h.written]
  past n below := by
    rcases Nat.lt_succ_iff_lt_or_eq.mp below with before | rfl
    · exact h.past n before
    · exact through
  later n beyond := h.later n (Nat.lt_of_succ_lt beyond)
  stopped _ := h.later _ (Nat.lt_succ_self _)

end InStep

end

/-- The whole server: a run of `chat` reaches the sessions, and each is in step with its
semaphore. -/
structure Balanced (ctx : ServerContext ι) (s : Served ι) : Prop where
  chat : (chat ctx).Reachable s.state
  session : ∀ x, InStep (s.state.shared.session x) (s.sem x) (s.owed x) (s.round x)

namespace Balanced

variable {ctx : ServerContext ι} {s t : Served ι}

theorem init (start : Served.Init s) : Balanced ctx s := by
  refine ⟨.init start.state, fun x => ?_⟩
  obtain ⟨sem, maxVal⟩ := start.sem x
  rw [start.state, start.owed x, start.round x]
  refine ⟨.init sem, ⟨le_of_eq sem.curVal.symm, fun waits _ => (waits sem.acquireList).elim⟩, maxVal,
    ?_, rfl, fun n below => (Nat.not_lt_zero n below).elim, fun n _ => ?_, fun stopped => ?_⟩
  · rw [sem.incs]
    rfl
  · obtain ⟨fresh, -, -, idle, -⟩ := sem.wait n
    exact ⟨fresh, idle⟩
  · cases stopped

theorem chat_step (h : Balanced ctx s) {act : Action ι} {u : State ι}
    (step : s.state.step ctx act = some u) (other : ∀ x sent, act ≠ .write x sent) :
    Balanced ctx
      { s with
        state := u
        owed := fun x =>
          s.owed x + ((u.shared.session x).sendQueue.length - (s.queue x).length) } :=
  ⟨h.chat.step trivial step, fun x => (h.session x).fed (State.step_fed step other x)⟩

theorem sem_step (h : Balanced ctx s) {x : ι} {act : Semaphore.Action Nat}
    {u : Semaphore.State Nat} (within : ((s.queue x).length : Int) ≤ intMax)
    (may : s.may x act = true)
    (run : Semaphore.step (fun _ => .forever) (s.sem x) act = some u) :
    Balanced ctx
      { s with
        sem := Function.update s.sem x u
        owed := Function.update s.owed x (s.owed x - if act = .release then 1 else 0) } := by
  refine ⟨h.chat, fun y => ?_⟩
  by_cases own : y = x
  · subst own
    simp only [Function.update_self]
    cases act with
    | release =>
        cases run
        exact (h.session y).released within (of_decide_eq_true may)
    | awaitReady n =>
        simp only [Served.may, Bool.and_eq_true, decide_eq_true_eq] at may
        refine (h.session y).moved run rfl (by intro h; cases h) fun n' same => ?_
        cases same
        exact may
    | tickUpdate | tickPost | timChkCb => cases may
    | _ => exact (h.session y).moved run rfl (by intro h; cases h) (by intro n h; cases h)
  · simp only [Function.update_of_ne own]
    exact h.session y

theorem turn_step (h : Balanced ctx s) {x : ι} {sent : Bool} {u : State ι}
    (through : ((s.sem x).wait (s.round x)).life = .destroyed)
    (step : s.state.step ctx (.write x sent) = some u) :
    Balanced ctx { s with state := u, round := s.turned x } := by
  obtain ⟨⟨item, written⟩, queued, others⟩ := State.step_turn step
  have chat : (Chat.chat ctx).Reachable u := h.chat.step (a := .write x sent) trivial step
  refine ⟨chat, fun y => ?_⟩
  by_cases own : y = x
  · subst own
    simp only [Served.turned, Function.update_self]
    exact (h.session y).turned through written queued
  · simp only [Served.turned, Function.update_of_ne own, others y own]
    exact h.session y

theorem step (h : Balanced ctx s) {act : Served.Action ι} (within : s.Within act)
    (run : s.step ctx act = some t) : Balanced ctx t := by
  cases act with
  | chat act =>
      cases act with
      | write x sent => cases run
      | run | receive | fire | expire =>
          obtain ⟨u, step, rfl⟩ := Option.map_eq_some_iff.mp run
          exact h.chat_step step (by intro x sent h; cases h)
  | sem x act =>
      obtain ⟨may, run⟩ := Option.ite_none_right_eq_some.mp run
      obtain ⟨u, step, rfl⟩ := Option.map_eq_some_iff.mp run
      exact h.sem_step (within x) may step
  | turn x sent =>
      obtain ⟨through, run⟩ := Option.ite_none_right_eq_some.mp run
      have some_item : s.queue x ≠ [] := (h.session x).queue_ne_nil through
      split at run
      · next empty => exact (some_item empty).elim
      · obtain ⟨u, step, rfl⟩ := Option.map_eq_some_iff.mp run
        exact h.turn_step through step

theorem of_via (run : (writers ctx).Via Served.Within s) : Balanced ctx s :=
  run.invariant (fun _ start => .init start) fun _ _ _ h within step => h.step within step

/-- A writer that could still write, at rest, has nothing to write. -/
theorem queue_eq_nil (h : Balanced ctx s) {x : ι} (rest : s.AtRest ctx x)
    (writing : (s.state.shared.session x).writing = true) : s.queue x = [] := by
  have stepped := h.session x
  by_contra some_item
  by_cases through : ((s.sem x).wait (s.round x)).life = .destroyed
  · obtain ⟨item, tail, queue⟩ := List.exists_cons_of_ne_nil some_item
    have sends := rest.2 true
    have front : (s.state.shared.session x).sendQueue = item :: tail := queue
    simp [Served.step, through, queue, State.step, Session.write, writing, front] at sends
  · rcases Semaphore.goes_on (stepped.local_at _) (stepped.forever _) stepped.awake through with
      ⟨waits, none⟩ | ⟨act, onward, moves⟩
    · -- everything on the queue is still to be announced
      have length := stepped.length_queue
      have untaken : (s.sem x).taken.count (s.round x) = 0 :=
        (stepped.local_at _).not_taken_of_list (Semaphore.view_list.mpr waits)
      rw [none, untaken] at length
      have filled : 0 < (s.queue x).length := List.length_pos_iff.mpr some_item
      have owed : 0 < s.owed x := by
        rw [Served.queue] at filled
        omega
      have announces := rest.1 .release
      simp [Served.step, Served.may, owed, Semaphore.step] at announces
    · have allowed : s.may x act = true := by
        cases act with
        | release | tickUpdate | tickPost | timChkCb => exact onward.elim
        | awaitReady n =>
            cases onward
            simp only [Served.may, decide_true, Bool.true_and]
            exact writing
        | _ => rfl
      have stuck := rest.1 act
      simp only [Served.step, allowed, if_true, Option.map_eq_none_iff] at stuck
      rw [stuck] at moves
      cases moves

end Balanced

/-- **The writers keep up.**  What they do is a run of `chat`; the frames on a queue are those not
yet announced, the tokens that no round has taken, and the one of the present round; a writer that
has its token finds a frame; and one that goes on, when nobody can do anything about its session,
has written everything. -/
theorem writer_keeps_up {ctx : ServerContext ι} {s : Served ι}
    (run : (writers ctx).Via Served.Within s) :
    (chat ctx).Reachable s.state ∧ ∀ x,
      ((s.queue x).length : Int) =
        s.owed x + (s.sem x).curVal + (s.sem x).taken.count (s.round x) ∧
      (((s.sem x).wait (s.round x)).life = .destroyed → s.queue x ≠ []) ∧
      (s.AtRest ctx x → (s.state.shared.session x).writing = true → s.queue x = []) := by
  have balanced := Balanced.of_via run
  exact ⟨balanced.chat, fun x => ⟨(balanced.session x).length_queue,
    (balanced.session x).queue_ne_nil, balanced.queue_eq_nil⟩⟩

namespace Served

/-! ## One connection -/

/-- A connection that ends at once. -/
def lone : ServerContext Unit where
  parse _ := .other
  address _ := 0

/-- The server before it, with `req_sta` as it may be. -/
def start : Served Unit where
  state := State.start
  sem _ := { Semaphore.start Semaphore.reqOk with maxVal := intMax }
  owed _ := 0
  round _ := 0

theorem start_init : (writers lone).init start where
  state := rfl
  sem _ := ⟨{ Semaphore.start_init (fun _ => Kind.forever) Semaphore.reqOk with }, rfl⟩
  owed _ := rfl
  round _ := rfl

instance (s : Served Unit) (act : Action Unit) : Decidable (s.Within act) :=
  inferInstanceAs (Decidable (∀ x, ((s.queue x).length : Int) ≤ intMax))

/-- The writer waits for its first frame. -/
def firstAwaited : List (Action Unit) :=
  [.sem () (.awaitReady 0), .sem () (.store 0), .sem () (.postDelayed 0 0), .sem () (.acquire 0)]

/-- The reader ends, and the writer is given the token of the summary. -/
def summaryAnnounced : List (Action Unit) :=
  [.chat (.run (.reader ())), .chat (.receive () .closed)] ++
    List.replicate 9 (.chat (.run (.reader ()))) ++
    [.sem () .release, .sem () .release, .sem () .releasePost, .sem () .releasePost,
      .sem () .workOnce, .sem () .semEmpty, .sem () .semChkCb, .sem () .workOnce,
      .sem () (.reqExchange 0), .sem () (.reqCancel 0 0), .sem () (.reqResume 0),
      .sem () (.awaitResume 0), .sem () (.destroy 0 0)]

/-- The writer takes the summary and finds the token of the end behind it. -/
def endFound : List (Action Unit) :=
  [.turn () true, .sem () (.awaitReady 1), .sem () (.awaitResume 1), .sem () (.destroy 1 0)]

end Served

/-- A writer at rest in its first wait, and one that does not have to wait for the end behind the
summary. -/
theorem writer_keeps_up_lone :
    (∃ s, (writers Served.lone).Via Served.Within s ∧ s.AtRest Served.lone () ∧
      (s.state.shared.session ()).writing = true ∧ s.queue () = []) ∧
    ∃ s, (writers Served.lone).Via Served.Within s ∧ s.round () = 1 ∧
      (s.sem ()).taken = [0, 1] ∧ s.queue () ≠ [] := by
  constructor
  · obtain ⟨s, run, writing, stuck, idle⟩ : ∃ s,
        (writers Served.lone).execOk Served.Within Served.start Served.firstAwaited = some s ∧
        (s.state.shared.session ()).writing = true ∧
        (∀ act, s.step Served.lone (.sem () act) = none) ∧
        ∀ sent, s.step Served.lone (.turn () sent) = none := by
      refine ⟨_, rfl, rfl, fun act => ?_, fun sent => rfl⟩
      cases act with
      | release | releasePost | tickUpdate | tickPost | workOnce | semEmpty | semChkCb
      | timChkCb => rfl
      | awaitReady n | store n | postDelayed n | acquire n | reqExchange n | reqCancel n
      | reqResume n | tmoExchange n | cancelWaiter n | tmoMark n | tmoResume n | awaitResume n
      | destroy n => cases n <;> rfl
    have reach := Machine.Via.execOk (.init Served.start_init) run
    exact ⟨s, reach, ⟨stuck, idle⟩, writing,
      ((writer_keeps_up reach).2 ()).2.2 ⟨stuck, idle⟩ writing⟩
  · obtain ⟨s, run, round, taken, through⟩ : ∃ s,
        (writers Served.lone).execOk Served.Within Served.start
          (Served.firstAwaited ++ Served.summaryAnnounced ++ Served.endFound) = some s ∧
        s.round () = 1 ∧ (s.sem ()).taken = [0, 1] ∧
        ((s.sem ()).wait (s.round ())).life = .destroyed :=
      ⟨_, rfl, rfl, rfl, rfl⟩
    have reach := Machine.Via.execOk (.init Served.start_init) run
    exact ⟨s, reach, round, taken, ((writer_keeps_up reach).2 ()).2.1 through⟩

end CoWq.Chat
