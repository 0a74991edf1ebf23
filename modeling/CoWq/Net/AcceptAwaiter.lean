import Mathlib.Data.List.Count
import CoWq.Net.ConnectAwaiter

/-!
# What an accept results in

Any number of coroutines that wait for connections of one listener, the event loop of the reactor,
the steps of `close`, and the answers of the kernel.

* `tryAccept`, `awaitReady`, `awaitResume`, `asyncAcceptSocket`: the code.
* `Action`, `step`, `listener`: the machine.
* `Right`: each coroutine is resumed once, with a connection of its own or a fatal error.
* `Kept`: a coroutine that was woken finds a connection or an error, and none waits at a file that
  is closed.
* `right_of_kept`: in the runs of such steps the results are right.
* `woken_for_nothing`: another run.
-/

namespace CoWq.AcceptAwaiter

open EpollReactor
open ConnectAwaiter (Closing)

/-! ## The code -/

def EBADF : Nat := 9

def EAGAIN : Nat := 11

def EWOULDBLOCK : Nat := 11

/-- The answer of `accept`; `id` tells connections apart, whose descriptors may be used again. -/
inductive Answer
  | conn (fd id : Nat)
  | failed (errno : Nat)
  deriving DecidableEq, Repr

/-- There is no connection now. -/
def Answer.Again : Answer → Prop
  | .conn _ _ => False
  | .failed errno => errno = EAGAIN ∨ errno = EWOULDBLOCK

instance : DecidablePred Answer.Again
  | .conn _ _ => inferInstanceAs (Decidable False)
  | .failed _ => inferInstanceAs (Decidable (_ ∨ _))

/-- `k_accept_fatal` of the listeners -/
def acceptFatal : Int := -2

/-- `try_accept` -/
def tryAccept : Answer → Int
  | .conn fd _ => fd
  | .failed errno => if errno = EAGAIN ∨ errno = EWOULDBLOCK then -1 else acceptFatal

/-- The test of `await_ready`, behind `try_accept`. -/
def awaitReady (newfd : Int) : Bool := 0 ≤ newfd ∨ newfd = acceptFatal

/-- `await_resume`; the answer is that of its own call. -/
def awaitResume (newfd : Int) (answer : Answer) : Int :=
  if awaitReady newfd then newfd else tryAccept answer

/-- `async_accept_socket`: a socket for the descriptor, or the closed placeholder. -/
def asyncAcceptSocket (fd : Int) : Option Int := if fd < 0 then none else some fd

/-! ## The machine -/

inductive Phase
  | fresh
  /-- `await_ready` has answered `false` -/
  | trying
  | suspended
  | resumed
  deriving DecidableEq, Repr

/-- An awaiter, the answers it got and the results it gave. -/
structure Awaiter where
  phase : Phase := .fresh
  newfd : Int := -1
  answers : List Answer := []
  results : List Int := []
  deriving DecidableEq, Repr

structure State (W : Type*) where
  /-- the descriptor of the listener -/
  slot : Slot W
  /-- the invalid descriptor -/
  invalid : Slot W
  /-- flags of an event of the descriptor in the batch -/
  batch : Option UInt32
  /-- `to_resume` of the event loop -/
  toResume : List (WaiterItem W)
  closing : Closing W
  posted : List W
  awaiters : W → Awaiter
  /-- the connections that were accepted -/
  accepted : List Nat

inductive Action (W : Type*)
  /-- `await_ready`, and `await_resume` if it answers `true` -/
  | start (w : W) (answer : Answer)
  | suspend (w : W)
  /-- `epoll_wait` -/
  | fetch (flags : UInt32)
  | dispatch
  /-- one round of the loop behind it -/
  | loopPost
  /-- the steps of `close` -/
  | eraseFd
  | ctlDel
  | closePost
  | closeFile
  | invalidate
  /-- the executor runs `resume_cb` -/
  | resume (w : W) (answer : Answer)
  deriving DecidableEq

variable {W : Type*}

/-- What the kernel may answer: a connection is new, and the invalid descriptor names no file. -/
def State.MayAnswer (s : State W) : Answer → Prop
  | .conn _ id => id ∉ s.accepted ∧ s.closing ≠ .closed
  | .failed errno => s.closing = .closed → errno = EBADF

instance [DecidableEq W] (s : State W) : DecidablePred s.MayAnswer
  | .conn _ _ => inferInstanceAs (Decidable (_ ∧ _))
  | .failed _ => inferInstanceAs (Decidable (_ → _))

/-- The item of `add_waiter`. -/
def item (w : W) : WaiterItem W := ⟨EPOLLIN, w, false, 0⟩

/-- A connection is accepted. -/
def accept (accepted : List Nat) : Answer → List Nat
  | .conn _ id => accepted ++ [id]
  | .failed _ => accepted

/-- `await_ready`, and `await_resume` if it answers `true`. -/
def Awaiter.start (a : Awaiter) (answer : Answer) : Awaiter :=
  let newfd := tryAccept answer
  if awaitReady newfd then
    { phase := .resumed
      newfd := newfd
      answers := a.answers ++ [answer]
      results := a.results ++ [awaitResume newfd answer] }
  else { a with phase := .trying, newfd := newfd, answers := a.answers ++ [answer] }

/-- `await_resume` behind a suspension. -/
def Awaiter.resume (a : Awaiter) (answer : Answer) : Awaiter :=
  { a with
    phase := .resumed
    answers := if awaitReady a.newfd then a.answers else a.answers ++ [answer]
    results := a.results ++ [awaitResume a.newfd answer] }

variable [DecidableEq W]

def step (s : State W) : Action W → Option (State W)
  | .start w answer =>
      if (s.awaiters w).phase = .fresh ∧ s.MayAnswer answer then
        some
          { s with
            awaiters := Function.update s.awaiters w ((s.awaiters w).start answer)
            accepted := accept s.accepted answer }
      else none
  | .suspend w =>
      if (s.awaiters w).phase = .trying then
        let awaiters := Function.update s.awaiters w { s.awaiters w with phase := .suspended }
        if s.closing = .closed then
          some { s with awaiters, invalid := s.invalid.registerWaiter (item w) }
        else some { s with awaiters, slot := s.slot.registerWaiter (item w) }
      else none
  | .fetch flags =>
      if s.batch = none ∧ s.toResume = [] ∧ s.slot.kernel.live then
        some { s with batch := some flags }
      else none
  | .dispatch =>
      match s.batch with
      | some flags =>
          if s.toResume = [] then
            some
              { s with
                batch := none
                slot := (s.slot.dispatch flags).2
                toResume := (s.slot.dispatch flags).1 }
          else none
      | none => none
  | .loopPost =>
      match s.toResume with
      | wi :: items => some { s with toResume := items, posted := s.posted ++ [wi.waiter] }
      | [] => none
  | .eraseFd =>
      match s.closing with
      | .opened => some { s with closing := .erased s.slot.erase.1, slot := s.slot.erase.2 }
      | _ => none
  | .ctlDel =>
      match s.closing with
      | .erased items => some { s with closing := .deleted items, slot := s.slot.ctlDel }
      | _ => none
  | .closePost =>
      match s.closing with
      | .deleted (wi :: items) =>
          some { s with closing := .deleted items, posted := s.posted ++ [wi.waiter] }
      | .deleted [] => some { s with closing := .woken }
      | _ => none
  | .closeFile =>
      match s.closing with
      | .woken =>
          some
            { s with closing := .fileClosed, slot := { s.slot with kernel := ⟨false, none⟩ } }
      | _ => none
  | .invalidate =>
      match s.closing with
      | .fileClosed => some { s with closing := .closed }
      | _ => none
  | .resume w answer =>
      if w ∈ s.posted ∧ s.MayAnswer answer then
        some
          { s with
            posted := s.posted.erase w
            awaiters := Function.update s.awaiters w ((s.awaiters w).resume answer)
            accepted :=
              if awaitReady (s.awaiters w).newfd then s.accepted else accept s.accepted answer }
      else none

/-- The listener is open and registered; nobody has waited for it yet. -/
structure init (s : State W) : Prop where
  slot : s.slot = ⟨some .fresh, ⟨true, none⟩⟩
  invalid : s.invalid = ⟨none, ⟨false, none⟩⟩
  batch : s.batch = none
  toResume : s.toResume = []
  closing : s.closing = .opened
  posted : s.posted = []
  awaiters : ∀ w, s.awaiters w = {}
  accepted : s.accepted = []

def listener : Machine (State W) (Action W) where
  init := init
  step := step

/-! ## What the results are to mean -/

/-- The event in the batch takes the coroutines out of the vector. -/
def State.BatchWakes (s : State W) : Prop :=
  ∃ flags ∈ s.batch, flags &&& EPOLLIN ≠ 0 ∨ flags &&& (EPOLLERR ||| EPOLLHUP) ≠ 0

/-- A coroutine is posted or about to be posted, or it waits at the file: the kernel tells of
connections as long as nobody closes it, and an event is there if it has been closed. -/
def State.Waits (s : State W) (w : W) : Prop :=
  w ∈ s.posted ∨ w ∈ s.toResume.map WaiterItem.waiter ∨
    w ∈ s.closing.toResume.map WaiterItem.waiter ∨
    w ∈ s.slot.waiters.map WaiterItem.waiter ∧
      (s.closing = .opened → s.slot.kernel.Covers EPOLLIN) ∧ (s.slot.kernel.live ∨ s.BatchWakes)

/-- The event loop, `close` and the executor have nothing left to do. -/
def State.Idle (s : State W) : Prop :=
  s.batch = none ∧ s.toResume = [] ∧ s.closing.toResume = [] ∧ s.posted = []

structure Right (s : State W) : Prop where
  /-- Who waits is going to be resumed, … -/
  waits : ∀ w, (s.awaiters w).phase = .suspended → s.Waits w
  /-- … at the latest behind the end of `close`, … -/
  ended : s.slot.kernel.live = false → s.Idle → ∀ w, (s.awaiters w).phase ≠ .suspended
  /-- … and is resumed once. -/
  once : ∀ w, (s.awaiters w).results.length = if (s.awaiters w).phase = .resumed then 1 else 0
  /-- The result is a connection, or the error that the kernel has answered. -/
  result : ∀ w, ∀ value ∈ (s.awaiters w).results,
    (∃ fd id : Nat, (s.awaiters w).answers.getLast? = some (.conn fd id) ∧ value = fd) ∨
      value = acceptFatal ∧ ∃ errno, (s.awaiters w).answers.getLast? = some (.failed errno) ∧
        ¬ (errno = EAGAIN ∨ errno = EWOULDBLOCK)
  /-- A connection is handed to one of them. -/
  handed : ∀ id ∈ s.accepted, ∃ (w : W) (fd : Nat), .conn fd id ∈ (s.awaiters w).answers ∧
    (s.awaiters w).results = [(fd : Int)]
  apart : ∀ v w fd fd' id, .conn fd id ∈ (s.awaiters v).answers →
    .conn fd' id ∈ (s.awaiters w).answers → v = w
  /-- The placeholder is for fatal errors. -/
  placeholder : ∀ w, ∀ value ∈ (s.awaiters w).results, asyncAcceptSocket value = none →
    ∃ errno, (s.awaiters w).answers.getLast? = some (.failed errno) ∧
      ¬ (errno = EAGAIN ∨ errno = EWOULDBLOCK)

/-- A coroutine that was woken finds a connection or another error, and none waits at a descriptor
whose file has been closed, unless an event is there that will wake it. -/
def Kept (s : State W) : Action W → Prop
  | .resume _ answer => ¬ answer.Again
  | .suspend _ => s.closing ≠ .closed ∧ (s.slot.kernel.live ∨ s.BatchWakes)
  | .closeFile => s.slot.waiters = [] ∨ s.BatchWakes
  | _ => True

/-! ## Where a coroutine waits -/

/-- The coroutines that wait. -/
def State.places (s : State W) : List W :=
  (s.slot.waiters ++ s.toResume ++ s.closing.toResume).map WaiterItem.waiter ++ s.posted

/-- What an awaiter has seen in its phase. -/
def Awaiter.Good (a : Awaiter) : Prop :=
  match a.phase with
  | .fresh => a.answers = [] ∧ a.results = []
  | .trying | .suspended => a.newfd = -1 ∧ a.results = [] ∧ ∀ answer ∈ a.answers, answer.Again
  | .resumed => ∃ before last, a.answers = before ++ [last] ∧ (∀ answer ∈ before, answer.Again) ∧
      ¬ last.Again ∧ a.results = [tryAccept last]

structure Inv (s : State W) : Prop where
  items : ∀ wi ∈ s.slot.waiters, wi.mask = EPOLLIN
  places : ∀ w, s.places.count w = if (s.awaiters w).phase = .suspended then 1 else 0
  good : ∀ w, (s.awaiters w).Good
  known : ∀ w fd id, .conn fd id ∈ (s.awaiters w).answers → id ∈ s.accepted
  handed : ∀ id ∈ s.accepted, ∃ w fd, .conn fd id ∈ (s.awaiters w).answers
  apart : ∀ v w fd fd' id, .conn fd id ∈ (s.awaiters v).answers →
    .conn fd' id ∈ (s.awaiters w).answers → v = w
  exact : s.closing = .opened → s.slot.Exact
  live : s.slot.kernel.live = true ↔ s.closing.Holds
  woken : s.slot.waiters = [] ∨ s.slot.kernel.live = true ∨ s.BatchWakes

/-! ## What an awaiter sees -/

omit [DecidableEq W] in
theorem awaitReady_iff (answer : Answer) :
    awaitReady (tryAccept answer) = true ↔ ¬ answer.Again := by
  cases answer with
  | conn fd id => simp [awaitReady, tryAccept, Answer.Again]
  | failed errno =>
      by_cases again : errno = EAGAIN ∨ errno = EWOULDBLOCK
      · simp [awaitReady, tryAccept, Answer.Again, again, acceptFatal]
      · simp [awaitReady, tryAccept, Answer.Again, again, acceptFatal]

namespace Awaiter

variable {a : Awaiter} {answer : Answer}

theorem Good.start (good : a.Good) (fresh : a.phase = .fresh) : (a.start answer).Good := by
  rw [Good, fresh] at good
  by_cases again : answer.Again
  · have notReady : awaitReady (tryAccept answer) = false := by
      rw [Bool.eq_false_iff, ne_eq, awaitReady_iff, not_not]
      exact again
    have value : tryAccept answer = -1 := by
      cases answer with
      | conn fd id => exact again.elim
      | failed errno => exact if_pos again
    have trying : a.start answer =
        { a with phase := .trying, newfd := tryAccept answer, answers := a.answers ++ [answer] } :=
      if_neg (by simp [notReady])
    rw [trying]
    refine ⟨value, good.2, fun seen inside => ?_⟩
    rw [good.1, List.nil_append, List.mem_singleton] at inside
    rwa [inside]
  · have ready := (awaitReady_iff answer).mpr again
    rw [Awaiter.start, if_pos ready, Good]
    refine ⟨[], answer, by rw [good.1], by simp, again, ?_⟩
    rw [good.2, awaitResume, if_pos ready]
    rfl

theorem start_answers (fresh : a.answers = []) : (a.start answer).answers = [answer] := by
  unfold Awaiter.start
  dsimp only
  split
  · rw [fresh, List.nil_append]
  · rw [fresh, List.nil_append]

theorem start_phase (a : Awaiter) (answer : Answer) : (a.start answer).phase ≠ .suspended := by
  unfold Awaiter.start
  dsimp only
  split
  · simp
  · simp

theorem Good.resume (good : a.Good) (suspended : a.phase = .suspended) (found : ¬ answer.Again) :
    (a.resume answer).Good ∧ (a.resume answer).answers = a.answers ++ [answer] := by
  rw [Good, suspended] at good
  obtain ⟨value, none', before⟩ := good
  have notReady : awaitReady a.newfd = false := by
    rw [value]
    decide
  constructor
  · rw [Awaiter.resume, Good]
    refine ⟨a.answers, answer, if_neg (by simp [notReady]), before, found, ?_⟩
    have call : awaitResume a.newfd answer = tryAccept answer := if_neg (by simp [notReady])
    rw [none', call, List.nil_append]
  · rw [Awaiter.resume]
    exact if_neg (by simp [notReady])

/-- An awaiter that waits has seen no connection. -/
theorem Good.conn_notMem (good : a.Good) (waiting : a.phase = .trying ∨ a.phase = .suspended)
    (fd id : Nat) : .conn fd id ∉ a.answers := by
  intro seen
  rw [Good] at good
  rcases waiting with phase | phase
  · rw [phase] at good
    exact good.2.2 _ seen
  · rw [phase] at good
    exact good.2.2 _ seen

end Awaiter

/-! ## The invariant -/

variable {s t : State W}

theorem inv_init (start : init s) : Inv s := by
  obtain ⟨slot, invalid, batch, toResume, closing, posted, awaiters, accepted⟩ := start
  have noWaiter : s.slot.waiters = [] := by
    rw [slot]
    rfl
  exact {
    items := by simp [noWaiter]
    places := fun w => by
      rw [State.places, noWaiter, toResume, closing, posted, awaiters]
      rfl
    good := fun w => by
      rw [awaiters]
      exact ⟨rfl, rfl⟩
    known := fun w fd id seen => by
      rw [awaiters] at seen
      cases seen
    handed := fun id inside => by
      rw [accepted] at inside
      cases inside
    apart := fun v w fd fd' id seen => by
      rw [awaiters] at seen
      cases seen
    exact := fun _ => by
      rw [slot]
      exact ⟨rfl, rfl, rfl⟩
    live := by
      rw [slot, closing]
      exact ⟨fun _ => trivial, fun _ => rfl⟩
    woken := .inl noWaiter }

/-- A step in which no awaiter takes part. -/
theorem Inv.move (inv : Inv s) (awaiters : t.awaiters = s.awaiters)
    (accepted : t.accepted = s.accepted) (places : t.places.Perm s.places)
    (items : ∀ wi ∈ t.slot.waiters, wi ∈ s.slot.waiters)
    (exact : t.closing = .opened → t.slot.Exact)
    (live : t.slot.kernel.live = true ↔ t.closing.Holds)
    (woken : t.slot.waiters = [] ∨ t.slot.kernel.live = true ∨ t.BatchWakes) : Inv t where
  items wi inside := inv.items wi (items wi inside)
  places w := by rw [places.count_eq, awaiters, inv.places w]
  good w := by rw [awaiters]; exact inv.good w
  known w fd id seen := by
    rw [awaiters] at seen
    rw [accepted]
    exact inv.known w fd id seen
  handed id inside := by
    rw [accepted] at inside
    rw [awaiters]
    exact inv.handed id inside
  apart v w fd fd' id seen seen' := by
    rw [awaiters] at seen seen'
    exact inv.apart v w fd fd' id seen seen'
  exact := exact
  live := live
  woken := woken

/-- A step in which the awaiter `w` gets an answer. -/
theorem Inv.answered (inv : Inv s) {w : W} {a : Awaiter} {answer : Answer} {posted : List W}
    (may : s.MayAnswer answer) (good : a.Good)
    (before : ∀ fd id, .conn fd id ∉ (s.awaiters w).answers)
    (answers : a.answers = (s.awaiters w).answers ++ [answer]) (phase : a.phase ≠ .suspended)
    (others : ∀ v ≠ w, posted.count v = s.posted.count v)
    (gone : { s with posted }.places.count w = 0) :
    Inv { s with
      posted
      awaiters := Function.update s.awaiters w a
      accepted := accept s.accepted answer } := by
  have seen {fd id : Nat} (inside : .conn fd id ∈ a.answers) : answer = .conn fd id := by
    rw [answers, List.mem_append, List.mem_singleton] at inside
    exact (inside.resolve_left (before fd id)).symm
  have fresh {fd id : Nat} (inside : .conn fd id ∈ a.answers) : id ∉ s.accepted := by
    rw [seen inside] at may
    exact may.1
  have grows : ∀ id ∈ s.accepted, id ∈ accept s.accepted answer := by
    intro id inside
    cases answer with
    | conn fd other => exact List.mem_append_left _ inside
    | failed errno => exact inside
  exact {
    items := inv.items
    places := fun v => by
      by_cases same : v = w
      · subst same
        simp only [Function.update_self, if_neg phase]
        exact gone
      · simp only [Function.update_of_ne same, ← inv.places v, State.places, List.count_append,
          others v same]
    good := fun v => by
      by_cases same : v = w
      · subst same
        simpa only [Function.update_self] using good
      · simp only [Function.update_of_ne same]
        exact inv.good v
    known := fun v fd id inside => by
      by_cases same : v = w
      · subst same
        simp only [Function.update_self] at inside
        rw [seen inside]
        exact List.mem_append_right _ (List.mem_singleton_self id)
      · simp only [Function.update_of_ne same] at inside
        exact grows id (inv.known v fd id inside)
    handed := fun id inside => by
      have old (known : id ∈ s.accepted) :
          ∃ v fd, .conn fd id ∈ (Function.update s.awaiters w a v).answers := by
        obtain ⟨v, fd, mine⟩ := inv.handed id known
        have other : v ≠ w := by
          rintro rfl
          exact before fd id mine
        exact ⟨v, fd, by rwa [Function.update_of_ne other]⟩
      cases answer with
      | failed errno => exact old inside
      | conn fd new =>
          rcases List.mem_append.mp inside with known | now
          · exact old known
          · refine ⟨w, fd, ?_⟩
            simp only [Function.update_self]
            rw [answers, List.mem_singleton.mp now]
            exact List.mem_append_right _ (List.mem_singleton_self _)
    apart := fun v v' fd fd' id mine yours => by
      by_cases same : v = w
      · subst same
        simp only [Function.update_self] at mine
        by_contra other
        simp only [Function.update_of_ne (Ne.symm other)] at yours
        exact fresh mine (inv.known v' fd' id yours)
      · simp only [Function.update_of_ne same] at mine
        by_cases same' : v' = w
        · subst same'
          simp only [Function.update_self] at yours
          exact (fresh yours (inv.known v fd id mine)).elim
        · simp only [Function.update_of_ne same'] at yours
          exact inv.apart v v' fd fd' id mine yours
    exact := inv.exact
    live := inv.live
    woken := inv.woken }

/-- The awaiter `w` waits in the vector. -/
theorem Inv.suspend (inv : Inv s) {w : W} (trying : (s.awaiters w).phase = .trying)
    (woken : s.slot.kernel.live = true ∨ s.BatchWakes) :
    Inv { s with
      awaiters := Function.update s.awaiters w { s.awaiters w with phase := .suspended }
      slot := s.slot.registerWaiter (item w) } := by
  have answers (v : W) : (Function.update s.awaiters w
      { s.awaiters w with phase := .suspended } v).answers = (s.awaiters v).answers := by
    by_cases same : v = w
    · subst same
      simp only [Function.update_self]
    · simp only [Function.update_of_ne same]
  exact {
    items := fun wi inside => by
      rw [Slot.waiters_registerWaiter, List.mem_append, List.mem_singleton] at inside
      rcases inside with old | rfl
      · exact inv.items wi old
      · rfl
    places := fun v => by
      have before := inv.places v
      have placed : { s with
          awaiters := Function.update s.awaiters w { s.awaiters w with phase := .suspended }
          slot := s.slot.registerWaiter (item w) }.places.count v =
            s.places.count v + [w].count v := by
        simp only [State.places, Slot.waiters_registerWaiter, List.map_append, List.count_append,
          List.map_cons, List.map_nil, item]
        omega
      rw [placed, before]
      by_cases same : v = w
      · subst same
        simp [trying]
      · simp [Function.update_of_ne same, Ne.symm same]
    good := fun v => by
      by_cases same : v = w
      · subst same
        have good := inv.good v
        simp only [Function.update_self]
        rw [Awaiter.Good, trying] at good
        exact good
      · simp only [Function.update_of_ne same]
        exact inv.good v
    known := fun v fd id seen => by
      rw [answers] at seen
      exact inv.known v fd id seen
    handed := fun id inside => by
      obtain ⟨v, fd, seen⟩ := inv.handed id inside
      exact ⟨v, fd, by rwa [answers]⟩
    apart := fun v v' fd fd' id mine yours => by
      rw [answers] at mine yours
      exact inv.apart v v' fd fd' id mine yours
    exact := fun listening => (inv.exact listening).registerWaiter _
    live := by
      rw [Slot.live_registerWaiter]
      exact inv.live
    woken := by
      rw [Slot.live_registerWaiter]
      exact .inr woken }

/-- A woken awaiter finds a connection or an error. -/
theorem Inv.resume (inv : Inv s) {w : W} {answer : Answer} (posted : w ∈ s.posted)
    (may : s.MayAnswer answer) (found : ¬ answer.Again) :
    Inv { s with
      posted := s.posted.erase w
      awaiters := Function.update s.awaiters w ((s.awaiters w).resume answer)
      accepted :=
        if awaitReady (s.awaiters w).newfd then s.accepted else accept s.accepted answer } := by
  have once : 0 < s.posted.count w := List.count_pos_iff.mpr posted
  have places := inv.places w
  have parts : s.places.count w =
      ((s.slot.waiters ++ s.toResume ++ s.closing.toResume).map WaiterItem.waiter).count w +
        s.posted.count w := List.count_append
  have suspended : (s.awaiters w).phase = .suspended := by
    by_contra other
    rw [if_neg other] at places
    omega
  rw [if_pos suspended] at places
  have good := inv.good w
  have notReady : awaitReady (s.awaiters w).newfd ≠ true := by
    rw [Awaiter.Good, suspended] at good
    rw [good.1]
    decide
  obtain ⟨good', answers⟩ := good.resume suspended found
  rw [if_neg notReady]
  refine inv.answered may good' (good.conn_notMem (.inr suspended)) answers
    (by simp [Awaiter.resume]) (fun v other => List.count_erase_of_ne other) ?_
  have left : { s with posted := s.posted.erase w }.places.count w =
      ((s.slot.waiters ++ s.toResume ++ s.closing.toResume).map WaiterItem.waiter).count w +
        (s.posted.erase w).count w := List.count_append
  rw [left, List.count_erase_self]
  omega

theorem Inv.start (inv : Inv s) {w : W} {answer : Answer} (fresh : (s.awaiters w).phase = .fresh)
    (may : s.MayAnswer answer) :
    Inv { s with
      awaiters := Function.update s.awaiters w ((s.awaiters w).start answer)
      accepted := accept s.accepted answer } := by
  have good := inv.good w
  have none' : (s.awaiters w).answers = [] := by
    rw [Awaiter.Good, fresh] at good
    exact good.1
  have places := inv.places w
  rw [if_neg (by rw [fresh]; decide)] at places
  exact inv.answered may (good.start fresh) (by simp [none'])
    (by rw [Awaiter.start_answers none', none', List.nil_append]) (Awaiter.start_phase _ _)
    (fun _ _ => rfl) places

/-- An event takes all coroutines out of the vector, or none. -/
theorem Inv.ready (inv : Inv s) (flags : UInt32) :
    (s.slot.waiters.filter fun wi => !Slot.ready flags wi) = [] ∨
      ¬ (flags &&& EPOLLIN ≠ 0 ∨ flags &&& (EPOLLERR ||| EPOLLHUP) ≠ 0) := by
  by_cases wakes : flags &&& EPOLLIN ≠ 0 ∨ flags &&& (EPOLLERR ||| EPOLLHUP) ≠ 0
  · refine .inl (List.filter_eq_nil_iff.mpr fun wi inside => ?_)
    simp only [Slot.ready, inv.items wi inside, Bool.not_eq_true, Bool.not_eq_false',
      Bool.or_eq_true, decide_eq_true_eq]
    exact wakes
  · exact .inr wakes

/-- **The invariant is kept** by the steps that keep the coroutines. -/
theorem Inv.step (inv : Inv s) {a : Action W} (kept : Kept s a)
    (step : AcceptAwaiter.step s a = some t) : Inv t := by
  cases a with
  | start w answer =>
      obtain ⟨⟨fresh, may⟩, same⟩ := Option.ite_none_right_eq_some.mp step
      cases same
      exact inv.start fresh may
  | suspend w =>
      obtain ⟨trying, same⟩ := Option.ite_none_right_eq_some.mp step
      dsimp only at same
      rw [if_neg kept.1] at same
      cases same
      exact inv.suspend trying kept.2
  | fetch flags =>
      obtain ⟨⟨none', -, live⟩, same⟩ := Option.ite_none_right_eq_some.mp step
      cases same
      exact inv.move rfl rfl (.refl _) (fun _ => id) inv.exact inv.live (.inr (.inl live))
  | dispatch =>
      simp only [AcceptAwaiter.step] at step
      split at step
      · next flags batch =>
          obtain ⟨free, same⟩ := Option.ite_none_right_eq_some.mp step
          cases same
          refine inv.move rfl rfl ?_ ?_ ?_ ?_ ?_
          · simp only [State.places, Slot.waiters_dispatch, Slot.dispatch_fst, free,
              List.append_nil]
            refine List.Perm.append_right _ (List.Perm.map _ (List.Perm.append_right _ ?_))
            exact List.perm_append_comm.trans (List.filter_append_perm _ _)
          · rw [Slot.waiters_dispatch]
            exact fun wi inside => (List.mem_filter.mp inside).1
          · exact fun opened => (inv.exact opened).dispatch flags
          · rw [Slot.live_dispatch]
            exact inv.live
          · rw [Slot.waiters_dispatch, Slot.live_dispatch]
            rcases inv.ready flags with all | quiet
            · exact .inl all
            · rcases inv.woken with empty | live | ⟨other, there, wakes⟩
              · exact .inl (by rw [empty]; rfl)
              · exact .inr (.inl live)
              · rw [batch] at there
                cases there
                exact (quiet wakes).elim
      · cases step
  | loopPost =>
      simp only [AcceptAwaiter.step] at step
      split at step
      · next wi items toResume =>
          cases step
          refine inv.move rfl rfl ?_ (fun _ => id) inv.exact inv.live inv.woken
          refine List.perm_iff_count.mpr fun v => ?_
          simp only [State.places, toResume, List.map_append, List.map_cons, List.count_append,
            List.count_cons, List.count_nil]
          omega
      · cases step
  | eraseFd =>
      simp only [AcceptAwaiter.step] at step
      split at step
      · next opened =>
          cases step
          refine inv.move rfl rfl ?_ ?_ (by simp) ?_ (.inl (Slot.waiters_erase _))
          · simp only [State.places, opened, Closing.toResume, Slot.erase_fst, Slot.waiters_erase,
              List.append_nil, List.nil_append]
            exact List.Perm.append_right _ (List.Perm.map _ List.perm_append_comm)
          · simp
          · rw [Slot.kernel_erase, inv.live, opened]
            rfl
      · cases step
  | ctlDel =>
      simp only [AcceptAwaiter.step] at step
      split at step
      · next items closing =>
          cases step
          refine inv.move rfl rfl ?_ (fun _ => id) (by simp) ?_ ?_
          · simp only [State.places, closing, Closing.toResume, Slot.waiters_ctlDel]
            exact .refl _
          · rw [Slot.live_ctlDel, inv.live, closing]
            rfl
          · rw [Slot.live_ctlDel]
            exact inv.woken
      · cases step
  | closePost =>
      simp only [AcceptAwaiter.step] at step
      split at step
      · next wi items closing =>
          cases step
          refine inv.move rfl rfl ?_ (fun _ => id) (by simp) ?_ inv.woken
          · refine List.perm_iff_count.mpr fun v => ?_
            simp only [State.places, closing, Closing.toResume, List.map_append, List.map_cons,
              List.count_append, List.count_cons, List.count_nil]
            omega
          · rw [inv.live, closing]
            rfl
      · next closing =>
          cases step
          refine inv.move rfl rfl ?_ (fun _ => id) (by simp) ?_ inv.woken
          · simp only [State.places, closing, Closing.toResume]
            exact .refl _
          · rw [inv.live, closing]
            rfl
      · cases step
  | closeFile =>
      simp only [AcceptAwaiter.step] at step
      split at step
      · next closing =>
          cases step
          refine inv.move rfl rfl ?_ (fun _ => id) (by simp) ?_ ?_
          · simp only [State.places, closing, Closing.toResume]
            exact .refl _
          · simp [Closing.Holds]
          · rcases kept with empty | wakes
            · exact .inl empty
            · exact .inr (.inr wakes)
      · cases step
  | invalidate =>
      simp only [AcceptAwaiter.step] at step
      split at step
      · next closing =>
          cases step
          refine inv.move rfl rfl ?_ (fun _ => id) (by simp) ?_ inv.woken
          · simp only [State.places, closing, Closing.toResume]
            exact .refl _
          · rw [inv.live, closing]
            rfl
      · cases step
  | resume w answer =>
      obtain ⟨⟨posted, may⟩, same⟩ := Option.ite_none_right_eq_some.mp step
      cases same
      exact inv.resume posted may kept

theorem inv_of_via (run : listener.Via Kept s) : Inv s :=
  run.invariant (fun _ => inv_init) fun _ _ _ inv kept step => inv.step kept step

/-! ## The results -/

/-- Who waits is in one of the places. -/
theorem Inv.waits (inv : Inv s) {w : W} (suspended : (s.awaiters w).phase = .suspended) :
    s.Waits w := by
  have places := inv.places w
  rw [if_pos suspended] at places
  have inside : w ∈ s.places := List.count_pos_iff.mp (by omega)
  simp only [State.places, List.map_append, List.mem_append] at inside
  rcases inside with ((registered | loop) | closing) | posted
  · refine .inr (.inr (.inr ⟨registered, fun opened => ?_, ?_⟩))
    · obtain ⟨wi, listed, -⟩ := List.mem_map.mp registered
      have exact := inv.exact opened
      have covered : s.slot.kernel.Covers (newInterest s.slot.waiters) := by
        rw [← exact.interest]
        exact covers_registration exact.events
      rw [← inv.items wi listed]
      exact covered.mask listed
    · refine inv.woken.resolve_left fun empty => ?_
      rw [empty] at registered
      cases registered
  · exact .inr (.inl loop)
  · exact .inr (.inr (.inl closing))
  · exact .inl posted

/-- An awaiter that has been resumed has one result, by its last answer. -/
theorem Awaiter.Good.results {a : Awaiter} (good : a.Good) {value : Int}
    (given : value ∈ a.results) : a.phase = .resumed ∧ ∃ last, a.answers.getLast? = some last ∧
      ¬ last.Again ∧ a.results = [value] ∧ value = tryAccept last := by
  unfold Awaiter.Good at good
  split at good
  · rw [good.2] at given
    cases given
  · rw [good.2.1] at given
    cases given
  · rw [good.2.1] at given
    cases given
  · next resumed =>
      obtain ⟨before, last, answers, -, found, results⟩ := good
      rw [results, List.mem_singleton] at given
      exact ⟨resumed, last, by rw [answers, List.getLast?_concat], found, by rw [results, given],
        given⟩

/-- A connection that an awaiter has seen is its result. -/
theorem Awaiter.Good.results_conn {a : Awaiter} (good : a.Good) {fd id : Nat}
    (seen : .conn fd id ∈ a.answers) : a.results = [(fd : Int)] := by
  unfold Awaiter.Good at good
  split at good
  · rw [good.1] at seen
    cases seen
  · exact (good.2.2 _ seen).elim
  · exact (good.2.2 _ seen).elim
  · obtain ⟨before, last, answers, again, -, results⟩ := good
    rw [answers, List.mem_append, List.mem_singleton] at seen
    rcases seen with early | rfl
    · exact (again _ early).elim
    · exact results

/-- **Accept returns a connection or a fatal error**, in the runs in which coroutines that were
woken find one of them, and in which none waits at a file that has been closed. -/
theorem right_of_kept (run : listener.Via Kept s) : Right s := by
  have inv := inv_of_via run
  have fatal (w : W) (value : Int) (given : value ∈ (s.awaiters w).results) :
      (∃ fd id : Nat, (s.awaiters w).answers.getLast? = some (.conn fd id) ∧ value = fd) ∨
        value = acceptFatal ∧ ∃ errno, (s.awaiters w).answers.getLast? = some (.failed errno) ∧
          ¬ (errno = EAGAIN ∨ errno = EWOULDBLOCK) := by
    obtain ⟨-, last, answered, found, -, rfl⟩ := (inv.good w).results given
    cases last with
    | conn fd id => exact .inl ⟨fd, id, answered, rfl⟩
    | failed errno => exact .inr ⟨if_neg found, errno, answered, found⟩
  exact {
    waits := fun w => inv.waits
    ended := fun closed idle w suspended => by
      obtain ⟨batch, loop, closing, posted⟩ := idle
      rcases inv.waits suspended with inPosted | inLoop | inClosing | ⟨-, -, live | wakes⟩
      · rw [posted] at inPosted
        cases inPosted
      · rw [loop] at inLoop
        cases inLoop
      · rw [closing] at inClosing
        cases inClosing
      · rw [closed] at live
        cases live
      · obtain ⟨flags, there, -⟩ := wakes
        rw [batch] at there
        cases there
    once := fun w => by
      have good := inv.good w
      unfold Awaiter.Good at good
      split at good
      · next phase => simp [good.2, phase]
      · next phase => simp [good.2.1, phase]
      · next phase => simp [good.2.1, phase]
      · next phase =>
          obtain ⟨before, last, -, -, -, results⟩ := good
          simp [results, phase]
    result := fatal
    handed := fun id accepted => by
      obtain ⟨w, fd, seen⟩ := inv.handed id accepted
      exact ⟨w, fd, seen, (inv.good w).results_conn seen⟩
    apart := inv.apart
    placeholder := fun w value given closed => by
      rcases fatal w value given with ⟨fd, id, -, rfl⟩ | ⟨-, error⟩
      · rw [asyncAcceptSocket, if_neg (by omega)] at closed
        cases closed
      · exact error }

/-- An awaiter that was woken and does not find a connection gives neither. -/
theorem Inv.not_right (inv : Inv s) {w : W} {answer : Answer} (again : answer.Again)
    (step : AcceptAwaiter.step s (.resume w answer) = some t) : ¬ Right t := by
  obtain ⟨⟨posted, -⟩, same⟩ := Option.ite_none_right_eq_some.mp step
  cases same
  intro right
  have inside : w ∈ s.places := List.mem_append_right _ posted
  have places := inv.places w
  have once : 0 < s.places.count w := List.count_pos_iff.mpr inside
  have suspended : (s.awaiters w).phase = .suspended := by
    by_contra other
    rw [if_neg other] at places
    omega
  have good := inv.good w
  rw [Awaiter.Good, suspended] at good
  have value : awaitResume (s.awaiters w).newfd answer = -1 := by
    cases answer with
    | conn fd id => exact again.elim
    | failed errno =>
        rw [good.1, awaitResume, if_neg (by decide)]
        exact if_pos again
  have given : -1 ∈ (Function.update s.awaiters w ((s.awaiters w).resume answer) w).results := by
    rw [Function.update_self, Awaiter.resume, value]
    exact List.mem_append_right _ (List.mem_singleton_self _)
  rcases right.result w (-1) given with ⟨fd, id, -, same⟩ | ⟨same, -⟩
  · omega
  · cases same

/-! ## Two coroutines and one connection -/

namespace Example

instance (s : State Nat) : Decidable s.BatchWakes :=
  inferInstanceAs (Decidable (∃ flags ∈ s.batch, _))

instance (s : State Nat) (a : Action Nat) : Decidable (Kept s a) :=
  match a with
  | .resume _ answer => inferInstanceAs (Decidable (¬ answer.Again))
  | .suspend _ => inferInstanceAs (Decidable (_ ∧ (_ ∨ s.BatchWakes)))
  | .closeFile => inferInstanceAs (Decidable (_ ∨ s.BatchWakes))
  | .start _ _ | .fetch _ | .dispatch | .loopPost | .eraseFd | .ctlDel | .closePost
  | .invalidate => inferInstanceAs (Decidable True)

def listening : State Nat where
  slot := ⟨some .fresh, ⟨true, none⟩⟩
  invalid := ⟨none, ⟨false, none⟩⟩
  batch := none
  toResume := []
  closing := .opened
  posted := []
  awaiters := fun _ => {}
  accepted := []

theorem init_listening : init listening := ⟨rfl, rfl, rfl, rfl, rfl, rfl, fun _ => rfl, rfl⟩

/-- Two coroutines wait, and an event wakes both. -/
def bothWoken : List (Action Nat) :=
  [.start 0 (.failed EAGAIN), .suspend 0, .start 1 (.failed EAGAIN), .suspend 1, .fetch EPOLLIN,
    .dispatch, .loopPost, .loopPost, .resume 0 (.conn 7 0)]

/-- There are two connections; a third coroutine is woken by `close`. -/
def bothServed : List (Action Nat) :=
  bothWoken ++ [.resume 1 (.conn 8 1), .start 2 (.failed EAGAIN), .suspend 2, .eraseFd, .ctlDel,
    .closePost, .closePost, .closeFile, .invalidate, .resume 2 (.failed EBADF)]

theorem right_of_kept_served : ∃ s, Right s ∧ (s.awaiters 0).results = [7] ∧
    (s.awaiters 1).results = [8] ∧ (s.awaiters 2).results = [acceptFatal] := by
  obtain ⟨s, run, results⟩ : ∃ s, listener.execOk Kept listening bothServed = some s ∧
      (s.awaiters 0).results = [7] ∧ (s.awaiters 1).results = [8] ∧
      (s.awaiters 2).results = [acceptFatal] := ⟨_, rfl, rfl, rfl, rfl⟩
  exact ⟨s, right_of_kept (.execOk (.init init_listening) run), results⟩

/-- **There is one connection**: the second coroutine is resumed with neither a connection nor a
fatal error, and `async_accept_socket` makes a placeholder of it. -/
theorem woken_for_nothing : ¬ ∀ s : State Nat, listener.Reachable s → Right s := by
  intro always
  obtain ⟨s, run, results⟩ : ∃ s,
      listener.exec listening (bothWoken ++ [.resume 1 (.failed EAGAIN)]) = some s ∧
        (s.awaiters 1).results = [-1] := ⟨_, rfl, rfl⟩
  have right := always s (Machine.Via.exec (.init init_listening) run)
  rcases right.result 1 (-1) (by simp [results]) with ⟨fd, id, -, same⟩ | ⟨same, -⟩
  · omega
  · cases same

end Example

end CoWq.AcceptAwaiter
