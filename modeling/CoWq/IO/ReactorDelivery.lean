import Mathlib.Data.List.Induction
import Mathlib.Data.List.Nodup
import Mathlib.Data.List.Perm.Basic
import CoWq.Lib.Machine
import CoWq.IO.Reactor

/-!
# What becomes of a registered waiter

A reactor over any descriptors, its critical sections in any order.  A waiter object may be
registered again once it has been posted, so each registration carries the number of its step
in the log.

* `Action`, `step`, `reactor`: the machine.
* `registered`: the registrations of a log, in order.
* `Placed`: the vector of a descriptor and what was posted from it make up its registrations.
* `delivered_once`: each registration waits or was posted once, for a reason; and the kernel
  has exactly the interest.
-/

namespace CoWq.ReactorDelivery

open EpollReactor

inductive Action (F W : Type*)
  | addFd (fd : F)
  | registerWaiter (fd : F) (evmask : UInt32) (waiter : W) (hasTimeout : Bool) (deadline : Int)
  /-- `collect_timeouts` and `handle_timeouts` -/
  | collectTimeouts (now : Int)
  /-- `epoll_wait` gives an event, and `run_loop` dispatches it -/
  | event (fd : F) (flags : UInt32)
  | removeFd (fd : F)
  deriving DecidableEq, Repr

/-- A call of `post_via_route`, and the step it was made in. -/
structure Posted (W : Type*) where
  item : WaiterItem (Nat × W)
  step : Nat
  deriving DecidableEq, Repr

structure State (F W : Type*) where
  slot : F → Slot (Nat × W)
  /-- what was posted from the vector of a descriptor -/
  posted : F → List (Posted W)
  log : List (Action F W)

variable {F W : Type*} [DecidableEq F]

/-- What the step `n` adds to the vector of `f`. -/
def Action.registers (a : Action F W) (n : Nat) (f : F) : List (WaiterItem (Nat × W)) :=
  match a with
  | .registerWaiter fd evmask waiter hasTimeout deadline =>
      if fd = f then [⟨evmask, (n, waiter), hasTimeout, deadline⟩] else []
  | _ => []

/-- The critical section of the step `n` at the descriptor `f`. -/
def Action.atFd (a : Action F W) (n : Nat) (f : F) (s : Slot (Nat × W)) :
    List (WaiterItem (Nat × W)) × Slot (Nat × W) :=
  match a with
  | .addFd fd => if fd = f then ([], s.addFd) else ([], s)
  | .registerWaiter fd evmask waiter hasTimeout deadline =>
      if fd = f then ([], s.registerWaiter ⟨evmask, (n, waiter), hasTimeout, deadline⟩)
      else ([], s)
  | .collectTimeouts now => s.collectTimeouts now
  | .event fd flags => if fd = f then s.dispatch flags else ([], s)
  | .removeFd fd => if fd = f then s.removeFd else ([], s)

def step (s : State F W) (a : Action F W) : Option (State F W) :=
  some
    { slot := fun f => (a.atFd s.log.length f (s.slot f)).2
      posted := fun f =>
        s.posted f ++ (a.atFd s.log.length f (s.slot f)).1.map fun wi => ⟨wi, s.log.length⟩
      log := s.log ++ [a] }

/-- Every descriptor names an open file; none is registered yet. -/
def init (s : State F W) : Prop :=
  (∀ f, s.slot f = ⟨none, ⟨true, none⟩⟩) ∧ (∀ f, s.posted f = []) ∧ s.log = []

def reactor : Machine (State F W) (Action F W) where
  init := init
  step := step

/-- The waiter may be posted by the step: an event that matches its mask or carries ERR or HUP,
its deadline, or `remove_fd`. -/
def Action.Posts (a : Action F W) (f : F) (wi : WaiterItem (Nat × W)) : Prop :=
  match a with
  | .event fd flags =>
      fd = f ∧ (flags &&& wi.mask ≠ 0 ∨ flags &&& (EPOLLERR ||| EPOLLHUP) ≠ 0)
  | .collectTimeouts now => wi.hasTimeout ∧ wi.deadline ≤ now
  | .removeFd fd => fd = f
  | _ => False

/-! ## One step at one descriptor -/

section Section

variable (a : Action F W) (n : Nat) (f : F) (s : Slot (Nat × W))

/-- A section keeps every waiter, in the vector or among those it posts. -/
theorem atFd_perm :
    ((a.atFd n f s).2.waiters ++ (a.atFd n f s).1).Perm (s.waiters ++ a.registers n f) := by
  have parts (p : WaiterItem (Nat × W) → Bool) :
      ((s.waiters.filter fun wi => !p wi) ++ s.waiters.filter p).Perm (s.waiters ++ []) := by
    rw [List.append_nil]
    exact List.perm_append_comm.trans (List.filter_append_perm p s.waiters)
  cases a with
  | addFd fd =>
      simp only [Action.atFd, Action.registers]
      split <;> simp
  | registerWaiter fd evmask waiter hasTimeout deadline =>
      simp only [Action.atFd, Action.registers]
      split <;> simp
  | collectTimeouts now =>
      simp only [Action.atFd, Action.registers, Slot.waiters_collectTimeouts,
        Slot.collectTimeouts_fst]
      exact parts _
  | event fd flags =>
      simp only [Action.atFd, Action.registers]
      split
      · simp only [Slot.waiters_dispatch, Slot.dispatch_fst]
        exact parts _
      · simp
  | removeFd fd =>
      simp only [Action.atFd, Action.registers]
      split <;> simp [Slot.removeFd]

/-- The vector keeps its order, and a new waiter is the last of it. -/
theorem atFd_waiters :
    (a.atFd n f s).2.waiters.Sublist (s.waiters ++ a.registers n f) := by
  cases a with
  | addFd fd =>
      simp only [Action.atFd, Action.registers]
      split <;> simp
  | registerWaiter fd evmask waiter hasTimeout deadline =>
      simp only [Action.atFd, Action.registers]
      split <;> simp
  | collectTimeouts now =>
      simp only [Action.atFd, Action.registers, Slot.waiters_collectTimeouts, List.append_nil]
      exact List.filter_sublist
  | event fd flags =>
      simp only [Action.atFd, Action.registers]
      split <;> simp
  | removeFd fd =>
      simp only [Action.atFd, Action.registers]
      split <;> simp [Slot.removeFd]

/-- What is posted keeps the order of the vector. -/
theorem atFd_posts_sublist : (a.atFd n f s).1.Sublist s.waiters := by
  cases a with
  | addFd fd | registerWaiter fd evmask waiter hasTimeout deadline =>
      simp only [Action.atFd]
      split <;> simp
  | collectTimeouts now =>
      simp only [Action.atFd, Slot.collectTimeouts_fst]
      exact List.filter_sublist
  | event fd flags =>
      simp only [Action.atFd]
      split <;> simp
  | removeFd fd =>
      simp only [Action.atFd]
      split <;> simp [Slot.removeFd]

/-- What is posted is posted for a reason. -/
theorem atFd_posts {wi : WaiterItem (Nat × W)} (posted : wi ∈ (a.atFd n f s).1) :
    a.Posts f wi := by
  cases a with
  | addFd fd | registerWaiter fd evmask waiter hasTimeout deadline =>
      simp only [Action.atFd] at posted
      split at posted <;> cases posted
  | collectTimeouts now =>
      simp only [Action.atFd, Slot.collectTimeouts_fst, List.mem_filter, Slot.timedOut,
        Bool.and_eq_true, decide_eq_true_eq] at posted
      exact posted.2
  | event fd flags =>
      simp only [Action.atFd] at posted
      split at posted
      · next here =>
          simp only [Slot.dispatch_fst, List.mem_filter, Slot.ready, Bool.or_eq_true,
            decide_eq_true_eq] at posted
          exact ⟨here, posted.2⟩
      · cases posted
  | removeFd fd =>
      simp only [Action.atFd] at posted
      split at posted
      · next here => exact here
      · cases posted

variable {s} in
/-- The kernel stays exact. -/
theorem atFd_exact (exact : s.Exact) : (a.atFd n f s).2.Exact := by
  cases a with
  | addFd fd =>
      simp only [Action.atFd]
      split
      · exact exact.addFd
      · exact exact
  | registerWaiter fd evmask waiter hasTimeout deadline =>
      simp only [Action.atFd]
      split
      · exact exact.registerWaiter _
      · exact exact
  | collectTimeouts now => exact exact.collectTimeouts now
  | event fd flags =>
      simp only [Action.atFd]
      split
      · exact exact.dispatch flags
      · exact exact
  | removeFd fd =>
      simp only [Action.atFd]
      split
      · exact exact.removeFd
      · exact exact

end Section

/-! ## The registrations of a log -/

/-- The registrations at a descriptor, in order. -/
def registered (log : List (Action F W)) (f : F) : List (WaiterItem (Nat × W)) :=
  log.zipIdx.flatMap fun (a, n) => a.registers n f

/-- The number of a registration. -/
def number (wi : WaiterItem (Nat × W)) : Nat := wi.waiter.1

theorem registered_snoc (log : List (Action F W)) (a : Action F W) (f : F) :
    registered (log ++ [a]) f = registered log f ++ a.registers log.length f := by
  simp [registered, List.zipIdx_append]

theorem mem_registers {a : Action F W} {n : Nat} {f : F} {wi : WaiterItem (Nat × W)} :
    wi ∈ a.registers n f ↔
      a = .registerWaiter f wi.mask wi.waiter.2 wi.hasTimeout wi.deadline ∧ number wi = n := by
  constructor
  · intro listed
    cases a with
    | registerWaiter fd evmask waiter hasTimeout deadline =>
        simp only [Action.registers] at listed
        split at listed
        · next here =>
            cases List.mem_singleton.mp listed
            exact ⟨by rw [here], rfl⟩
        · cases listed
    | addFd | collectTimeouts | event | removeFd => cases listed
  · rintro ⟨rfl, rfl⟩
    simp [Action.registers, number]

theorem mem_registered {log : List (Action F W)} {f : F} {wi : WaiterItem (Nat × W)} :
    wi ∈ registered log f ↔ log[number wi]? =
      some (.registerWaiter f wi.mask wi.waiter.2 wi.hasTimeout wi.deadline) := by
  simp only [registered, List.mem_flatMap, Prod.exists, List.mem_zipIdx_iff_getElem?,
    mem_registers]
  constructor
  · rintro ⟨a, n, here, rfl, rfl⟩
    exact here
  · intro here
    exact ⟨_, _, here, rfl, rfl⟩

/-- Registrations are numbered in their order. -/
theorem registered_sorted (log : List (Action F W)) (f : F) :
    ((registered log f).map number).Pairwise (· < ·) := by
  induction log using List.reverseRecOn with
  | nil => simp [registered]
  | append_singleton log a ih =>
      rw [registered_snoc, List.map_append, List.pairwise_append]
      refine ⟨ih, ?_, ?_⟩
      · unfold Action.registers
        split
        · split <;> simp
        · simp
      · simp only [List.mem_map]
        rintro - ⟨wi, early, rfl⟩ - ⟨wi', late, rfl⟩
        rw [(mem_registers.mp late).2]
        exact (List.getElem?_eq_some_iff.mp (mem_registered.mp early)).1

/-! ## Runs -/

/-- The numbers in the vector of `f`. -/
def State.numbers (s : State F W) (f : F) : List Nat := (s.slot f).waiters.map number

/-- The numbers posted from it. -/
def State.postedNumbers (s : State F W) (f : F) : List Nat :=
  (s.posted f).map fun p => number p.item

/-- The vector of `f` and what was posted from it are the registrations at `f`. -/
structure Placed (s : State F W) (f : F) : Prop where
  whole : ((s.slot f).waiters ++ (s.posted f).map Posted.item).Perm (registered s.log f)
  order : (s.slot f).waiters.Sublist (registered s.log f)
  posts : ∀ k, (((s.posted f).filter fun p => p.step = k).map Posted.item).Sublist
    (registered s.log f)
  reason : ∀ p ∈ s.posted f, ∃ a, s.log[p.step]? = some a ∧ a.Posts f p.item
  exact : (s.slot f).Exact

theorem Placed.init {s : State F W} (start : init s) (f : F) : Placed s f := by
  obtain ⟨slots, posted, log⟩ := start
  constructor
  · simp [slots f, posted f, log, registered, Slot.waiters]
  · simp [slots f, Slot.waiters]
  · simp [posted f]
  · simp [posted f]
  · rw [slots f]
    exact ⟨rfl, rfl, rfl⟩

theorem Placed.step {s t : State F W} {a : Action F W} {f : F} (placed : Placed s f)
    (run : step s a = some t) : Placed t f := by
  cases run
  -- a post of an earlier step has a number below the length of the log
  have early : ∀ p ∈ s.posted f, p.step < s.log.length := by
    intro p listed
    obtain ⟨a, here, -⟩ := placed.reason p listed
    exact (List.getElem?_eq_some_iff.mp here).1
  have back : ∀ l : List (WaiterItem (Nat × W)),
      l.map (Posted.item ∘ fun wi => ⟨wi, s.log.length⟩) = l := List.map_id
  constructor <;> dsimp only
  · rw [registered_snoc, List.map_append, List.map_map, back]
    have now := atFd_perm a s.log.length f (s.slot f)
    calc (a.atFd s.log.length f (s.slot f)).2.waiters ++ ((s.posted f).map Posted.item ++
            (a.atFd s.log.length f (s.slot f)).1)
        |>.Perm ((a.atFd s.log.length f (s.slot f)).2.waiters ++
            (a.atFd s.log.length f (s.slot f)).1 ++ (s.posted f).map Posted.item) := by
          rw [List.append_assoc]
          exact List.perm_append_comm.append_left _
      _ |>.Perm ((s.slot f).waiters ++ a.registers s.log.length f ++
            (s.posted f).map Posted.item) := now.append_right _
      _ |>.Perm ((s.slot f).waiters ++ (s.posted f).map Posted.item ++
            a.registers s.log.length f) := by
          rw [List.append_assoc, List.append_assoc]
          exact List.perm_append_comm.append_left _
      _ |>.Perm (registered s.log f ++ a.registers s.log.length f) :=
          placed.whole.append_right _
  · rw [registered_snoc]
    exact (atFd_waiters a _ f _).trans (placed.order.append_right _)
  · intro k
    rw [registered_snoc, List.filter_append, List.map_append]
    by_cases here : k = s.log.length
    · have none : (s.posted f).filter (fun p => p.step = k) = [] := by
        rw [List.filter_eq_nil_iff]
        intro p listed same
        have := early p listed
        simp only [decide_eq_true_eq] at same
        omega
      rw [none, List.map_nil, List.nil_append]
      refine List.Sublist.trans ?_ ((atFd_posts_sublist a s.log.length f (s.slot f)).trans
        (placed.order.trans (List.sublist_append_left _ _)))
      have part := List.filter_sublist (p := fun p : Posted W => p.step = k)
        (l := (a.atFd s.log.length f (s.slot f)).1.map fun wi => ⟨wi, s.log.length⟩)
      have items := part.map Posted.item
      rw [List.map_map, back] at items
      exact items
    · have none : ((a.atFd s.log.length f (s.slot f)).1.map
          fun wi => (⟨wi, s.log.length⟩ : Posted W)).filter (fun p => p.step = k) = [] := by
        rw [List.filter_eq_nil_iff]
        intro p listed same
        obtain ⟨wi, -, rfl⟩ := List.mem_map.mp listed
        simp only [decide_eq_true_eq] at same
        exact here same.symm
      rw [none, List.map_nil, List.append_nil]
      exact (placed.posts k).trans (List.sublist_append_left _ _)
  · intro p listed
    rcases List.mem_append.mp listed with old | new
    · obtain ⟨b, here, posts⟩ := placed.reason p old
      refine ⟨b, ?_, posts⟩
      rw [List.getElem?_append_left (early p old)]
      exact here
    · obtain ⟨wi, posted, rfl⟩ := List.mem_map.mp new
      exact ⟨a, by simp, atFd_posts a _ f _ posted⟩
  · exact atFd_exact a _ f placed.exact

theorem placed_of_reachable {s : State F W} (reached : reactor.Reachable s) (f : F) :
    Placed s f :=
  Machine.Via.invariant (fun _ start => Placed.init start f)
    (fun s a t (placed : Placed s f) _ run => Placed.step (a := a) (t := t) placed run) reached

/-- The registration `i` waits in the vector of `fd` and nowhere else, or it was posted from
there once and waits nowhere. -/
def State.InOnePlace (s : State F W) (i : Nat) (fd : F) (wi : WaiterItem (Nat × W)) : Prop :=
  (wi ∈ (s.slot fd).waiters ∧ (s.numbers fd).count i = 1 ∧
    (∀ f, f ≠ fd → i ∉ s.numbers f) ∧ ∀ f, i ∉ s.postedNumbers f) ∨
  (wi ∈ (s.posted fd).map Posted.item ∧ (s.postedNumbers fd).count i = 1 ∧
    (∀ f, f ≠ fd → i ∉ s.postedNumbers f) ∧ ∀ f, i ∉ s.numbers f)

/-- A number is in the vector of `f` or posted from it only if it is of a registration there. -/
theorem Placed.mem {s : State F W} {f : F} (placed : Placed s f) {i : Nat}
    (listed : i ∈ s.numbers f ++ s.postedNumbers f) :
    ∃ wi ∈ registered s.log f, number wi = i := by
  have whole := placed.whole.map number
  rw [List.map_append, List.map_map] at whole
  exact List.mem_map.mp (whole.mem_iff.mp listed)

theorem inOnePlace_of_placed {s : State F W} (placed : ∀ f, Placed s f) {fd : F}
    {wi : WaiterItem (Nat × W)} (listed : wi ∈ registered s.log fd) :
    s.InOnePlace (number wi) fd wi := by
  have elsewhere : ∀ f, f ≠ fd → number wi ∉ s.numbers f ++ s.postedNumbers f := by
    intro f other listed'
    obtain ⟨wi', there, same⟩ := (placed f).mem listed'
    rw [mem_registered, same, mem_registered.mp listed] at there
    injection there with there
    injection there with there
    exact other there.symm
  have once : (s.numbers fd ++ s.postedNumbers fd).count (number wi) = 1 := by
    have whole := (placed fd).whole.map number
    rw [List.map_append, List.map_map] at whole
    rw [State.numbers, State.postedNumbers]
    refine (whole.count_eq _).trans ?_
    have distinct : ((registered s.log fd).map number).Nodup :=
      (registered_sorted s.log fd).imp fun lt => Nat.ne_of_lt lt
    exact List.count_eq_one_of_mem distinct (List.mem_map_of_mem listed)
  simp only [List.mem_append, not_or] at elsewhere
  rw [List.count_append] at once
  rcases List.mem_append.mp ((placed fd).whole.mem_iff.mpr listed) with waits | posted
  · have here : 0 < (s.numbers fd).count (number wi) :=
      List.count_pos_iff.mpr (List.mem_map_of_mem waits)
    have none : number wi ∉ s.postedNumbers fd := by
      rw [← List.count_eq_zero]
      omega
    refine .inl ⟨waits, by omega, fun f other => (elsewhere f other).1, fun f => ?_⟩
    by_cases same : f = fd
    · exact same ▸ none
    · exact (elsewhere f same).2
  · have here : 0 < (s.postedNumbers fd).count (number wi) := by
      refine List.count_pos_iff.mpr ?_
      obtain ⟨p, mem, same⟩ := List.mem_map.mp posted
      exact List.mem_map.mpr ⟨p, mem, by rw [same]⟩
    have none : number wi ∉ s.numbers fd := by
      rw [← List.count_eq_zero]
      omega
    refine .inr ⟨posted, by omega, fun f other => (elsewhere f other).2, fun f => ?_⟩
    by_cases same : f = fd
    · exact same ▸ none
    · exact (elsewhere f same).1

/-- **Delivery.**  In every run, each registration is in one place: it waits in one vector, or it
was posted once, by an event that matches, its deadline or `remove_fd`.  What one step posts keeps
the order of registration.  The interest of each descriptor is the disjunction of the masks, and
the kernel has exactly it. -/
theorem delivered_once {s : State F W} (reached : reactor.Reachable s) :
    (∀ i fd evmask waiter hasTimeout deadline,
      s.log[i]? = some (.registerWaiter fd evmask waiter hasTimeout deadline) →
      s.InOnePlace i fd ⟨evmask, (i, waiter), hasTimeout, deadline⟩) ∧
    (∀ fd, ∀ p ∈ s.posted fd, ∃ a, s.log[p.step]? = some a ∧ a.Posts fd p.item) ∧
    (∀ fd k, (((s.posted fd).filter fun p => p.step = k).map fun p => number p.item).Pairwise
      (· < ·)) ∧
    ∀ fd, (s.slot fd).interest = newInterest (s.slot fd).waiters ∧
      (s.slot fd).kernel.events = registration (s.slot fd).interest := by
  have placed := placed_of_reachable reached
  refine ⟨?_, fun fd => (placed fd).reason, ?_, fun fd => ?_⟩
  · intro i fd evmask waiter hasTimeout deadline here
    have listed : (⟨evmask, (i, waiter), hasTimeout, deadline⟩ : WaiterItem (Nat × W)) ∈
        registered s.log fd := mem_registered.mpr here
    exact inOnePlace_of_placed placed listed
  · intro fd k
    have sorted := (registered_sorted s.log fd).sublist (((placed fd).posts k).map number)
    rw [List.map_map] at sorted
    exact sorted
  · exact ⟨(placed fd).exact.interest, (placed fd).exact.events⟩

/-- No descriptor has been used yet. -/
def idle : State Nat Nat := ⟨fun _ => ⟨none, ⟨true, none⟩⟩, fun _ => [], []⟩

/-- A reader and a writer of one descriptor and a connection attempt on another. -/
def connections : List (Action Nat Nat) :=
  [.addFd 5, .registerWaiter 5 EPOLLIN 1 false 0, .registerWaiter 5 EPOLLOUT 2 false 0,
    .registerWaiter 6 EPOLLOUT 3 true 10, .event 5 EPOLLOUT, .collectTimeouts 10,
    .registerWaiter 5 EPOLLOUT 2 false 0, .event 5 (EPOLLIN ||| EPOLLHUP)]

theorem delivered_once_connections : ∃ t, reactor.exec idle connections = some t ∧
    t.postedNumbers 5 = [2, 1, 6] ∧ t.postedNumbers 6 = [3] ∧
    t.InOnePlace 6 5 ⟨EPOLLOUT, (6, 2), false, 0⟩ := by
  refine ⟨_, rfl, by decide, by decide, ?_⟩
  have start : reactor.Reachable idle := .init ⟨fun _ => rfl, fun _ => rfl, rfl⟩
  have run : reactor.exec idle connections = some _ := rfl
  have reached := start.exec run
  exact (delivered_once reached).1 6 5 EPOLLOUT 2 false 0 rfl

end CoWq.ReactorDelivery
