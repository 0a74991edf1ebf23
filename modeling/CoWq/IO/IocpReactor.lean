import Mathlib.Logic.Function.Basic
import CoWq.Lib.Mealy
import CoWq.IO.Reactor

/-!
# The waiters on sockets of the two reactors

`iocp_reactor` keeps a table of its own for sockets, on wepoll; `epoll_reactor` has the one of
`CoWq.EpollReactor`.  Both are families of slots, one for each descriptor.

* `IocpReactor.updateFdInterestUnlocked`, `IocpReactor.Slot`: the table with its flag `registered`.
* `Call`: what happens to a reactor, with the time it reads.  `epollReactor`, `iocpReactor`: what
  they post then.
* `Alike`: the two tables, and the kernel's registrations up to `EPOLLET`, are the same.
* `posts_agree_iff`: the posts agree until a sweep finds a waiter behind its deadline, which only
  `epoll_reactor` looks for.
-/

namespace CoWq.IocpReactor

open EpollReactor (Kernel epollCtl ctl EPOLLERR EPOLLHUP removeIf removeIf_eq)

variable {W : Type*}

/-! ## The table of `iocp_reactor` -/

/-- `waiter_item` -/
structure WaiterItem (W : Type*) where
  mask : UInt32
  waiter : W
  deriving DecidableEq, Repr

/-- `fd_state` -/
structure FdState (W : Type*) where
  waiters : List (WaiterItem W) := []
  interest : UInt32 := 0
  registered : Bool := false
  deriving DecidableEq, Repr

/-- `ev.events` for the interest of an entry -/
def epollEvents (interest : UInt32) : UInt32 := interest ||| EPOLLERR ||| EPOLLHUP

/-- `new_interest` -/
def newInterest (waiters : List (WaiterItem W)) : UInt32 :=
  waiters.foldl (fun interest wi => interest ||| wi.mask) 0

def updateFdInterestUnlocked (st : FdState W) (k : Kernel) : FdState W × Kernel :=
  let interest := newInterest st.waiters
  if interest = st.interest then (st, k)
  else
    let st := { st with interest }
    if interest = 0 then
      ({ st with registered := false }, if st.registered then ctl .del 0 k else k)
    else
      match epollCtl (if st.registered then .mod else .add) (epollEvents interest) k with
      | .ok k => ({ st with registered := true }, k)
      | .error .ENOENT =>
          match epollCtl .add (epollEvents interest) k with
          | .ok k => ({ st with registered := true }, k)
          | .error _ => (st, k)
      | .error .EEXIST => ({ st with registered := true }, k)
      | .error .EBADF => (st, k)

/-- The entry of a descriptor in `_fds`, and the descriptor in the kernel. -/
structure Slot (W : Type*) where
  entry : Option (FdState W)
  kernel : Kernel
  deriving DecidableEq

namespace Slot

/-- `is_socket_fd`: `getsockopt` works on the descriptor. -/
def isSocketFd (s : Slot W) : Bool := s.kernel.live

/-- Put an entry back with its interest brought up to date. -/
def update (s : Slot W) (st : FdState W) : Slot W :=
  ⟨some (updateFdInterestUnlocked st s.kernel).1, (updateFdInterestUnlocked st s.kernel).2⟩

/-- `add_fd` -/
def addFd (s : Slot W) : Slot W :=
  if s.isSocketFd then
    match s.entry with
    | none => { s with entry := some {} }
    | some _ => s
  else s

/-- `register_waiter`; for what is not a socket, the waiter is posted at once. -/
def registerWaiter (s : Slot W) (wi : WaiterItem W) : List (WaiterItem W) × Slot W :=
  if s.isSocketFd then
    let st := s.entry.getD {}
    ([], s.update { st with waiters := st.waiters ++ [wi] })
  else ([wi], s)

/-- The predicate of `dispatch_ready`. -/
def ready (flags : UInt32) (wi : WaiterItem W) : Bool :=
  flags &&& wi.mask ≠ 0 || flags &&& (EPOLLERR ||| EPOLLHUP) ≠ 0

/-- `dispatch_ready` for one event. -/
def dispatchReady (s : Slot W) (flags : UInt32) : List (WaiterItem W) × Slot W :=
  match s.entry with
  | none => ([], s)
  | some st =>
      let (toResume, kept) := removeIf (ready flags) [] st.waiters
      (toResume, s.update { st with waiters := kept })

/-- `remove_fd`: only a socket that was there is taken out of the epoll set. -/
def removeFd (s : Slot W) : List (WaiterItem W) × Slot W :=
  match s.entry with
  | none => ([], s)
  | some st => (st.waiters, ⟨none, ctl .del 0 s.kernel⟩)

end Slot

/-! ## The calls -/

/-- What happens to a reactor: a call, an event out of `epoll_wait`, or a sweep of
`collect_timeouts` over the entries in the order of the map. -/
inductive Call (Fd W : Type*)
  | addFd (fd : Fd)
  | addWaiter (fd : Fd) (evmask : UInt32) (waiter : W)
  | addWaiterCustom (fd : Fd) (evmask : UInt32) (waiter : W)
  | addWaiterWithTimeout (fd : Fd) (evmask : UInt32) (waiter : W) (timeout now : Int)
  | removeFd (fd : Fd)
  | event (fd : Fd) (flags : UInt32)
  | sweep (entries : List Fd) (now : Int)
  deriving DecidableEq, Repr

/-- A post, and whether it is one of `handle_timeouts`, which calls `timeout_func` first. -/
structure Post (W : Type*) where
  waiter : W
  timeoutFunc : Bool := false
  deriving DecidableEq, Repr

section Reactors

variable {Fd : Type*} [DecidableEq Fd]

/-- The body of the loop of `collect_timeouts`, and `handle_timeouts`. -/
def sweep (now : Int) : List Fd → (Fd → EpollReactor.Slot W) →
    List (Post W) × (Fd → EpollReactor.Slot W)
  | [], s => ([], s)
  | fd :: entries, s =>
      let (timedOut, slot) := (s fd).collectTimeouts now
      let (later, s) := sweep now entries (Function.update s fd slot)
      (timedOut.map (fun wi => { waiter := wi.waiter, timeoutFunc := true }) ++ later, s)

/-- `epoll_reactor` -/
def epollReactor : Mealy (Fd → EpollReactor.Slot W) (Call Fd W) (Post W) where
  step s
    | .addFd fd => ([], Function.update s fd (s fd).addFd)
    | .addWaiter fd evmask waiter | .addWaiterCustom fd evmask waiter =>
        ([], Function.update s fd ((s fd).registerWaiter ⟨evmask, waiter, false, 0⟩))
    | .addWaiterWithTimeout fd evmask waiter timeout now =>
        ([], Function.update s fd ((s fd).registerWaiter ⟨evmask, waiter, true, now + timeout⟩))
    | .removeFd fd =>
        ((s fd).removeFd.1.map fun wi => { waiter := wi.waiter },
          Function.update s fd (s fd).removeFd.2)
    | .event fd flags =>
        (((s fd).dispatch flags).1.map fun wi => { waiter := wi.waiter },
          Function.update s fd ((s fd).dispatch flags).2)
    | .sweep entries now => sweep now entries s

/-- `iocp_reactor`; it does not sweep. -/
def iocpReactor : Mealy (Fd → Slot W) (Call Fd W) (Post W) where
  step s
    | .addFd fd => ([], Function.update s fd (s fd).addFd)
    | .addWaiter fd evmask waiter | .addWaiterCustom fd evmask waiter
    | .addWaiterWithTimeout fd evmask waiter _ _ =>
        (((s fd).registerWaiter ⟨evmask, waiter⟩).1.map fun wi => { waiter := wi.waiter },
          Function.update s fd ((s fd).registerWaiter ⟨evmask, waiter⟩).2)
    | .removeFd fd =>
        ((s fd).removeFd.1.map fun wi => { waiter := wi.waiter },
          Function.update s fd (s fd).removeFd.2)
    | .event fd flags =>
        (((s fd).dispatchReady flags).1.map fun wi => { waiter := wi.waiter },
          Function.update s fd ((s fd).dispatchReady flags).2)
    | .sweep _ _ => ([], s)

end Reactors

/-! ## The kernel under `iocp_reactor` -/

/-- What the kernel holds for an interest; nothing for none. -/
def registration (interest : UInt32) : Option UInt32 :=
  if interest = 0 then none else some (epollEvents interest)

/-- While the flag says what the kernel holds, the update brings both to the new interest. -/
theorem update_eq {st : FdState W} {k : Kernel} (live : k.live)
    (events : k.events = registration st.interest)
    (registered : st.registered = decide (st.interest ≠ 0)) :
    updateFdInterestUnlocked st k =
      (⟨st.waiters, newInterest st.waiters, decide (newInterest st.waiters ≠ 0)⟩,
        ⟨true, registration (newInterest st.waiters)⟩) := by
  obtain ⟨alive, known⟩ := k
  obtain ⟨waiters, interest, flag⟩ := st
  simp only at live events registered ⊢
  rw [live, events, registered]
  simp only [updateFdInterestUnlocked]
  by_cases same : newInterest waiters = interest
  · simp only [same, if_true]
  · rw [if_neg same]
    by_cases none' : newInterest waiters = 0
    · have before : interest ≠ 0 := fun zero => same (none'.trans zero.symm)
      simp [none', before, registration, ctl, epollCtl]
    · by_cases before : interest = 0
      · simp [none', before, registration, epollCtl]
      · simp [none', before, registration, epollCtl]

/-! ## The two tables -/

/-- A waiter without its timeout. -/
def untimed (wi : EpollReactor.WaiterItem W) : WaiterItem W := ⟨wi.mask, wi.waiter⟩

/-- The entry of `iocp_reactor` for one of `epoll_reactor`. -/
def entryOf (st : EpollReactor.FdState W) : FdState W :=
  ⟨st.waiters.map untimed, st.interest, decide (st.interest ≠ 0)⟩

/-- The two slots of a socket. -/
structure Alike (e : EpollReactor.Slot W) (i : Slot W) : Prop where
  exact : e.Exact
  live : i.kernel.live
  entry : i.entry = e.entry.map entryOf
  events : i.kernel.events = registration e.interest

theorem newInterest_untimed (waiters : List (EpollReactor.WaiterItem W)) :
    newInterest (waiters.map untimed) = EpollReactor.newInterest waiters := by
  rw [newInterest, EpollReactor.newInterest, List.foldl_map]
  rfl

namespace Alike

variable {e : EpollReactor.Slot W} {i : Slot W}

/-- Sections that put back entries with the same waiters keep the slots alike. -/
theorem update (alike : Alike e i) {st : EpollReactor.FdState W}
    (same : st.interest = e.interest) : Alike (e.update st) (i.update (entryOf st)) := by
  have known : i.kernel.events = registration (entryOf st).interest := by
    rw [alike.events, ← same]
    rfl
  have updated := update_eq alike.live known rfl
  rw [Slot.update, updated]
  exact {
    exact := alike.exact.update same
    live := rfl
    entry := by
      simp only [EpollReactor.Slot.update, Option.map_some, entryOf, newInterest_untimed,
        EpollReactor.update_waiters, EpollReactor.update_interest]
    events := by
      rw [EpollReactor.Slot.interest_update]
      simp only [entryOf, newInterest_untimed] }

theorem isSocketFd (alike : Alike e i) : i.isSocketFd = true := alike.live

theorem addFd (alike : Alike e i) : Alike e.addFd i.addFd := by
  have entry := alike.entry
  rw [Slot.addFd, if_pos alike.isSocketFd]
  cases here : e.entry with
  | none =>
      rw [here, Option.map_none] at entry
      exact {
        exact := alike.exact.addFd
        live := by simpa only [entry] using alike.live
        entry := by
          simp only [entry, EpollReactor.Slot.addFd, here, Option.map_some]
          rfl
        events := by
          rw [EpollReactor.Slot.interest_addFd]
          simpa only [entry] using alike.events }
  | some st =>
      rw [here, Option.map_some] at entry
      have stays : e.addFd = e := by rw [EpollReactor.Slot.addFd, here]
      rw [stays]
      simpa only [entry] using alike

theorem registerWaiter (alike : Alike e i) (wi : EpollReactor.WaiterItem W) :
    (i.registerWaiter (untimed wi)).1 = [] ∧
      Alike (e.registerWaiter wi) (i.registerWaiter (untimed wi)).2 := by
  rw [Slot.registerWaiter, if_pos alike.isSocketFd]
  refine ⟨rfl, ?_⟩
  have entry : i.entry.getD {} = entryOf (e.entry.getD .fresh) := by
    rw [alike.entry]
    cases e.entry <;> rfl
  let st : EpollReactor.FdState W :=
    ⟨(e.entry.getD .fresh).waiters ++ [wi], (e.entry.getD .fresh).interest⟩
  have updated : Alike (e.update st) (i.update (entryOf st)) :=
    alike.update (EpollReactor.Slot.interest_getD e)
  simp only [entry]
  rw [entryOf, List.map_append] at updated
  exact updated

theorem dispatch (alike : Alike e i) (flags : UInt32) :
    (i.dispatchReady flags).1 = (e.dispatch flags).1.map untimed ∧
      Alike (e.dispatch flags).2 (i.dispatchReady flags).2 := by
  rw [Slot.dispatchReady, EpollReactor.Slot.dispatch, alike.entry]
  cases here : e.entry with
  | none => exact ⟨rfl, alike⟩
  | some st =>
      have same : st.interest = e.interest := by simp [EpollReactor.Slot.interest, here]
      have chosen : (st.waiters.map untimed).filter (Slot.ready flags) =
          (st.waiters.filter (EpollReactor.Slot.ready flags)).map untimed := List.filter_map
      have kept : (st.waiters.map untimed).filter (fun wi => !Slot.ready flags wi) =
          (st.waiters.filter fun wi => !EpollReactor.Slot.ready flags wi).map untimed :=
        List.filter_map
      let st' : EpollReactor.FdState W :=
        ⟨st.waiters.filter fun wi => !EpollReactor.Slot.ready flags wi, st.interest⟩
      have updated : Alike (e.update st') (i.update (entryOf st')) := alike.update same
      simp only [Option.map_some, entryOf, removeIf_eq, List.nil_append, chosen, kept, true_and]
      exact updated

theorem removeFd (alike : Alike e i) :
    i.removeFd.1 = e.removeFd.1.map untimed ∧ Alike e.removeFd.2 i.removeFd.2 := by
  have removed := alike.exact.removeFd
  have gone : e.removeFd.2.interest = 0 := by
    rw [EpollReactor.Slot.removeFd, EpollReactor.Slot.interest_ctlDel,
      EpollReactor.Slot.interest_erase]
  have entry : e.removeFd.2.entry = none := EpollReactor.Slot.entry_erase e
  rw [Slot.removeFd, alike.entry]
  cases here : e.entry with
  | none =>
      have empty : e.removeFd.1 = [] := by
        rw [EpollReactor.Slot.removeFd, EpollReactor.Slot.erase, here]
      simp only [Option.map_none, empty, List.map_nil, true_and]
      refine ⟨removed, alike.live, by rw [alike.entry, here, entry], ?_⟩
      rw [alike.events, gone, EpollReactor.Slot.interest, here]
      rfl
  | some st =>
      have waiters : e.removeFd.1 = st.waiters := by
        rw [EpollReactor.Slot.removeFd, EpollReactor.Slot.erase, here]
      have live := alike.live
      rw [waiters]
      refine ⟨rfl, removed, ?_, by rw [entry]; rfl, ?_⟩
      · simpa using alike.live
      · rw [gone]
        simp [EpollReactor.ctl_del live, registration]

end Alike

/-! ## The posts -/

section Agreement

variable {Fd : Type*} [DecidableEq Fd]

/-- The sockets before any call. -/
def epollStart : Fd → EpollReactor.Slot W := fun _ => ⟨none, ⟨true, none⟩⟩

@[inherit_doc epollStart]
def iocpStart : Fd → Slot W := fun _ => ⟨none, ⟨true, none⟩⟩

/-- A sweep finds no waiter behind its deadline. -/
def InTime (s : Fd → EpollReactor.Slot W) : Call Fd W → Prop
  | .sweep entries now =>
      ∀ fd ∈ entries, ∀ wi ∈ (s fd).waiters, EpollReactor.Slot.timedOut now wi = false
  | _ => True

omit [DecidableEq Fd] in
theorem alike_start (fd : Fd) : Alike (epollStart (W := W) fd) (iocpStart fd) where
  exact := ⟨rfl, rfl, rfl⟩
  live := rfl
  entry := rfl
  events := rfl

theorem alike_update {e : Fd → EpollReactor.Slot W} {i : Fd → Slot W}
    (alike : ∀ fd, Alike (e fd) (i fd)) {fd : Fd} {e' : EpollReactor.Slot W} {i' : Slot W}
    (next : Alike e' i') (other : Fd) :
    Alike (Function.update e fd e' other) (Function.update i fd i' other) := by
  rcases eq_or_ne other fd with rfl | ne
  · rw [Function.update_self, Function.update_self]
    exact next
  · rw [Function.update_of_ne ne, Function.update_of_ne ne]
    exact alike other

/-- A section of `collect_timeouts` that finds nothing changes nothing. -/
theorem collectTimeouts_inTime {s : EpollReactor.Slot W} {now : Int}
    (inTime : ∀ wi ∈ s.waiters, EpollReactor.Slot.timedOut now wi = false) :
    (s.collectTimeouts now).2 = s := by
  rw [EpollReactor.Slot.collectTimeouts]
  cases here : s.entry with
  | none => rfl
  | some st =>
      have all : st.waiters.filter (fun wi => !EpollReactor.Slot.timedOut now wi) = st.waiters := by
        refine List.filter_eq_self.mpr fun wi listed => ?_
        rw [inTime wi (by simpa [EpollReactor.Slot.waiters, here] using listed)]
        rfl
      simp only [removeIf_eq, all, if_true]

/-- A sweep posts nothing only if it finds nothing, and then changes nothing. -/
theorem sweep_inTime {now : Int} {entries : List Fd} {s : Fd → EpollReactor.Slot W}
    (inTime : InTime s (.sweep entries now)) : sweep now entries s = ([], s) := by
  induction entries with
  | nil => rfl
  | cons fd entries ih =>
      have first := inTime fd List.mem_cons_self
      have none' : ((s fd).collectTimeouts now).1 = [] := by
        rw [EpollReactor.Slot.collectTimeouts_fst]
        exact List.filter_eq_nil_iff.mpr fun wi listed => by simp [first wi listed]
      simp only [sweep, none', collectTimeouts_inTime first, Function.update_eq_self,
        ih fun fd' listed => inTime fd' (List.mem_cons_of_mem fd listed), List.map_nil,
        List.append_nil]

theorem inTime_of_sweep {now : Int} {entries : List Fd} {s : Fd → EpollReactor.Slot W}
    (quiet : (sweep now entries s).1 = []) : InTime s (.sweep entries now) := by
  induction entries with
  | nil => exact fun fd listed => absurd listed List.not_mem_nil
  | cons fd entries ih =>
      simp only [sweep] at quiet
      obtain ⟨first, later⟩ := List.append_eq_nil_iff.mp quiet
      rw [List.map_eq_nil_iff, EpollReactor.Slot.collectTimeouts_fst] at first
      have here : ∀ wi ∈ (s fd).waiters, EpollReactor.Slot.timedOut now wi = false :=
        fun wi listed => Bool.eq_false_iff.mpr (List.filter_eq_nil_iff.mp first wi listed)
      rw [collectTimeouts_inTime here, Function.update_eq_self] at later
      intro fd' listed
      rcases List.mem_cons.mp listed with rfl | listed
      · exact here
      · exact ih later fd' listed

/-- **One call.**  From tables that are alike the posts are the same unless a sweep finds a waiter
behind its deadline, and the tables stay alike. -/
theorem alike_step {e : Fd → EpollReactor.Slot W} {i : Fd → Slot W}
    (alike : ∀ fd, Alike (e fd) (i fd)) (call : Call Fd W) :
    ((epollReactor.step e call).1 = (iocpReactor.step i call).1 ↔ InTime e call) ∧
      (InTime e call → ∀ fd, Alike ((epollReactor.step e call).2 fd)
        ((iocpReactor.step i call).2 fd)) := by
  cases call with
  | addFd fd =>
      exact ⟨⟨fun _ => trivial, fun _ => rfl⟩, fun _ => alike_update alike (alike fd).addFd⟩
  | addWaiter fd evmask waiter | addWaiterCustom fd evmask waiter =>
      obtain ⟨quiet, next⟩ := (alike fd).registerWaiter ⟨evmask, waiter, false, 0⟩
      refine ⟨⟨fun _ => trivial, fun _ => ?_⟩, fun _ => alike_update alike next⟩
      exact (congrArg (List.map _) quiet).symm
  | addWaiterWithTimeout fd evmask waiter timeout now =>
      obtain ⟨quiet, next⟩ := (alike fd).registerWaiter ⟨evmask, waiter, true, now + timeout⟩
      refine ⟨⟨fun _ => trivial, fun _ => ?_⟩, fun _ => alike_update alike next⟩
      exact (congrArg (List.map _) quiet).symm
  | removeFd fd =>
      obtain ⟨same, next⟩ := (alike fd).removeFd
      refine ⟨⟨fun _ => trivial, fun _ => ?_⟩, fun _ => alike_update alike next⟩
      simp only [epollReactor, iocpReactor, same, List.map_map]
      rfl
  | event fd flags =>
      obtain ⟨same, next⟩ := (alike fd).dispatch flags
      refine ⟨⟨fun _ => trivial, fun _ => ?_⟩, fun _ => alike_update alike next⟩
      simp only [epollReactor, iocpReactor, same, List.map_map]
      rfl
  | sweep entries now =>
      refine ⟨⟨inTime_of_sweep, fun inTime => congrArg Prod.fst (sweep_inTime inTime)⟩, ?_⟩
      intro inTime
      rw [show (epollReactor.step e (.sweep entries now)).2 = e from
        congrArg Prod.snd (sweep_inTime inTime)]
      exact alike

/-- **The two reactors agree exactly until a waiter times out.**  At every point of a sequence they
have posted the same waiters in the same order if and only if no sweep of the sequence finds a
waiter behind its deadline. -/
theorem posts_agree_iff (calls : List (Call Fd W)) :
    Mealy.Agree epollReactor iocpReactor (epollStart (W := W)) iocpStart calls ↔
      epollReactor.Along InTime epollStart calls :=
  Mealy.agree_iff (R := fun e i => ∀ fd, Alike (e fd) (i fd))
    (fun e i call alike => (alike_step (e := e) (i := i) alike call).1)
    (fun e i call alike => (alike_step (e := e) (i := i) alike call).2) alike_start

/-- A connect that is not answered in 10 seconds: only `epoll_reactor` gives it up. -/
theorem connect_hangs :
    ¬ Mealy.Agree epollReactor iocpReactor epollStart iocpStart
      ([.addWaiterWithTimeout 3 EpollReactor.EPOLLOUT 0 10000 0, .sweep [3] 10000] :
        List (Call Nat Nat)) := by
  intro agree
  have posts := agree _ List.prefix_rfl
  exact absurd posts (by decide)

end Agreement

end CoWq.IocpReactor
