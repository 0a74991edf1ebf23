import Mathlib.Data.List.Basic

/-!
# The epoll reactor, one descriptor at a time

Every critical section of `epoll_reactor` works on the map entry of one descriptor and on the
kernel's registration of it; `collect_timeouts` does so for each entry in turn.  `Slot` is the
two of them together, and a reactor is a family of slots.

* `epollCtl`: what `epoll_ctl` does, with its error numbers.
* `updateFdInterestUnlocked`: the masks of the waiters, brought to the kernel.
* `Slot.addFd`, `.registerWaiter`, `.collectTimeouts`, `.dispatch`, `.erase`, `.ctlDel`: the
  critical sections.  Those that remove waiters return them in the order of the posts.
* `Slot.Exact`, `Slot.Covered`: the kernel knows exactly, or at least, the interest.
-/

namespace CoWq.EpollReactor

def EPOLLIN : UInt32 := 0x1
def EPOLLOUT : UInt32 := 0x4
def EPOLLERR : UInt32 := 0x8
def EPOLLHUP : UInt32 := 0x10
def EPOLLET : UInt32 := 0x80000000

/-- `waiter_item`; a time point is a number of clock ticks. -/
structure WaiterItem (W : Type*) where
  mask : UInt32
  waiter : W
  hasTimeout : Bool
  deadline : Int
  deriving DecidableEq, Repr

/-- `fd_state` -/
structure FdState (W : Type*) where
  waiters : List (WaiterItem W)
  interest : UInt32
  deriving DecidableEq, Repr

/-- `fd_state {}` -/
def FdState.fresh {W : Type*} : FdState W := ⟨[], 0⟩

/-! ## The kernel -/

inductive Errno
  | EBADF
  | ENOENT
  | EEXIST
  deriving DecidableEq, Repr

inductive CtlOp
  | add
  | mod
  | del
  deriving DecidableEq, Repr

/-- A descriptor in the kernel: does it name an open file, and the events of its registration
in the epoll set. -/
structure Kernel where
  live : Bool
  events : Option UInt32
  deriving DecidableEq, Repr

/-- `epoll_ctl` -/
def epollCtl (op : CtlOp) (events : UInt32) (k : Kernel) : Except Errno Kernel :=
  if k.live then
    match op, k.events with
    | .add, none => .ok { k with events := some events }
    | .add, some _ => .error .EEXIST
    | .mod, some _ => .ok { k with events := some events }
    | .mod, none => .error .ENOENT
    | .del, some _ => .ok { k with events := none }
    | .del, none => .error .ENOENT
  else .error .EBADF

/-- The kernel after a call whose result is not looked at. -/
def ctl (op : CtlOp) (events : UInt32) (k : Kernel) : Kernel :=
  match epollCtl op events k with
  | .ok k' => k'
  | .error _ => k

@[simp] theorem live_ctl (op : CtlOp) (events : UInt32) (k : Kernel) :
    (ctl op events k).live = k.live := by
  unfold ctl epollCtl
  split
  · next h =>
      split at h
      · split at h <;> cases h <;> rfl
      · cases h
  · rfl

/-- DEL removes the registration. -/
theorem ctl_del {k : Kernel} (live : k.live) (events : UInt32) :
    ctl .del events k = { k with events := none } := by
  obtain ⟨alive, registered⟩ := k
  cases registered <;> simp_all [ctl, epollCtl]

/-! ## The interest -/

variable {W : Type*}

/-- `ev.events` for the interest of an entry -/
def epollEvents (interest : UInt32) : UInt32 :=
  interest ||| EPOLLERR ||| EPOLLHUP ||| EPOLLET

/-- `new_interest` -/
def newInterest (waiters : List (WaiterItem W)) : UInt32 :=
  waiters.foldl (fun interest wi => interest ||| wi.mask) 0

def updateFdInterestUnlocked (st : FdState W) (k : Kernel) : FdState W × Kernel :=
  let interest := newInterest st.waiters
  if interest = st.interest then (st, k)
  else if interest = 0 then ({ st with interest := interest }, ctl .del 0 k)
  else
    match epollCtl .mod (epollEvents interest) k with
    | .ok k' => ({ st with interest := interest }, k')
    | .error .ENOENT =>
        ({ st with interest := interest }, ctl .add (epollEvents interest) k)
    | .error _ => ({ st with interest := interest }, k)

/-- What the kernel holds for an interest; nothing for none. -/
def registration (interest : UInt32) : Option UInt32 :=
  if interest = 0 then none else some (epollEvents interest)

@[simp] theorem update_waiters (st : FdState W) (k : Kernel) :
    (updateFdInterestUnlocked st k).1.waiters = st.waiters := by
  simp only [updateFdInterestUnlocked]
  split
  · rfl
  · split
    · rfl
    · split <;> rfl

@[simp] theorem update_interest (st : FdState W) (k : Kernel) :
    (updateFdInterestUnlocked st k).1.interest = newInterest st.waiters := by
  simp only [updateFdInterestUnlocked]
  split
  · next same => exact same.symm
  · split
    · rfl
    · split <;> rfl

@[simp] theorem update_live (st : FdState W) (k : Kernel) :
    (updateFdInterestUnlocked st k).2.live = k.live := by
  simp only [updateFdInterestUnlocked]
  split
  · rfl
  · split
    · simp
    · split
      · next h =>
          unfold epollCtl at h
          split at h
          · cases registered : k.events <;> simp only [registered] at h <;> cases h
            rfl
          · cases h
      · simp
      · rfl

/-- Of an open file, the early exit leaves the registration alone and every other path brings
it to the new interest. -/
theorem update_events {k : Kernel} (live : k.live) (st : FdState W) :
    (updateFdInterestUnlocked st k).2.events =
      if newInterest st.waiters = st.interest then k.events
      else registration (newInterest st.waiters) := by
  obtain ⟨alive, registered⟩ := k
  simp only at live
  subst live
  simp only [updateFdInterestUnlocked]
  split
  · rfl
  · split
    · next empty =>
        rw [ctl_del rfl, registration, if_pos empty]
    · next pending =>
        cases registered <;> simp [epollCtl, ctl, registration, pending]

/-- `m` is among the events of the registration. -/
def Kernel.Covers (k : Kernel) (m : UInt32) : Prop :=
  m ||| k.events.getD 0 = k.events.getD 0

instance (k : Kernel) (m : UInt32) : Decidable (k.Covers m) :=
  inferInstanceAs (Decidable (_ = _))

theorem foldl_interest (waiters : List (WaiterItem W)) (acc : UInt32) :
    waiters.foldl (fun interest wi => interest ||| wi.mask) acc = acc ||| newInterest waiters := by
  induction waiters generalizing acc with
  | nil => simp [newInterest]
  | cons wi waiters ih =>
      rw [newInterest, List.foldl_cons, List.foldl_cons, ih, ih, UInt32.zero_or, UInt32.or_assoc]

/-- The interest holds the mask of every waiter. -/
theorem mask_or_newInterest {waiters : List (WaiterItem W)} {wi : WaiterItem W}
    (listed : wi ∈ waiters) : wi.mask ||| newInterest waiters = newInterest waiters := by
  induction waiters with
  | nil => cases listed
  | cons w waiters ih =>
      have split : newInterest (w :: waiters) = w.mask ||| newInterest waiters := by
        rw [newInterest, List.foldl_cons, foldl_interest, UInt32.zero_or]
      rw [split]
      rcases List.mem_cons.mp listed with rfl | later
      · rw [← UInt32.or_assoc, UInt32.or_self]
      · rw [← UInt32.or_assoc, UInt32.or_comm wi.mask, UInt32.or_assoc, ih later]

theorem or_epollEvents (interest : UInt32) :
    interest ||| epollEvents interest = epollEvents interest := by
  simp only [epollEvents, ← UInt32.or_assoc, UInt32.or_self]

theorem covers_registration {k : Kernel} {interest : UInt32}
    (exact : k.events = registration interest) : k.Covers interest := by
  rw [Kernel.Covers, exact, registration]
  split
  · next empty => simp [empty]
  · exact or_epollEvents interest

theorem Kernel.Covers.mask {k : Kernel} {waiters : List (WaiterItem W)} {wi : WaiterItem W}
    (covered : k.Covers (newInterest waiters)) (listed : wi ∈ waiters) : k.Covers wi.mask := by
  unfold Kernel.Covers at covered ⊢
  rw [← covered, ← UInt32.or_assoc, mask_or_newInterest listed]

/-! ## The critical sections -/

/-- `std::remove_if` and the `erase` behind it, with a predicate that pushes what it accepts
onto `out`: the vectors `out` and the one that stays. -/
def removeIf {α : Type*} (pred : α → Bool) (out : List α) (vec : List α) : List α × List α :=
  vec.foldl (fun (out, kept) x => if pred x then (out ++ [x], kept) else (out, kept ++ [x]))
    (out, [])

theorem removeIf_eq {α : Type*} (pred : α → Bool) (out vec : List α) :
    removeIf pred out vec = (out ++ vec.filter pred, vec.filter fun x => !pred x) := by
  suffices general : ∀ (vec out kept : List α),
      vec.foldl (fun (out, kept) x => if pred x then (out ++ [x], kept) else (out, kept ++ [x]))
        (out, kept) = (out ++ vec.filter pred, kept ++ vec.filter fun x => !pred x) from
    general vec out []
  intro vec
  induction vec with
  | nil => simp
  | cons x vec ih =>
      intro out kept
      rw [List.foldl_cons]
      cases accepted : pred x <;> simp [accepted, ih]

/-- The entry of a descriptor in `_fds`, and the descriptor in the kernel. -/
structure Slot (W : Type*) where
  entry : Option (FdState W)
  kernel : Kernel
  deriving DecidableEq

namespace Slot

/-- The waiters of the entry. -/
def waiters (s : Slot W) : List (WaiterItem W) :=
  (s.entry.map FdState.waiters).getD []

/-- The interest of the entry. -/
def interest (s : Slot W) : UInt32 :=
  (s.entry.map FdState.interest).getD 0

/-- Put an entry back with its interest brought up to date. -/
def update (s : Slot W) (st : FdState W) : Slot W :=
  ⟨some (updateFdInterestUnlocked st s.kernel).1, (updateFdInterestUnlocked st s.kernel).2⟩

/-- `add_fd` -/
def addFd (s : Slot W) : Slot W :=
  match s.entry with
  | none => { s with entry := some .fresh }
  | some _ => s

/-- `register_waiter`; `_fds[fd]` makes the entry when there is none. -/
def registerWaiter (s : Slot W) (wi : WaiterItem W) : Slot W :=
  let st := s.entry.getD .fresh
  s.update { st with waiters := st.waiters ++ [wi] }

/-- The predicate of `collect_timeouts`. -/
def timedOut (now : Int) (wi : WaiterItem W) : Bool :=
  wi.hasTimeout && decide (wi.deadline ≤ now)

/-- The body of the loop in `collect_timeouts`. -/
def collectTimeouts (s : Slot W) (now : Int) : List (WaiterItem W) × Slot W :=
  match s.entry with
  | none => ([], s)
  | some st =>
      let (timedOut, kept) := removeIf (timedOut now) [] st.waiters
      if kept.length = st.waiters.length then (timedOut, s)
      else (timedOut, s.update { st with waiters := kept })

/-- The predicate of `run_loop`. -/
def ready (flags : UInt32) (wi : WaiterItem W) : Bool :=
  flags &&& wi.mask ≠ 0 || flags &&& (EPOLLERR ||| EPOLLHUP) ≠ 0

/-- The section of `run_loop` for one event. -/
def dispatch (s : Slot W) (flags : UInt32) : List (WaiterItem W) × Slot W :=
  match s.entry with
  | none => ([], s)
  | some st =>
      let (toResume, kept) := removeIf (ready flags) [] st.waiters
      (toResume, s.update { st with waiters := kept })

/-- The section of `remove_fd`. -/
def erase (s : Slot W) : List (WaiterItem W) × Slot W :=
  match s.entry with
  | none => ([], s)
  | some st => (st.waiters, { s with entry := none })

/-- The `EPOLL_CTL_DEL` of `remove_fd`. -/
def ctlDel (s : Slot W) : Slot W :=
  { s with kernel := ctl .del 0 s.kernel }

/-- `remove_fd` at once. -/
def removeFd (s : Slot W) : List (WaiterItem W) × Slot W :=
  (s.erase.1, s.erase.2.ctlDel)

/-! ## What they do to the waiters -/

@[simp] theorem waiters_update (s : Slot W) (st : FdState W) :
    (s.update st).waiters = st.waiters := by
  simp [update, waiters]

@[simp] theorem interest_update (s : Slot W) (st : FdState W) :
    (s.update st).interest = newInterest st.waiters := by
  simp [update, interest]

@[simp] theorem live_update (s : Slot W) (st : FdState W) :
    (s.update st).kernel.live = s.kernel.live := by
  simp [update]

@[simp] theorem waiters_addFd (s : Slot W) : s.addFd.waiters = s.waiters := by
  unfold addFd
  split
  · next h => simp [waiters, h, FdState.fresh]
  · rfl

@[simp] theorem kernel_addFd (s : Slot W) : s.addFd.kernel = s.kernel := by
  unfold addFd
  split <;> rfl

@[simp] theorem interest_addFd (s : Slot W) : s.addFd.interest = s.interest := by
  unfold addFd
  split
  · next h => simp [interest, h, FdState.fresh]
  · rfl

theorem waiters_getD (s : Slot W) : (s.entry.getD .fresh).waiters = s.waiters := by
  cases h : s.entry <;> simp [waiters, h, FdState.fresh]

theorem interest_getD (s : Slot W) : (s.entry.getD .fresh).interest = s.interest := by
  cases h : s.entry <;> simp [interest, h, FdState.fresh]

@[simp] theorem waiters_registerWaiter (s : Slot W) (wi : WaiterItem W) :
    (s.registerWaiter wi).waiters = s.waiters ++ [wi] := by
  simp [registerWaiter, waiters_getD]

@[simp] theorem collectTimeouts_fst (s : Slot W) (now : Int) :
    (s.collectTimeouts now).1 = s.waiters.filter (timedOut now) := by
  unfold collectTimeouts
  split
  · next h => simp [waiters, h]
  · next st h =>
      simp only [removeIf_eq, List.nil_append]
      split <;> simp [waiters, h]

@[simp] theorem waiters_collectTimeouts (s : Slot W) (now : Int) :
    (s.collectTimeouts now).2.waiters = s.waiters.filter fun wi => !timedOut now wi := by
  unfold collectTimeouts
  split
  · next h => simp [waiters, h]
  · next st h =>
      simp only [removeIf_eq, List.nil_append]
      split
      · next same =>
          have all := List.filter_sublist.eq_of_length same
          simp only [waiters, h, Option.map_some, Option.getD_some]
          exact all.symm
      · rw [waiters_update]
        simp [waiters, h]

@[simp] theorem dispatch_fst (s : Slot W) (flags : UInt32) :
    (s.dispatch flags).1 = s.waiters.filter (ready flags) := by
  unfold dispatch
  split
  · next h => simp [waiters, h]
  · next st h => simp [removeIf_eq, waiters, h]

@[simp] theorem waiters_dispatch (s : Slot W) (flags : UInt32) :
    (s.dispatch flags).2.waiters = s.waiters.filter fun wi => !ready flags wi := by
  unfold dispatch
  split
  · next h => simp [waiters, h]
  · next st h =>
      simp only [removeIf_eq, waiters_update]
      simp [waiters, h]

@[simp] theorem erase_fst (s : Slot W) : s.erase.1 = s.waiters := by
  unfold erase
  split
  · next h => simp [waiters, h]
  · next h => simp [waiters, h]

@[simp] theorem entry_erase (s : Slot W) : s.erase.2.entry = none := by
  unfold erase
  split
  · next h => exact h
  · rfl

@[simp] theorem waiters_erase (s : Slot W) : s.erase.2.waiters = [] := by
  simp [waiters]

@[simp] theorem interest_erase (s : Slot W) : s.erase.2.interest = 0 := by
  simp [interest]

@[simp] theorem kernel_erase (s : Slot W) : s.erase.2.kernel = s.kernel := by
  unfold erase
  split <;> rfl

@[simp] theorem waiters_ctlDel (s : Slot W) : s.ctlDel.waiters = s.waiters := rfl

@[simp] theorem interest_ctlDel (s : Slot W) : s.ctlDel.interest = s.interest := rfl

/-! ## What they do to the kernel -/

@[simp] theorem live_registerWaiter (s : Slot W) (wi : WaiterItem W) :
    (s.registerWaiter wi).kernel.live = s.kernel.live :=
  live_update s _

@[simp] theorem live_collectTimeouts (s : Slot W) (now : Int) :
    (s.collectTimeouts now).2.kernel.live = s.kernel.live := by
  unfold collectTimeouts
  split
  · rfl
  · dsimp only
    split
    · rfl
    · exact live_update s _

@[simp] theorem live_dispatch (s : Slot W) (flags : UInt32) :
    (s.dispatch flags).2.kernel.live = s.kernel.live := by
  unfold dispatch
  split
  · rfl
  · exact live_update s _

@[simp] theorem live_ctlDel (s : Slot W) : s.ctlDel.kernel.live = s.kernel.live :=
  live_ctl _ _ _

/-- The interest is the disjunction of the masks, and the kernel holds exactly it. -/
structure Exact (s : Slot W) : Prop where
  live : s.kernel.live
  interest : s.interest = newInterest s.waiters
  events : s.kernel.events = registration s.interest

/-- The interest is the disjunction of the masks, and the kernel of an open file has at least
its events. -/
structure Covered (s : Slot W) : Prop where
  interest : s.interest = newInterest s.waiters
  covers : s.kernel.live → s.kernel.Covers s.interest

variable {s : Slot W}

/-- A section that puts an entry back keeps both, as soon as the entry has the old interest. -/
theorem Exact.update (h : s.Exact) {st : FdState W} (same : st.interest = s.interest) :
    (s.update st).Exact where
  live := by simp [h.live]
  interest := by simp
  events := by
    rw [interest_update, Slot.update, update_events h.live]
    split
    · next unchanged => rw [unchanged, same, h.events]
    · rfl

theorem Covered.update (h : s.Covered) {st : FdState W} (same : st.interest = s.interest) :
    (s.update st).Covered where
  interest := by simp
  covers live := by
    rw [live_update] at live
    rw [interest_update]
    by_cases unchanged : newInterest st.waiters = st.interest
    · have events : (s.update st).kernel.events = s.kernel.events := by
        rw [Slot.update, update_events live, if_pos unchanged]
      rw [unchanged, same, Kernel.Covers, events]
      exact h.covers live
    · refine covers_registration ?_
      rw [Slot.update, update_events live, if_neg unchanged]

theorem Exact.addFd (h : s.Exact) : s.addFd.Exact := by
  constructor <;> simp only [kernel_addFd, interest_addFd, waiters_addFd]
  · exact h.live
  · exact h.interest
  · exact h.events

theorem Covered.addFd (h : s.Covered) : s.addFd.Covered := by
  constructor <;> simp only [kernel_addFd, interest_addFd, waiters_addFd]
  · exact h.interest
  · exact h.covers

theorem Exact.registerWaiter (h : s.Exact) (wi : WaiterItem W) : (s.registerWaiter wi).Exact :=
  h.update (interest_getD s)

theorem Covered.registerWaiter (h : s.Covered) (wi : WaiterItem W) :
    (s.registerWaiter wi).Covered :=
  h.update (interest_getD s)

theorem Exact.collectTimeouts (h : s.Exact) (now : Int) : (s.collectTimeouts now).2.Exact := by
  unfold Slot.collectTimeouts
  split
  · exact h
  · next st here =>
      dsimp only
      split
      · exact h
      · exact h.update (by simp [Slot.interest, here])

theorem Covered.collectTimeouts (h : s.Covered) (now : Int) :
    (s.collectTimeouts now).2.Covered := by
  unfold Slot.collectTimeouts
  split
  · exact h
  · next st here =>
      dsimp only
      split
      · exact h
      · exact h.update (by simp [Slot.interest, here])

theorem Exact.dispatch (h : s.Exact) (flags : UInt32) : (s.dispatch flags).2.Exact := by
  unfold Slot.dispatch
  split
  · exact h
  · next st here => exact h.update (by simp [Slot.interest, here])

theorem Covered.dispatch (h : s.Covered) (flags : UInt32) : (s.dispatch flags).2.Covered := by
  unfold Slot.dispatch
  split
  · exact h
  · next st here => exact h.update (by simp [Slot.interest, here])

theorem Exact.removeFd (h : s.Exact) : s.removeFd.2.Exact where
  live := by simp [Slot.removeFd, ctlDel, h.live]
  interest := by simp [Slot.removeFd, newInterest]
  events := by
    simp only [Slot.removeFd, interest_ctlDel, interest_erase]
    simp [ctlDel, ctl_del h.live, registration]

/-- While the entry is gone the kernel still has the old registration. -/
theorem Covered.erase (s : Slot W) : s.erase.2.Covered where
  interest := by simp [newInterest]
  covers _ := by simp [Kernel.Covers]

/-- DEL is for an entry without waiters. -/
theorem Covered.ctlDel (h : s.Covered) (empty : s.waiters = []) : s.ctlDel.Covered where
  interest := h.interest
  covers _ := by
    rw [interest_ctlDel, h.interest, empty]
    simp [Kernel.Covers, newInterest]

end Slot

end CoWq.EpollReactor
