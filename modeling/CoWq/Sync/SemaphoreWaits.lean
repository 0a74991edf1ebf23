import CoWq.Sync.TimerHeap
import CoWq.Sync.Semaphore

/-!
# The system as its waits see it

Every step of the system is, for each single awaiter, one event of its wait or nothing.

* `view`: an awaiter of a state with the containers that hold its nodes.
* `Action.Causes`: which action an event of a wait can come from.
* `Follows`: every wait takes one event or stays; `step_follows`.
* `Queues`: what the containers themselves keep; `Queues.step`.
* `reachable_local`: every wait of every reachable state is `Local`.
-/

namespace CoWq.Semaphore

open Workqueue

variable {A : Type*} [DecidableEq A] {kind : A → Kind} {s t : State A} {act : Action A}
  {a b : A}

def view (s : State A) (a : A) : View where
  toWait := s.wait a
  list := decide (a ∈ s.acquireList)
  queue := decide (.req a ∈ s.wsHead)
  due := decide (.tmo a ∈ s.wsHead)
  heap := decide (s.mem.ownerQueue (.tmo a) = some ())
  taken := s.taken.count a

@[simp] theorem view_toWait : (view s a).toWait = s.wait a := rfl

theorem view_list : (view s a).list = true ↔ a ∈ s.acquireList := decide_eq_true_iff

theorem view_queue : (view s a).queue = true ↔ .req a ∈ s.wsHead := decide_eq_true_iff

theorem view_congr (wait : t.wait a = s.wait a)
    (list : a ∈ t.acquireList ↔ a ∈ s.acquireList)
    (queue : Node.req a ∈ t.wsHead ↔ .req a ∈ s.wsHead)
    (due : Node.tmo a ∈ t.wsHead ↔ .tmo a ∈ s.wsHead)
    (heap : t.mem.ownerQueue (.tmo a) = some () ↔ s.mem.ownerQueue (.tmo a) = some ())
    (taken : t.taken.count a = s.taken.count a) : view t a = view s a := by
  simp only [view, wait, list, queue, due, heap, taken]

/-- The events that depend on more than the wait, and what is true when they come. -/
def Action.Causes (s : State A) (a : A) (act : Action A) : Event → Prop
  | .grant => act = .semChkCb ∧ a ∈ s.granted
  | .acquired => act = .acquire a ∧ 0 < s.curVal
  | .expire => ∃ now fuel, act = .timChkCb now fuel ∧
      s.mem.ownerQueue (.tmo a) = some () ∧ s.mem.expire (.tmo a) ≤ now
  | .tmoExchange => act = .tmoExchange a
  | _ => True

/-- Every wait takes one event that the action causes, or stays as it is. -/
def Follows (kind : A → Kind) (s : State A) (act : Action A) (t : State A) : Prop :=
  ∀ a, view t a = view s a ∨
    ∃ e, act.Causes s a e ∧ (view s a).step (kind a) e = some (view t a)

theorem follows_own {e : Event} (others : ∀ b, b ≠ a → view t b = view s b)
    (cause : act.Causes s a e) (own : (view s a).step (kind a) e = some (view t a)) :
    Follows kind s act t := by
  intro b
  rcases eq_or_ne b a with rfl | other
  · exact .inr ⟨e, cause, own⟩
  · exact .inl (others b other)

/-! ## The operations -/

@[simp] theorem view_setWait (w : Wait) : view (s.setWait a w) a = { view s a with toWait := w } :=
  congrArg (fun w' => { view s a with toWait := w' }) (Function.update_self a w s.wait)

theorem view_setWait_of_ne (w : Wait) (other : b ≠ a) : view (s.setWait a w) b = view s b :=
  view_congr (Function.update_of_ne other _ _) .rfl .rfl .rfl .rfl rfl

theorem tryAcquire_fst_of_ne (other : b ≠ a) : view (tryAcquire s a).1 b = view s b := by
  unfold tryAcquire
  split
  · simp [view, other.symm]
  · rfl

theorem view_tryAcquire :
    view (tryAcquire s a).1 a =
      { view s a with taken := s.taken.count a + (tryAcquire s a).2.toNat } := by
  unfold tryAcquire
  split <;> simp [view]

theorem view_release : view (release s) a = view s a := by
  unfold release
  split <;> rfl

theorem view_acquire_of_ne (other : b ≠ a) : view (acquire s a) b = view s b := by
  unfold acquire
  split
  · simp [view, mem_addNewNolock, other, other.symm]
  · simp [view, other]

theorem view_acquire :
    view (acquire s a) a =
      if 0 < s.curVal then { view s a with queue := true, taken := s.taken.count a + 1 }
      else { view s a with list := true } := by
  unfold acquire
  split <;> simp [view, mem_addNewNolock]

theorem view_cancelWaiter_of_ne (other : b ≠ a) : view (cancelWaiter s a) b = view s b := by
  exact view_congr (Function.update_of_ne other _ _) (List.mem_erase_of_ne other) .rfl .rfl .rfl rfl

theorem view_cancelWaiter (nodup : s.acquireList.Nodup) :
    view (cancelWaiter s a) a =
      { view s a with toWait := { s.wait a with cancelled := true }, list := false } := by
  simp only [view, cancelWaiter, Function.update_self, nodup.mem_erase_iff, ne_eq, not_true,
    false_and, decide_false]
  rfl

theorem view_post_sem (r : Nat) :
    view { s with releasing := r, wsHead := addNewNolock s.wsHead .sem } a = view s a :=
  view_congr rfl .rfl (by simp [mem_addNewNolock]) (by simp [mem_addNewNolock]) .rfl rfl

theorem view_post_timer (r : Nat) :
    view { s with ticking := r, wsHead := addNewNolock s.wsHead .timer } a = view s a :=
  view_congr rfl .rfl (by simp [mem_addNewNolock]) (by simp [mem_addNewNolock]) .rfl rfl

/-! ## The loop of `sem_chk_cb` -/

theorem view_chkReq_of_ne (other : b ≠ a) : view (chkReq s a) b = view s b := by
  unfold chkReq
  split
  · exact view_congr rfl (List.mem_erase_of_ne other) .rfl .rfl .rfl rfl
  · split
    · refine view_congr (Function.update_of_ne other _ _) (List.mem_erase_of_ne other) ?_ ?_ .rfl ?_
      · simp [mem_addNewNolock, other]
      · simp [mem_addNewNolock]
      · simp [other.symm]
    · rfl

theorem chkReq_cancelled : ((chkReq s a).wait b).cancelled = (s.wait b).cancelled := by
  unfold chkReq
  split
  · rfl
  · split
    · rcases eq_or_ne b a with rfl | other <;> simp [*]
    · rfl

/-- One round, for the request it looks at. -/
theorem view_chkReq (nodup : s.acquireList.Nodup) (listed : a ∈ s.acquireList) :
    view (chkReq s a) a = view s a ∨
      ((s.wait a).cancelled = false ∧ 0 < s.curVal ∧
        (view s a).step (kind a) .grant = some (view (chkReq s a) a)) ∨
      (view s a).step (kind a) .drop = some (view (chkReq s a) a) := by
  unfold chkReq
  cases cancelled : (s.wait a).cancelled with
  | true =>
      refine .inr (.inr ?_)
      simp [View.step, listed, cancelled, view, nodup.mem_erase_iff]
  | false =>
      by_cases token : 0 < s.curVal
      · refine .inr (.inl ⟨rfl, token, ?_⟩)
        simp [View.step, listed, cancelled, view, nodup.mem_erase_iff, token, mem_addNewNolock]
      · simp [token]

theorem nodup_chkReq (nodup : s.acquireList.Nodup) : (chkReq s a).acquireList.Nodup := by
  unfold chkReq
  split
  · exact nodup.erase a
  · split
    · exact nodup.erase a
    · exact nodup

theorem mem_chkReq_of_ne (other : b ≠ a) :
    b ∈ (chkReq s a).acquireList ↔ b ∈ s.acquireList := by
  have same := congrArg View.list (view_chkReq_of_ne (s := s) other)
  simpa [view] using same

theorem view_foldl_of_not_mem : ∀ {l : List A} {s : State A}, b ∉ l →
    view (l.foldl chkReq s) b = view s b
  | [], _, _ => rfl
  | a :: l, s, out => by
      simp only [List.mem_cons, not_or] at out
      exact (view_foldl_of_not_mem out.2).trans (view_chkReq_of_ne out.1)

/-- The whole loop, for one of its requests: it is granted when it is among the first
`_cur_val` that are not cancelled. -/
theorem view_foldl : ∀ {l : List A} {s : State A}, l.Nodup → s.acquireList.Nodup →
    (∀ a ∈ l, a ∈ s.acquireList) → ∀ b ∈ l, view (l.foldl chkReq s) b = view s b ∨
      (b ∈ (l.filter fun a => !(s.wait a).cancelled).take s.curVal.toNat ∧
        (view s b).step (kind b) .grant = some (view (l.foldl chkReq s) b)) ∨
      (view s b).step (kind b) .drop = some (view (l.foldl chkReq s) b)
  | a :: l, s, distinct, nodup, listed, b, mem => by
      obtain ⟨fresh, distinct'⟩ := List.nodup_cons.mp distinct
      rw [List.foldl_cons]
      rcases List.mem_cons.mp mem with rfl | mem
      · rw [view_foldl_of_not_mem fresh]
        rcases view_chkReq nodup (listed b mem) with
          same | ⟨live, token, grant⟩ | drop
        · exact .inl same
        · refine .inr (.inl ⟨?_, grant⟩)
          obtain ⟨n, size⟩ : ∃ n, s.curVal.toNat = n + 1 := ⟨s.curVal.toNat - 1, by omega⟩
          simp [live, size]
        · exact .inr (.inr drop)
      · have other : b ≠ a := fun same => fresh (same ▸ mem)
        have below : ∀ c ∈ l, c ∈ (chkReq s a).acquireList := fun c inside =>
          (mem_chkReq_of_ne fun same : c = a => fresh (same ▸ inside)).mpr
            (listed c (List.mem_cons_of_mem _ inside))
        have rest := view_foldl distinct' (nodup_chkReq nodup) below b mem
        rw [view_chkReq_of_ne other] at rest
        simp only [chkReq_cancelled] at rest
        rcases rest with same | ⟨early, grant⟩ | drop
        · exact .inl same
        · refine .inr (.inl ⟨?_, grant⟩)
          unfold chkReq at early
          cases cancelled : (s.wait a).cancelled with
          | true => simpa [cancelled] using early
          | false =>
              by_cases token : 0 < s.curVal
              · obtain ⟨n, size⟩ : ∃ n, s.curVal.toNat = n + 1 := ⟨s.curVal.toNat - 1, by omega⟩
                have fewer : (s.curVal - 1).toNat = n := by omega
                simp only [cancelled, token, if_true, Bool.false_eq_true, if_false, fewer] at early
                simp only [List.filter_cons, cancelled, Bool.not_false, if_true, size,
                  List.take_succ_cons]
                exact List.mem_cons_of_mem _ early
              · have none : s.curVal.toNat = 0 := by omega
                simp [cancelled, token, none] at early
        · exact .inr (.inr drop)

/-! ## What the containers keep -/

structure Queues (s : State A) : Prop where
  wsHead : s.wsHead.Nodup
  acquireList : s.acquireList.Nodup
  func : ∀ n, s.mem.func n = true
  owned : ∀ n, s.mem.ownerQueue n = some () → ∃ a, n = .tmo a
  heap : ∃ h, Timer.HeapInv () {n | s.mem.ownerQueue n = some ()} s.toState h

omit [DecidableEq A] in
/-- Nothing of this depends on the waits, and the heap not on the executor's queue. -/
theorem Queues.congr (q : Queues s) (mem : t.mem = s.mem) (root : t.heapRoot = s.heapRoot)
    (wsHead : t.wsHead.Nodup) (acquireList : t.acquireList.Nodup) : Queues t := by
  obtain ⟨h, inv⟩ := q.heap
  refine ⟨wsHead, acquireList, mem ▸ q.func, mem ▸ q.owned, h, ?_⟩
  constructor
  · rw [mem, root]
    exact inv.stored
  · rw [mem]
    exact inv.ordered
  · rw [mem]
    exact inv.posted
  · rw [mem]
    exact inv.owned

theorem Queues.setWait (q : Queues s) (w : Wait) : Queues (s.setWait a w) :=
  q.congr rfl rfl q.wsHead q.acquireList

/-- A step of one wait: its fields are set, in a state that may differ in its nodes. -/
theorem Queues.own {e : Event} {w : Wait} (q : Queues t)
    (others : ∀ b, b ≠ a → view t b = view s b) (cause : act.Causes s a e)
    (own : (view s a).step (kind a) e = some { view t a with toWait := w }) :
    Queues (t.setWait a w) ∧ Follows kind s act (t.setWait a w) := by
  refine ⟨q.setWait w, follows_own (fun b other => ?_) cause ?_⟩
  · rw [view_setWait_of_ne w other, others b other]
  · rw [own, view_setWait]

omit [DecidableEq A] in
theorem Queues.tryAcquire (q : Queues s) : Queues (tryAcquire s a).1 := by
  unfold Semaphore.tryAcquire
  split
  · exact q.congr rfl rfl q.wsHead q.acquireList
  · exact q

theorem Queues.acquire (q : Queues s) (out : a ∉ s.acquireList) : Queues (acquire s a) := by
  unfold Semaphore.acquire
  split
  · exact q.congr rfl rfl (nodup_addNewNolock q.wsHead) q.acquireList
  · refine q.congr rfl rfl q.wsHead ?_
    simpa [List.nodup_append] using ⟨q.acquireList, fun b mem same => out (same ▸ mem)⟩

theorem Queues.cancelWaiter (q : Queues s) : Queues (cancelWaiter s a) :=
  q.congr rfl rfl q.wsHead (q.acquireList.erase a)

theorem Queues.chkReq (q : Queues s) : Queues (chkReq s a) := by
  have nodup := nodup_chkReq (a := a) q.acquireList
  unfold Semaphore.chkReq at nodup ⊢
  split
  · exact q.congr rfl rfl q.wsHead (q.acquireList.erase a)
  · split
    · exact q.congr rfl rfl (nodup_addNewNolock q.wsHead) (q.acquireList.erase a)
    · exact q

theorem Queues.foldl {l : List A} (q : Queues s) : Queues (l.foldl Semaphore.chkReq s) := by
  induction l generalizing s with
  | nil => exact q
  | cons a l ih => exact ih q.chkReq

/-- `cancel` takes the one `TimeoutNode` out of the heap, and out of nothing else. -/
theorem Queues.cancelled {fuel : Nat} (q : Queues s) (run : cancelTimeout s a fuel = some t) :
    Queues t ∧ t.wsHead = s.wsHead ∧ t = { s with toState := t.toState } ∧
      ∀ n, t.mem.ownerQueue n = some () ↔ s.mem.ownerQueue n = some () ∧ n ≠ .tmo a := by
  obtain ⟨u, call, rfl⟩ := Option.map_eq_some_iff.mp run
  obtain ⟨h, inv⟩ := q.heap
  obtain ⟨h', inv'⟩ := inv.of_cancel call
  obtain ⟨wsHead, func, -⟩ := Timer.cancel_frame call
  have owned : ∀ n, u.mem.ownerQueue n = some () ↔
      s.mem.ownerQueue n = some () ∧ n ≠ .tmo a := fun n =>
    (inv'.owned n).trans (inv'.posted n)
  refine ⟨⟨wsHead ▸ q.wsHead, q.acquireList, func ▸ q.func, ?_, h', ?_⟩, wsHead, rfl, owned⟩
  · exact fun n own => q.owned n ((owned n).mp own).1
  · convert inv' using 1
    ext n
    exact owned n

theorem view_cancelTimeout {fuel : Nat} (q : Queues s) (run : cancelTimeout s a fuel = some t) :
    view t a = { view s a with heap := false } ∧ ∀ b, b ≠ a → view t b = view s b := by
  obtain ⟨-, wsHead, frame, owned⟩ := q.cancelled run
  obtain ⟨u, -, rfl⟩ := Option.map_eq_some_iff.mp run
  simp only at wsHead owned
  constructor
  · simp [view, wsHead, owned]
  · intro b other
    exact view_congr rfl .rfl (by simp [wsHead]) (by simp [wsHead]) (by simp [owned, other]) rfl

/-- A step of one wait that ends in `cancel`. -/
theorem Queues.cancels {e : Event} {w : Wait} {fuel : Nat} (q : Queues s)
    (cause : act.Causes s a e) (run : Semaphore.cancelTimeout (s.setWait a w) a fuel = some t)
    (own : (view s a).step (kind a) e = some { view s a with toWait := w, heap := false }) :
    Queues t ∧ Follows kind s act t := by
  obtain ⟨here, others⟩ := view_cancelTimeout (q.setWait w) run
  refine ⟨((q.setWait w).cancelled run).1, follows_own (fun b other => ?_) cause ?_⟩
  · rw [others b other, view_setWait_of_ne w other]
  · rw [own, here, view_setWait]

theorem Queues.posted (q : Queues s) {u : Timer.State (Node A) Unit} {now : Int} {ms : UInt32}
    (idle : s.mem.ownerQueue (.tmo a) ≠ some ())
    (post : u = Timer.postDelayedWork () s.toState (.tmo a) now ms) :
    Queues { s with toState := u } := by
  obtain ⟨h, inv⟩ := q.heap
  have out : Node.tmo a ∉ {n | s.mem.ownerQueue n = some ()} := idle
  obtain ⟨h', inv'⟩ := inv.postDelayedWork out now ms
  have owned : ∀ n, u.mem.ownerQueue n = some () ↔
      n = .tmo a ∨ s.mem.ownerQueue n = some () := by
    intro n
    rw [post, inv'.owned, inv'.posted]
    simp
  refine ⟨post ▸ q.wsHead, q.acquireList, post ▸ q.func, ?_, h', ?_⟩
  · intro n own
    rcases (owned n).mp own with rfl | before
    · exact ⟨a, rfl⟩
    · exact q.owned n before
  · subst post
    convert inv' using 1
    ext n
    exact owned n

theorem view_posted {u : Timer.State (Node A) Unit} {now : Int} {ms : UInt32}
    (post : u = Timer.postDelayedWork () s.toState (.tmo a) now ms) :
    view { s with toState := u } a = { view s a with heap := true } ∧
      ∀ b, b ≠ a → view { s with toState := u } b = view s b := by
  have owner : u.mem.ownerQueue = Function.update s.mem.ownerQueue (.tmo a) (some ()) := by
    rw [post]
    rfl
  have wsHead : u.wsHead = s.wsHead := by
    rw [post]
    rfl
  constructor
  · simp [view, owner, wsHead]
  · intro b other
    exact view_congr rfl .rfl (by simp [wsHead]) (by simp [wsHead]) (by simp [owner, other]) rfl

/-- `tim_chk_cb` moves `TimeoutNode`s that are due from the heap to the executor. -/
theorem Queues.expired {now : Int} {fuel c : Nat} {r : Timer.State (Node A) Unit × List (Node A)}
    (q : Queues s) (run : Timer.timChkCb now fuel s.toState = some r) :
    Queues { s with toState := r.1, timPopped := c } ∧
      Follows kind s (.timChkCb now fuel) { s with toState := r.1, timPopped := c } := by
  obtain ⟨u, out⟩ := r
  obtain ⟨h, inv⟩ := q.heap
  obtain ⟨h', inv', popped⟩ := inv.of_timChkCb run
  have owned : ∀ n, u.mem.ownerQueue n = some () ↔
      s.mem.ownerQueue n = some () ∧ n ∉ out := fun n =>
    (inv'.owned n).trans (inv'.posted n)
  have queued : ∀ n, n ∈ u.wsHead ↔ n ∈ s.wsHead ∨ n ∈ out := by
    intro n
    rw [popped.wsHead n]
    simp [q.func]
  refine ⟨⟨popped.nodup q.wsHead, q.acquireList, popped.func ▸ q.func, ?_, h', ?_⟩, fun a => ?_⟩
  · exact fun n own => q.owned n ((owned n).mp own).1
  · convert inv' using 1
    ext n
    exact owned n
  · have outside : Node.req a ∉ out := by
      intro inside
      obtain ⟨b, wrong⟩ := q.owned _ (popped.due _ inside).1
      cases wrong
    by_cases due : Node.tmo a ∈ out
    · obtain ⟨own, time⟩ := popped.due _ due
      refine .inr ⟨.expire, ⟨now, fuel, rfl, own, time⟩, ?_⟩
      have own' : s.mem.ownerQueue (.tmo a) = some () := own
      simp [View.step, view, own', owned, queued, due, outside]
    · exact .inl (view_congr rfl .rfl (by simp [queued, outside]) (by simp [queued, due])
        (by simp [owned, due]) rfl)

theorem Queues.dispatched {n : Node A} {rest : List (Node A)} (q : Queues s)
    (first : s.wsHead = n :: rest) : Queues (dispatch { s with wsHead := rest } n) := by
  have nodup : rest.Nodup := (List.nodup_cons.mp (first ▸ q.wsHead)).2
  cases n <;> exact q.congr rfl rfl nodup q.acquireList

/-- A pop runs a callback of the wait the node belongs to. -/
theorem follows_dispatch {n : Node A} {rest : List (Node A)} (q : Queues s)
    (first : s.wsHead = n :: rest) :
    Follows kind s .workOnce (dispatch { s with wsHead := rest } n) := by
  have out : n ∉ rest := (List.nodup_cons.mp (first ▸ q.wsHead)).1
  cases n with
  | sem => exact fun a => .inl (view_congr rfl .rfl (by simp [dispatch, first])
      (by simp [dispatch, first]) .rfl rfl)
  | timer => exact fun a => .inl (view_congr rfl .rfl (by simp [dispatch, first])
      (by simp [dispatch, first]) .rfl rfl)
  | req a =>
      refine follows_own (a := a) (e := .popReq) (fun b other => ?_) trivial ?_
      · simp only [dispatch]
        rw [view_setWait_of_ne _ other]
        exact view_congr rfl .rfl (by simp [first, other]) (by simp [first]) .rfl rfl
      · simp only [dispatch, view_setWait]
        simp [View.step, view, first, out]
  | tmo a =>
      refine follows_own (a := a) (e := .popTmo) (fun b other => ?_) trivial ?_
      · simp only [dispatch]
        rw [view_setWait_of_ne _ other]
        exact view_congr rfl .rfl (by simp [first]) (by simp [first, other]) .rfl rfl
      · simp only [dispatch, view_setWait]
        simp [View.step, view, first, out]

theorem follows_semChkCb (q : Queues s) (c : Nat) :
    Follows kind s .semChkCb (semChkCb { s with semPassed := c }) := by
  intro b
  by_cases listed : b ∈ s.acquireList
  · have nodup : { s with semPassed := c }.acquireList.Nodup := q.acquireList
    rcases view_foldl nodup nodup (fun _ mem => mem) b listed with same | ⟨early, grant⟩ | drop
    · exact .inl same
    · exact .inr ⟨.grant, ⟨rfl, early⟩, grant⟩
    · exact .inr ⟨.drop, trivial, drop⟩
  · exact .inl (view_foldl_of_not_mem listed)

/-! ## Every step -/

/-- What one step does to the containers and, wait by wait, to the waits. -/
theorem step_spec (q : Queues s) (loc : ∀ a, Local (kind a) (view s a))
    (run : step kind s act = some t) : Queues t ∧ Follows kind s act t := by
  have same : ∀ {a : A}, ∀ b, b ≠ a → view s b = view s b := fun _ _ => rfl
  cases act <;> simp only [step] at run
  case release =>
    cases run
    refine ⟨?_, fun a => .inl view_release⟩
    unfold Semaphore.release
    split
    · exact q.congr rfl rfl q.wsHead q.acquireList
    · exact q
  case releasePost =>
    obtain ⟨-, run⟩ := Option.ite_none_right_eq_some.mp run
    cases run
    exact ⟨q.congr rfl rfl (nodup_addNewNolock q.wsHead) q.acquireList,
      fun a => .inl (view_post_sem _)⟩
  case tickUpdate =>
    cases run
    exact ⟨q.congr rfl rfl q.wsHead q.acquireList, fun a => .inl rfl⟩
  case tickPost =>
    obtain ⟨-, run⟩ := Option.ite_none_right_eq_some.mp run
    cases run
    exact ⟨q.congr rfl rfl (nodup_addNewNolock q.wsHead) q.acquireList,
      fun a => .inl (view_post_timer _)⟩
  case workOnce =>
    split at run
    · cases run
    · rename_i n rest first
      cases run
      exact ⟨q.dispatched first, follows_dispatch q first⟩
  case semEmpty =>
    obtain ⟨-, run⟩ := Option.ite_none_right_eq_some.mp run
    cases run
    exact ⟨q.congr rfl rfl q.wsHead q.acquireList, fun a => .inl rfl⟩
  case semChkCb =>
    obtain ⟨-, run⟩ := Option.ite_none_right_eq_some.mp run
    cases run
    exact ⟨Queues.foldl (q.congr rfl rfl q.wsHead q.acquireList), follows_semChkCb q _⟩
  case timChkCb now fuel =>
    obtain ⟨-, run⟩ := Option.ite_none_right_eq_some.mp run
    obtain ⟨r, call, rfl⟩ := Option.map_eq_some_iff.mp run
    exact q.expired call
  case awaitReady a =>
    obtain ⟨guard, run⟩ := Option.ite_none_right_eq_some.mp run
    split at run
    · rename_i try_
      cases run
      exact q.own same (e := .pass) trivial (if_pos ⟨try_, guard⟩)
    · rename_i no_try
      split at run
      · rename_i u got
        cases run
        have u_eq : u = (tryAcquire s a).1 := by rw [got]
        subst u_eq
        refine q.tryAcquire.own (fun b other => tryAcquire_fst_of_ne other) (e := .immediate)
          trivial ?_
        rw [view_tryAcquire, got]
        exact if_pos ⟨no_try, guard⟩
      · rename_i u got
        cases run
        have u_eq : u = (tryAcquire s a).1 := by rw [got]
        subst u_eq
        refine q.tryAcquire.own (fun b other => tryAcquire_fst_of_ne other) (e := .suspend)
          trivial ?_
        rw [view_tryAcquire, got]
        exact if_pos ⟨no_try, guard⟩
  case store a =>
    obtain ⟨guard, run⟩ := Option.ite_none_right_eq_some.mp run
    cases run
    exact q.own same (e := .store) trivial (if_pos guard)
  case postDelayed a now =>
    obtain ⟨guard, run⟩ := Option.ite_none_right_eq_some.mp run
    have idle : (view s a).heap ≠ true := by
      intro there
      rcases ((loc a).heap there).2.1 with posted | done
      · exact absurd (guard.symm.trans posted) (by decide)
      · exact absurd (guard.symm.trans done) (by decide)
    split at run
    · rename_i ms timed
      split at run
      · rename_i finite
        cases run
        have post : Timer.postDelayedWork () s.toState (.tmo a) now ms = _ := rfl
        obtain ⟨here, others⟩ := view_posted post
        have posted := q.posted (fun own => idle (decide_eq_true own)) post
        refine posted.own others (e := .postDelayed) trivial ?_
        rw [here]
        simp [View.step, guard, timed, Kind.hasTimer, finite]
      · rename_i forever
        cases run
        refine q.own same (e := .postDelayed) trivial ?_
        simp [View.step, guard, timed, Kind.hasTimer, forever]
    · rename_i untimed
      cases run
      refine q.own same (e := .postDelayed) trivial ?_
      cases k : kind a with
      | waitSemFor ms => exact (untimed ms k).elim
      | waitSem => simp [View.step, guard, Kind.hasTimer]
      | waitSemTry => simp [View.step, guard, Kind.hasTimer]
  case acquire a =>
    obtain ⟨guard, run⟩ := Option.ite_none_right_eq_some.mp run
    cases run
    have others : ∀ b, b ≠ a → view (acquire s a) b = view s b := fun b => view_acquire_of_ne
    have out : a ∉ s.acquireList := by
      intro there
      have done := ((loc a).list (view_list.mpr there)).1
      exact absurd (guard.symm.trans done) (by decide)
    by_cases token : 0 < s.curVal
    · refine (q.acquire out).own others (e := .acquired) ⟨rfl, token⟩ ?_
      rw [view_acquire, if_pos token]
      exact if_pos guard
    · refine (q.acquire out).own others (e := .enlist) trivial ?_
      rw [view_acquire, if_neg token]
      exact if_pos guard
  case reqExchange a =>
    obtain ⟨guard, run⟩ := Option.ite_none_right_eq_some.mp run
    split at run
    · rename_i armed
      cases run
      exact q.own same (e := .reqExchange) trivial
        ((if_pos guard).trans (if_pos armed))
    · rename_i late
      cases run
      exact q.own same (e := .reqExchange) trivial
        ((if_pos guard).trans (if_neg late))
  case reqCancel a fuel =>
    obtain ⟨guard, run⟩ := Option.ite_none_right_eq_some.mp run
    exact q.cancels (e := .reqCancel) trivial run (if_pos guard)
  case reqResume a =>
    obtain ⟨guard, run⟩ := Option.ite_none_right_eq_some.mp run
    cases run
    exact q.own same (e := .reqResume) trivial (if_pos guard)
  case tmoExchange a =>
    obtain ⟨guard, run⟩ := Option.ite_none_right_eq_some.mp run
    split at run
    · rename_i armed
      cases run
      exact q.own same (e := .tmoExchange) rfl
        ((if_pos guard).trans (if_pos armed))
    · rename_i late
      cases run
      exact q.own same (e := .tmoExchange) rfl
        ((if_pos guard).trans (if_neg late))
  case cancelWaiter a =>
    obtain ⟨guard, run⟩ := Option.ite_none_right_eq_some.mp run
    cases run
    refine ⟨(q.setWait _).cancelWaiter,
      follows_own (a := a) (e := .cancelWaiter) (fun b other => ?_) trivial ?_⟩
    · rw [view_cancelWaiter_of_ne other, view_setWait_of_ne _ other]
    · rw [view_cancelWaiter (q.setWait _).acquireList, view_setWait]
      simp [View.step, State.setWait, guard]
  case tmoMark a =>
    obtain ⟨guard, run⟩ := Option.ite_none_right_eq_some.mp run
    cases run
    exact q.own same (e := .tmoMark) trivial (if_pos guard)
  case tmoResume a =>
    obtain ⟨guard, run⟩ := Option.ite_none_right_eq_some.mp run
    cases run
    exact q.own same (e := .tmoResume) trivial (if_pos guard)
  case awaitResume a =>
    obtain ⟨guard, run⟩ := Option.ite_none_right_eq_some.mp run
    split at run
    · rename_i try_
      cases run
      refine q.tryAcquire.own (fun b other => tryAcquire_fst_of_ne other)
        (e := .tryAcquire (tryAcquire s a).2) trivial ?_
      rw [view_tryAcquire]
      exact if_pos ⟨try_, guard⟩
    · rename_i no_try
      cases run
      exact q.own same (e := .awaitResume) trivial (if_pos ⟨no_try, guard⟩)
  case destroy a fuel =>
    obtain ⟨guard, run⟩ := Option.ite_none_right_eq_some.mp run
    split at run
    · rename_i timed
      refine q.cancels (e := .destroy) trivial run ?_
      simp [View.step, guard, timed]
    · rename_i untimed
      cases run
      refine q.own same (e := .destroy) trivial ?_
      simp [View.step, guard, untimed]

omit [DecidableEq A] in
theorem init_queues {v₀ : Int} (start : Init v₀ s) : Queues s := by
  refine ⟨?_, ?_, start.func, fun n own => ?_, .nil, ?_⟩
  · rw [start.wsHead]
    exact List.nodup_nil
  · rw [start.acquireList]
    exact List.nodup_nil
  · rw [start.ownerQueue n] at own
    cases own
  · have none : {n | s.mem.ownerQueue n = some ()} = (∅ : Set (Node A)) := by
      ext n
      simp [start.ownerQueue n]
    rw [none]
    exact .empty start.heapRoot fun n => by simp [start.ownerQueue n]

/-- At the start every wait is fresh and its nodes are nowhere. -/
theorem init_view {v₀ : Int} (start : Init v₀ s) (a : A) :
    view s a = ⟨s.wait a, false, false, false, false, 0⟩ := by
  simp [view, start.acquireList, start.wsHead, start.ownerQueue, start.taken]

theorem init_local {k : Kind} {w : Wait} (fresh : w.Init) :
    Local k ⟨w, false, false, false, false, 0⟩ := by
  obtain ⟨suspend, reqPc, tmoPc, life, -, -, -, result⟩ := fresh
  constructor <;> simp [View.granted, suspend, reqPc, tmoPc, life, result]

/-! ## Runs -/

section Runs

variable {v₀ : Int} {ok : State A → Action A → Prop}

theorem via_local (run : (semaphore kind v₀).Via ok s) :
    Queues s ∧ ∀ a, Local (kind a) (view s a) := by
  refine run.invariant (I := fun s => Queues s ∧ ∀ a, Local (kind a) (view s a)) ?_ ?_
  · intro s start
    refine ⟨init_queues start, fun a => ?_⟩
    rw [init_view start a]
    exact init_local (start.wait a)
  · rintro s act t ⟨q, loc⟩ - step
    obtain ⟨q', follows⟩ := step_spec q loc step
    refine ⟨q', fun a => ?_⟩
    rcases follows a with same | ⟨e, -, event⟩
    · rw [same]
      exact loc a
    · exact (loc a).step event

/-- The induction rule for what every single wait keeps in guarded runs: the guard of the
system implies the one of the wait for every event that an action causes. -/
theorem via_views {I : Kind → View → Prop} {guard : Kind → View → Event → Prop}
    (start : ∀ {k w}, Wait.Init w → I k ⟨w, false, false, false, false, 0⟩)
    (kept : ∀ {k v v' e}, I k v → Local k v → guard k v e → v.step k e = some v' → I k v')
    (allowed : ∀ {s act a e}, ok s act → act.Causes s a e → guard (kind a) (view s a) e)
    (run : (semaphore kind v₀).Via ok s) (a : A) : I (kind a) (view s a) := by
  refine run.invariant_reach (I := fun s => I (kind a) (view s a)) ?_ ?_
  · intro s init
    rw [init_view init a]
    exact start (init.wait a)
  · intro s act t before inv good step
    obtain ⟨q, loc⟩ := via_local before
    rcases (step_spec q loc step).2 a with same | ⟨e, cause, event⟩
    · rw [same]
      exact inv
    · exact kept inv (loc a) (allowed good cause) event

end Runs

end CoWq.Semaphore
