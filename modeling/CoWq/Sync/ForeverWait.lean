import CoWq.Sync.SemaphoreSections

/-!
# Waits without a time limit

`wait_sem_forever` is `wait_sem_for` with `0xffffffff`, for which `await_suspend` posts no
`TimeoutNode`: nothing races for `armed`, and the wait ends with a token or not at all.

* `Forever`: what a single such wait keeps; `taken_of_resumed`: one that is through has its token.
* `begun_by`: nothing but its own `await_ready` begins a wait.
* `Awake`: a request that could be served has a check under way.
* `goes_on`: a wait goes on until it has to wait for a token.
-/

namespace CoWq.Semaphore

open Workqueue

/-- `wait_sem_forever` -/
def Kind.forever : Kind := .waitSemFor 0xffffffff

/-- The actions of the timer queue. -/
def Action.clock {A : Type*} : Action A → Bool
  | .tickUpdate | .tickPost | .timChkCb .. => true
  | _ => false

/-- The actions that bring waits on when no one calls `release`, and none of them before its time:
the wait of `a` is the only one that may begin. -/
def Action.Onward {A : Type*} (a : A) : Action A → Prop
  | .tickUpdate | .tickPost | .timChkCb .. | .release => False
  | .awaitReady b => b = a
  | _ => True

/-! ## One wait -/

/-- What a wait without a timer keeps: `armed` stays set until the request's callback takes it, and
the coroutine is resumed by that callback or has never been suspended. -/
structure Forever (v : View) : Prop where
  cancelled : v.cancelled = false
  armed : v.suspend ≠ .fresh → v.suspend ≠ .suspending → v.reqPc = .idle ∨ v.reqPc = .popped →
    v.armed = true
  resumed : v.life ≠ .waiting → v.suspend = .fresh ∨ v.reqPc = .returned
  returned : v.reqPc = .returned → v.life ≠ .waiting
  marked : v.reqPc ≠ .marked

section

variable {v v' : View} {e : Event}

theorem Local.no_timer (loc : Local .forever v) :
    v.heap = false ∧ v.due = false ∧ v.tmoPc = .idle := by
  have none : ¬ Kind.forever.hasTimer = true := by decide
  refine ⟨?_, ?_, ?_⟩
  · by_contra heap
    exact none (loc.heap (by simpa using heap)).1
  · by_contra due
    exact none (loc.due (by simpa using due)).1
  · by_contra tmo
    exact none (loc.tmo tmo).1

theorem Forever.init {w : Wait} (fresh : w.Init) :
    Forever ⟨w, false, false, false, false, 0⟩ := by
  obtain ⟨suspend, reqPc, -, life, -, cancelled, -⟩ := fresh
  constructor <;> simp [suspend, reqPc, life, cancelled]

theorem Forever.step (h : Forever v) (loc : Local .forever v)
    (run : v.step .forever e = some v') : Forever v' := by
  obtain ⟨heap, due, tmo⟩ := loc.no_timer
  obtain ⟨list, queue, req, -, -, -, pending, -, -⟩ := loc
  obtain ⟨cancelled, armed, resumed, returned, marked⟩ := h
  cases e <;>
    simp only [View.step, Option.ite_none_right_eq_some, Option.some.injEq] at run <;>
    obtain ⟨guard, run⟩ := run
  case reqExchange | tmoExchange =>
    split at run <;> cases run <;> constructor <;> dsimp only <;>
      grind -linarith [Kind.forever, Kind.timed, Kind.hasTimer]
  all_goals
    subst run
    constructor <;> dsimp only <;> grind -linarith [Kind.forever, Kind.timed, Kind.hasTimer]

/-- An awaiter that is gone stays so. -/
theorem Forever.destroyed (h : Forever v) (loc : Local .forever v)
    (run : v.step .forever e = some v') (gone : v.life = .destroyed) : v'.life = .destroyed := by
  obtain ⟨-, -, tmo⟩ := loc.no_timer
  have req := loc.req
  have resumed := h.resumed
  cases e <;>
    simp only [View.step, Option.ite_none_right_eq_some, Option.some.injEq] at run <;>
    obtain ⟨guard, run⟩ := run
  case reqExchange | tmoExchange => split at run <;> cases run <;> exact gone
  all_goals
    subst run
    grind [Kind.forever, Kind.timed]

/-- A wait that is through has taken its token. -/
theorem Forever.taken_of_resumed (h : Forever v) (loc : Local .forever v)
    (through : v.life ≠ .waiting) : v.taken = 1 := by
  rw [loc.token (by decide), if_pos]
  rcases h.resumed through with fresh | returned
  · exact .inl ⟨fresh, through⟩
  · exact .inr (by simp [View.granted, returned])

/-- No callback has to do with a wait that has not begun. -/
theorem Local.idle_of_fresh {k : Kind} (loc : Local k v) (fresh : v.suspend = .fresh) :
    v.reqPc = .idle ∧ v.tmoPc = .idle := by
  constructor
  · by_contra req
    exact absurd (fresh.symm.trans (loc.req req)) (by decide)
  · by_contra tmo
    rcases (loc.tmo tmo).2 with posted | done
    · exact absurd (fresh.symm.trans posted) (by decide)
    · exact absurd (fresh.symm.trans done) (by decide)

/-- A wait that has not begun has taken none. -/
theorem Local.not_taken_of_fresh (loc : Local .forever v) (fresh : v.suspend = .fresh)
    (idle : v.life = .waiting) : v.taken = 0 := by
  have queue : v.queue = false := by
    by_contra queue
    exact absurd (fresh.symm.trans (loc.queue (by simpa using queue)).1) (by decide)
  have req : v.reqPc = .idle := (loc.idle_of_fresh fresh).1
  rw [loc.token (by decide), if_neg]
  simp [View.granted, idle, queue, req]

/-- A request in the list has none yet. -/
theorem Local.not_taken_of_list (loc : Local .forever v) (list : v.list = true) : v.taken = 0 := by
  obtain ⟨done, queue, req⟩ := loc.list list
  rw [loc.token (by decide), if_neg]
  simp [View.granted, done, queue, req]

end

/-! ## The system -/

variable {A : Type*} [DecidableEq A] {kind : A → Kind} {s t : State A} {act : Action A} {a : A}

/-- The wait has not begun. -/
def Wait.Fresh (w : Wait) : Prop := w.suspend = .fresh ∧ w.life = .waiting

theorem setWait_wait (s : State A) (a b : A) (w : Wait) :
    (s.setWait a w).wait b = if b = a then w else s.wait b := by
  simp only [State.setWait, Function.update_apply]

omit [DecidableEq A] in
theorem tryAcquire_frame : (tryAcquire s a).1.wait = s.wait ∧
    (tryAcquire s a).1.incs = s.incs ∧ (tryAcquire s a).1.maxVal = s.maxVal := by
  unfold tryAcquire
  split <;> exact ⟨rfl, rfl, rfl⟩

theorem cancelTimeout_frame {fuel : Nat} (run : cancelTimeout s a fuel = some t) :
    t.wait = s.wait ∧ t.incs = s.incs ∧ t.maxVal = s.maxVal := by
  obtain ⟨u, -, rfl⟩ := Option.map_eq_some_iff.mp run
  exact ⟨rfl, rfl, rfl⟩

theorem foldl_chkReq_fresh {l : List A} (fresh : (s.wait a).Fresh) :
    ((l.foldl chkReq s).wait a).Fresh := by
  induction l generalizing s with
  | nil => exact fresh
  | cons b l ih =>
      refine ih ?_
      unfold chkReq
      split
      · exact fresh
      · split
        · by_cases own : a = b
          · subst own
            simpa [Wait.Fresh] using fresh
          · simpa [Wait.Fresh, Function.update_of_ne own] using fresh
        · exact fresh

/-- Nothing but its own `await_ready` begins a wait. -/
theorem begun_by (loc : Local (kind a) (view s a)) (run : step kind s act = some t)
    (fresh : (s.wait a).Fresh) : act = .awaitReady a ∨ (t.wait a).Fresh := by
  obtain ⟨suspend, life⟩ := fresh
  obtain ⟨req, tmo⟩ : (s.wait a).reqPc = .idle ∧ (s.wait a).tmoPc = .idle :=
    loc.idle_of_fresh suspend
  -- a step of another wait
  have others : ∀ {b : A} {u : State A} {w : Wait}, b ≠ a → u.wait = s.wait →
      ((u.setWait b w).wait a).Fresh := by
    intro b u w other same
    rw [setWait_wait, if_neg other.symm, same]
    exact ⟨suspend, life⟩
  cases act <;> simp only [step] at run
  case awaitReady b =>
    by_cases own : b = a
    · exact .inl (by rw [own])
    · right
      obtain ⟨-, run⟩ := Option.ite_none_right_eq_some.mp run
      have same : (tryAcquire s b).1.wait = s.wait := tryAcquire_frame.1
      split at run
      · cases run
        exact others own rfl
      · split at run <;> rename_i got <;> cases run <;> rw [got] at same <;> exact others own same
  all_goals right
  case release =>
    cases run
    unfold release
    split <;> exact ⟨suspend, life⟩
  case tickUpdate =>
    cases run
    exact ⟨suspend, life⟩
  case releasePost | tickPost | semEmpty =>
    obtain ⟨-, run⟩ := Option.ite_none_right_eq_some.mp run
    cases run
    exact ⟨suspend, life⟩
  case workOnce =>
    split at run <;> cases run
    rename_i n rest _
    cases n with
    | sem | timer => exact ⟨suspend, life⟩
    | req b | tmo b =>
        rw [dispatch, setWait_wait]
        split
        · next own =>
            subst own
            exact ⟨suspend, life⟩
        · exact ⟨suspend, life⟩
  case semChkCb =>
    obtain ⟨-, run⟩ := Option.ite_none_right_eq_some.mp run
    cases run
    exact foldl_chkReq_fresh (s := { s with semPassed := s.semPassed - 1 }) ⟨suspend, life⟩
  case timChkCb =>
    obtain ⟨-, run⟩ := Option.ite_none_right_eq_some.mp run
    obtain ⟨r, -, rfl⟩ := Option.map_eq_some_iff.mp run
    exact ⟨suspend, life⟩
  case store b | reqExchange b | reqResume b | tmoExchange b | tmoMark b | tmoResume b |
      postDelayed b _ =>
    obtain ⟨guard, run⟩ := Option.ite_none_right_eq_some.mp run
    have other : b ≠ a := by
      rintro rfl
      grind
    (repeat' split at run) <;> cases run <;> exact others other rfl
  case acquire b =>
    obtain ⟨guard, run⟩ := Option.ite_none_right_eq_some.mp run
    have other : b ≠ a := by
      rintro rfl
      grind
    cases run
    refine others other ?_
    unfold Semaphore.acquire
    split <;> rfl
  case cancelWaiter b =>
    obtain ⟨guard, run⟩ := Option.ite_none_right_eq_some.mp run
    have other : b ≠ a := by
      rintro rfl
      grind
    cases run
    simp only [Wait.Fresh, Semaphore.cancelWaiter, Function.update_of_ne other.symm, setWait_wait,
      if_neg other.symm]
    exact ⟨suspend, life⟩
  case reqCancel b fuel =>
    obtain ⟨guard, run⟩ := Option.ite_none_right_eq_some.mp run
    have other : b ≠ a := by
      rintro rfl
      grind
    rw [(cancelTimeout_frame run).1]
    exact others other rfl
  case awaitResume b =>
    obtain ⟨guard, run⟩ := Option.ite_none_right_eq_some.mp run
    have other : b ≠ a := by
      rintro rfl
      grind
    split at run <;> cases run
    · exact others other tryAcquire_frame.1
    · exact others other rfl
  case destroy b fuel =>
    obtain ⟨guard, run⟩ := Option.ite_none_right_eq_some.mp run
    have other : b ≠ a := by
      rintro rfl
      grind
    split at run
    · rw [(cancelTimeout_frame run).1]
      exact others other rfl
    · cases run
      exact others other rfl

theorem Forever.of_via {v₀ : Int} {ok : State A → Action A → Prop}
    (run : (semaphore (fun _ => .forever) v₀).Via ok s) (a : A) : Forever (view s a) := by
  have kept : ∀ {k : Kind} {v v' : View} {e : Event}, (k = .forever → Forever v) → Local k v →
      True → v.step k e = some v' → k = .forever → Forever v' := by
    intro k v v' e h loc _ step same
    subst same
    exact (h rfl).step loc step
  exact via_views (I := fun k v => k = .forever → Forever v) (fun fresh _ => .init fresh) kept
    (fun _ _ => trivial) run a rfl

/-- Only `release` adds tokens, and nothing changes their limit. -/
theorem incs_step (run : step kind s act = some t) (other : act ≠ .release) :
    t.incs = s.incs ∧ t.maxVal = s.maxVal := by
  cases act <;> simp only [step] at run
  case release => exact (other rfl).elim
  case tickUpdate =>
    cases run
    exact ⟨rfl, rfl⟩
  case workOnce =>
    split at run <;> cases run
    rename_i n rest _
    cases n <;> exact ⟨rfl, rfl⟩
  case semChkCb =>
    obtain ⟨-, run⟩ := Option.ite_none_right_eq_some.mp run
    cases run
    exact foldl_chkReq_frame (s := { s with semPassed := s.semPassed - 1 })
  case timChkCb =>
    obtain ⟨-, run⟩ := Option.ite_none_right_eq_some.mp run
    obtain ⟨r, -, rfl⟩ := Option.map_eq_some_iff.mp run
    exact ⟨rfl, rfl⟩
  case awaitReady b =>
    obtain ⟨-, run⟩ := Option.ite_none_right_eq_some.mp run
    have kept := (tryAcquire_frame (s := s) (a := b)).2
    split at run
    · cases run
      exact ⟨rfl, rfl⟩
    · split at run <;> rename_i got <;> cases run <;> rw [got] at kept <;> exact kept
  case acquire b =>
    obtain ⟨-, run⟩ := Option.ite_none_right_eq_some.mp run
    cases run
    simp only [acquire, State.setWait]
    split <;> exact ⟨rfl, rfl⟩
  case postDelayed b now =>
    obtain ⟨-, run⟩ := Option.ite_none_right_eq_some.mp run
    (repeat' split at run) <;> cases run <;> exact ⟨rfl, rfl⟩
  case awaitResume b =>
    obtain ⟨-, run⟩ := Option.ite_none_right_eq_some.mp run
    split at run <;> cases run
    · exact tryAcquire_frame.2
    · exact ⟨rfl, rfl⟩
  case reqCancel b fuel =>
    obtain ⟨-, run⟩ := Option.ite_none_right_eq_some.mp run
    exact (cancelTimeout_frame (s := s.setWait b _) run).2
  case destroy b fuel =>
    obtain ⟨-, run⟩ := Option.ite_none_right_eq_some.mp run
    split at run
    · exact (cancelTimeout_frame (s := s.setWait b _) run).2
    · cases run
      exact ⟨rfl, rfl⟩
  all_goals
    obtain ⟨-, run⟩ := Option.ite_none_right_eq_some.mp run
    (repeat' split at run) <;> cases run <;> exact ⟨rfl, rfl⟩

/-! ## Checks under way -/

/-- The value is not negative, and a request that could be served has a check under way: the
semaphore's node is queued, a worker is before or inside `sem_chk_cb`, or a `release` has yet to
`post`. -/
structure Awake (s : State A) : Prop where
  low : 0 ≤ s.curVal
  woken : s.acquireList ≠ [] → 0 < s.curVal →
    .sem ∈ s.wsHead ∨ 0 < s.semPopped ∨ 0 < s.semPassed ∨ 0 < s.releasing

omit [DecidableEq A] in
theorem Awake.same (h : Awake s) (cur : t.curVal = s.curVal)
    (list : t.acquireList = [] ∨ t.acquireList = s.acquireList) (head : t.wsHead = s.wsHead)
    (popped : t.semPopped = s.semPopped) (passed : t.semPassed = s.semPassed)
    (releasing : t.releasing = s.releasing) : Awake t := by
  refine ⟨cur ▸ h.low, fun waits token => ?_⟩
  rw [head, popped, passed, releasing]
  rcases list with empty | list
  · exact (waits empty).elim
  · exact h.woken (list ▸ waits) (cur ▸ token)

omit [DecidableEq A] in
theorem Awake.tryAcquire (h : Awake s) : Awake (tryAcquire s a).1 := by
  unfold Semaphore.tryAcquire
  split
  · next token => exact ⟨Int.sub_nonneg_of_le token, fun waits _ => h.woken waits token⟩
  · exact h

omit [DecidableEq A] in
theorem Awake.release (h : Awake s) : Awake (release s) := by
  unfold Semaphore.release
  split
  · refine ⟨Int.le_add_one h.low, fun waits _ => .inr (.inr (.inr ?_))⟩
    simp only at waits ⊢
    rw [if_neg waits]
    exact Nat.succ_pos _
  · exact h

theorem Awake.acquire (h : Awake s) : Awake (acquire s a) := by
  unfold Semaphore.acquire
  split
  · next token =>
      refine ⟨Int.sub_nonneg_of_le token, fun waits _ => ?_⟩
      rcases h.woken waits token with queued | later
      · exact .inl (mem_addNewNolock.mpr (.inl queued))
      · exact .inr later
  · next none => exact ⟨h.low, fun _ token => (none token).elim⟩

theorem Awake.cancelWaiter (h : Awake s) : Awake (cancelWaiter s a) := by
  refine ⟨h.low, fun waits token => h.woken (fun empty => waits ?_) token⟩
  simp [Semaphore.cancelWaiter, empty]

theorem Awake.workOnce {n : Node A} {rest : List (Node A)} (h : Awake s)
    (first : s.wsHead = n :: rest) : Awake (dispatch { s with wsHead := rest } n) := by
  have woken := h.woken
  rw [first] at woken
  cases n with
  | sem => exact ⟨h.low, fun _ _ => .inr (.inl (Nat.succ_pos _))⟩
  | timer => exact ⟨h.low, by simpa [dispatch] using woken⟩
  | req b => exact ⟨h.low, by simpa [dispatch, State.setWait] using woken⟩
  | tmo b => exact ⟨h.low, by simpa [dispatch, State.setWait] using woken⟩

/-- A check leaves no request that could be served. -/
theorem Awake.semChkCb (low : 0 ≤ s.curVal) (nodup : s.acquireList.Nodup)
    (out : ∀ a ∈ s.acquireList, .req a ∉ s.wsHead) : Awake (semChkCb s) := by
  obtain ⟨list, -, -, cur⟩ := semChkCb_spec nodup out
  have size := List.length_take (i := s.curVal.toNat) (l := s.live)
  rw [granted_eq_live] at cur
  refine ⟨by omega, fun waits token => ?_⟩
  rw [list] at waits
  have longer : s.curVal.toNat < s.live.length := by
    by_contra short
    exact waits (List.drop_eq_nil_of_le (by omega))
  omega

omit [DecidableEq A] in
theorem Awake.setWait [DecidableEq A] {w : Wait} (h : Awake s) : Awake (s.setWait a w) :=
  h.same rfl (.inr rfl) rfl rfl rfl rfl

theorem Awake.cancelTimeout {fuel : Nat} (h : Awake s)
    (run : cancelTimeout s a fuel = some t) : Awake t := by
  obtain ⟨u, call, rfl⟩ := Option.map_eq_some_iff.mp run
  exact h.same rfl (.inr rfl) (Timer.cancel_frame call).1 rfl rfl rfl

theorem Awake.step (h : Awake s) (q : Queues s) (loc : ∀ a, Local (kind a) (view s a))
    (run : step kind s act = some t) (other : act.clock = false) : Awake t := by
  cases act <;> simp only [Semaphore.step] at run
  case tickUpdate | tickPost | timChkCb => cases other
  case release =>
    cases run
    exact h.release
  case workOnce =>
    split at run <;> cases run
    exact h.workOnce ‹_›
  case releasePost =>
    obtain ⟨-, run⟩ := Option.ite_none_right_eq_some.mp run
    cases run
    exact ⟨h.low, fun _ _ => .inl (mem_addNewNolock.mpr (.inr rfl))⟩
  case semEmpty =>
    obtain ⟨-, run⟩ := Option.ite_none_right_eq_some.mp run
    cases run
    refine ⟨h.low, fun waits _ => .inr (.inr (.inl ?_))⟩
    simp only at waits ⊢
    rw [if_neg waits]
    exact Nat.succ_pos _
  case semChkCb =>
    obtain ⟨-, run⟩ := Option.ite_none_right_eq_some.mp run
    cases run
    have out : ∀ a ∈ s.acquireList, .req a ∉ s.wsHead := by
      intro a mem queued
      have apart := ((loc a).list (view_list.mpr mem)).2.1
      rw [view_queue.mpr queued] at apart
      cases apart
    exact Awake.semChkCb (s := { s with semPassed := s.semPassed - 1 }) h.low q.acquireList out
  case awaitReady b =>
    obtain ⟨-, run⟩ := Option.ite_none_right_eq_some.mp run
    split at run
    · cases run
      exact h.setWait
    · have tried : Awake (Semaphore.tryAcquire s b).1 := h.tryAcquire
      split at run <;> rename_i got <;> cases run <;> rw [got] at tried <;> exact tried.setWait
  case acquire b =>
    obtain ⟨-, run⟩ := Option.ite_none_right_eq_some.mp run
    cases run
    exact h.acquire.setWait
  case postDelayed b now =>
    obtain ⟨-, run⟩ := Option.ite_none_right_eq_some.mp run
    split at run
    · split at run <;> cases run <;> exact h.same rfl (.inr rfl) rfl rfl rfl rfl
    · cases run
      exact h.setWait
  case cancelWaiter b =>
    obtain ⟨-, run⟩ := Option.ite_none_right_eq_some.mp run
    cases run
    exact Awake.cancelWaiter (s := s.setWait b _) h.setWait
  case reqCancel b fuel =>
    obtain ⟨-, run⟩ := Option.ite_none_right_eq_some.mp run
    exact Awake.cancelTimeout (s := s.setWait b _) h.setWait run
  case awaitResume b =>
    obtain ⟨-, run⟩ := Option.ite_none_right_eq_some.mp run
    split at run <;> cases run
    · exact h.tryAcquire.setWait
    · exact h.setWait
  case destroy b fuel =>
    obtain ⟨-, run⟩ := Option.ite_none_right_eq_some.mp run
    split at run
    · exact Awake.cancelTimeout (s := s.setWait b _) h.setWait run
    · cases run
      exact h.setWait
  all_goals
    obtain ⟨-, run⟩ := Option.ite_none_right_eq_some.mp run
    (repeat' split at run) <;> cases run <;> exact h.setWait

/-! ## A wait goes on -/

/-- `cancel` of a `TimeoutNode` that was never posted. -/
theorem cancelTimeout_unposted (none : (view s a).heap = false) (w : Wait) :
    (cancelTimeout (s.setWait a w) a 0).isSome = true := by
  have owner : s.mem.ownerQueue (.tmo a) ≠ some () := of_decide_eq_false none
  simp [cancelTimeout, Timer.cancel, State.setWait, owner]

/-- A wait without a timer goes on until it has to wait for a token: then it is in `acquire_list`
and there is none. -/
theorem goes_on (loc : Local .forever (view s a)) (h : Forever (view s a))
    (awake : Awake s) (alive : (s.wait a).life ≠ .destroyed) :
    (a ∈ s.acquireList ∧ s.curVal = 0) ∨
    ∃ act : Action A, act.Onward a ∧ (step (fun _ => .forever) s act).isSome = true := by
  have queued : ∀ n, n ∈ s.wsHead → (step (fun _ => .forever) s .workOnce).isSome = true := by
    intro n inside
    obtain ⟨first, rest, head⟩ := List.exists_cons_of_ne_nil (List.ne_nil_of_mem inside)
    simp [step, head]
  have heap := loc.no_timer.1
  cases life : (s.wait a).life with
  | destroyed => exact (alive life).elim
  | resumed =>
      cases result : (s.wait a).result with
      | none => exact .inr ⟨.awaitResume a, trivial, by simp [step, life, result, Kind.forever]⟩
      | some b =>
          refine .inr ⟨.destroy a 0, trivial, ?_⟩
          simp only [step, life, result]
          exact cancelTimeout_unposted heap _
  | waiting =>
      cases suspend : (s.wait a).suspend with
      | fresh =>
          refine .inr ⟨.awaitReady a, rfl, ?_⟩
          simp only [step, suspend, life]
          rw [if_pos ⟨trivial, trivial⟩, if_neg (by decide)]
          split <;> rfl
      | suspending =>
          exact .inr ⟨.store a, trivial, by simp [step, suspend]⟩
      | stored =>
          exact .inr ⟨.postDelayed a 0, trivial, by simp [step, suspend, Kind.forever]⟩
      | posted =>
          exact .inr ⟨.acquire a, trivial, by simp [step, suspend]⟩
      | done =>
          cases req : (s.wait a).reqPc with
          | idle =>
              rcases loc.pending suspend req h.cancelled with list | queue
              · rcases awake.low.lt_or_eq with token | none
                · have waits := List.ne_nil_of_mem (view_list.mp list)
                  rcases awake.woken waits token with sem | popped | passed | releasing
                  · exact .inr ⟨.workOnce, trivial, queued _ sem⟩
                  · exact .inr ⟨.semEmpty, trivial, by simp [step, popped]⟩
                  · exact .inr ⟨.semChkCb, trivial, by simp [step, passed]⟩
                  · exact .inr ⟨.releasePost, trivial, by simp [step, releasing]⟩
                · exact .inl ⟨view_list.mp list, none.symm⟩
              · exact .inr ⟨.workOnce, trivial, queued _ (view_queue.mp queue)⟩
          | popped =>
              refine .inr ⟨.reqExchange a, trivial, ?_⟩
              simp only [step, req]
              rw [if_pos ⟨rfl, trivial⟩]
              split <;> rfl
          | won =>
              refine .inr ⟨.reqCancel a 0, trivial, ?_⟩
              simp only [step, req]
              exact cancelTimeout_unposted heap _
          | cancelled =>
              exact .inr ⟨.reqResume a, trivial, by simp [step, req, Kind.forever, Kind.timed]⟩
          | marked => exact (h.marked req).elim
          | returned => exact (h.returned req life).elim

end CoWq.Semaphore
