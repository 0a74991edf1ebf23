import CoWq.Sync.SemaphoreWaits

/-!
# What a wait leaves behind

A request that is granted and a `TimeoutNode` that has expired may wait in the executor's
queue at the same time; `armed` lets only one of them resume the coroutine, but the other
one is still linked, and the awaiter is gone.

* `Separate`: steps that keep grant and expiry of each wait apart.
* `unlinked_of_separate`: then the wait leaves nothing behind.
* `dangling_timeout`: otherwise a destroyed awaiter's `TimeoutNode` is still queued, and run.
-/

namespace CoWq.Semaphore

open LinkedHeap

variable {A : Type*} [DecidableEq A] {kind : A → Kind} {v₀ : Int} {s t : State A}

/-- A request is granted only while its `TimeoutNode` is neither queued nor in a
worker's hands, a `TimeoutNode` expires only while its request is neither, and `on_timer`
wins only when `await_suspend` is through. -/
def Separate (s : State A) : Action A → Prop
  | .semChkCb => ∀ a ∈ s.granted, (view s a).tmoOut = false
  | .acquire a => 0 < s.curVal → (view s a).tmoOut = false
  | .timChkCb now _ => ∀ a, s.mem.ownerQueue (.tmo a) = some () →
      s.mem.expire (.tmo a) ≤ now → (view s a).reqOut = false
  | .tmoExchange a => (s.wait a).armed = true → (s.wait a).suspend = .done
  | _ => True

/-- Neither node of `a` is in the executor's queue, in `acquire_list` or in the heap
below `heap_root`, and no worker is inside the callback of one of them. -/
structure Unlinked (s : State A) (a : A) : Prop where
  wsHead : .req a ∉ s.wsHead ∧ .tmo a ∉ s.wsHead
  acquireList : a ∉ s.acquireList
  heap : ∃ h, Timer.Stored s.mem.links h s.heapRoot ∧ .req a ∉ nodes h ∧ .tmo a ∉ nodes h
  reqPc : (s.wait a).reqPc = .idle ∨ (s.wait a).reqPc = .returned
  tmoPc : (s.wait a).tmoPc = .idle ∨ (s.wait a).tmoPc = .returned

theorem unlinked_of_gone {a : A} (q : Queues s) (gone : (view s a).Gone) : Unlinked s a := by
  obtain ⟨list, queue, due, heap, req, tmo, -⟩ := gone
  obtain ⟨h, inv⟩ := q.heap
  refine ⟨⟨of_decide_eq_false queue, of_decide_eq_false due⟩, of_decide_eq_false list,
    ⟨h, inv.stored, ?_, ?_⟩, req, tmo⟩
  · intro mem
    obtain ⟨b, wrong⟩ := q.owned _ ((inv.owned _).mpr mem)
    cases wrong
  · intro mem
    exact of_decide_eq_false heap ((inv.owned _).mpr mem)

theorem Tidy.init {k : Kind} {w : Wait} (fresh : w.Init) :
    Tidy k ⟨w, false, false, false, false, 0⟩ := by
  obtain ⟨suspend, reqPc, tmoPc, life, -⟩ := fresh
  constructor <;> simp [View.reqOut, View.tmoOut, suspend, reqPc, tmoPc, life]

theorem Separate.view {act : Action A} {a : A} {e : Event} (separate : Separate s act)
    (cause : act.Causes s a e) : (view s a).Separate e := by
  cases e with
  | grant =>
      obtain ⟨rfl, granted⟩ := cause
      exact separate a granted
  | acquired =>
      obtain ⟨rfl, token⟩ := cause
      exact separate token
  | expire =>
      obtain ⟨now, fuel, rfl, own, due⟩ := cause
      exact separate a own due
  | tmoExchange =>
      cases cause
      exact separate
  | _ => exact trivial

theorem gone_of_separate {a : A} (run : (semaphore kind v₀).Via Separate s)
    (resumed : (s.wait a).life ≠ .waiting) : (view s a).Gone := by
  have tidy := via_views (I := Tidy) (fun fresh => .init fresh)
    (fun tidy loc guard step => tidy.step loc guard step) Separate.view run a
  exact tidy.ended resumed

/-- A wait that is over and left nothing takes only the last steps of the coroutine. -/
theorem View.Gone.quiet {k : Kind} {v v' : View} {e : Event} (gone : v.Gone)
    (resumed : v.life ≠ .waiting) (run : v.step k e = some v') :
    v'.life ≠ .waiting ∧ v'.reqPc = v.reqPc ∧ v'.tmoPc = v.tmoPc := by
  unfold View.Gone at gone
  cases e <;>
    simp only [View.step, Option.ite_none_right_eq_some, Option.some.injEq] at run <;>
    obtain ⟨guard, run⟩ := run <;> grind -linarith

/-- **A wait leaves nothing behind as long as its grant and its expiry are kept apart**:
once the coroutine has been resumed, whether the awaiter is destroyed yet or not, its two
nodes are in no container, now and after any later steps, and none of these runs one of
them. -/
theorem unlinked_of_separate (run : (semaphore kind v₀).Via Separate s) (a : A)
    (resumed : (s.wait a).life ≠ .waiting) (later : (semaphore kind v₀).Leads Separate s t) :
    Unlinked t a ∧ (t.wait a).life ≠ .waiting ∧ (t.wait a).reqPc = (s.wait a).reqPc ∧
      (t.wait a).tmoPc = (s.wait a).tmoPc := by
  have kept : (t.wait a).life ≠ .waiting ∧ (t.wait a).reqPc = (s.wait a).reqPc ∧
      (t.wait a).tmoPc = (s.wait a).tmoPc := by
    induction later with
    | refl => exact ⟨resumed, rfl, rfl⟩
    | @tail t u before step ih =>
        obtain ⟨act, -, step⟩ := step
        obtain ⟨still, req, tmo⟩ := ih
        have via := run.leads before
        obtain ⟨q, loc⟩ := via_local via
        rcases (step_spec q loc step).2 a with same | ⟨e, -, event⟩
        · have wait : u.wait a = t.wait a := congrArg View.toWait same
          rw [wait]
          exact ⟨still, req, tmo⟩
        · obtain ⟨still', req', tmo'⟩ := (gone_of_separate via still).quiet still event
          exact ⟨still', req'.trans req, tmo'.trans tmo⟩
  have via := run.leads later
  exact ⟨unlinked_of_gone (via_local via).1 (gone_of_separate via kept.1), kept⟩

/-! ## Runs -/

instance [Fintype A] (s : State A) (act : Action A) : Decidable (Separate s act) :=
  match act with
  | .semChkCb => inferInstanceAs (Decidable (∀ a ∈ s.granted, (view s a).tmoOut = false))
  | .acquire a => inferInstanceAs (Decidable (0 < s.curVal → (view s a).tmoOut = false))
  | .timChkCb now _ => inferInstanceAs (Decidable (∀ a, s.mem.ownerQueue (.tmo a) = some () →
      s.mem.expire (.tmo a) ≤ now → (view s a).reqOut = false))
  | .tmoExchange a =>
      inferInstanceAs (Decidable ((s.wait a).armed = true → (s.wait a).suspend = .done))
  | .release => .isTrue trivial
  | .releasePost => .isTrue trivial
  | .tickUpdate => .isTrue trivial
  | .tickPost => .isTrue trivial
  | .workOnce => .isTrue trivial
  | .semEmpty => .isTrue trivial
  | .awaitReady _ => .isTrue trivial
  | .store _ => .isTrue trivial
  | .postDelayed _ _ => .isTrue trivial
  | .reqExchange _ => .isTrue trivial
  | .reqCancel _ _ => .isTrue trivial
  | .reqResume _ => .isTrue trivial
  | .cancelWaiter _ => .isTrue trivial
  | .tmoMark _ => .isTrue trivial
  | .tmoResume _ => .isTrue trivial
  | .awaitResume _ => .isTrue trivial
  | .destroy _ _ => .isTrue trivial

/-- No token, room for one, and whatever `req_sta` happens to be. -/
def start (sta : Int) : State A where
  mem := ⟨fun _ => ⟨none, none, none⟩, fun _ => 0, fun _ => true, fun _ => none⟩
  heapRoot := none
  wsHead := []
  curVal := 0
  maxVal := 1
  acquireList := []
  releasing := 0
  semPopped := 0
  semPassed := 0
  timPopped := 0
  ticking := 0
  wait _ := ⟨.fresh, .idle, .idle, .waiting, false, false, false, sta, none⟩
  taken := []
  incs := 0

theorem start_init (kind : A → Kind) (sta : Int) : (semaphore kind 0).init (start sta) := by
  constructor <;> intros <;> first | rfl | exact ⟨rfl, rfl, rfl, rfl, rfl, rfl, rfl, rfl⟩

/-- `await_suspend` with both nodes linked. -/
def suspended : List (Action Unit) :=
  [.awaitReady (), .store (), .postDelayed () 0, .acquire ()]

/-- A wait that times out. -/
def timedOut : List (Action Unit) :=
  suspended ++ ([.tickUpdate, .tickPost, .workOnce, .timChkCb 10000000 3, .workOnce,
    .tmoExchange (), .cancelWaiter (), .tmoMark (), .tmoResume ()] : List (Action Unit))

theorem unlinked_of_separate_timedOut : ∃ s t,
    (semaphore (fun _ => .waitSemFor 5) 0).execOk Separate (start reqOk) timedOut = some s ∧
    (semaphore (fun _ => .waitSemFor 5) 0).execOk Separate s
      [.awaitResume (), .destroy () 1, .release] = some t ∧
    (t.wait ()).life = .destroyed ∧ Unlinked t () := by
  obtain ⟨s, t, run, later, destroyed, resumed⟩ : ∃ s t,
      (semaphore (fun _ => .waitSemFor 5) 0).execOk Separate (start reqOk) timedOut = some s ∧
      (semaphore (fun _ => .waitSemFor 5) 0).execOk Separate s
        [.awaitResume (), .destroy () 1, .release] = some t ∧
      (t.wait ()).life = .destroyed ∧ (s.wait ()).life ≠ .waiting :=
    ⟨_, _, rfl, rfl, rfl, by decide⟩
  exact ⟨s, t, run, later, destroyed,
    (unlinked_of_separate (.execOk (.init (start_init _ _)) run) () resumed
      (Machine.leads_of_execOk later)).left⟩

/-- The request is granted, then the `TimeoutNode` expires behind it in the queue: the
awaiter is destroyed with its `TimeoutNode` linked, and a worker runs `on_timer` on it. -/
theorem dangling_timeout : ∃ s t : State Unit,
    (semaphore (fun _ => .waitSemFor 5) 0).Reachable s ∧ (s.wait ()).life = .destroyed ∧
      ¬ Unlinked s () ∧ step (fun _ => .waitSemFor 5) s .workOnce = some t ∧
      (t.wait ()).tmoPc = .popped := by
  obtain ⟨s, t, run, destroyed, linked, later, popped⟩ : ∃ s t,
      (semaphore (fun _ => .waitSemFor 5) 0).exec (start reqOk) (suspended ++
        ([.release, .releasePost, .tickUpdate, .tickPost, .workOnce, .semEmpty, .semChkCb,
          .workOnce, .timChkCb 10000000 3, .workOnce, .reqExchange (), .reqCancel () 1,
          .reqResume (), .awaitResume (), .destroy () 1] : List (Action Unit))) = some s ∧
      (s.wait ()).life = .destroyed ∧ .tmo () ∈ s.wsHead ∧
      step (fun _ => .waitSemFor 5) s .workOnce = some t ∧ (t.wait ()).tmoPc = .popped :=
    ⟨_, _, rfl, rfl, by decide, rfl, rfl⟩
  exact ⟨s, t, .exec (.init (start_init _ _)) run, destroyed,
    fun unlinked => unlinked.wsHead.2 linked, later, popped⟩

end CoWq.Semaphore
