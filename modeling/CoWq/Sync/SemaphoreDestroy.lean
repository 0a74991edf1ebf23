import CoWq.Sync.SemaphoreSections

/-!
# The end of a semaphore

`~Semaphore` fails the requests that still wait; its own worknode may be in the executor's queue.

* `failReq`, `destroySemaphore`: the destructor, over the state of the sections.
* `Finished`: what it is to leave behind.
* `checkPending`: along a run, whether the last post of the worknode has been followed by a
  `work_once` that took it.
* `finished_iff`: at a time when no operation is under way the destructor leaves that behind if
  and only if no check is pending.
-/

namespace CoWq.Semaphore

open Workqueue

/-- `REQ_FAIL` -/
def reqFail : Int := 1

section Destructor

variable {A : Type*} [DecidableEq A]

/-- One round of the loop of `~Semaphore`. -/
def failReq (s : State A) (a : A) : State A :=
  { s with
    acquireList := s.acquireList.erase a
    wait := Function.update s.wait a { s.wait a with reqSta := reqFail }
    wsHead := addNewNolock s.wsHead (.req a) }

/-- `~Semaphore` -/
def destroySemaphore (s : State A) : State A :=
  if s.acquireList = [] then s else s.acquireList.foldl failReq s

/-- The nodes that `work_once` takes from the queue later; `none` is a call of it, `some n` the
post of a node. -/
def laterPops : List (Node A) → List (Option (Node A)) → List (Node A)
  | _, [] => []
  | wsHead, some n :: ops => laterPops (addNewNolock wsHead n) ops
  | [], none :: ops => laterPops [] ops
  | n :: rest, none :: ops => n :: laterPops rest ops

omit [DecidableEq A] in
/-- No operation on the semaphore is under way. -/
def Idle (s : State A) : Prop := s.releasing = 0 ∧ s.semPopped = 0 ∧ s.semPassed = 0

/-- What is left behind in `t` of a semaphore that ends in `s`. -/
structure Finished (s t : State A) : Prop where
  unlinked : .sem ∉ t.wsHead
  failed : ∀ a ∈ s.acquireList, t.wsHead.count (.req a) = 1 ∧ (t.wait a).reqSta = reqFail
  empty : t.acquireList = []
  /-- no worker is inside its callback, and no later `work_once` runs it: nobody posts the
  worknode but the calls of `release` that are under way -/
  returned : t.semPopped = 0 ∧ t.semPassed = 0
  quiet : ∀ ops : List (Option (Node A)), ops.count (some .sem) ≤ s.releasing →
    .sem ∉ laterPops t.wsHead ops

variable {s : State A}

theorem laterPops_subset {x : Node A} : ∀ {ops : List (Option (Node A))} {wsHead : List (Node A)},
    x ∈ laterPops wsHead ops → x ∈ wsHead ∨ some x ∈ ops
  | some n :: ops, wsHead, popped => by
      rcases laterPops_subset (show x ∈ laterPops (addNewNolock wsHead n) ops from popped) with
        queued | posted
      · rcases mem_addNewNolock.mp queued with queued | rfl
        · exact .inl queued
        · exact .inr List.mem_cons_self
      · exact .inr (List.mem_cons_of_mem _ posted)
  | none :: ops, [], popped => by
      rcases laterPops_subset (show x ∈ laterPops [] ops from popped) with queued | posted
      · exact .inl queued
      · exact .inr (List.mem_cons_of_mem _ posted)
  | none :: ops, n :: rest, popped => by
      rcases List.mem_cons.mp (show x ∈ n :: laterPops rest ops from popped) with rfl | popped
      · exact .inl List.mem_cons_self
      · rcases laterPops_subset popped with queued | posted
        · exact .inl (List.mem_cons_of_mem _ queued)
        · exact .inr (List.mem_cons_of_mem _ posted)

/-- The loop over the requests `l`. -/
theorem foldl_failReq : ∀ {l : List A} {s : State A}, s.acquireList = l → l.Nodup →
    (∀ a ∈ l, .req a ∉ s.wsHead) →
    (l.foldl failReq s).acquireList = [] ∧
      (l.foldl failReq s).wsHead = s.wsHead ++ l.map .req ∧
      (∀ a ∈ l, ((l.foldl failReq s).wait a).reqSta = reqFail) ∧
      ∀ a, a ∉ l → (l.foldl failReq s).wait a = s.wait a
  | [], s, same, _, _ => by
      refine ⟨same, ?_, ?_, ?_⟩
      · simp
      · simp
      · exact fun _ _ => rfl
  | a :: l, s, same, nodup, out => by
      obtain ⟨fresh, nodup⟩ := List.nodup_cons.mp nodup
      have queue : (failReq s a).wsHead = s.wsHead ++ [.req a] := by
        simp [failReq, addNewNolock, List.erase_of_not_mem (out a List.mem_cons_self)]
      have out' : ∀ b ∈ l, .req b ∉ (failReq s a).wsHead := by
        intro b mem
        rw [queue, List.mem_append, List.mem_singleton, not_or]
        exact ⟨out b (List.mem_cons_of_mem _ mem), fun e => fresh (Node.req.inj e ▸ mem)⟩
      have rest : (failReq s a).acquireList = l := by simp [failReq, same]
      obtain ⟨empty, wsHead, failed, others⟩ := foldl_failReq rest nodup out'
      rw [List.foldl_cons]
      refine ⟨empty, ?_, ?_, ?_⟩
      · rw [wsHead, queue, List.map_cons, List.append_assoc, List.singleton_append]
      · intro b mem
        rcases List.mem_cons.mp mem with rfl | mem
        · rw [others b fresh]
          simp [failReq]
        · exact failed b mem
      · intro b away
        rw [List.mem_cons, not_or] at away
        obtain ⟨other, away⟩ := away
        rw [others b away]
        exact Function.update_of_ne other _ _

theorem foldl_failReq_frame {l : List A} :
    (l.foldl failReq s).semPopped = s.semPopped ∧ (l.foldl failReq s).semPassed = s.semPassed := by
  induction l generalizing s with
  | nil => exact ⟨rfl, rfl⟩
  | cons a l ih => exact ih

theorem destroySemaphore_frame :
    (destroySemaphore s).semPopped = s.semPopped ∧
      (destroySemaphore s).semPassed = s.semPassed := by
  unfold destroySemaphore
  split_ifs
  · exact ⟨rfl, rfl⟩
  · exact foldl_failReq_frame

/-- The destructor fails every waiting request, and leaves the rest of the queue alone. -/
theorem destroySemaphore_spec (nodup : s.acquireList.Nodup)
    (out : ∀ a ∈ s.acquireList, .req a ∉ s.wsHead) :
    (destroySemaphore s).acquireList = [] ∧
      (destroySemaphore s).wsHead = s.wsHead ++ s.acquireList.map .req ∧
      ∀ a ∈ s.acquireList, ((destroySemaphore s).wait a).reqSta = reqFail := by
  unfold destroySemaphore
  split_ifs with empty
  · simp [empty]
  · obtain ⟨list, queue, failed, _⟩ := foldl_failReq rfl nodup out
    exact ⟨list, queue, failed⟩

end Destructor

section History

variable {R C : Type*} [DecidableEq R] [DecidableEq C] {v₀ vₘ : Int} {s t : State (Party R C)}

/-- Whether a check is pending behind a section taken in `s`: a post links the worknode, and a
`work_once` that finds it first takes it. -/
def pendingAfter (s : State (Party R C)) (pending : Bool) : Section R C → Bool
  | .releasePost => true
  | .workOnce => pending && decide (s.wsHead.head? ≠ some .sem)
  | _ => pending

/-- Whether the last post of the worknode along a run is still to be followed by a `work_once`
that takes it. -/
def checkPending (s : State (Party R C)) (pending : Bool) : List (Section R C) → Bool
  | [] => pending
  | x :: xs =>
      match sectionStep s x with
      | none => pending
      | some t => checkPending t (pendingAfter s pending x) xs

theorem sem_mem_addNewNolock {wsHead : List (Node (Party R C))} {a : Party R C} :
    .sem ∈ addNewNolock wsHead (.req a) ↔ .sem ∈ wsHead := by
  rw [mem_addNewNolock]
  simp

theorem sem_mem_foldl_chkReq {l : List (Party R C)} {s : State (Party R C)} :
    .sem ∈ (l.foldl chkReq s).wsHead ↔ .sem ∈ s.wsHead := by
  induction l generalizing s with
  | nil => rfl
  | cons a l ih =>
      rw [List.foldl_cons, ih]
      unfold chkReq
      split
      · rfl
      · split
        · exact sem_mem_addNewNolock
        · rfl

theorem dispatch_wsHead {A : Type*} [DecidableEq A] {s : State A} {n : Node A} :
    (dispatch s n).wsHead = s.wsHead := by
  cases n <;> rfl

/-- What a section does to the worknode. -/
theorem sem_mem_step {x : Section R C} (linked : Linked s) (run : sectionStep s x = some t)
    {pending : Bool} (known : pending = true ↔ .sem ∈ s.wsHead) :
    pendingAfter s pending x = true ↔ .sem ∈ t.wsHead := by
  cases x with
  | tryAcquire c =>
      simp only [sectionStep] at run
      obtain ⟨_, run⟩ := Option.ite_none_right_eq_some.mp run
      cases run
      simp only [pendingAfter, known, tryAcquire, State.setWait]
      split <;> rfl
  | acquire r =>
      simp only [sectionStep] at run
      obtain ⟨_, run⟩ := Option.ite_none_right_eq_some.mp run
      cases run
      simp only [pendingAfter, known, acquire, State.setWait]
      split
      · exact sem_mem_addNewNolock.symm
      · rfl
  | cancelWaiter r =>
      obtain rfl := Option.some.inj run
      exact known
  | release =>
      obtain rfl := Option.some.inj run
      simp only [pendingAfter, known, release]
      split <;> rfl
  | releasePost =>
      obtain ⟨_, made⟩ := Option.ite_none_right_eq_some.mp run
      cases made
      simp [pendingAfter, mem_addNewNolock]
  | workOnce =>
      simp only [sectionStep, step] at run
      split at run
      · cases run
      · rename_i n rest first
        cases run
        have nodup := linked.queues.wsHead
        rw [first] at nodup
        have fresh := (List.nodup_cons.mp nodup).1
        simp only [pendingAfter, Bool.and_eq_true, known, first, dispatch_wsHead,
          List.head?_cons, decide_eq_true_eq, ne_eq, Option.some.injEq, List.mem_cons]
        constructor
        · rintro ⟨rfl | queued, other⟩
          · exact absurd rfl other
          · exact queued
        · intro queued
          refine ⟨.inr queued, ?_⟩
          rintro rfl
          exact fresh queued
  | semEmpty =>
      obtain ⟨_, made⟩ := Option.ite_none_right_eq_some.mp run
      cases made
      exact known
  | semChkCb =>
      obtain ⟨_, made⟩ := Option.ite_none_right_eq_some.mp run
      cases made
      unfold Semaphore.semChkCb
      rw [sem_mem_foldl_chkReq]
      exact known

/-- Along a run the worknode is queued if and only if a check is pending. -/
theorem checkPending_iff {xs : List (Section R C)} {pending : Bool} (linked : Linked s)
    (known : pending = true ↔ .sem ∈ s.wsHead) (run : (sections v₀ vₘ).exec s xs = some t) :
    checkPending s pending xs = true ↔ .sem ∈ t.wsHead := by
  induction xs generalizing s pending with
  | nil =>
      cases run
      exact known
  | cons x xs ih =>
      obtain ⟨u, step, rest⟩ := Option.bind_eq_some_iff.mp run
      have step : sectionStep s x = some u := step
      simp only [checkPending, step]
      exact ih (linked.step step) (sem_mem_step linked step known) rest

theorem Linked.exec {xs : List (Section R C)} (linked : Linked s)
    (run : (sections v₀ vₘ).exec s xs = some t) : Linked t := by
  induction xs generalizing s with
  | nil =>
      cases run
      exact linked
  | cons x xs ih =>
      obtain ⟨u, step, rest⟩ := Option.bind_eq_some_iff.mp run
      exact ih (linked.step step) rest

/-- The destructor of a semaphore with no operation under way leaves nothing of it in the
executor if and only if each post of its worknode has been followed by a `work_once` that took
it; the waiting requests are failed either way. -/
theorem finished_iff {xs : List (Section R C)} (start : (sections v₀ vₘ).init s)
    (run : (sections v₀ vₘ).exec s xs = some t) (idle : Idle t) :
    Finished t (destroySemaphore t) ↔ checkPending s false xs = false := by
  have linked := Linked.init start.1
  have none_yet : false = true ↔ Node.sem ∈ s.wsHead := by
    simp [start.1.wsHead]
  have pending := checkPending_iff linked none_yet run
  have linked := linked.exec run
  obtain ⟨empty, queue, failed⟩ :=
    destroySemaphore_spec linked.queues.acquireList linked.notQueued
  have unlinked : .sem ∉ (destroySemaphore t).wsHead ↔ .sem ∉ t.wsHead := by
    simp [queue]
  rw [← Bool.not_eq_true, pending, ← unlinked]
  constructor
  · exact Finished.unlinked
  · intro gone
    obtain ⟨released, popped, passed⟩ := idle
    refine ⟨gone, ?_, empty, ?_, ?_⟩
    · intro a member
      refine ⟨?_, failed a member⟩
      rw [queue, List.count_append, List.count_eq_zero_of_not_mem (linked.notQueued a member)]
      rw [List.count_map_of_injective _ _ (fun _ _ => Node.req.inj), Nat.zero_add]
      exact List.count_eq_one_of_mem linked.queues.acquireList member
    · obtain ⟨samePopped, samePassed⟩ := destroySemaphore_frame (s := t)
      exact ⟨samePopped.trans popped, samePassed.trans passed⟩
    · intro ops bound popped
      rw [released, Nat.le_zero, List.count_eq_zero] at bound
      rcases laterPops_subset popped with queued | posted
      · exact gone queued
      · exact bound posted

end History

/-- Two requests wait, one of them is served, and the check has been run when the semaphore
ends. -/
theorem finished_iff_served : ∃ s : State (Party Bool Unit),
    (sections 0 1).exec (start reqOk) [.acquire true, .acquire false, .release, .releasePost,
      .workOnce, .semEmpty, .semChkCb] = some s ∧
    s.acquireList = [.request false] ∧ Finished s (destroySemaphore s) := by
  have run : (sections 0 1).exec (start reqOk : State (Party Bool Unit))
      ([.acquire true, .acquire false, .release, .releasePost, .workOnce, .semEmpty, .semChkCb] :
        List (Section Bool Unit)) = some _ := rfl
  exact ⟨_, run, rfl,
    (finished_iff ⟨start_init kindOf reqOk, rfl⟩ run ⟨rfl, rfl, rfl⟩).mpr rfl⟩

/-- Two calls of `release` decide to post before the check that serves the only request, and one
of them posts behind it: the semaphore ends with its worknode in the executor's queue. -/
theorem late_post : ∃ s : State (Party Unit Unit),
    (sections 0 1).Reachable s ∧ Idle s ∧ s.acquireList = [] ∧
      ¬Finished s (destroySemaphore s) := by
  have run : (sections 0 1).exec (start reqOk : State (Party Unit Unit))
      ([.acquire (), .release, .tryAcquire (), .release, .releasePost, .workOnce, .semEmpty,
        .semChkCb, .releasePost] : List (Section Unit Unit)) = some _ := rfl
  have start : (sections 0 1).init (start reqOk : State (Party Unit Unit)) :=
    ⟨start_init kindOf reqOk, rfl⟩
  refine ⟨_, .exec (.init start) run, ⟨rfl, rfl, rfl⟩, rfl, ?_⟩
  intro finished
  exact absurd finished.unlinked (by decide)

end CoWq.Semaphore
