import CoWq.Sync.TokenAccounting

/-!
# The critical sections of a semaphore in any order

The operations of `Semaphore` with no awaiter around them: any number of requests and of
callers of `try_acquire`, each section whenever its caller likes.

* `Section`, `sectionStep`, `sections`: the machine, over the same operations.
* `semChkCb_spec`: the loop of `sem_chk_cb` in closed form.
* `Woken`: a request that could be served has a check under way.
* `sections_safe`: the guarantees of every reachable state.
-/

namespace CoWq.Semaphore

open Workqueue

section Loop

variable {A : Type*} [DecidableEq A] {s : State A}

/-- The requests of `acquire_list` that are not cancelled. -/
def State.live (s : State A) : List A := s.acquireList.filter fun a => !(s.wait a).cancelled

omit [DecidableEq A] in
theorem granted_eq_live : s.granted = s.live.take s.curVal.toNat := rfl

/-- A round that serves its request. -/
theorem chkReq_grant {a : A} (live : (s.wait a).cancelled = false) (token : 0 < s.curVal)
    (out : .req a ∉ s.wsHead) :
    (chkReq s a).acquireList = s.acquireList.erase a ∧ (chkReq s a).taken = s.taken ++ [a] ∧
      (chkReq s a).wsHead = s.wsHead ++ [.req a] ∧ (chkReq s a).curVal = s.curVal - 1 := by
  simp [chkReq, live, token, addNewNolock, List.erase_of_not_mem out]

/-- The loop over the part `l` of the list, behind requests `k` that stay. -/
theorem foldl_chkReq : ∀ {l k : List A} {s : State A}, s.acquireList = k ++ l →
    s.acquireList.Nodup → (∀ a ∈ l, .req a ∉ s.wsHead) →
    let live := l.filter fun a => !(s.wait a).cancelled
    (l.foldl chkReq s).acquireList = k ++ live.drop s.curVal.toNat ∧
      (l.foldl chkReq s).taken = s.taken ++ live.take s.curVal.toNat ∧
      (l.foldl chkReq s).wsHead = s.wsHead ++ (live.take s.curVal.toNat).map .req
  | [], k, s, split, _, _ => by simpa using split
  | a :: l, k, s, split, nodup, out => by
      have absent : a ∉ k := by
        rw [split] at nodup
        exact fun mem => (List.nodup_append.mp nodup).2.2 a mem a List.mem_cons_self rfl
      have fresh : a ∉ l := by
        rw [split] at nodup
        exact (List.nodup_cons.mp (List.nodup_append.mp nodup).2.1).1
      have removed : s.acquireList.erase a = k ++ l := by
        rw [split, List.erase_append_right _ absent, List.erase_cons_head]
      have out' : ∀ b ∈ l, .req b ∉ s.wsHead := fun b mem => out b (List.mem_cons_of_mem _ mem)
      have nodup' : (chkReq s a).acquireList.Nodup := nodup_chkReq nodup
      have same : ∀ b, ((chkReq s a).wait b).cancelled = (s.wait b).cancelled :=
        fun b => chkReq_cancelled
      rw [List.foldl_cons]
      cases cancelled : (s.wait a).cancelled with
      | true =>
          have round : chkReq s a = { s with acquireList := k ++ l } := by
            simp [chkReq, cancelled, removed]
          rw [round] at nodup' ⊢
          simpa [cancelled] using foldl_chkReq (k := k) rfl nodup' out'
      | false =>
          by_cases token : 0 < s.curVal
          · obtain ⟨list, taken, queue, cur⟩ :=
              chkReq_grant cancelled token (out a List.mem_cons_self)
            obtain ⟨n, size⟩ : ∃ n, s.curVal.toNat = n + 1 := ⟨s.curVal.toNat - 1, by omega⟩
            have fewer : (s.curVal - 1).toNat = n := by omega
            have rest := foldl_chkReq (list.trans removed) nodup' fun b mem => by
              rw [queue, List.mem_append, List.mem_singleton, not_or]
              exact ⟨out' b mem, fun e => fresh (Node.req.inj e ▸ mem)⟩
            simp only [same] at rest
            rw [taken, queue, cur, fewer] at rest
            simpa [cancelled, size] using rest
          · have none : s.curVal.toNat = 0 := by omega
            have round : chkReq s a = s := by simp [chkReq, cancelled, token]
            have split' : s.acquireList = (k ++ [a]) ++ l := by simpa using split
            rw [round]
            simpa [cancelled, none] using foldl_chkReq split' nodup out'

theorem chkReq_frame {a : A} : (chkReq s a).incs = s.incs ∧ (chkReq s a).maxVal = s.maxVal := by
  unfold chkReq
  split
  · exact ⟨rfl, rfl⟩
  · split <;> exact ⟨rfl, rfl⟩

theorem foldl_chkReq_frame {l : List A} :
    (l.foldl chkReq s).incs = s.incs ∧ (l.foldl chkReq s).maxVal = s.maxVal := by
  induction l generalizing s with
  | nil => exact ⟨rfl, rfl⟩
  | cons a l ih => exact ⟨ih.1.trans chkReq_frame.1, ih.2.trans chkReq_frame.2⟩

/-- **The critical section of `sem_chk_cb`**: the cancelled requests leave the list, as many
of the others as there are tokens are queued in their order, and the rest stays. -/
theorem semChkCb_spec (nodup : s.acquireList.Nodup) (out : ∀ a ∈ s.acquireList, .req a ∉ s.wsHead) :
    (semChkCb s).acquireList = s.live.drop s.curVal.toNat ∧
      (semChkCb s).taken = s.taken ++ s.granted ∧
      (semChkCb s).wsHead = s.wsHead ++ s.granted.map .req ∧
      (semChkCb s).curVal = s.curVal - s.granted.length := by
  obtain ⟨list, taken, queue⟩ := foldl_chkReq (k := []) rfl nodup out
  have total : (semChkCb s).total = s.total := total_foldl
  have incs : (semChkCb s).incs = s.incs := foldl_chkReq_frame.1
  have size : (semChkCb s).taken.length = s.taken.length + s.granted.length := by
    rw [show (semChkCb s).taken = s.taken ++ s.granted from taken, List.length_append]
  refine ⟨list, taken, queue, ?_⟩
  unfold State.total at total
  omega

end Loop

/-! ## The sections -/

/-- The critical sections, by the requests `R` and the callers `C` of `try_acquire`. -/
inductive Section (R C : Type*)
  | tryAcquire (c : C)
  | acquire (r : R)
  | cancelWaiter (r : R)
  | release
  | releasePost
  | workOnce
  | semEmpty
  | semChkCb
  deriving DecidableEq, Repr

/-- For whom a token is taken. -/
inductive Party (R C : Type*)
  | request (r : R)
  | caller (c : C)
  deriving DecidableEq, Repr

/-- A request waits as `wait_sem` does, a caller of `try_acquire` as `wait_sem_try`. -/
def kindOf {R C : Type*} : Party R C → Kind
  | .request _ => .waitSem
  | .caller _ => .waitSemTry

section Sections

variable {R C : Type*} [DecidableEq R] [DecidableEq C] {v₀ : Int} {s t : State (Party R C)}
  {x : Section R C}

/-- A request is acquired once and a caller calls once; for the rest the sections are those
of `step`. -/
def sectionStep (s : State (Party R C)) : Section R C → Option (State (Party R C))
  | .tryAcquire c =>
      let w := s.wait (.caller c)
      if w.life = .waiting ∧ w.result = none then
        let (t, succ) := tryAcquire s (.caller c)
        some (t.setWait (.caller c) { w with life := .resumed, result := some succ })
      else none
  | .acquire r =>
      let w := s.wait (.request r)
      if w.suspend = .fresh ∧ w.life = .waiting then
        some ((acquire s (.request r)).setWait (.request r) { w with suspend := .done })
      else none
  | .cancelWaiter r => some (cancelWaiter s (.request r))
  | .release => step kindOf s .release
  | .releasePost => step kindOf s .releasePost
  | .workOnce => step kindOf s .workOnce
  | .semEmpty => step kindOf s .semEmpty
  | .semChkCb => step kindOf s .semChkCb

/-- `Semaphore(exec, v₀, vₘ)` -/
def sections (v₀ vₘ : Int) : Machine (State (Party R C)) (Section R C) where
  init s := Init v₀ s ∧ s.maxVal = vₘ
  step := sectionStep

/-- A request that could be served has a check under way: the semaphore's node is queued,
a worker is before or inside `sem_chk_cb`, or a `release` has yet to `post`. -/
def Woken (s : State (Party R C)) : Prop :=
  s.acquireList ≠ [] → 0 < s.curVal →
    .sem ∈ s.wsHead ∨ 0 < s.semPopped ∨ 0 < s.semPassed ∨ 0 < s.releasing

/-- What every section keeps. -/
structure Sound (v₀ : Int) (s : State (Party R C)) : Prop where
  queues : Queues s
  placed : ∀ a, Local (kindOf a) (view s a)
  total : s.total = v₀
  low : 0 ≤ s.curVal
  high : s.curVal ≤ s.maxVal
  woken : Woken s

/-! ### The single requests -/

variable {v : View}

theorem Local.tried_once (h : Local .waitSemTry v) (idle : v.life = .waiting)
    (fresh : v.result = none) (got : Bool) :
    Local .waitSemTry
      { v with life := .resumed, result := some got, taken := v.taken + got.toNat } := by
  have passed := h.step (e := .pass) (if_pos ⟨rfl, (h.tried rfl).1, idle⟩)
  exact passed.step (e := .tryAcquire got) (if_pos ⟨rfl, rfl, fresh⟩)

theorem Local.enlisted (h : Local .waitSem v) (fresh : v.suspend = .fresh)
    (idle : v.life = .waiting) : Local .waitSem { v with suspend := .done, list := true } := by
  cases h
  constructor <;> dsimp only <;> grind -linarith [View.granted]

theorem Local.served (h : Local .waitSem v) (fresh : v.suspend = .fresh)
    (idle : v.life = .waiting) :
    Local .waitSem { v with suspend := .done, queue := true, taken := v.taken + 1 } := by
  cases h
  constructor <;> dsimp only <;> grind -linarith [View.granted]

theorem Local.withdrawn {k : Kind} (h : Local k v) :
    Local k { v with cancelled := true, list := false } := by
  cases h
  constructor <;> dsimp only <;> grind -linarith [View.granted]

/-! ### The two queues -/

/-- What does not depend on the value the semaphore starts with. -/
structure Linked (s : State (Party R C)) : Prop where
  queues : Queues s
  placed : ∀ a, Local (kindOf a) (view s a)

theorem Linked.notQueued (h : Linked s) : ∀ a ∈ s.acquireList, .req a ∉ s.wsHead := by
  intro a mem
  have apart := ((h.placed a).list (view_list.mpr mem)).2.1
  exact fun queued => absurd (view_queue.mpr queued) (by simp [apart])

theorem Linked.shared {act : Action (Party R C)} (h : Linked s)
    (run : step kindOf s act = some t) : Linked t := by
  obtain ⟨queues, follows⟩ := step_spec h.queues h.placed run
  refine ⟨queues, fun a => ?_⟩
  rcases follows a with same | ⟨e, -, event⟩
  · exact same ▸ h.placed a
  · exact (h.placed a).step event

theorem Linked.tryAcquire {c : C} (h : Linked s) (run : sectionStep s (.tryAcquire c) = some t) :
    Linked t := by
  simp only [sectionStep] at run
  obtain ⟨⟨idle, fresh⟩, run⟩ := Option.ite_none_right_eq_some.mp run
  cases run
  refine ⟨h.queues.tryAcquire.setWait _, fun a => ?_⟩
  rcases eq_or_ne a (.caller c) with rfl | other
  · rw [view_setWait, view_tryAcquire]
    exact (h.placed (.caller c)).tried_once idle fresh _
  · rw [view_setWait_of_ne _ other, tryAcquire_fst_of_ne other]
    exact h.placed a

theorem Linked.acquire {r : R} (h : Linked s) (run : sectionStep s (.acquire r) = some t) :
    Linked t := by
  simp only [sectionStep] at run
  obtain ⟨⟨fresh, idle⟩, run⟩ := Option.ite_none_right_eq_some.mp run
  cases run
  have out : .request r ∉ s.acquireList := by
    intro mem
    have done := ((h.placed _).list (view_list.mpr mem)).1
    exact absurd (fresh.symm.trans done) (by decide)
  refine ⟨(h.queues.acquire out).setWait _, fun a => ?_⟩
  rcases eq_or_ne a (.request r) with rfl | other
  · rw [view_setWait, view_acquire]
    split
    · exact (h.placed (.request r)).served fresh idle
    · exact (h.placed (.request r)).enlisted fresh idle
  · rw [view_setWait_of_ne _ other, view_acquire_of_ne other]
    exact h.placed a

theorem Linked.cancelWaiter {r : R} (h : Linked s)
    (run : sectionStep s (.cancelWaiter r) = some t) : Linked t := by
  obtain rfl := Option.some.inj run
  refine ⟨h.queues.cancelWaiter, fun a => ?_⟩
  rcases eq_or_ne a (.request r) with rfl | other
  · rw [view_cancelWaiter h.queues.acquireList]
    exact (h.placed (.request r)).withdrawn
  · rw [view_cancelWaiter_of_ne other]
    exact h.placed a

theorem Linked.step (h : Linked s) (run : sectionStep s x = some t) : Linked t := by
  cases x with
  | tryAcquire c => exact h.tryAcquire run
  | acquire r => exact h.acquire run
  | cancelWaiter r => exact h.cancelWaiter run
  | release => exact h.shared (show Semaphore.step kindOf s .release = some t from run)
  | releasePost => exact h.shared (show Semaphore.step kindOf s .releasePost = some t from run)
  | workOnce => exact h.shared (show Semaphore.step kindOf s .workOnce = some t from run)
  | semEmpty => exact h.shared (show Semaphore.step kindOf s .semEmpty = some t from run)
  | semChkCb => exact h.shared (show Semaphore.step kindOf s .semChkCb = some t from run)

theorem Linked.init (start : Init v₀ s) : Linked s :=
  ⟨init_queues start, fun a => by
    rw [init_view start a]
    exact init_local (start.wait a)⟩

/-! ### The sections one by one -/

theorem Sound.linked (h : Sound v₀ s) : Linked s := ⟨h.queues, h.placed⟩

theorem Sound.notQueued (h : Sound v₀ s) : ∀ a ∈ s.acquireList, .req a ∉ s.wsHead :=
  h.linked.notQueued

theorem Sound.shared {act : Action (Party R C)} (h : Sound v₀ s) (run : step kindOf s act = some t)
    (low : 0 ≤ t.curVal) (high : t.curVal ≤ t.maxVal) (woken : Woken t) : Sound v₀ t := by
  have linked := h.linked.shared run
  exact ⟨linked.queues, linked.placed, (total_step run).trans h.total, low, high, woken⟩

theorem Sound.release (h : Sound v₀ s) (run : step kindOf s .release = some t) :
    Sound v₀ t := by
  have low := h.low
  have high := h.high
  have woken := h.woken
  refine h.shared run ?_ ?_ ?_ <;> cases run <;> unfold Semaphore.release <;> split
  · exact Int.le_add_one low
  · exact low
  · rename_i room
    exact Int.add_one_le_of_lt room
  · exact high
  · intro some_request _
    refine .inr (.inr (.inr ?_))
    simp only at some_request ⊢
    rw [if_neg some_request]
    exact Nat.succ_pos _
  · exact woken

theorem Sound.releasePost (h : Sound v₀ s) (run : step kindOf s .releasePost = some t) :
    Sound v₀ t := by
  obtain ⟨-, made⟩ := Option.ite_none_right_eq_some.mp run
  refine h.shared run ?_ ?_ ?_ <;> cases made
  · exact h.low
  · exact h.high
  · exact fun _ _ => .inl (mem_addNewNolock.mpr (.inr rfl))

theorem Sound.workOnce (h : Sound v₀ s) (run : step kindOf s .workOnce = some t) :
    Sound v₀ t := by
  have made := run
  simp only [step] at made
  split at made
  · cases made
  · rename_i n rest first
    have woken := h.woken
    refine h.shared run ?_ ?_ ?_ <;> cases made
    · cases n <;> exact h.low
    · cases n <;> exact h.high
    · unfold Woken at woken ⊢
      rw [first] at woken
      cases n with
      | sem => exact fun _ _ => .inr (.inl (Nat.succ_pos _))
      | timer => simpa [dispatch] using woken
      | req a => simpa [dispatch, State.setWait] using woken
      | tmo a => simpa [dispatch, State.setWait] using woken

theorem Sound.semEmpty (h : Sound v₀ s) (run : step kindOf s .semEmpty = some t) :
    Sound v₀ t := by
  obtain ⟨-, made⟩ := Option.ite_none_right_eq_some.mp run
  refine h.shared run ?_ ?_ ?_ <;> cases made
  · exact h.low
  · exact h.high
  · intro some_request _
    refine .inr (.inr (.inl ?_))
    simp only at some_request ⊢
    rw [if_neg some_request]
    exact Nat.succ_pos _

theorem Sound.semChkCb (h : Sound v₀ s) (run : step kindOf s .semChkCb = some t) :
    Sound v₀ t := by
  have low := h.low
  have high := h.high
  obtain ⟨-, made⟩ := Option.ite_none_right_eq_some.mp run
  have spec := semChkCb_spec (s := { s with semPassed := s.semPassed - 1 }) h.queues.acquireList
    h.notQueued
  have room := foldl_chkReq_frame (s := { s with semPassed := s.semPassed - 1 })
    (l := s.acquireList)
  obtain rfl := Option.some.inj made
  obtain ⟨list, -, -, cur⟩ := spec
  have size := List.length_take (i := s.curVal.toNat) (l := s.live)
  have cur' : (Semaphore.semChkCb { s with semPassed := s.semPassed - 1 }).curVal =
      s.curVal - (s.live.take s.curVal.toNat).length := cur
  have list' : (Semaphore.semChkCb { s with semPassed := s.semPassed - 1 }).acquireList =
      s.live.drop s.curVal.toNat := list
  have max' : (Semaphore.semChkCb { s with semPassed := s.semPassed - 1 }).maxVal = s.maxVal :=
    room.2
  refine h.shared run ?_ ?_ ?_
  · omega
  · omega
  · intro some_request token
    rw [list'] at some_request
    have longer : s.curVal.toNat < s.live.length := by
      by_contra short
      exact some_request (List.drop_eq_nil_of_le (by omega))
    omega

theorem Sound.tryAcquire {c : C} (h : Sound v₀ s) (run : sectionStep s (.tryAcquire c) = some t) :
    Sound v₀ t := by
  have linked := h.linked.tryAcquire run
  simp only [sectionStep] at run
  obtain ⟨_, run⟩ := Option.ite_none_right_eq_some.mp run
  cases run
  refine ⟨linked.queues, linked.placed, total_tryAcquire.trans h.total, ?_, ?_, ?_⟩
  all_goals
    simp only [Semaphore.tryAcquire, State.setWait]
    split
  · rename_i token
    exact Int.sub_nonneg_of_le token
  · exact h.low
  · exact le_trans (Int.sub_le_self _ (by decide)) h.high
  · exact h.high
  · exact fun some_request _ => h.woken some_request (by assumption)
  · exact h.woken

theorem Sound.acquire {r : R} (h : Sound v₀ s) (run : sectionStep s (.acquire r) = some t) :
    Sound v₀ t := by
  have linked := h.linked.acquire run
  simp only [sectionStep] at run
  obtain ⟨_, run⟩ := Option.ite_none_right_eq_some.mp run
  cases run
  refine ⟨linked.queues, linked.placed, total_acquire.trans h.total, ?_, ?_, ?_⟩
  all_goals
    simp only [Semaphore.acquire, State.setWait]
    split
  · rename_i token
    exact Int.sub_nonneg_of_le token
  · exact h.low
  · exact le_trans (Int.sub_le_self _ (by decide)) h.high
  · exact h.high
  · intro some_request _
    rcases h.woken some_request (by assumption) with queued | later
    · exact .inl (mem_addNewNolock.mpr (.inl queued))
    · exact .inr later
  · exact fun _ token => absurd token (by assumption)

theorem Sound.cancelWaiter {r : R} (h : Sound v₀ s)
    (run : sectionStep s (.cancelWaiter r) = some t) : Sound v₀ t := by
  have linked := h.linked.cancelWaiter run
  obtain rfl := Option.some.inj run
  refine ⟨linked.queues, linked.placed, h.total, h.low, h.high, ?_⟩
  intro some_request token
  refine h.woken (fun empty => some_request ?_) token
  simp [Semaphore.cancelWaiter, empty]

theorem Sound.step (h : Sound v₀ s) (run : sectionStep s x = some t) : Sound v₀ t := by
  cases x with
  | tryAcquire c => exact h.tryAcquire run
  | acquire r => exact h.acquire run
  | cancelWaiter r => exact h.cancelWaiter run
  | release => exact h.release run
  | releasePost => exact h.releasePost run
  | workOnce => exact h.workOnce run
  | semEmpty => exact h.semEmpty run
  | semChkCb => exact h.semChkCb run

theorem Sound.init (start : Init v₀ s) (low : 0 ≤ v₀) (high : v₀ ≤ s.maxVal) : Sound v₀ s := by
  have linked := Linked.init start
  refine ⟨linked.queues, linked.placed, ?_, ?_, ?_, fun some_request _ => ?_⟩
  · simp [State.total, start.curVal, start.taken, start.incs]
  · rw [start.curVal]
    exact low
  · rw [start.curVal]
    exact high
  · exact (some_request start.acquireList).elim

/-- **The semaphore in every order of its critical sections.**  The value stays between 0
and `_max_val`; tokens are neither made nor lost, and no request gets two; a request that
is neither served nor cancelled is in exactly one of the two queues; a request that could
be served has a check under way; and a check grants the first requests that are not
cancelled, as many as there are tokens, in order. -/
theorem sections_safe {vₘ : Int} (low : 0 ≤ v₀) (high : v₀ ≤ vₘ)
    (run : (sections v₀ vₘ).Reachable s) :
    (0 ≤ s.curVal ∧ s.curVal ≤ s.maxVal) ∧
    (s.curVal + s.taken.length = v₀ + s.incs ∧ ∀ a, s.taken.count a ≤ 1) ∧
    (∀ r, (s.wait (.request r)).suspend = .done → (s.wait (.request r)).reqPc = .idle →
      (s.wait (.request r)).cancelled = false →
      s.acquireList.count (.request r) + s.wsHead.count (.req (.request r)) = 1) ∧
    Woken s ∧
    ∀ t, sectionStep s .semChkCb = some t → ∃ n : Nat, n = min s.curVal.toNat s.live.length ∧
      t.taken = s.taken ++ s.live.take n ∧ t.wsHead = s.wsHead ++ (s.live.take n).map .req ∧
      t.acquireList = s.live.drop n ∧ t.curVal = s.curVal - n := by
  have sound : Sound v₀ s := run.invariant
    (fun s start => .init start.1 low (high.trans (le_of_eq start.2.symm)))
    (fun _ _ _ h _ step => h.step step)
  refine ⟨⟨sound.low, sound.high⟩, ⟨?_, fun a => (sound.placed a).taken_le_one⟩,
    fun r done idle live => ?_, sound.woken, fun t check => ?_⟩
  · have total := sound.total
    unfold State.total at total
    omega
  · have placed := sound.placed (.request r)
    rw [sound.queues.acquireList.count, sound.queues.wsHead.count]
    rcases placed.pending done idle live with listed | queued
    · have mem := view_list.mp listed
      rw [if_pos mem, if_neg (sound.notQueued _ mem)]
    · have mem := view_queue.mp queued
      rw [if_pos mem, if_neg fun listed => sound.notQueued _ listed mem]
  · obtain ⟨-, made⟩ := Option.ite_none_right_eq_some.mp check
    obtain rfl := Option.some.inj made
    obtain ⟨list, taken, queue, cur⟩ := semChkCb_spec
      (s := { s with semPassed := s.semPassed - 1 }) sound.queues.acquireList sound.notQueued
    refine ⟨s.granted.length, ?_, ?_, ?_, ?_, cur⟩
    · rw [granted_eq_live, List.length_take]
    · rw [granted_eq_live, List.length_take, ← List.take_eq_take_min]
      exact taken
    · rw [granted_eq_live, List.length_take, ← List.take_eq_take_min]
      exact queue
    · rw [granted_eq_live, List.length_take]
      exact list.trans List.drop_eq_drop_min

end Sections

/-- A request waits, a token comes, and the check is posted. -/
def waiting : List (Section Unit Unit) :=
  [.tryAcquire (), .acquire (), .release, .releasePost]

theorem sections_safe_waiting : ∃ s : State (Party Unit Unit),
    (sections 0 1).exec (start reqOk) waiting = some s ∧ s.acquireList = [.request ()] ∧
    s.curVal = 1 ∧ Woken s := by
  obtain ⟨s, run, list, cur⟩ : ∃ s : State (Party Unit Unit),
      (sections 0 1).exec (start reqOk) waiting = some s ∧ s.acquireList = [.request ()] ∧
      s.curVal = 1 := ⟨_, rfl, rfl, rfl⟩
  have start : (sections 0 1).init (start reqOk : State (Party Unit Unit)) :=
    ⟨start_init kindOf reqOk, rfl⟩
  exact ⟨s, run, list, cur,
    (sections_safe (by decide) (by decide) (.exec (.init start) run)).2.2.2.1⟩

end CoWq.Semaphore
