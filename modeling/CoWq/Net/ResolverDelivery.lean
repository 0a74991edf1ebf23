import Mathlib.Algebra.BigOperators.Group.Finset.Basic
import Mathlib.Algebra.GroupWithZero.Nat
import Mathlib.Algebra.Order.BigOperators.Group.Finset
import Mathlib.Data.Fintype.Card
import CoWq.Net.DnsResolver

/-!
# What becomes of the jobs of the resolver

* `At`, `Placed`: every job is at one place on its way.
* `effort`: every step but a new job and a spurious wake-up lowers it.
* `each_job_once`: every job is taken by one worker, in the order of the calls, and resumed once
  behind its own answer; a run comes to an end, and there all is done.
-/

namespace CoWq.DnsResolver

open Monitor

variable {W J E R : Type*} {s t : State W J E R} [DecidableEq W] [DecidableEq J] [DecidableEq E]

/-! ## The way of a job -/

/-- The job has been resolved. -/
def Stage.Answered : Stage W E → Prop
  | .absent | .queued | .resolving _ => False
  | .posting _ | .posted _ | .running | .resumed => True

instance (stage : Stage W E) : Decidable stage.Answered :=
  match stage with
  | .absent | .queued | .resolving _ => inferInstanceAs (Decidable False)
  | .posting _ | .posted _ | .running | .resumed => inferInstanceAs (Decidable True)

/-- A job at `stage` is where its stage says, and nowhere else. -/
structure At (s : State W J E R) (j : J) (stage : Stage W E) : Prop where
  enqueued : s.enqueued.count j = if stage = .absent then 0 else 1
  queued : s.queue.count j = if stage = .queued then 1 else 0
  resolving : ∀ w, s.pc w = .resolving j ↔ stage = .resolving w
  posting : ∀ w, s.pc w = .posting j ↔ stage = .posting w
  posted : ∀ e, (s.nodes e).count j = if stage = .posted e then 1 else 0
  running : s.running.count j = if stage = .running then 1 else 0
  resumes : (s.resumes.map Prod.fst).count j = if stage = .resumed then 1 else 0
  answers : (s.answers.map Prod.fst).count j = if stage.Answered then 1 else 0
  continuation : stage ≠ .absent → stage ≠ .resumed → (s.job j).continuation = true
  result : stage.Answered → ∃ answer, (s.job j).result = some answer ∧ (j, answer) ∈ s.answers

/-- A step that is not about job `k` leaves it where it is. -/
theorem At.other {k : J} {stage : Stage W E} (here : At s k stage)
    (enqueued : t.enqueued.count k = s.enqueued.count k) (queue : t.queue.count k = s.queue.count k)
    (resolving : ∀ w, t.pc w = .resolving k ↔ s.pc w = .resolving k)
    (posting : ∀ w, t.pc w = .posting k ↔ s.pc w = .posting k)
    (nodes : ∀ e, (t.nodes e).count k = (s.nodes e).count k)
    (running : t.running.count k = s.running.count k)
    (resumes : (t.resumes.map Prod.fst).count k = (s.resumes.map Prod.fst).count k)
    (answers : (t.answers.map Prod.fst).count k = (s.answers.map Prod.fst).count k)
    (grow : ∀ a, a ∈ s.answers → a ∈ t.answers) (job : t.job k = s.job k) : At t k stage where
  enqueued := by rw [enqueued, here.enqueued]
  queued := by rw [queue, here.queued]
  resolving := fun w => by rw [resolving w, here.resolving w]
  posting := fun w => by rw [posting w, here.posting w]
  posted := fun e => by rw [nodes e, here.posted e]
  running := by rw [running, here.running]
  resumes := by rw [resumes, here.resumes]
  answers := by rw [answers, here.answers]
  continuation := by
    rw [job]
    exact here.continuation
  result := by
    intro answered
    obtain ⟨answer, result, known⟩ := here.result answered
    exact ⟨answer, job ▸ result, grow _ known⟩

omit [DecidableEq J] in
/-- A worker that moves between other points leaves the workers at `q` as they are. -/
theorem update_iff {pc : W → Pc J} {w : W} {p q : Pc J} (before : pc w ≠ q) (after : p ≠ q)
    (u : W) : Function.update pc w p u = q ↔ pc u = q := by
  rcases eq_or_ne u w with rfl | other
  · simp only [Function.update_self, before, after]
  · rw [Function.update_of_ne other]

omit [DecidableEq J] in
/-- The only worker that comes to a point. -/
theorem update_iff_self {pc : W → Pc J} {w : W} {q : Pc J} (nobody : ∀ u, pc u ≠ q) (u : W) :
    Function.update pc w q u = q ↔ w = u := by
  rcases eq_or_ne u w with rfl | other
  · simp only [Function.update_self]
  · rw [Function.update_of_ne other]
    exact iff_of_false (nobody u) other.symm

omit [DecidableEq J] in
/-- The only worker at a point leaves it. -/
theorem update_ne {pc : W → Pc J} {w : W} {p q : Pc J} (after : p ≠ q)
    (only : ∀ u, pc u = q → u = w) (u : W) : Function.update pc w p u ≠ q := by
  rcases eq_or_ne u w with rfl | other
  · simpa only [Function.update_self] using after
  · rw [Function.update_of_ne other]
    exact fun here => other (only u here)

/-- The part of the state the jobs depend on, the workers apart. -/
def State.jobs (s : State W J E R) :=
  (s.enqueued, s.queue, s.nodes, s.running, s.resumes, s.answers, s.job)

/-- The workers that are at a job stay there. -/
theorem At.workers {k : J} {stage : Stage W E} (here : At s k stage) (same : t.jobs = s.jobs)
    (resolving : ∀ w, t.pc w = .resolving k ↔ s.pc w = .resolving k)
    (posting : ∀ w, t.pc w = .posting k ↔ s.pc w = .posting k) : At t k stage := by
  simp only [State.jobs, Prod.mk.injEq] at same
  obtain ⟨enqueued, queue, nodes, running, resumes, answers, job⟩ := same
  exact here.other (congrArg _ enqueued) (congrArg _ queue) resolving posting
    (fun e => congrArg _ (congrFun nodes e)) (congrArg _ running) (by rw [resumes])
    (by rw [answers]) (fun a => answers ▸ id) (congrFun job k)

structure Placed (s : State W J E R) : Prop where
  here : ∀ j, At s j (s.stage j)
  fifo : s.enqueued = s.takes.map Prod.snd ++ s.queue
  stored : ∀ j result, (j, result) ∈ s.resumes →
    ∃ answer, result = some answer ∧ (j, answer) ∈ s.answers

theorem placed_started : Placed (started W J E R) where
  here := by
    intro j
    constructor <;> simp [started, Stage.Answered]
  fifo := rfl
  stored := nofun

theorem Placed.workers (placed : Placed s) (same : t.jobs = s.jobs) (stage : t.stage = s.stage)
    (takes : t.takes = s.takes)
    (resolving : ∀ w j, t.pc w = .resolving j ↔ s.pc w = .resolving j)
    (posting : ∀ w j, t.pc w = .posting j ↔ s.pc w = .posting j) : Placed t where
  here := by
    intro j
    rw [stage]
    exact (placed.here j).workers same (fun w => resolving w j) fun w => posting w j
  fifo := by
    simp only [State.jobs, Prod.mk.injEq] at same
    rw [takes, same.1, same.2.1]
    exact placed.fifo
  stored := by
    simp only [State.jobs, Prod.mk.injEq] at same
    rw [same.2.2.2.2.1, same.2.2.2.2.2.1]
    exact placed.stored

/-- A worker that is at no job goes on to a point where it is at none. -/
theorem Placed.idle {w : W} {p : Pc J} (placed : Placed s) (pc : t.pc = Function.update s.pc w p)
    (before : ∀ j, s.pc w ≠ .resolving j ∧ s.pc w ≠ .posting j)
    (after : ∀ j, p ≠ .resolving j ∧ p ≠ .posting j) (same : t.jobs = s.jobs)
    (stage : t.stage = s.stage) (takes : t.takes = s.takes) : Placed t := by
  apply placed.workers same stage takes
  · intro u j
    rw [pc, update_iff (before j).1 (after j).1]
  · intro u j
    rw [pc, update_iff (before j).2 (after j).2]

variable [Fintype W] {exec : J → Option E}

theorem Placed.enqueue {j : J} (placed : Placed s) (run : step exec s (.enqueue j) = some t) :
    Placed t := by
  obtain ⟨⟨_, _, fresh⟩, run⟩ := Option.ite_none_right_eq_some.mp run
  cases run
  refine ⟨?_, ?_, placed.stored⟩
  · intro k
    have here := placed.here k
    rcases eq_or_ne k j with rfl | other
    · have absent : s.stage k = .absent := by
        have none := here.enqueued
        rw [List.count_eq_zero_of_not_mem fresh] at none
        by_contra present
        rw [if_neg present] at none
        cases none
      rw [absent] at here
      obtain ⟨enqueued, queued, resolving, posting, posted, running, resumes, answers, _, _⟩ := here
      constructor <;> simp_all [State.setStage, Stage.Answered]
    · simp only [State.setStage, Function.update_of_ne other]
      apply here.other <;> simp [Function.update_of_ne other, List.count_append, other.symm]
  · simp [State.setStage, placed.fifo]

/-- The first job of the deque goes to the worker. -/
theorem Placed.take {w : W} (placed : Placed s) (run : step exec s (.take w) = some t) :
    Placed t := by
  simp only [step] at run
  split at run
  next here _ =>
    obtain ⟨_, run⟩ := Option.ite_none_right_eq_some.mp run
    cases run
    exact placed.idle rfl (by simp [here]) (by simp) rfl rfl rfl
  next j rest here work =>
    cases run
    refine ⟨?_, ?_, placed.stored⟩
    · intro k
      have at_k := placed.here k
      rcases eq_or_ne k j with rfl | other
      · have queued : s.stage k = .queued := by
          have count := at_k.queued
          by_contra elsewhere
          simp [work, elsewhere] at count
        rw [queued] at at_k
        obtain ⟨enqueued, queued, resolving, posting, posted, running, resumes, answers, pending,
          _⟩ := at_k
        simp only [State.setStage, State.setPc, Function.update_self]
        constructor
        case resolving =>
          intro u
          rw [update_iff_self (by simpa using resolving)]
          simp
        case posting =>
          intro u
          rw [update_iff (by simp [here]) (by simp)]
          simp [posting]
        all_goals simp_all [Stage.Answered]
      · simp only [State.setStage, State.setPc, Function.update_of_ne other]
        apply at_k.other
        case resolving => exact update_iff (by simp [here]) (by simp [other.symm])
        case posting => exact update_iff (by simp [here]) (by simp)
        all_goals simp [work, other.symm]
    · simp [State.setStage, State.setPc, placed.fifo, work]
  next => cases run

/-- The answer is stored before the job is posted. -/
theorem Placed.resolve {w : W} {answer : R} (placed : Placed s)
    (run : step exec s (.resolve w answer) = some t) : Placed t := by
  simp only [step] at run
  split at run
  next j here =>
    cases run
    refine ⟨?_, placed.fifo, ?_⟩
    · intro k
      have at_k := placed.here k
      rcases eq_or_ne k j with rfl | other
      · rw [(at_k.resolving w).mp here] at at_k
        obtain ⟨enqueued, queued, resolving, posting, posted, running, resumes, answers, pending,
          _⟩ := at_k
        simp only [State.setStage, State.setPc, Function.update_self]
        constructor
        case resolving =>
          intro u
          apply iff_of_false (update_ne (by simp) ?_ u) (by simp)
          exact fun v at_v => (Stage.resolving.inj ((resolving v).mp at_v)).symm
        case posting =>
          intro u
          rw [update_iff_self (by simpa using posting)]
          simp
        all_goals simp_all [Stage.Answered]
      · simp only [State.setStage, State.setPc, Function.update_of_ne other]
        apply at_k.other
        case resolving => exact update_iff (by simp [here, other.symm]) (by simp)
        case posting => exact update_iff (by simp [here]) (by simp [other.symm])
        all_goals simp +contextual [other.symm, Function.update_of_ne other]
    · intro k result member
      obtain ⟨before, stored, known⟩ := placed.stored k result member
      exact ⟨before, stored, List.mem_append_left _ known⟩
  next => cases run

omit [Fintype W] in
/-- A worker hands its job to the executor. -/
theorem Placed.post {w : W} {j : J} {e : E} (placed : Placed s) (here : s.pc w = .posting j) :
    Placed (DnsResolver.postResult (s.setPc w .locking) j (some e)) := by
  refine ⟨?_, placed.fifo, placed.stored⟩
  intro k
  have at_k := placed.here k
  simp only [DnsResolver.postResult, State.setStage, State.setPc]
  rcases eq_or_ne k j with rfl | other
  · rw [(at_k.posting w).mp here] at at_k
    obtain ⟨enqueued, queued, resolving, posting, posted, running, resumes, answers, pending,
      result⟩ := at_k
    simp only [Function.update_self]
    constructor
    case resolving =>
      intro u
      rw [update_iff (by simp [here]) (by simp)]
      simp [resolving]
    case posting =>
      intro u
      apply iff_of_false (update_ne (by simp) ?_ u) (by simp)
      exact fun v at_v => (Stage.posting.inj ((posting v).mp at_v)).symm
    case posted =>
      intro f
      rcases eq_or_ne f e with rfl | away
      · simp [posted]
      · simp [Function.update_of_ne away, posted, away.symm]
    all_goals simp_all [Stage.Answered]
  · simp only [Function.update_of_ne other]
    apply at_k.other
    case resolving => exact update_iff (by simp [here]) (by simp)
    case posting => exact update_iff (by simp [here, other.symm]) (by simp)
    case nodes =>
      intro f
      rcases eq_or_ne f e with rfl | away
      · simp [other.symm]
      · simp [Function.update_of_ne away]
    all_goals simp

omit [Fintype W] in
/-- A resumed job was answered: the continuation finds its result. -/
theorem Placed.stored_resume {j : J} {stage : Stage W E} (placed : Placed s)
    (at_j : At s j stage) (answered : stage.Answered) :
    ∀ k result, (k, result) ∈ s.resumes ++ [(j, (s.job j).result)] →
      ∃ answer, result = some answer ∧ (k, answer) ∈ s.answers := by
  intro k result member
  rcases List.mem_append.mp member with before | now
  · exact placed.stored k result before
  · cases List.mem_singleton.mp now
    exact at_j.result answered

omit [Fintype W] in
/-- A worker resumes the coroutine of a job that has no executor. -/
theorem Placed.resumeDirectly {w : W} {j : J} (placed : Placed s) (here : s.pc w = .posting j) :
    Placed (DnsResolver.postResult (s.setPc w .locking) j (none : Option E)) := by
  have at_j := placed.here j
  rw [(at_j.posting w).mp here] at at_j
  have handle : (s.job j).continuation = true := at_j.continuation (by simp) (by simp)
  simp only [DnsResolver.postResult, State.setPc, handle, if_true, State.resume, State.setStage]
  refine ⟨?_, placed.fifo, placed.stored_resume at_j trivial⟩
  intro k
  rcases eq_or_ne k j with rfl | other
  · obtain ⟨enqueued, queued, resolving, posting, posted, running, resumes, answers, pending,
      result⟩ := at_j
    simp only [Function.update_self]
    constructor
    case resolving =>
      intro u
      rw [update_iff (by simp [here]) (by simp)]
      simp [resolving]
    case posting =>
      intro u
      apply iff_of_false (update_ne (by simp) ?_ u) (by simp)
      exact fun v at_v => (Stage.posting.inj ((posting v).mp at_v)).symm
    all_goals simp_all [Stage.Answered]
  · simp only [Function.update_of_ne other]
    apply (placed.here k).other
    case resolving => exact update_iff (by simp [here]) (by simp)
    case posting => exact update_iff (by simp [here, other.symm]) (by simp)
    all_goals simp [other.symm]

theorem Placed.postResult {w : W} (placed : Placed s)
    (run : step exec s (.postResult w) = some t) : Placed t := by
  simp only [step] at run
  split at run <;> cases run
  next j here =>
    cases exec j with
    | none => exact placed.resumeDirectly here
    | some e => exact placed.post here

theorem Placed.takeNode {e : E} (placed : Placed s) (run : step exec s (.takeNode e) = some t) :
    Placed t := by
  simp only [step] at run
  split at run <;> cases run
  next j rest nodes =>
    refine ⟨?_, placed.fifo, placed.stored⟩
    intro k
    have at_k := placed.here k
    simp only [State.setStage]
    rcases eq_or_ne k j with rfl | other
    · have count := at_k.posted e
      have posted_e : s.stage k = .posted e := by
        by_contra elsewhere
        simp [nodes, elsewhere] at count
      rw [posted_e] at at_k
      obtain ⟨enqueued, queued, resolving, posting, posted, running, resumes, answers, pending,
        result⟩ := at_k
      simp only [Function.update_self]
      constructor
      case posted =>
        intro f
        rcases eq_or_ne f e with rfl | away
        · have one := posted f
          simp only [nodes, List.count_cons_self, if_true, Nat.add_eq_right] at one
          simp [one]
        · simp [Function.update_of_ne away, posted, away.symm]
      all_goals simp_all [Stage.Answered]
    · simp only [Function.update_of_ne other]
      apply at_k.other
      case nodes =>
        intro f
        rcases eq_or_ne f e with rfl | away
        · simp [nodes, other.symm]
        · simp [Function.update_of_ne away]
      all_goals simp [other.symm]

/-- `ResumeNode::run` finds the handle it resumes. -/
theorem Placed.run {j : J} (placed : Placed s) (run : step exec s (.run j) = some t) :
    Placed t := by
  obtain ⟨member, run⟩ := Option.ite_none_right_eq_some.mp run
  cases run
  have at_j := placed.here j
  have running : s.stage j = .running := by
    by_contra elsewhere
    have none := at_j.running
    rw [if_neg elsewhere] at none
    exact absurd member (List.count_eq_zero.mp none)
  rw [running] at at_j
  have handle : (s.job j).continuation = true := at_j.continuation (by simp) (by simp)
  simp only [runNode, handle, if_true, State.resume, State.setStage, Function.update_self]
  refine ⟨?_, placed.fifo, placed.stored_resume at_j trivial⟩
  intro k
  rcases eq_or_ne k j with rfl | other
  · obtain ⟨enqueued, queued, resolving, posting, posted, running, resumes, answers, pending,
      result⟩ := at_j
    simp only [Function.update_self]
    constructor <;> simp_all [Stage.Answered]
  · simp only [Function.update_of_ne other]
    apply (placed.here k).other <;>
      simp [Function.update_of_ne other, List.count_erase_of_ne other, other.symm]

theorem Placed.step {a : Action W J E R} (placed : Placed s) (run : step exec s a = some t) :
    Placed t := by
  cases a with
  | enqueue j => exact placed.enqueue run
  | notifyOne chosen =>
      obtain ⟨_, run⟩ := Option.ite_none_right_eq_some.mp run
      obtain ⟨pc, wakes, rfl⟩ := Option.map_eq_some_iff.mp run
      rcases CondVar.notifyOne_inv wakes with ⟨w, blocked, rfl⟩ | ⟨rfl, _⟩
      · exact placed.idle rfl (by simp [blocked, cv]) (by simp [cv]) rfl rfl rfl
      · exact placed.workers rfl rfl rfl (fun _ _ => .rfl) fun _ _ => .rfl
  | lock w =>
      simp only [DnsResolver.step] at run
      split at run <;> cases run
      next here _ => exact placed.idle rfl (by simp [here]) (by simp) rfl rfl rfl
  | check w =>
      simp only [DnsResolver.step] at run
      split at run <;> cases run
      next here =>
        split_ifs <;> exact placed.idle rfl (by simp [here]) (by simp) rfl rfl rfl
  | block w =>
      simp only [DnsResolver.step] at run
      split at run <;> cases run
      next here => exact placed.idle rfl (by simp [here]) (by simp) rfl rfl rfl
  | relock w =>
      simp only [DnsResolver.step] at run
      split at run <;> cases run
      next here _ => exact placed.idle rfl (by simp [here]) (by simp) rfl rfl rfl
  | spurious w =>
      simp only [DnsResolver.step] at run
      split at run <;> cases run
      next here => exact placed.idle rfl (by simp [here]) (by simp) rfl rfl rfl
  | take w => exact placed.take run
  | resolve w answer => exact placed.resolve run
  | postResult w => exact placed.postResult run
  | takeNode e => exact placed.takeNode run
  | run j => exact placed.run run
  | stop =>
      obtain ⟨_, run⟩ := Option.ite_none_right_eq_some.mp run
      cases run
      exact placed.workers rfl rfl rfl (fun _ _ => .rfl) fun _ _ => .rfl
  | notifyAll =>
      obtain ⟨_, run⟩ := Option.ite_none_right_eq_some.mp run
      cases run
      have stays : ∀ (q : Pc J), q ≠ .blocked → q ≠ .woken → ∀ w,
          (cv J).notifyAll s.pc w = q ↔ s.pc w = q := by
        intro q awake other w
        simp only [CondVar.notifyAll]
        by_cases blocked : s.pc w = (cv J).blocked
        · rw [if_pos blocked, blocked]
          exact iff_of_false other.symm awake.symm
        · rw [if_neg blocked]
      exact placed.workers rfl rfl rfl (fun w j => stays _ (by simp) (by simp) w)
        fun w j => stays _ (by simp) (by simp) w
  | join =>
      obtain ⟨_, run⟩ := Option.ite_none_right_eq_some.mp run
      cases run
      exact placed.workers rfl rfl rfl (fun _ _ => .rfl) fun _ _ => .rfl

/-! ## Runs end -/

/-- What a worker still has to do before it blocks or exits. -/
def Pc.rank : Pc J → Nat
  | .exited => 0
  | .blocked => 1
  | .deciding => 2
  | .taking => 3
  | .checking => 4
  | .woken => 5
  | .locking => 6
  | .posting _ => 7
  | .resolving _ => 8

/-- What is still to be done for a job. -/
def Stage.weight : Stage W E → Nat
  | .absent => 0
  | .queued => 50
  | .resolving _ => 40
  | .posting _ => 30
  | .posted _ => 20
  | .running => 10
  | .resumed => 0

/-- A `notify_all` may wake all of the `workers`. -/
def Dtor.weight (workers : Nat) : Dtor → Nat
  | .notCalled => 4 * workers + 3
  | .stopped => 4 * workers + 2
  | .notified => 1
  | .joined => 0

def effort (s : State W J E R) : Nat :=
  ∑ w, (s.pc w).rank + (s.enqueued.map fun j => (s.stage j).weight).sum + 5 * s.notifies +
    s.dtor.weight (Fintype.card W)

omit [DecidableEq J] in
theorem sum_rank_update (pc : W → Pc J) (w : W) (p : Pc J) :
    ∑ u, (Function.update pc w p u).rank + (pc w).rank = ∑ u, (pc u).rank + p.rank := by
  rw [← Finset.add_sum_erase _ (fun u => (Function.update pc w p u).rank) (Finset.mem_univ w),
    ← Finset.add_sum_erase _ (fun u => (pc u).rank) (Finset.mem_univ w)]
  have others : ∑ u ∈ Finset.univ.erase w, (Function.update pc w p u).rank =
      ∑ u ∈ Finset.univ.erase w, (pc u).rank := by
    refine Finset.sum_congr rfl fun u member => ?_
    rw [Function.update_of_ne (Finset.ne_of_mem_erase member)]
  rw [others]
  simp only [Function.update_self]
  omega

omit [DecidableEq W] [DecidableEq E] [Fintype W] in
theorem sum_weight_update (stage : J → Stage W E) (j : J) (next : Stage W E) {jobs : List J}
    (distinct : jobs.Nodup) (member : j ∈ jobs) :
    (jobs.map fun k => (Function.update stage j next k).weight).sum + (stage j).weight =
      (jobs.map fun k => (stage k).weight).sum + next.weight := by
  induction jobs with
  | nil => cases member
  | cons k jobs ih =>
      obtain ⟨fresh, distinct⟩ := List.nodup_cons.mp distinct
      simp only [List.map_cons, List.sum_cons]
      rcases List.mem_cons.mp member with rfl | member
      · have others : (jobs.map fun k => (Function.update stage j next k).weight) =
            jobs.map fun k => (stage k).weight := by
          refine List.map_congr_left fun k there => ?_
          rw [Function.update_of_ne (by rintro rfl; exact fresh there)]
        rw [others, Function.update_self]
        omega
      · have other : k ≠ j := by
          rintro rfl
          exact fresh member
        have rest := ih distinct member
        rw [Function.update_of_ne other]
        omega

omit [Fintype W] in
theorem At.mem {j : J} {stage : Stage W E} (here : At s j stage) (present : stage ≠ .absent) :
    j ∈ s.enqueued := by
  have count := here.enqueued
  rw [if_neg present] at count
  exact List.count_pos_iff.mp (by omega)

omit [Fintype W] in
theorem Placed.distinct (placed : Placed s) : s.enqueued.Nodup := by
  apply List.nodup_iff_count_le_one.mpr
  intro j
  rw [(placed.here j).enqueued]
  split_ifs <;> omega

/-- A step that neither brings a new job nor wakes a worker for no reason. -/
def Action.Onward : Action W J E R → Prop
  | .enqueue _ | .spurious _ => False
  | _ => True

omit [DecidableEq J] [DecidableEq E] in
/-- What a worker does lowers the effort. -/
theorem effort_worker {w : W} {p : Pc J} (same : t.pc = Function.update s.pc w p)
    (lower : p.rank < (s.pc w).rank) (enqueued : t.enqueued = s.enqueued)
    (stage : t.stage = s.stage) (notifies : t.notifies = s.notifies) (dtor : t.dtor = s.dtor) :
    effort t < effort s := by
  have sum := sum_rank_update s.pc w p
  rw [← same] at sum
  simp only [effort, enqueued, stage, notifies, dtor]
  omega

/-- What happens to a job lowers the effort, and a worker may have more to do by less. -/
theorem effort_job {j : J} {next : Stage W E} (placed : Placed s) (present : s.stage j ≠ .absent)
    (stage : t.stage = Function.update s.stage j next) (enqueued : t.enqueued = s.enqueued)
    (lower : ∑ w, (t.pc w).rank + next.weight < ∑ w, (s.pc w).rank + (s.stage j).weight)
    (notifies : t.notifies = s.notifies) (dtor : t.dtor = s.dtor) : effort t < effort s := by
  have sum := sum_weight_update s.stage j next placed.distinct ((placed.here j).mem present)
  rw [← stage] at sum
  simp only [effort, enqueued, notifies, dtor]
  omega

omit [DecidableEq W] in
theorem sum_rank_notifyAll (pc : W → Pc J) :
    ∑ w, ((cv J).notifyAll pc w).rank ≤ ∑ w, (pc w).rank + 4 * Fintype.card W := by
  have each : ∀ w ∈ Finset.univ, ((cv J).notifyAll pc w).rank ≤ (pc w).rank + 4 := by
    intro w _
    simp only [CondVar.notifyAll]
    split_ifs with blocked
    · rw [blocked]
      simp [cv, Pc.rank]
    · omega
  have bound := Finset.sum_le_sum each
  rw [Finset.sum_add_distrib, Finset.sum_const, Finset.card_univ] at bound
  exact bound.trans (by rw [Nat.nsmul_eq_mul, Nat.mul_comm])

theorem effort_lt {a : Action W J E R} (placed : Placed s) (onward : a.Onward)
    (run : step exec s a = some t) : effort t < effort s := by
  cases a with
  | enqueue j => exact onward.elim
  | spurious w => exact onward.elim
  | notifyOne chosen =>
      obtain ⟨pending, run⟩ := Option.ite_none_right_eq_some.mp run
      obtain ⟨pc, wakes, rfl⟩ := Option.map_eq_some_iff.mp run
      rcases CondVar.notifyOne_inv wakes with ⟨w, blocked, rfl⟩ | ⟨rfl, _⟩
      · have sum := sum_rank_update s.pc w (cv J).woken
        rw [blocked] at sum
        change _ + 1 = _ + 5 at sum
        simp only [effort]
        omega
      · simp only [effort]
        omega
  | lock w =>
      simp only [DnsResolver.step] at run
      split at run <;> cases run
      next here _ => exact effort_worker rfl (by simp [here, Pc.rank]) rfl rfl rfl rfl
  | check w =>
      simp only [DnsResolver.step] at run
      split at run <;> cases run
      next here =>
        split_ifs <;> exact effort_worker rfl (by simp [here, Pc.rank]) rfl rfl rfl rfl
  | block w =>
      simp only [DnsResolver.step] at run
      split at run <;> cases run
      next here => exact effort_worker rfl (by simp [here, Pc.rank]) rfl rfl rfl rfl
  | relock w =>
      simp only [DnsResolver.step] at run
      split at run <;> cases run
      next here _ => exact effort_worker rfl (by simp [here, Pc.rank]) rfl rfl rfl rfl
  | take w =>
      simp only [DnsResolver.step] at run
      split at run
      next here _ =>
        obtain ⟨_, run⟩ := Option.ite_none_right_eq_some.mp run
        cases run
        exact effort_worker rfl (by simp [here, Pc.rank]) rfl rfl rfl rfl
      next j rest here work =>
        cases run
        have queued : s.stage j = .queued := by
          have count := (placed.here j).queued
          by_contra elsewhere
          simp [work, elsewhere] at count
        have sum := sum_rank_update s.pc w (.resolving j)
        refine effort_job (j := j) placed (by simp [queued]) rfl rfl ?_ rfl rfl
        simp only [State.setPc, State.setStage, queued, Stage.weight]
        rw [here] at sum
        change _ + 3 = _ + 8 at sum
        omega
      next => cases run
  | resolve w answer =>
      simp only [DnsResolver.step] at run
      split at run <;> cases run
      next j here =>
        have at_w := ((placed.here j).resolving w).mp here
        have sum := sum_rank_update s.pc w (.posting j)
        refine effort_job (j := j) placed (by simp [at_w]) rfl rfl ?_ rfl rfl
        simp only [State.setPc, State.setStage, at_w, Stage.weight]
        rw [here] at sum
        change _ + 8 = _ + 7 at sum
        omega
  | postResult w =>
      simp only [DnsResolver.step] at run
      split at run <;> cases run
      next j here =>
        have at_j := placed.here j
        have at_w := (at_j.posting w).mp here
        have sum := sum_rank_update s.pc w .locking
        rw [here] at sum
        change _ + 7 = _ + 6 at sum
        cases exec j with
        | some e =>
            refine effort_job (j := j) placed (by simp [at_w]) rfl rfl ?_ rfl rfl
            simp only [DnsResolver.postResult, State.setPc, State.setStage, at_w, Stage.weight]
            omega
        | none =>
            rw [at_w] at at_j
            have handle : (s.job j).continuation = true := at_j.continuation (by simp) (by simp)
            simp only [DnsResolver.postResult, State.setPc, handle, if_true]
            refine effort_job (j := j) placed (by simp [at_w]) rfl rfl ?_ rfl rfl
            simp only [State.resume, State.setStage, at_w, Stage.weight]
            omega
  | takeNode e =>
      simp only [DnsResolver.step] at run
      split at run <;> cases run
      next j rest nodes =>
        have posted : s.stage j = .posted e := by
          have count := (placed.here j).posted e
          by_contra elsewhere
          simp [nodes, elsewhere] at count
        refine effort_job (j := j) placed (by simp [posted]) rfl rfl ?_ rfl rfl
        simp [State.setStage, posted, Stage.weight]
  | run j =>
      obtain ⟨member, run⟩ := Option.ite_none_right_eq_some.mp run
      cases run
      have running : s.stage j = .running := by
        by_contra elsewhere
        have none := (placed.here j).running
        rw [if_neg elsewhere] at none
        exact absurd member (List.count_eq_zero.mp none)
      have handle : (s.job j).continuation = true :=
        (placed.here j).continuation (by simp [running]) (by simp [running])
      simp only [runNode, handle, if_true]
      refine effort_job (j := j) placed (by simp [running]) rfl rfl ?_ rfl rfl
      simp [State.resume, State.setStage, running, Stage.weight]
  | stop =>
      obtain ⟨⟨_, notCalled⟩, run⟩ := Option.ite_none_right_eq_some.mp run
      cases run
      simp only [effort, notCalled, Dtor.weight]
      omega
  | notifyAll =>
      obtain ⟨stopped, run⟩ := Option.ite_none_right_eq_some.mp run
      cases run
      have bound := sum_rank_notifyAll s.pc
      simp only [effort, stopped, Dtor.weight]
      omega
  | join =>
      obtain ⟨⟨notified, _⟩, run⟩ := Option.ite_none_right_eq_some.mp run
      cases run
      simp only [effort, notified, Dtor.weight]
      omega

/-! ## What every run delivers -/

omit [Fintype W] in
theorem Placed.taken {j : J} {w : W} (placed : Placed s) (taken : (w, j) ∈ s.takes) (u : W)
    (again : (u, j) ∈ s.takes) : u = w := by
  have distinct := placed.distinct
  rw [placed.fifo] at distinct
  have one := List.inj_on_of_nodup_map (List.nodup_append.mp distinct).1 again taken rfl
  exact congrArg Prod.fst one

omit [Fintype W] in
theorem Placed.taken_of_resumed {j : J} (placed : Placed s) (resumed : s.stage j = .resumed) :
    ∃ w, (w, j) ∈ s.takes := by
  have here := placed.here j
  rw [resumed] at here
  have member := here.mem (by simp)
  have away : j ∉ s.queue := List.count_eq_zero.mp here.queued
  rw [placed.fifo, List.mem_append, or_iff_left away] at member
  obtain ⟨⟨w, k⟩, taken, rfl⟩ := List.mem_map.mp member
  exact ⟨w, taken⟩

omit [Fintype W] in
theorem Placed.delivered (placed : Placed s) (synced : Synced s.shared) : Delivered s where
  fifo := placed.fifo
  distinct := placed.distinct
  once := by
    intro j
    rw [(placed.here j).resumes]
    split_ifs <;> omega
  stored := by
    intro j result member
    obtain ⟨answer, stored, known⟩ := placed.stored j result member
    have resumed : s.stage j = .resumed := by
      by_contra not_yet
      have none := (placed.here j).resumes
      rw [if_neg not_yet, List.count_eq_zero] at none
      exact none (List.mem_map.mpr ⟨_, member, rfl⟩)
    exact ⟨answer, stored, known, placed.taken_of_resumed resumed⟩
  answered := by
    intro j
    rw [(placed.here j).answers]
    split_ifs <;> omega
  exits := synced.exited

/-- No step is possible but a new job, a spurious wake-up and the call of the destructor. -/
def AtRest (exec : J → Option E) (s : State W J E R) : Prop :=
  ∀ a : Action W J E R, a.Onward → a ≠ .stop → step exec s a = none

section Rest

variable (synced : Synced s.shared) (rest : AtRest exec s)
include synced rest

theorem free_of_rest : s.holder = none := by
  cases held : s.holder with
  | none => rfl
  | some w =>
      have inside := (synced.exclusive w).mpr held
      cases here : s.pc w with
      | checking =>
          have checks := rest (.check w) trivial (by simp)
          simp [step, here] at checks
      | deciding =>
          have blocks := rest (.block w) trivial (by simp)
          simp [step, here] at blocks
      | taking =>
          have takes := rest (.take w) trivial (by simp)
          cases queue : s.queue with
          | nil =>
              have set : s.stop = true := by
                rcases synced.taking w here with set | work
                · exact set
                · exact absurd queue work
              simp [step, here, queue, set] at takes
          | cons j rest => simp [step, here, queue] at takes
      | locking | blocked | woken | exited | resolving | posting =>
          simp [State.shared, here, Pc.Inside] at inside

theorem asleep_of_rest [Inhabited R] (w : W) : s.pc w = .blocked ∨ s.pc w = .exited := by
  have free := free_of_rest synced rest
  cases here : s.pc w with
  | blocked => exact .inl rfl
  | exited => exact .inr rfl
  | locking =>
      have locks := rest (.lock w) trivial (by simp)
      simp [step, here, free] at locks
  | woken =>
      have locks := rest (.relock w) trivial (by simp)
      simp [step, here, free] at locks
  | resolving j =>
      have resolves := rest (.resolve w default) trivial (by simp)
      simp [step, here] at resolves
  | posting j =>
      have posts := rest (.postResult w) trivial (by simp)
      simp [step, here] at posts
  | checking | deciding | taking =>
      have inside := (synced.exclusive w).mp (by simp [State.shared, here, Pc.Inside])
      rw [show s.shared.holder = none from free] at inside
      cases inside

omit synced in
theorem notified_of_rest : s.notifies = 0 := by
  by_contra pending
  by_cases someone : ∃ w, s.pc w = .blocked
  · obtain ⟨w, blocked⟩ := someone
    have wakes := rest (.notifyOne (some w)) trivial (by simp)
    simp [step, CondVar.notifyOne, cv, blocked, Nat.pos_of_ne_zero pending] at wakes
  · have wakes := rest (.notifyOne none) trivial (by simp)
    have nobody : ∀ w, s.pc w ≠ .blocked := fun w blocked => someone ⟨w, blocked⟩
    simp [step, CondVar.notifyOne, cv, nobody, Nat.pos_of_ne_zero pending] at wakes

theorem empty_of_rest [Inhabited R] : s.queue = [] := by
  by_contra work
  rcases synced.served work with pending | ⟨w, awake⟩
  · have none := notified_of_rest rest
    simp only [State.shared] at pending
    omega
  · rcases asleep_of_rest synced rest w with blocked | exited
    · exact awake blocked
    · exact work (synced.exited w exited).2

theorem joined_of_rest [Inhabited R] (set : s.stop = true) : s.dtor = .joined := by
  cases dtor : s.dtor with
  | notCalled => exact absurd dtor (synced.dtor.mp set)
  | stopped =>
      have notifies := rest .notifyAll trivial (by simp)
      simp [step, dtor] at notifies
  | notified =>
      have exits : ∀ w, s.pc w = .exited := fun w =>
        (asleep_of_rest synced rest w).resolve_left (synced.late (.inl dtor) w)
      have joins := rest .join trivial (by simp)
      simp [step, dtor, exits] at joins
  | joined => rfl

/-- Where a run cannot go on, every job has come to its end. -/
theorem resumed_of_rest [Inhabited R] {j : J} {stage : Stage W E} (here : At s j stage)
    (present : stage ≠ .absent) : stage = .resumed := by
  cases stage with
  | absent => exact absurd rfl present
  | resumed => rfl
  | queued =>
      have count := here.queued
      simp [empty_of_rest synced rest] at count
  | resolving w =>
      have at_w := (here.resolving w).mpr rfl
      rcases asleep_of_rest synced rest w with asleep | asleep <;> simp [at_w] at asleep
  | posting w =>
      have at_w := (here.posting w).mpr rfl
      rcases asleep_of_rest synced rest w with asleep | asleep <;> simp [at_w] at asleep
  | posted e =>
      have count := here.posted e
      have takes := rest (.takeNode e) trivial (by simp)
      cases nodes : s.nodes e with
      | nil => simp [nodes] at count
      | cons k rest => simp [step, nodes] at takes
  | running =>
      have count := here.running
      have member : j ∈ s.running := List.count_pos_iff.mp (by simp [count])
      have runs := rest (.run j) trivial (by simp)
      simp [step, member] at runs

theorem complete_of_rest [Inhabited R] (placed : Placed s) : Complete s where
  taken := by
    intro j member
    have here := placed.here j
    have present : s.stage j ≠ .absent := by
      intro absent
      rw [absent] at here
      exact absurd member (List.count_eq_zero.mp here.enqueued)
    obtain ⟨w, taken⟩ := placed.taken_of_resumed (resumed_of_rest synced rest here present)
    exact ⟨w, taken, placed.taken taken⟩
  resumed := by
    intro j member
    have here := placed.here j
    have present : s.stage j ≠ .absent := by
      intro absent
      rw [absent] at here
      exact absurd member (List.count_eq_zero.mp here.enqueued)
    rw [here.resumes, if_pos (resumed_of_rest synced rest here present)]
  joined := joined_of_rest synced rest

end Rest

theorem reachable_placed (h : (resolver W R exec).Reachable s) : Placed s := by
  refine h.invariant (I := Placed) ?_ fun _ _ _ placed _ run => placed.step run
  intro s initial
  cases initial
  exact placed_started

theorem reachable_synced [Inhabited W] (h : (resolver W R exec).Reachable s) :
    Synced s.shared := by
  refine h.invariant (I := fun s => Synced s.shared) ?_ fun _ _ _ synced _ run => synced.step run
  intro s initial
  cases initial
  exact synced_started

/-- Every job is taken by one worker, in the order of the calls, and its continuation is resumed
once, behind its own answer; no worker exits with a job in the deque.  Every run comes to an end
when no new jobs come, and there all the jobs are done. -/
theorem each_job_once [Inhabited W] [Inhabited R] (exec : J → Option E) :
    (∀ s, (resolver W R exec).Reachable s → Delivered s) ∧
      (∀ s, (resolver W R exec).Reachable s → AtRest exec s → Complete s) ∧
      WellFounded fun t s => (resolver W R exec).Reachable s ∧
        ∃ a : Action W J E R, a.Onward ∧ (resolver W R exec).step s a = some t := by
  refine ⟨?_, ?_, ?_⟩
  · intro s reach
    exact (reachable_placed reach).delivered (reachable_synced reach)
  · intro s reach rest
    exact complete_of_rest (reachable_synced reach) rest (reachable_placed reach)
  · apply Subrelation.wf (r := InvImage (· < ·) effort) _ (InvImage.wf effort wellFounded_lt)
    rintro t s ⟨reach, a, onward, run⟩
    exact effort_lt (reachable_placed reach) onward run

end CoWq.DnsResolver
