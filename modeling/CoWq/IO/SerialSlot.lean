import CoWq.IO.IoSerial

/-!
# The serial slot of an open socket

* `Open`: no step of a close; the owner stays open.
* `Fifo`: the slot is taken in the order of the calls, by one awaiter at a time.
* `serialSlot`: mutual exclusion, order and completion, over every run of an open
  socket.
-/

namespace CoWq.IoSerial

open Workqueue

variable {A : Type*} [DecidableEq A] {s t : State A}

/-- The steps of an owner that is not being closed. -/
def Open (_ : State A) (a : Action A) : Prop := a ≠ .removeFd

instance (s : State A) (a : Action A) : Decidable (Open s a) :=
  inferInstanceAs (Decidable (a ≠ .removeFd))

/-- The slot was granted in the order of the calls, and of the grants only the
last one can still lack its release; it does exactly while the slot is locked. -/
structure Fifo (s : State A) : Prop where
  order : s.grants ++ s.waiters = s.calls
  taken : s.locked = true → ∃ a, s.grants = s.releases ++ [a]
  free : s.locked = false → s.grants = s.releases ∧ s.waiters = []
  opened : s.closer = .idle ∧ s.fdValid = true

omit [DecidableEq A] in
theorem Fifo.init (start : init s) : Fifo s := by
  obtain ⟨locked, waiters, -, -, -, -, closer, fdValid, calls, grants, releases, -⟩ := start
  refine ⟨?_, ?_, ?_, closer, fdValid⟩
  · rw [grants, waiters, calls, List.append_nil]
  · intro taken
    rw [locked] at taken
    cases taken
  · exact fun _ => ⟨by rw [grants, releases], waiters⟩

omit [DecidableEq A] in
/-- The holder is the awaiter of the last grant. -/
theorem Fifo.holder (h : Fifo s) {a : A} (holds : Holds s a) :
    s.locked = true ∧ s.grants = s.releases ++ [a] := by
  cases locked : s.locked with
  | false =>
      rw [Holds, (h.free locked).1] at holds
      exact (holds.2 holds.1).elim
  | true =>
      obtain ⟨b, last⟩ := h.taken locked
      have mem := holds.1
      rw [last, List.mem_append, List.mem_singleton] at mem
      exact ⟨rfl, (mem.resolve_left holds.2) ▸ last⟩

theorem Fifo.awaitSuspend (h : Fifo s) {a : A} (run : step s (.awaitSuspend a) = some t) :
    Fifo t := by
  obtain ⟨-, calls, releases, -, closer, fdValid, taken | queued⟩ := awaitSuspend_slot run
  · obtain ⟨free, none', locked, waiters, grants⟩ := taken
    have order := h.order
    rw [none', List.append_nil] at order
    refine ⟨?_, fun _ => ⟨a, ?_⟩, fun free' => ?_, ?_⟩
    · rw [grants, waiters, calls, order, List.append_nil]
    · rw [grants, releases, (h.free free).1]
    · rw [locked] at free'
      cases free'
    · rw [closer, fdValid]
      exact h.opened
  · obtain ⟨busy, locked, waiters, grants⟩ := queued
    refine ⟨?_, ?_, fun free => ?_, ?_⟩
    · rw [grants, waiters, calls, ← h.order, List.append_assoc]
    · rw [locked, grants, releases]
      exact h.taken
    · rw [locked] at free
      exact (busy ⟨free, (h.free free).2⟩).elim
    · rw [closer, fdValid]
      exact h.opened

theorem Fifo.serialRelease (h : Fifo s) {a : A} (holds : Holds s a)
    (run : step s (.serialRelease a) = some t) : Fifo t := by
  obtain ⟨locked, last⟩ := h.holder holds
  obtain ⟨-, calls, releases, -, closer, fdValid, unlocked | granted⟩ := serialRelease_slot run
  · obtain ⟨none', free, waiters, grants⟩ := unlocked
    refine ⟨?_, fun taken => ?_, fun _ => ⟨?_, waiters⟩, ?_⟩
    · rw [grants, waiters, calls, ← h.order, none']
    · rw [free] at taken
      cases taken
    · rw [grants, releases, last]
    · rw [closer, fdValid]
      exact h.opened
  · obtain ⟨n, waiters, same, grants⟩ := granted
    refine ⟨?_, fun _ => ⟨n, ?_⟩, fun free => ?_, ?_⟩
    · rw [grants, calls, ← h.order, waiters, List.append_assoc, List.singleton_append]
    · rw [grants, releases, last]
    · rw [same, locked] at free
      cases free
    · rw [closer, fdValid]
      exact h.opened

theorem Fifo.step {a : Action A} (h : Fifo s) (placed : Placed s) (opened : Open s a)
    (run : step s a = some t) : Fifo t := by
  cases quiet : a.touchesSlot with
  | false =>
      obtain ⟨locked, waiters, calls, grants, releases, -, closer, fdValid⟩ := step_slot quiet run
      constructor
      · rw [grants, waiters, calls]
        exact h.order
      · rw [locked, grants, releases]
        exact h.taken
      · rw [locked, grants, releases, waiters]
        exact h.free
      · rw [closer, fdValid]
        exact h.opened
  | true =>
      cases a with
      | awaitSuspend a => exact h.awaitSuspend run
      | serialRelease a =>
          obtain ⟨place, -⟩ := serialRelease_slot run
          exact h.serialRelease ((placed.recorded.holds a).mpr (by rw [place]; rfl)) run
      | removeFd => exact (opened rfl).elim
      | collectWaiters => simp [IoSerial.step, h.opened.1] at run
      | postPending => simp [IoSerial.step, h.opened.1] at run
      | reinit fdValid => simp [IoSerial.step, h.opened.2] at run
      | _ => cases quiet

theorem Fifo.via (run : machine.Via Open s) : Fifo s :=
  run.invariant_reach (fun _ => Fifo.init) fun _ _ _ before h opened step =>
    h.step (Placed.via before) opened step

omit [DecidableEq A] in
/-- On an open socket nobody is resumed without having had the slot. -/
theorem Fifo.owned (h : Fifo s) (placed : Placed s) (a : A) : s.phase a ≠ .resuming := by
  intro place
  have called : a ∈ s.calls := by
    by_contra out
    rw [(placed.recorded.called a).mpr out] at place
    cases place
  rw [← h.order, List.mem_append] at called
  rcases called with granted | waits
  · by_cases released : a ∈ s.releases
    · have behind := (placed.recorded.past a released).2
      rw [place] at behind
      cases behind
    · have holds := (placed.recorded.holds a).mp ⟨granted, released⟩
      rw [place] at holds
      cases holds
  · rw [placed.linked.waiting a waits] at place
    cases place

/-- **The serial slot.**  In every state an open socket reaches: at most one awaiter
is between its acquisition and its release, and none with the slot unlocked, when
nobody waits either; the grants are the calls in their order, up to the awaiters
that still wait; `attempt_once` is only run by the holder; and an awaiter that
completes was granted the slot, released it and was resumed exactly once. -/
theorem serialSlot (run : machine.Via Open s) :
    (∀ a b, Holds s a → Holds s b → a = b) ∧
      (s.locked = false → (∀ a, ¬ Holds s a) ∧ s.waiters = []) ∧
      s.grants ++ s.waiters = s.calls ∧
      (∀ a r t, step s (.attemptOnce a r) = some t → Holds s a) ∧
      (∀ a, s.grants.count a ≤ 1 ∧ s.releases.count a ≤ 1 ∧ s.resumes.count a ≤ 1) ∧
      ∀ a, s.phase a = .resumed →
        s.grants.count a = 1 ∧ s.releases.count a = 1 ∧ s.resumes.count a = 1 := by
  have h := Fifo.via run
  have placed := (Placed.via run).recorded
  have nodup := placed.nodup
  refine ⟨fun a b holdsA holdsB => ?_, fun free => ⟨fun a holds => ?_, (h.free free).2⟩, h.order,
    fun a r t step => ?_, fun a => ⟨?_, ?_, ?_⟩, fun a done => ?_⟩
  · have same := (h.holder holdsA).2.symm.trans (h.holder holdsB).2
    simpa using List.append_cancel_left same
  · rw [(h.holder holds).1] at free
    cases free
  · simp only [IoSerial.step, Option.ite_none_right_eq_some] at step
    exact (placed.holds a).mpr (by rw [step.1]; rfl)
  · exact List.nodup_iff_count_le_one.mp nodup.2.1 a
  · exact List.nodup_iff_count_le_one.mp nodup.2.2.1 a
  · exact List.nodup_iff_count_le_one.mp nodup.2.2.2 a
  · -- it called, does not wait, and does not hold: so it was granted and released
    have called : a ∈ s.calls := by
      by_contra out
      rw [(placed.called a).mpr out] at done
      cases done
    rw [← h.order, List.mem_append] at called
    have granted : a ∈ s.grants := called.resolve_right fun waits => by
      rw [(Placed.via run).linked.waiting a waits] at done
      cases done
    have released : a ∈ s.releases := by
      by_contra out
      have holds := (placed.holds a).mp ⟨granted, out⟩
      rw [done] at holds
      cases holds
    exact ⟨List.count_eq_one_of_mem nodup.2.1 granted,
      List.count_eq_one_of_mem nodup.2.2.1 released,
      List.count_eq_one_of_mem nodup.2.2.2 ((placed.resumed a).mpr done)⟩

/-! ## A run -/

/-- A socket nobody has used yet. -/
def start : State A where
  locked := false
  waiters := []
  wsHead := []
  reactor := []
  cbq := []
  func := fun _ => .lockAcquiredCb
  phase := fun _ => .fresh
  closer := .idle
  fdValid := true
  calls := []
  grants := []
  releases := []
  resumes := []
  epoch := []

omit [DecidableEq A] in
theorem start_init : init (start : State A) :=
  ⟨rfl, rfl, rfl, rfl, rfl, fun _ => rfl, rfl, rfl, rfl, rfl, rfl, rfl, rfl⟩

/-- The second of two awaiters gets the slot when the first one, woken through the
callback queue, is done. -/
def handOver : List (Action Nat) :=
  [.awaitSuspend 0, .awaitSuspend 1, .workOnce, .attemptOnce 0 .wouldBlock, .registerWait 0,
    .wake 0 true, .cbqRun, .attemptOnce 0 .progress, .attemptOnce 0 .done, .serialRelease 0,
    .postNext 0, .resume 0, .workOnce]

theorem serialSlot_handOver : ∃ s : State Nat, machine.execOk Open start handOver = some s ∧
    s.phase 1 = .running ∧ s.grants ++ s.waiters = s.calls ∧ s.resumes.count 0 = 1 ∧
    ∀ a b, Holds s a → Holds s b → a = b := by
  obtain ⟨s, run, phase, done⟩ : ∃ s, machine.execOk Open start handOver = some s ∧
      s.phase 1 = .running ∧ s.phase 0 = .resumed := ⟨_, rfl, rfl, rfl⟩
  obtain ⟨one, -, order, -, -, complete⟩ := serialSlot (Machine.Via.execOk (.init start_init) run)
  exact ⟨s, run, phase, order, (complete 0 done).2.2, one⟩

end CoWq.IoSerial
