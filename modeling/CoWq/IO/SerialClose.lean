import CoWq.IO.SerialSlot

/-!
# Closing a socket while its slot is taken

`close_fd` collects the waiters and unlocks the slot, whoever holds it, and the
move assignment resets the queue once more.  An awaiter caught in the slot runs
on and releases it later.

* `Settled`: no awaiter waits for the slot to be given to it while another is
  still caught in it.
* `Exclusive`: one holder, and an unlocked slot with a holder is one that was
  reset.
* `exclusive_of_settled`: over settled runs the slot stays exclusive.
* `not_exclusive_after_close`: over other runs it does not.
-/

namespace CoWq.IoSerial

variable {A : Type*} [DecidableEq A] {s t : State A}

/-- An `await_suspend` is made when every acquisition from before the last reset
of the slot has been released. -/
def Settled (s : State A) : Action A → Prop
  | .awaitSuspend _ => ∀ a ∈ s.epoch, a ∈ s.releases
  | _ => True

/-- The slot has one holder at most.  While it is unlocked, the holder is one of
before the last reset; while it is locked, these have all released it. -/
structure Exclusive (s : State A) : Prop where
  one : ∀ a b, Holds s a → Holds s b → a = b
  free : s.locked = false → ∀ a, Holds s a → a ∈ s.epoch
  taken : s.locked = true → ∀ a ∈ s.epoch, a ∈ s.releases
  queue : s.waiters ≠ [] → s.locked = true

omit [DecidableEq A] in
theorem Exclusive.init (start : init s) : Exclusive s := by
  obtain ⟨locked, waiters, -, -, -, -, -, -, -, grants, -, -, -⟩ := start
  constructor <;> simp [Holds, grants, locked, waiters]

theorem Exclusive.awaitSuspend (h : Exclusive s) {a : A}
    (settled : Settled s (.awaitSuspend a)) (run : step s (.awaitSuspend a) = some t) :
    Exclusive t := by
  obtain ⟨-, -, releases, epoch, -, -, taken | queued⟩ := awaitSuspend_slot run
  · obtain ⟨free, -, locked, waiters, grants⟩ := taken
    -- whoever held the unlocked slot has released it by now
    have nobody : ∀ b, ¬ Holds s b := fun b holds => holds.2 (settled b (h.free free b holds))
    have holder : ∀ b, Holds t b → b = a := by
      intro b holds
      rw [Holds, grants, releases, List.mem_append, List.mem_singleton] at holds
      exact holds.1.resolve_left fun before => nobody b ⟨before, holds.2⟩
    refine ⟨fun b c hb hc => (holder b hb).trans (holder c hc).symm, fun free' => ?_, fun _ => ?_,
      fun _ => locked⟩
    · rw [locked] at free'
      cases free'
    · rw [epoch, releases]
      exact settled
  · obtain ⟨busy, locked, waiters, grants⟩ := queued
    have same : ∀ b, Holds t b ↔ Holds s b := fun b => by rw [Holds, Holds, grants, releases]
    have isLocked : s.locked = true := by
      cases unlocked : s.locked with
      | true => rfl
      | false =>
          by_cases none' : s.waiters = []
          · exact (busy ⟨unlocked, none'⟩).elim
          · exact unlocked ▸ h.queue none'
    refine ⟨fun b c hb hc => h.one b c ((same b).mp hb) ((same c).mp hc), fun free => ?_,
      fun _ => ?_, fun _ => locked.trans isLocked⟩
    · rw [locked, isLocked] at free
      cases free
    · rw [epoch, releases]
      exact h.taken isLocked

theorem Exclusive.serialRelease (h : Exclusive s) {a : A} (holds : Holds s a)
    (run : step s (.serialRelease a) = some t) : Exclusive t := by
  obtain ⟨-, -, releases, epoch, -, -, unlocked | granted⟩ := serialRelease_slot run
  · obtain ⟨-, free, waiters, grants⟩ := unlocked
    have nobody : ∀ b, ¬ Holds t b := by
      intro b still
      rw [Holds, grants, releases, List.mem_append, List.mem_singleton, not_or] at still
      exact still.2.2 (h.one b a ⟨still.1, still.2.1⟩ holds)
    refine ⟨fun b _ hb => (nobody b hb).elim, fun _ b hb => (nobody b hb).elim, fun taken => ?_,
      fun some' => (some' waiters).elim⟩
    rw [free] at taken
    cases taken
  · obtain ⟨n, waiters, same, grants⟩ := granted
    have locked : s.locked = true := h.queue (by simp [waiters])
    have holder : ∀ b, Holds t b → b = n := by
      intro b still
      rw [Holds, grants, releases, List.mem_append, List.mem_singleton, List.mem_append,
        List.mem_singleton, not_or] at still
      exact still.1.resolve_left fun before =>
        still.2.2 (h.one b a ⟨before, still.2.1⟩ holds)
    refine ⟨fun b c hb hc => (holder b hb).trans (holder c hc).symm, fun free => ?_,
      fun _ b mem => ?_, fun _ => same.trans locked⟩
    · rw [same, locked] at free
      cases free
    · rw [releases, List.mem_append]
      exact .inl (h.taken locked b (epoch ▸ mem))

omit [DecidableEq A] in
/-- A reset keeps the holders, all of whom now count as caught in the slot. -/
theorem Exclusive.reset (h : Exclusive s) (locked : t.locked = false) (waiters : t.waiters = [])
    (grants : t.grants = s.grants) (releases : t.releases = s.releases)
    (epoch : t.epoch = s.grants) : Exclusive t := by
  have same : ∀ b, Holds t b ↔ Holds s b := fun b => by rw [Holds, Holds, grants, releases]
  refine ⟨fun b c hb hc => h.one b c ((same b).mp hb) ((same c).mp hc), fun _ b hb => ?_,
    fun taken => ?_, fun some' => (some' waiters).elim⟩
  · rw [epoch]
    exact ((same b).mp hb).1
  · rw [locked] at taken
    cases taken

omit [DecidableEq A] in
theorem Exclusive.kept (h : Exclusive s) (locked : t.locked = s.locked)
    (waiters : t.waiters = s.waiters) (grants : t.grants = s.grants)
    (releases : t.releases = s.releases) (epoch : t.epoch = s.epoch) : Exclusive t := by
  constructor
  · intro a b
    rw [Holds, Holds, grants, releases]
    exact h.one a b
  · intro free a
    rw [Holds, grants, releases, epoch]
    exact h.free (locked ▸ free) a
  · rw [locked, releases, epoch]
    exact h.taken
  · rw [waiters, locked]
    exact h.queue

theorem Exclusive.step {a : Action A} (h : Exclusive s) (placed : Placed s)
    (settled : Settled s a) (run : step s a = some t) : Exclusive t := by
  cases quiet : a.touchesSlot with
  | false =>
      obtain ⟨locked, waiters, -, grants, releases, epoch, -⟩ := step_slot quiet run
      exact h.kept locked waiters grants releases epoch
  | true =>
      cases a with
      | awaitSuspend a => exact h.awaitSuspend settled run
      | serialRelease a =>
          obtain ⟨place, -⟩ := serialRelease_slot run
          exact h.serialRelease ((placed.recorded.holds a).mpr (by rw [place]; rfl)) run
      | removeFd =>
          simp only [IoSerial.step, Option.ite_none_right_eq_some, Option.some.injEq] at run
          obtain ⟨-, rfl⟩ := run
          exact h.kept rfl rfl rfl rfl rfl
      | collectWaiters =>
          simp only [IoSerial.step, Option.ite_none_right_eq_some, Option.some.injEq] at run
          obtain ⟨-, rfl⟩ := run
          exact h.reset rfl rfl rfl rfl rfl
      | postPending =>
          simp only [IoSerial.step] at run
          split at run <;> cases run
          exact h.kept rfl rfl rfl rfl rfl
      | reinit fdValid =>
          simp only [IoSerial.step, Option.ite_none_right_eq_some, Option.some.injEq] at run
          obtain ⟨-, rfl⟩ := run
          exact h.reset rfl rfl rfl rfl rfl
      | _ => cases quiet

/-- **Closing keeps the slot exclusive as long as nobody asks for it too early**: when
every `await_suspend` is made with no earlier holder still caught in the slot, at
most one awaiter is between its acquisition and its `serial_release`. -/
theorem exclusive_of_settled (run : machine.Via Settled s) (a b : A) (holdsA : Holds s a)
    (holdsB : Holds s b) : a = b := by
  have kept : Exclusive s := run.invariant_reach (fun _ => Exclusive.init)
    fun _ _ _ before h settled step => h.step (Placed.via before) settled step
  exact kept.one a b holdsA holdsB

/-! ## Runs -/

instance (s : State A) (a : Action A) : Decidable (Settled s a) :=
  match a with
  | .awaitSuspend _ => inferInstanceAs (Decidable (∀ a ∈ s.epoch, a ∈ s.releases))
  | .workOnce => .isTrue trivial
  | .cbqRun => .isTrue trivial
  | .attemptOnce _ _ => .isTrue trivial
  | .registerWait _ => .isTrue trivial
  | .wake _ _ => .isTrue trivial
  | .serialRelease _ => .isTrue trivial
  | .postNext _ => .isTrue trivial
  | .resume _ => .isTrue trivial
  | .removeFd => .isTrue trivial
  | .collectWaiters => .isTrue trivial
  | .postPending => .isTrue trivial
  | .reinit _ => .isTrue trivial

/-- A socket is closed while an awaiter is armed in the reactor, and reused. -/
def closeArmed : List (Action Nat) :=
  [.awaitSuspend 0, .workOnce, .attemptOnce 0 .wouldBlock, .registerWait 0, .removeFd,
    .collectWaiters, .postPending, .reinit true]

/-- The awaiter caught by the close releases the slot before the next one asks for it. -/
theorem exclusive_of_settled_closeArmed : ∃ s : State Nat,
    machine.execOk Settled start (closeArmed ++ ([.wake 0 true, .cbqRun, .attemptOnce 0 .done,
      .serialRelease 0, .awaitSuspend 1, .awaitSuspend 2] : List (Action Nat))) = some s ∧
    Holds s 1 ∧ ∀ a, Holds s a → a = 1 := by
  obtain ⟨s, run, holds⟩ : ∃ s, machine.execOk Settled start (closeArmed ++ ([.wake 0 true,
      .cbqRun, .attemptOnce 0 .done, .serialRelease 0, .awaitSuspend 1, .awaitSuspend 2] :
      List (Action Nat))) = some s ∧ Holds s 1 := ⟨_, rfl, by unfold Holds; decide⟩
  exact ⟨s, run, holds, fun a holdsA =>
    exclusive_of_settled (Machine.Via.execOk (.init start_init) run) a 1 holdsA holds⟩

/-- The next awaiter asks for the slot while the one caught by the close is still
armed: both hold it. -/
theorem not_exclusive_after_close : ¬ ∀ s : State Nat, machine.Reachable s →
    ∀ a b, Holds s a → Holds s b → a = b := by
  intro exclusive
  obtain ⟨s, run, first, second⟩ : ∃ s : State Nat,
      machine.exec start (closeArmed ++ ([.awaitSuspend 1] : List (Action Nat))) = some s ∧
        Holds s 0 ∧ Holds s 1 :=
    ⟨_, rfl, by unfold Holds; decide, by unfold Holds; decide⟩
  exact absurd (exclusive s (Machine.Via.exec (.init start_init) run) 0 1 first second) (by decide)

end CoWq.IoSerial
