import CoWq.IO.CallbackWq

/-!
# Who keeps the state of a callback router alive

The router with the references to its state: the one of its `callback_wq`, those
that `retain_guard` gives out, `runner.guard`, and the `keep_alive` of each drain.

* `Pending`: the runner is about to be scheduled, scheduled, or popped and not drained.
* `Undisturbed`: no drain resets the guard of a runner that is pending again.
* `guarded_of_undisturbed`: then a pending runner keeps its state alive.
* `not_guarded_after_post`: a post between the two steps that end a drain loses the guard.
-/

namespace CoWq.CallbackWq

structure Life (W O P : Type*) where
  cbq : State W O P
  /-- the `callback_wq` with its `_state` -/
  owner : Bool
  /-- the references that `retain_guard` gave out -/
  retained : Nat

inductive Life.Action (W O P : Type*)
  | cbq (a : CallbackWq.Action W O P)
  | destroyOwner
  | retainGuard
  | dropGuard
  deriving DecidableEq

namespace Life

section Machine

variable {W O P : Type*} [DecidableEq W] [DecidableEq O] [DecidableEq P]

/-- `use_count` of the references to the state; at zero it is destroyed. -/
def useCount (s : Life W O P) : Nat :=
  s.owner.toNat + s.retained + s.cbq.guard.toNat +
    (List.range s.cbq.drains).countP fun k => s.cbq.keepAlive k

def init (s : Life W O P) : Prop := CallbackWq.init s.cbq ∧ s.owner = true ∧ s.retained = 0

variable (magicOk funcOk : W → Bool)

def step (s : Life W O P) : Action W O P → Option (Life W O P)
  | .cbq a =>
      if s.useCount = 0 then none
      else (CallbackWq.step magicOk funcOk s.cbq a).map fun cbq => { s with cbq := cbq }
  | .destroyOwner => if s.owner = true then some { s with owner := false } else none
  | .retainGuard =>
      if s.owner = true ∨ s.retained ≠ 0 then some { s with retained := s.retained + 1 } else none
  | .dropGuard => if s.retained = 0 then none else some { s with retained := s.retained - 1 }

def machine : Machine (Life W O P) (Action W O P) := ⟨init, step magicOk funcOk⟩

end Machine

variable {W O P : Type*} {s t : Life W O P}

/-- A post has set `running`, and the drain for it has not begun. -/
def Pending (s : State W O P) : Prop :=
  (∃ p, s.needSched p = true) ∨ .runner ∈ s.wsHead ∨ ∃ k, s.pc k = .popped

/-- A drain resets the guard only while the runner is idle or drained again already. -/
def Undisturbed (s : Life W O P) : Action W O P → Prop
  | .cbq (.resetGuard _) => s.cbq.running = false ∨ ∃ k < s.cbq.drains, (s.cbq.pc k).busy
  | _ => True

variable [DecidableEq W] [DecidableEq O] [DecidableEq P] {magicOk funcOk : W → Bool}

theorem cbq_via {ok : Life W O P → Action W O P → Prop}
    (run : (machine magicOk funcOk).Via ok s) :
    (CallbackWq.machine magicOk funcOk).Reachable s.cbq := by
  induction run with
  | init start => exact .init start.1
  | @step s t a _ _ step ih =>
      cases a with
      | cbq a =>
          simp only [machine, Life.step, Option.ite_none_left_eq_some] at step
          obtain ⟨cbq, inner, rfl⟩ := Option.map_eq_some_iff.mp step.2
          exact .step ih trivial inner
      | destroyOwner =>
          simp only [machine, Life.step, Option.ite_none_right_eq_some, Option.some.injEq] at step
          obtain ⟨-, rfl⟩ := step
          exact ih
      | retainGuard =>
          simp only [machine, Life.step, Option.ite_none_right_eq_some, Option.some.injEq] at step
          obtain ⟨-, rfl⟩ := step
          exact ih
      | dropGuard =>
          simp only [machine, Life.step, Option.ite_none_left_eq_some, Option.some.injEq] at step
          obtain ⟨-, rfl⟩ := step
          exact ih

omit [DecidableEq W] [DecidableEq P] in
/-- The runner is pending just when somebody in charge of it is not draining. -/
theorem pending_iff {s : State W O P} {place : Option (Place P)} (single : Single s place) :
    Pending s ↔ s.running = true ∧ ∀ k, ¬ (s.pc k).busy := by
  constructor
  · intro pending
    have found : ∃ x, At s x ∧ ∀ k, x ≠ .draining k := by
      rcases pending with ⟨p, needSched⟩ | linked | ⟨k, popped⟩
      · exact ⟨.scheduling p, needSched, by simp⟩
      · exact ⟨.linked, linked, by simp⟩
      · exact ⟨.popped k, popped, by simp⟩
    obtain ⟨x, here, notDraining⟩ := found
    obtain ⟨same, only⟩ := single.only here
    refine ⟨single.running.mpr (by simp [same]), fun k busy => ?_⟩
    exact notDraining k (only (.draining k) busy).symm
  · rintro ⟨running, free⟩
    obtain ⟨x, rfl⟩ := Option.ne_none_iff_exists'.mp (single.running.mp running)
    have here := (single.at_iff x).mpr rfl
    cases x with
    | scheduling p => exact .inl ⟨p, here⟩
    | linked => exact .inr (.inl here)
    | popped k => exact .inr (.inr ⟨k, here⟩)
    | draining k => exact (free k here).elim

/-- A pending runner holds the guard, and so does every drain under way. -/
structure Guarded (s : State W O P) : Prop where
  pending : Pending s → s.guard = true
  drains : ∀ k, (s.pc k).busy ∨ s.pc k = .exit → s.keepAlive k = true

omit [DecidableEq W] [DecidableEq O] [DecidableEq P] in
theorem Guarded.init {s : State W O P} (start : CallbackWq.init s) : Guarded s := by
  obtain ⟨-, -, -, -, wsHead, needSched, -, pc, -⟩ := start
  refine ⟨?_, fun k busy => ?_⟩
  · rintro (⟨p, set⟩ | linked | ⟨k, popped⟩)
    · rw [needSched] at set
      cases set
    · exact (wsHead linked).elim
    · rw [pc] at popped
      cases popped
  · rw [pc] at busy
    rcases busy with busy | exit
    · cases busy
    · cases exit

omit [DecidableEq W] [DecidableEq O] [DecidableEq P] in
/-- A drain goes on, and neither the guard nor who is waiting for it changes. -/
theorem Guarded.goesOn {s t : State W O P} {k : Nat} {p : Pc} (h : Guarded s)
    (busy : (s.pc k).busy) (notPopped : p ≠ .popped) (needSched : t.needSched = s.needSched)
    (wsHead : t.wsHead = s.wsHead) (guard : t.guard = s.guard) (keepAlive : t.keepAlive = s.keepAlive)
    (pc : t.pc = (s.setPc k p).pc) : Guarded t := by
  refine ⟨fun pending => ?_, fun j => ?_⟩
  · rw [guard]
    apply h.pending
    unfold Pending at pending
    rw [needSched, wsHead, pc] at pending
    rcases pending with scheduling | linked | ⟨j, popped⟩
    · exact .inl scheduling
    · exact .inr (.inl linked)
    · refine .inr (.inr ⟨j, ?_⟩)
      grind -linarith [State.setPc]
  · have here := h.drains k (.inl busy)
    have there := h.drains j
    grind -linarith [State.setPc]

theorem Guarded.step {s t : State W O P} {a : CallbackWq.Action W O P} {place : Option (Place P)}
    (h : Guarded s) (single : Single s place)
    (ok : ∀ k, a = .resetGuard k → s.running = false ∨ ∃ j, (s.pc j).busy)
    (run : CallbackWq.step magicOk funcOk s a = some t) : Guarded t := by
  cases a with
  | post p w =>
      simp only [CallbackWq.step, Option.ite_none_right_eq_some] at run
      obtain ⟨-, run⟩ := run
      have kept : Guarded (postLocked s p w) := by
        unfold postLocked link State.setEnqueued State.setNeedSched
        split
        · exact h
        · dsimp only
          split
          · exact ⟨h.pending, h.drains⟩
          · exact ⟨fun _ => rfl, h.drains⟩
      split at run <;> cases run
      · exact kept
      · exact h
  | schedule p =>
      simp only [CallbackWq.step, Option.ite_none_right_eq_some, Option.some.injEq] at run
      obtain ⟨needSched, rfl⟩ := run
      exact ⟨fun _ => h.pending (.inl ⟨p, needSched⟩), h.drains⟩
  | postOther o =>
      cases run
      refine ⟨fun pending => h.pending ?_, h.drains⟩
      simpa [Pending, Workqueue.mem_addNewNolock] using pending
  | workOnce =>
      simp only [CallbackWq.step] at run
      split at run
      · cases run
      · rename_i o rest first
        cases run
        refine ⟨fun pending => h.pending ?_, h.drains⟩
        simpa [Pending, first] using pending
      · rename_i rest first
        cases run
        have linked : .runner ∈ s.wsHead := by
          rw [first]
          exact List.mem_cons_self
        refine ⟨fun _ => h.pending (.inr (.inl linked)), fun j => ?_⟩
        have drains := h.drains j
        grind -linarith [State.setPc, Pc.busy]
  | drain k =>
      simp only [CallbackWq.step, Option.ite_none_right_eq_some, Option.some.injEq] at run
      obtain ⟨popped, rfl⟩ := run
      have guard := h.pending (.inr (.inr ⟨k, popped⟩))
      refine ⟨fun _ => guard, fun j => ?_⟩
      have drains := h.drains j
      grind -linarith [State.setPc]
  | takeBatch k =>
      simp only [CallbackWq.step, Option.ite_none_right_eq_some, Option.some.injEq] at run
      obtain ⟨loop, rfl⟩ := run
      have busy : (s.pc k).busy := by rw [loop]; rfl
      unfold drainLocked
      split
      · exact h.goesOn busy (p := .exit) (by simp) rfl rfl rfl rfl rfl
      · split
        · exact h.goesOn busy (p := .exit) (by simp) rfl rfl rfl rfl rfl
        · exact h.goesOn busy (p := .batch) (by simp) rfl rfl rfl rfl rfl
  | next k =>
      simp only [CallbackWq.step, Option.ite_none_right_eq_some] at run
      obtain ⟨batch, run⟩ := run
      have busy : (s.pc k).busy := by rw [batch]; rfl
      split at run
      · cases run
        exact h.goesOn busy (p := .loop) (by simp) rfl rfl rfl rfl rfl
      · split at run <;> cases run
        exact h.goesOn busy (p := .took _) (by simp) rfl rfl rfl rfl rfl
  | storeEnqueued k =>
      simp only [CallbackWq.step] at run
      split at run <;> cases run
      rename_i e took
      refine h.goesOn (by rw [took]; rfl) ?_ rfl rfl rfl rfl rfl
      split <;> simp
  | callFunc k =>
      simp only [CallbackWq.step] at run
      split at run <;> cases run
      rename_i e call
      exact h.goesOn (by rw [call]; rfl) (by simp) rfl rfl rfl rfl rfl
  | ret k =>
      simp only [CallbackWq.step] at run
      split at run <;> cases run
      rename_i e call
      exact h.goesOn (by rw [call]; rfl) (by simp) rfl rfl rfl rfl rfl
  | resetGuard k =>
      simp only [CallbackWq.step, Option.ite_none_right_eq_some, Option.some.injEq] at run
      obtain ⟨exit, rfl⟩ := run
      refine ⟨fun pending => ?_, fun j => ?_⟩
      · have before : Pending s := by
          rcases pending with scheduling | linked | ⟨j, popped⟩
          · exact .inl scheduling
          · exact .inr (.inl linked)
          · refine .inr (.inr ⟨j, ?_⟩)
            grind -linarith [State.setPc]
        obtain ⟨running, free⟩ := (pending_iff single).mp before
        rcases ok k rfl with idle | ⟨j, busy⟩
        · rw [running] at idle
          cases idle
        · exact (free j busy).elim
      · have drains := h.drains j
        grind -linarith [State.setPc, Pc.busy]

theorem Guarded.via (run : (machine magicOk funcOk).Via Undisturbed s) : Guarded s.cbq := by
  refine run.invariant_reach (I := fun s => Guarded s.cbq) (fun s start => ?_)
    fun s a t before h ok step => ?_
  · exact Guarded.init (And.left start)
  · obtain ⟨place, single⟩ := Single.via (cbq_via before)
    cases a with
    | cbq a =>
        simp only [machine, Life.step, Option.ite_none_left_eq_some] at step
        obtain ⟨cbq, inner, rfl⟩ := Option.map_eq_some_iff.mp step.2
        refine h.step single (fun k same => ?_) inner
        subst same
        exact ok.imp id (Exists.imp fun _ both => both.2)
    | destroyOwner =>
        simp only [machine, Life.step, Option.ite_none_right_eq_some, Option.some.injEq] at step
        obtain ⟨-, rfl⟩ := step
        exact h
    | retainGuard =>
        simp only [machine, Life.step, Option.ite_none_right_eq_some, Option.some.injEq] at step
        obtain ⟨-, rfl⟩ := step
        exact h
    | dropGuard =>
        simp only [machine, Life.step, Option.ite_none_left_eq_some, Option.some.injEq] at step
        obtain ⟨-, rfl⟩ := step
        exact h

/-- **A pending runner keeps its state alive.**  When no drain resets the guard while
the runner is pending again, a pending runner holds the guard, and the state is
destroyed only with no runner pending and no drain under way. -/
theorem guarded_of_undisturbed (run : (machine magicOk funcOk).Via Undisturbed s) :
    (Pending s.cbq → s.cbq.guard = true) ∧
      (s.useCount = 0 → ¬ Pending s.cbq ∧ ∀ k, ¬ (s.cbq.pc k).busy) := by
  have guarded := Guarded.via run
  obtain ⟨place, single⟩ := Single.via (cbq_via run)
  refine ⟨guarded.pending, fun freed => ⟨fun pending => ?_, fun k busy => ?_⟩⟩
  · have guard := guarded.pending pending
    simp [useCount, guard] at freed
  · have kept := guarded.drains k (.inl busy)
    have begun : k < s.cbq.drains := by
      by_contra later
      have done := single.later k (Nat.le_of_not_lt later)
      rw [done] at busy
      cases busy
    have none := (Nat.add_eq_zero_iff.mp freed).2
    rw [List.countP_eq_zero] at none
    exact none k (List.mem_range.mpr begun) kept

/-! ## Runs -/

instance (s : Life W O P) (a : Action W O P) : Decidable (Undisturbed s a) :=
  match a with
  | .cbq (.resetGuard _) =>
      inferInstanceAs (Decidable (s.cbq.running = false ∨ ∃ k < s.cbq.drains, (s.cbq.pc k).busy))
  | .cbq (.post _ _) => .isTrue trivial
  | .cbq (.schedule _) => .isTrue trivial
  | .cbq (.postOther _) => .isTrue trivial
  | .cbq .workOnce => .isTrue trivial
  | .cbq (.drain _) => .isTrue trivial
  | .cbq (.takeBatch _) => .isTrue trivial
  | .cbq (.next _) => .isTrue trivial
  | .cbq (.storeEnqueued _) => .isTrue trivial
  | .cbq (.callFunc _) => .isTrue trivial
  | .cbq (.ret _) => .isTrue trivial
  | .destroyOwner => .isTrue trivial
  | .retainGuard => .isTrue trivial
  | .dropGuard => .isTrue trivial

def start : Life Nat O P where
  cbq := CallbackWq.start
  owner := true
  retained := 0

omit [DecidableEq O] [DecidableEq P] in
theorem start_init : init (start : Life Nat O P) := ⟨CallbackWq.start_init, rfl, rfl⟩

/-- One callback, up to the point where its drain has cleared `running`. -/
def oneCallback : List (Action Nat Nat Nat) :=
  [.cbq (.post 0 7), .cbq (.schedule 0), .cbq .workOnce, .cbq (.drain 0), .cbq (.takeBatch 0),
    .cbq (.next 0), .cbq (.storeEnqueued 0), .cbq (.callFunc 0), .cbq (.ret 0), .cbq (.next 0),
    .cbq (.takeBatch 0)]

/-- The owner goes while the runner of a second post is linked, behind the first reset. -/
theorem guarded_of_undisturbed_destroyed : ∃ s : Life Nat Nat Nat,
    (machine allOk allOk).execOk Undisturbed start
      (oneCallback ++ ([.cbq (.resetGuard 0), .cbq (.post 0 8), .cbq (.schedule 0),
        .destroyOwner] : List (Action Nat Nat Nat))) = some s ∧
    .runner ∈ s.cbq.wsHead ∧ s.cbq.guard = true ∧ s.useCount ≠ 0 := by
  obtain ⟨s, run, linked⟩ : ∃ s : Life Nat Nat Nat,
      (machine allOk allOk).execOk Undisturbed start
        (oneCallback ++ ([.cbq (.resetGuard 0), .cbq (.post 0 8), .cbq (.schedule 0),
          .destroyOwner] : List (Action Nat Nat Nat))) = some s ∧ .runner ∈ s.cbq.wsHead := by
    refine ⟨_, rfl, ?_⟩
    exact List.mem_cons_self
  obtain ⟨guard, freed⟩ := guarded_of_undisturbed (Machine.Via.execOk (.init start_init) run)
  exact ⟨s, run, linked, guard (.inr (.inl linked)),
    fun zero => (freed zero).1 (.inr (.inl linked))⟩

/-- A post that lands between the two steps loses the guard it took; with the owner
gone the state is destroyed while its runner is in the executor's queue. -/
theorem not_guarded_after_post :
    (¬ ∀ s : Life Nat Nat Nat, (machine allOk allOk).Reachable s →
      Pending s.cbq → s.cbq.guard = true) ∧
    ¬ ∀ s : Life Nat Nat Nat, (machine allOk allOk).Reachable s →
      s.useCount = 0 → .runner ∉ s.cbq.wsHead := by
  obtain ⟨s, run, linked, guard, freed⟩ : ∃ s : Life Nat Nat Nat,
      (machine allOk allOk).exec start (oneCallback ++ ([.cbq (.post 0 8),
        .cbq (.resetGuard 0), .cbq (.schedule 0), .destroyOwner] : List (Action Nat Nat Nat))) =
        some s ∧
      .runner ∈ s.cbq.wsHead ∧ s.cbq.guard = false ∧ s.useCount = 0 := by
    refine ⟨_, rfl, ?_, ?_, ?_⟩
    · exact List.mem_cons_self
    · rfl
    · rfl
  have reach := Machine.Via.exec (.init start_init) run
  constructor
  · intro guarded
    have held := guarded s reach (.inr (.inl linked))
    rw [guard] at held
    cases held
  · exact fun never => never s reach freed linked

end Life

end CoWq.CallbackWq
