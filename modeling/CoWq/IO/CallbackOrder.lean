import CoWq.IO.CallbackQueue
import Mathlib.Data.Prod.Lex

/-!
# Callbacks run once each, in order

* `rank`: what is ahead of an entry, and how far the runner is from the next callback.
* `Routed.rank_step`: the one in charge of the runner lowers it, nobody raises it.
* `callbackOrder`: first in, first out, no loss, one runner.
-/

namespace CoWq.CallbackWq

open UsrList Workqueue

variable {W O P : Type*} {s t : State W O P} {now ls ps : List Nat}

/-! ## How far an entry is from its run -/

/-- Who takes a step, as far as fairness is concerned. -/
inductive Actor
  | poster
  | worker
  | drain (k : Nat)

def Action.actor : Action W O P → Option Actor
  | .post _ _ => none
  | .schedule _ => some .poster
  | .postOther _ => none
  | .workOnce => some .worker
  | .drain k => some (.drain k)
  | .takeBatch k => some (.drain k)
  | .next k => some (.drain k)
  | .storeEnqueued k => some (.drain k)
  | .callFunc k => some (.drain k)
  | .ret k => some (.drain k)
  | .resetGuard k => some (.drain k)

/-- The one whose step brings the runner on. -/
def Place.actor : Place P → Actor
  | .scheduling _ => .poster
  | .linked => .worker
  | .popped k => .drain k
  | .draining k => .drain k

/-- The steps up to the next callback, except for those of the executor's queue. -/
def stage (s : State W O P) : Place P → Nat
  | .scheduling _ => 9
  | .linked => 8
  | .popped _ => 7
  | .draining k =>
      match s.pc k with
      | .inCall _ => 6
      | .batch => if listEmpty s.ring (.loc k) then 5 else 3
      | .loop => 4
      | .took _ => 2
      | _ => 1

variable [DecidableEq O]

/-- The nodes in front of the runner. -/
def ahead (s : State W O P) : Place P → Nat
  | .linked => s.wsHead.idxOf .runner
  | _ => 0

def rank (e : Nat) (s : State W O P) (x : Place P) : Nat ×ₗ Nat ×ₗ Nat :=
  toLex (e - s.ran.length, toLex (stage s x, ahead s x))

theorem rank_lt_of_ran {e : Nat} {x y : Place P} (due : Due e t)
    (ran : t.ran.length = s.ran.length + 1) : rank e t y < rank e s x := by
  obtain ⟨before, -⟩ := due
  exact Prod.Lex.toLex_lt_toLex.mpr (.inl (by dsimp only; omega))

theorem rank_lt_of_stage {e : Nat} {x y : Place P} (ran : t.ran = s.ran)
    (lower : stage t y < stage s x) : rank e t y < rank e s x := by
  refine Prod.Lex.toLex_lt_toLex.mpr (.inr ⟨?_, Prod.Lex.toLex_lt_toLex.mpr (.inl lower)⟩)
  dsimp only
  rw [ran]

theorem rank_le_of_ahead {e : Nat} {x y : Place P} (ran : t.ran = s.ran)
    (same : stage t y = stage s x) (nearer : ahead t y ≤ ahead s x) :
    rank e t y ≤ rank e s x := by
  refine Prod.Lex.toLex_le_toLex.mpr (.inr ⟨?_, Prod.Lex.toLex_le_toLex.mpr (.inr ⟨same, nearer⟩)⟩)
  dsimp only
  rw [ran]

theorem rank_lt_of_ahead {e : Nat} {x y : Place P} (ran : t.ran = s.ran)
    (same : stage t y = stage s x) (nearer : ahead t y < ahead s x) :
    rank e t y < rank e s x := by
  refine Prod.Lex.toLex_lt_toLex.mpr (.inr ⟨?_, Prod.Lex.toLex_lt_toLex.mpr (.inr ⟨same, nearer⟩)⟩)
  dsimp only
  rw [ran]

variable [DecidableEq W] [DecidableEq P] {magicOk funcOk : W → Bool}

/-! ## How far a step brings an entry -/

/-- A step adds at most one run, and keeps the entries there are. -/
theorem ran_step {a : Action W O P} (run : step magicOk funcOk s a = some t) :
    (t.ran = s.ran ∨ ∃ k e, a = .callFunc k ∧ s.pc k = .call e ∧ t.ran = s.ran ++ [e]) ∧
      s.accepted.length ≤ t.accepted.length ∧
      ∀ e < s.accepted.length, t.waiter e = s.waiter e := by
  cases a with
  | post p w =>
      simp only [CallbackWq.step, Option.ite_none_right_eq_some] at run
      obtain ⟨-, run⟩ := run
      have kept : (postLocked s p w).ran = s.ran ∧
          s.accepted.length ≤ (postLocked s p w).accepted.length ∧
          ∀ e < s.accepted.length, (postLocked s p w).waiter e = s.waiter e := by
        unfold postLocked link State.setEnqueued State.setNeedSched
        split
        · exact ⟨rfl, le_rfl, fun _ _ => rfl⟩
        · dsimp only
          split <;> exact ⟨rfl, by simp, fun e old => if_neg (Nat.ne_of_lt old)⟩
      split at run <;> cases run
      · exact ⟨.inl kept.1, kept.2⟩
      · exact ⟨.inl rfl, le_rfl, fun _ _ => rfl⟩
  | takeBatch k =>
      simp only [CallbackWq.step, Option.ite_none_right_eq_some, Option.some.injEq] at run
      obtain ⟨-, rfl⟩ := run
      unfold drainLocked
      split
      · exact ⟨.inl rfl, le_rfl, fun _ _ => rfl⟩
      · split <;> exact ⟨.inl rfl, le_rfl, fun _ _ => rfl⟩
  | callFunc k =>
      simp only [CallbackWq.step] at run
      grind -linarith [State.setPc]
  | postOther o =>
      cases run
      exact ⟨.inl rfl, le_rfl, fun _ _ => rfl⟩
  | _ =>
      simp only [CallbackWq.step] at run
      grind -linarith [State.setPc, State.setNeedSched, State.setEnqueued]

theorem idxOf_addNewNolock {wsHead : List (Node O)} (mem : .runner ∈ wsHead) (o : O) :
    (addNewNolock wsHead (.other o)).idxOf .runner ≤ wsHead.idxOf .runner := by
  unfold addNewNolock
  rw [List.idxOf_append_of_mem ((List.mem_erase_of_ne (by simp)).mpr mem)]
  induction wsHead with
  | nil => cases mem
  | cons y ys ih =>
      by_cases first : y = .runner
      · rw [first, List.erase_cons_tail (by simp), List.idxOf_cons_self, List.idxOf_cons_self]
      · have rest : .runner ∈ ys := (List.mem_cons.mp mem).resolve_left (Ne.symm first)
        by_cases same : y = .other o
        · rw [same, List.erase_cons_head, List.idxOf_cons_ne _ (by simp)]
          exact Nat.le_succ _
        · rw [List.erase_cons_tail (by simpa using same), List.idxOf_cons_ne _ first,
            List.idxOf_cons_ne _ first]
          exact Nat.succ_le_succ (ih rest)

/-- With the runner in charge at `x`, the steps of its actor bring the next run of an
entry nearer, and nobody else's step sends it back. -/
theorem Routed.rank_step {a : Action W O P} {e : Nat} {x : Place P} (h : Routed s now ls ps)
    (single : Single s (some x)) (valid : ∀ w, magicOk w = true ∧ funcOk w = true)
    (due : Due e s) (run : CallbackWq.step magicOk funcOk s a = some t) :
    ∃ y, moved magicOk s (some x) a = some y ∧
      (¬ Due e t ∨ rank e t y < rank e s x ∨
        rank e t y ≤ rank e s x ∧ y = x ∧ a.actor ≠ some x.actor) := by
  have running : s.running = true := single.running.mpr (by simp)
  have is : ∀ {y}, At s y → x = y := fun there =>
    Option.some.inj ((single.at_iff _).mp there)
  cases a with
  | post p w =>
      simp only [CallbackWq.step, Option.ite_none_right_eq_some, (valid w).1, if_true,
        Option.some.injEq] at run
      obtain ⟨-, rfl⟩ := run
      refine ⟨x, by simp [moved, running], .inr (.inr ⟨?_, rfl, by simp [Action.actor]⟩)⟩
      have kept : (postLocked s p w).ran = s.ran ∧ (postLocked s p w).pc = s.pc ∧
          (postLocked s p w).wsHead = s.wsHead := by
        unfold postLocked CallbackWq.link State.setEnqueued State.setNeedSched
        split
        · exact ⟨rfl, rfl, rfl⟩
        · dsimp only
          split <;> exact ⟨rfl, rfl, rfl⟩
      refine rank_le_of_ahead kept.1 ?_ ?_
      · cases x with
        | draining k =>
            cases point : s.pc k with
            | batch =>
                -- the ring of the batch is not the one the post appends to
                obtain ⟨ps', after⟩ := h.post p w
                have was := listEmpty_iff (h.batch k (by rw [point]; rfl))
                have is := listEmpty_iff (after.batch k (by rw [kept.2.1, point]; rfl))
                have same : listEmpty (postLocked s p w).ring (.loc k) =
                    listEmpty s.ring (.loc k) := by
                  rw [Bool.eq_iff_iff, is, was]
                simp only [stage, kept.2.1, point, same]
            | _ => simp only [stage, kept.2.1, point]
        | _ => rfl
      · cases x with
        | linked => simp only [ahead, kept.2.2, le_refl]
        | _ => exact le_rfl
  | schedule p =>
      simp only [CallbackWq.step, Option.ite_none_right_eq_some, Option.some.injEq] at run
      obtain ⟨needSched, rfl⟩ := run
      obtain rfl := is (y := .scheduling p) needSched
      exact ⟨_, rfl, .inr (.inl (rank_lt_of_stage rfl (by simp [stage])))⟩
  | postOther o =>
      simp only [CallbackWq.step, Option.some.injEq] at run
      subst run
      refine ⟨x, rfl, .inr (.inr ⟨rank_le_of_ahead rfl ?_ ?_, rfl, by simp [Action.actor]⟩)⟩
      · cases x <;> rfl
      · cases x with
        | linked => exact idxOf_addNewNolock ((single.at_iff .linked).mpr rfl) o
        | _ => exact le_rfl
  | workOnce =>
      simp only [CallbackWq.step] at run
      split at run
      · cases run
      · rename_i o rest first
        rw [Option.some.injEq] at run
        subst run
        refine ⟨x, by simp [moved, first], .inr ?_⟩
        cases x with
        | linked =>
            refine .inl (rank_lt_of_ahead rfl rfl ?_)
            simp only [ahead, first]
            rw [List.idxOf_cons_ne _ (by simp)]
            exact Nat.lt_succ_self _
        | _ =>
            exact .inr
              ⟨rank_le_of_ahead rfl rfl le_rfl, rfl, by simp [Action.actor, Place.actor]⟩
      · rename_i rest first
        rw [Option.some.injEq] at run
        subst run
        obtain rfl := is (y := .linked) (by rw [At, first]; exact List.mem_cons_self)
        refine ⟨.popped s.drains, by simp [moved, first], .inr (.inl (rank_lt_of_stage rfl ?_))⟩
        simp [stage]
  | drain k =>
      simp only [CallbackWq.step, Option.ite_none_right_eq_some, Option.some.injEq] at run
      obtain ⟨popped, rfl⟩ := run
      obtain rfl := is (y := .popped k) popped
      refine ⟨_, rfl, .inr (.inl (rank_lt_of_stage rfl ?_))⟩
      simp [stage, State.setPc]
  | takeBatch k =>
      simp only [CallbackWq.step, Option.ite_none_right_eq_some, Option.some.injEq] at run
      obtain ⟨loop, rfl⟩ := run
      have busy : (s.pc k).busy := by rw [loop]; rfl
      obtain rfl := is (y := .draining k) busy
      obtain ⟨rfl, rfl⟩ := h.idle_of_busy single busy (by rw [loop]; rfl)
      have full : listEmpty s.ring .pending = false := by
        rw [← Bool.not_eq_true, listEmpty_iff h.pending]
        intro empty
        have mem := h.due_mem due
        rw [List.map_eq_nil_iff.mp empty] at mem
        cases mem
      have after := h.steal single loop full
      have some' : ps ≠ [] := by
        rintro rfl
        rw [(listEmpty_iff h.pending).mpr rfl] at full
        cases full
      simp only [moved, drainLocked, full, h.not_corrupted, Bool.false_eq_true, or_self, if_false]
      refine ⟨_, rfl, .inr (.inl (rank_lt_of_stage rfl ?_))⟩
      have linked : (listSteal s.ring .pending (.loc k)).Linked (.loc k) (ps.map .entry) :=
        after.batch k (by simp [State.setPc, Pc.holds])
      have batch : listEmpty (listSteal s.ring .pending (.loc k)) (.loc k) = false := by
        rw [← Bool.not_eq_true, listEmpty_iff linked]
        simpa using some'
      simp [stage, State.setPc, loop, batch]
  | next k =>
      simp only [CallbackWq.step, Option.ite_none_right_eq_some] at run
      obtain ⟨batch, run⟩ := run
      obtain rfl := is (y := .draining k) (by rw [At, batch]; rfl)
      refine ⟨_, rfl, .inr (.inl ?_)⟩
      cases empty : listEmpty s.ring (.loc k) with
      | true =>
          rw [empty, if_pos rfl, Option.some.injEq] at run
          subst run
          refine rank_lt_of_stage rfl ?_
          simp [stage, State.setPc, batch, empty]
      | false =>
          rw [empty, if_neg Bool.false_ne_true] at run
          split at run
          · rw [Option.some.injEq] at run
            subst run
            refine rank_lt_of_stage rfl ?_
            simp [stage, State.setPc, batch, empty]
          · cases run
  | storeEnqueued k =>
      simp only [CallbackWq.step] at run
      split at run
      · rename_i e' took
        simp only [(valid _).1, (valid _).2, Bool.and_self, if_true, Option.some.injEq] at run
        subst run
        obtain rfl := is (y := .draining k) (by rw [At, took]; rfl)
        refine ⟨_, rfl, .inr (.inl (rank_lt_of_stage rfl ?_))⟩
        simp [stage, State.setPc, took]
      · cases run
  | callFunc k =>
      simp only [CallbackWq.step] at run
      split at run
      · rename_i e' call
        rw [Option.some.injEq] at run
        subst run
        obtain rfl := is (y := .draining k) (by rw [At, call]; rfl)
        refine ⟨_, rfl, ?_⟩
        by_cases still : Due e ({ s with ran := s.ran ++ [e'] }.setPc k (.inCall e'))
        · exact .inr (.inl (rank_lt_of_ran still (by simp [State.setPc])))
        · exact .inl still
      · cases run
  | ret k =>
      simp only [CallbackWq.step] at run
      split at run
      · rename_i e' call
        rw [Option.some.injEq] at run
        subst run
        obtain rfl := is (y := .draining k) (by rw [At, call]; rfl)
        refine ⟨_, rfl, .inr (.inl (rank_lt_of_stage rfl ?_))⟩
        simp only [stage, State.setPc, call, if_true]
        by_cases empty : listEmpty s.ring (.loc k) = true <;> simp [empty]
      · cases run
  | resetGuard k =>
      simp only [CallbackWq.step, Option.ite_none_right_eq_some, Option.some.injEq] at run
      obtain ⟨exit, rfl⟩ := run
      refine ⟨x, rfl, .inr (.inr ⟨rank_le_of_ahead rfl ?_ ?_, rfl, ?_⟩)⟩
      · cases x with
        | draining j =>
            have busy : (s.pc j).busy := (single.at_iff (.draining j)).mpr rfl
            have other : j ≠ k := by
              rintro rfl
              rw [exit] at busy
              cases busy
            simp [stage, State.setPc, other]
        | _ => rfl
      · cases x <;> exact le_rfl
      · have here := (single.at_iff x).mpr rfl
        cases x <;> grind -linarith [Action.actor, Place.actor, At, Pc.busy]

/-! ## Fair executions -/

variable {E : (machine magicOk funcOk (W := W) (O := O) (P := P)).Execution}

def Action.TakenBy (k : Actor) (a : Action W O P) : Prop := a.actor = some k

/-- Fairness: posts of the runner, pops of the executor and the steps of each drain
that can go on are taken in the end. -/
def FairRun (E : (machine magicOk funcOk (W := W) (O := O) (P := P)).Execution) : Prop :=
  ∀ k : Actor, E.Fair (Action.TakenBy k)

instance : Nonempty (Place P) := ⟨.linked⟩

/-- The one in charge of the runner, if there is one. -/
noncomputable def charge (s : State W O P) : Place P :=
  Classical.epsilon fun x => Single s (some x)

theorem Routed.enabled {x : Place P} (h : Routed s now ls ps) (single : Single s (some x)) :
    Machine.Execution.Enabled (machine magicOk funcOk) (Action.TakenBy x.actor) s := by
  have here := (single.at_iff x).mpr rfl
  cases x with
  | scheduling p => exact ⟨.schedule p, _, rfl, if_pos here⟩
  | linked =>
      refine ⟨.workOnce, ?_⟩
      simp only [machine, CallbackWq.step]
      cases queue : s.wsHead with
      | nil =>
          rw [At, queue] at here
          cases here
      | cons n rest =>
          cases n with
          | runner => exact ⟨_, rfl, rfl⟩
          | other o => exact ⟨_, rfl, rfl⟩
  | popped k => exact ⟨.drain k, _, rfl, if_pos here⟩
  | draining k =>
      rw [At] at here
      cases point : s.pc k with
      | loop => exact ⟨.takeBatch k, _, rfl, if_pos point⟩
      | batch =>
          refine ⟨.next k, ?_⟩
          simp only [machine, CallbackWq.step, point, if_true]
          cases empty : listEmpty s.ring (.loc k) with
          | true => exact ⟨_, rfl, rfl⟩
          | false =>
              have linked := h.batch k (by rw [point]; rfl)
              cases ls with
              | nil =>
                  rw [(listEmpty_iff linked).mpr rfl] at empty
                  cases empty
              | cons e rest =>
                  simp only [Bool.false_eq_true, if_false, linked.first.1]
                  exact ⟨_, rfl, rfl⟩
      | took e =>
          refine ⟨.storeEnqueued k, ?_⟩
          simp only [machine, CallbackWq.step, point]
          exact ⟨_, rfl, rfl⟩
      | call e =>
          refine ⟨.callFunc k, ?_⟩
          simp only [machine, CallbackWq.step, point]
          exact ⟨_, rfl, rfl⟩
      | inCall e =>
          refine ⟨.ret k, ?_⟩
          simp only [machine, CallbackWq.step, point]
          exact ⟨_, rfl, rfl⟩
      | _ =>
          rw [point] at here
          cases here

/-- While an entry is due, somebody is in charge of the runner. -/
theorem Due.charged {e : Nat} (due : Due e s)
    (valid : ∀ w, magicOk w = true ∧ funcOk w = true)
    (reach : (machine magicOk funcOk).Reachable s) :
    (∃ now ls ps, Routed s now ls ps) ∧ Single s (some (charge s)) := by
  obtain ⟨now, ls, ps, routed⟩ := Routed.via valid reach
  obtain ⟨place, single⟩ := Single.via reach
  have held : place ≠ none := by
    refine single.running.mp (routed.work fun none => ?_)
    have mem := routed.due_mem due
    rw [none] at mem
    cases mem
  obtain ⟨x, rfl⟩ := Option.ne_none_iff_exists'.mp held
  have some' : ∃ x, Single s (some x) := ⟨x, single⟩
  exact ⟨⟨now, ls, ps, routed⟩, Classical.epsilon_spec some'⟩

/-- What a step does while an entry is due. -/
theorem Due.step {a : Action W O P} {e : Nat} (due : Due e s)
    (valid : ∀ w, magicOk w = true ∧ funcOk w = true)
    (reach : (machine magicOk funcOk).Reachable s)
    (step : (machine magicOk funcOk).step s a = some t) :
    ¬ Due e t ∨ rank e t (charge t) < rank e s (charge s) ∨
      rank e t (charge t) ≤ rank e s (charge s) ∧ charge t = charge s ∧
        ¬ Action.TakenBy (charge s).actor a := by
  obtain ⟨⟨now, ls, ps, routed⟩, single⟩ := due.charged valid reach
  obtain ⟨y, goes, how⟩ := routed.rank_step single valid due step
  by_cases still : Due e t
  · have after := (still.charged valid (.step reach trivial step)).2
    have here := single.step step
    rw [goes] at here
    have same : charge t = y :=
      Option.some.inj ((after.at_iff y).mp ((here.at_iff y).mpr rfl))
    exact same ▸ how
  · exact .inl still

/-- In a fair execution a due entry is run. -/
theorem due_ends (valid : ∀ w, magicOk w = true ∧ funcOk w = true) (fair : FairRun E) (e n : Nat) :
    ∃ m, n ≤ m ∧ ¬ Due e (E.state m) := by
  have enabled : ∀ s, (machine magicOk funcOk).Reachable s → Due e s →
      Machine.Execution.Enabled (machine magicOk funcOk (W := W) (O := O) (P := P))
        (Action.TakenBy (charge s).actor) s := by
    intro s reach due
    obtain ⟨⟨now, ls, ps, routed⟩, single⟩ := due.charged valid reach
    exact routed.enabled single
  have lowers : ∀ s a t, (machine magicOk funcOk).Reachable s → Due e s →
      Action.TakenBy (charge s).actor a →
      (machine magicOk funcOk (W := W) (O := O) (P := P)).step s a = some t →
      ¬ Due e t ∨ rank e t (charge t) < rank e s (charge s) := by
    intro s a t reach due helps step
    rcases due.step valid reach step with ended | lower | ⟨-, -, other⟩
    · exact .inl ended
    · exact .inr lower
    · exact (other helps).elim
  have keeps : ∀ s a t, (machine magicOk funcOk).Reachable s → Due e s →
      (machine magicOk funcOk (W := W) (O := O) (P := P)).step s a = some t →
      ¬ Due e t ∨ rank e t (charge t) < rank e s (charge s) ∨
        (rank e t (charge t) ≤ rank e s (charge s) ∧ (charge t).actor = (charge s).actor) := by
    intro s a t reach due step
    rcases due.step valid reach step with ended | lower | ⟨kept, same, -⟩
    · exact .inl ended
    · exact .inr (.inl lower)
    · exact .inr (.inr ⟨kept, congrArg Place.actor same⟩)
  exact Machine.Execution.leadsTo enabled lowers keeps fair n

/-- An entry that is linked stays, with its waiter. -/
theorem entry_kept {e n m : Nat} (later : n ≤ m) (old : e < (E.state n).accepted.length) :
    e < (E.state m).accepted.length ∧ (E.state m).waiter e = (E.state n).waiter e := by
  induction later with
  | refl => exact ⟨old, rfl⟩
  | @step m later ih =>
      cases act : E.act m with
      | none =>
          have same := E.next m
          rw [act] at same
          rw [same]
          exact ih
      | some a =>
          obtain ⟨-, grows, kept⟩ := ran_step (E.step_of_act act)
          exact ⟨Nat.lt_of_lt_of_le ih.1 grows, (kept e ih.1).trans ih.2⟩

/-- The worker calls the function of `w`. -/
def Runs (E : (machine magicOk funcOk (W := W) (O := O) (P := P)).Execution) (m : Nat) (w : W) :
    Prop :=
  ∃ k e, E.act m = some (.callFunc k) ∧ (E.state m).pc k = .call e ∧ (E.state m).waiter e = w

/-- Between a time at which an entry is due and one at which it is not, its waiter is run. -/
theorem due_run (valid : ∀ w, magicOk w = true ∧ funcOk w = true) {e n m : Nat} (later : n ≤ m)
    (due : Due e (E.state n)) (ended : ¬ Due e (E.state m)) :
    ∃ j, n ≤ j ∧ Runs E j ((E.state n).waiter e) := by
  induction later with
  | refl => exact (ended due).elim
  | @step m later ih =>
      by_cases before : Due e (E.state m)
      · cases act : E.act m with
        | none =>
            have same := E.next m
            rw [act] at same
            rw [same] at ended
            exact (ended before).elim
        | some a =>
            have step := E.step_of_act act
            obtain ⟨ran, grows, -⟩ := ran_step step
            rcases ran with same | ⟨k, e', rfl, call, ran⟩
            · refine (ended ⟨?_, Nat.lt_of_lt_of_le before.2 grows⟩).elim
              rw [same]
              exact before.1
            · -- the entry run is the one the count has come to
              obtain ⟨now, ls, ps, after⟩ := Routed.via valid (E.reachable (m + 1))
              obtain ⟨_, _, _, routed⟩ := Routed.via valid (E.reachable m)
              have range := after.ran_range
              rw [ran, List.length_append, List.length_singleton, List.range_succ,
                ← routed.ran_range] at range
              have number : e' = (E.state m).ran.length :=
                List.singleton_inj.mp (List.append_cancel_left range)
              have last : e = (E.state m).ran.length := by
                by_contra other
                refine ended ⟨?_, Nat.lt_of_lt_of_le before.2 grows⟩
                rw [ran, List.length_append, List.length_singleton]
                have := before.1
                omega
              refine ⟨m, later, k, e', act, call, ?_⟩
              rw [number, ← last]
              exact (entry_kept later due.2).2
      · exact ih before

/-- A post of a waiter leaves an entry of it due. -/
theorem post_due (valid : ∀ w, magicOk w = true ∧ funcOk w = true) {n : Nat} {p : P} {w : W}
    (act : E.act n = some (.post p w)) :
    ∃ e, Due e (E.state (n + 1)) ∧ (E.state (n + 1)).waiter e = w := by
  obtain ⟨now, ls, ps, routed⟩ := Routed.via valid (E.reachable n)
  have step := E.step_of_act act
  simp only [machine, CallbackWq.step, Option.ite_none_right_eq_some, (valid w).1, if_true,
    Option.some.injEq] at step
  rw [← step.2]
  cases enqueued : (E.state n).callbackEnqueued w with
  | true =>
      have coalesced : postLocked (E.state n) p w = E.state n := by
        rw [postLocked, if_pos enqueued]
      rw [coalesced]
      obtain ⟨e, place, waiter⟩ := routed.enqueued w enqueued
      refine ⟨e, routed.due_of_mem ?_, waiter⟩
      rcases place with inLs | inPs | ⟨k, took⟩
      · simp [inLs]
      · simp [inPs]
      · have hand := routed.hand k (by rw [took]; rfl)
        rw [took] at hand
        simp [← hand, Pc.hand]
  | false =>
      have order := congrArg List.length routed.order
      rw [List.append_assoc, List.append_assoc, List.length_append] at order
      refine ⟨(E.state n).accepted.length, ?_⟩
      unfold postLocked CallbackWq.link State.setEnqueued State.setNeedSched Due
      rw [enqueued]
      dsimp only
      split
      · cases ‹false = true›
      · split <;> exact ⟨⟨by dsimp only; omega, by simp⟩, by simp⟩

/-- **Callbacks of one owner run once each and in order.**  In every state: the entries
run so far start the list of those accepted, none twice; at most one place is in
charge of the runner, exactly one when `running` is set, which it is while an
accepted entry is not run; and the pending ring is intact.  In every fair execution
each accepted entry is run, and each post of a waiter, accepted or coalesced, is
followed by a run of that waiter. -/
theorem callbackOrder (valid : ∀ w, magicOk w = true ∧ funcOk w = true) :
    (∀ s : State W O P, (machine magicOk funcOk).Reachable s →
      s.accepted.Nodup ∧ s.ran <+: s.accepted ∧ (∀ x y, At s x → At s y → x = y) ∧
      s.wsHead.count .runner ≤ 1 ∧ (s.running = true ↔ ∃ x, At s x) ∧
      (∀ e ∈ s.accepted, e ∉ s.ran → s.running = true) ∧ corrupted s.ring = false) ∧
    ∀ E : (machine magicOk funcOk (W := W) (O := O) (P := P)).Execution, FairRun E →
      (∀ n, ∀ e ∈ (E.state n).accepted, ∃ m, n ≤ m ∧ e ∈ (E.state m).ran) ∧
      ∀ n p w, E.act n = some (.post p w) → ∃ m, n < m ∧ Runs E m w := by
  constructor
  · intro s reach
    obtain ⟨now, ls, ps, routed⟩ := Routed.via valid reach
    obtain ⟨place, single⟩ := Single.via reach
    refine ⟨?_, ?_, fun x y here there => ?_, single.count, ?_, fun e accepted ran => ?_,
      routed.not_corrupted⟩
    · rw [routed.order]
      exact routed.nodup
    · rw [routed.order, List.append_assoc, List.append_assoc]
      exact List.prefix_append _ _
    · exact ((single.only there).2 x here)
    · rw [single.running, Option.ne_none_iff_exists']
      exact exists_congr fun x => (single.at_iff x).symm
    · refine routed.work fun none => ?_
      have mem := routed.due_mem (routed.due.mpr ⟨accepted, ran⟩)
      rw [none] at mem
      cases mem
  · intro E fair
    refine ⟨fun n e accepted => ?_, fun n p w act => ?_⟩
    · obtain ⟨m, later, ended⟩ := due_ends valid fair e n
      obtain ⟨_, _, _, before⟩ := Routed.via valid (E.reachable n)
      obtain ⟨_, _, _, after⟩ := Routed.via valid (E.reachable m)
      rw [before.numbered, List.mem_range] at accepted
      refine ⟨m, later, ?_⟩
      rw [after.ran_range, List.mem_range]
      by_contra short
      exact ended ⟨Nat.le_of_not_lt short, (entry_kept later accepted).1⟩
    · obtain ⟨e, due, waiter⟩ := post_due valid act
      obtain ⟨m, later, ended⟩ := due_ends valid fair e (n + 1)
      obtain ⟨j, after, runs⟩ := due_run valid later due ended
      exact ⟨j, after, waiter ▸ runs⟩

/-! ## A run -/

theorem allOk_valid : ∀ w, allOk w = true ∧ allOk w = true := fun _ => ⟨rfl, rfl⟩

/-- A post of 7 is coalesced while its entry is in the drain's hand; its callback posts
8, which the same drain runs in its second batch. -/
def repost : List (Action Nat Nat Nat) :=
  [.postOther 5, .post 0 7, .schedule 0, .workOnce, .workOnce, .drain 0, .takeBatch 0, .next 0,
    .post 1 7, .storeEnqueued 0, .callFunc 0, .post 0 8, .ret 0, .next 0, .takeBatch 0, .next 0,
    .storeEnqueued 0, .callFunc 0, .ret 0, .next 0, .takeBatch 0, .resetGuard 0]

theorem callbackOrder_repost :
    ∃ E : (machine allOk allOk (O := Nat) (P := Nat)).Execution,
      FairRun E ∧ (E.state 22).ran.map (E.state 22).waiter = [7, 8] ∧
      (E.state 22).ran <+: (E.state 22).accepted ∧
      E.act 8 = some (.post 1 7) ∧ ∃ m, 8 < m ∧ Runs E m 7 := by
  obtain ⟨s, run, ran, wsHead, needSched, pc⟩ : ∃ s : State Nat Nat Nat,
      (machine allOk allOk).exec start repost = some s ∧
        s.ran.map s.waiter = [7, 8] ∧ s.wsHead = [] ∧ (∀ p, s.needSched p = false) ∧
        ∀ k, s.pc k = .done := by
    refine ⟨_, rfl, rfl, rfl, fun p => ?_, fun k => ?_⟩
    · cases p <;> rfl
    · cases k <;> rfl
  have quiet : ∀ k, ¬ Machine.Execution.Enabled (machine allOk allOk)
      (Action.TakenBy k) s := by
    rintro k ⟨a, t, taken, step⟩
    cases a <;> simp_all [Action.TakenBy, Action.actor, machine, CallbackWq.step]
  have fair : FairRun (Machine.Execution.ofRun start_init run) := fun k =>
    Machine.Execution.fair_ofRun start_init run (quiet k)
  have last := Machine.Execution.ofRun_after start_init run (n := 22) le_rfl
  obtain ⟨safe, live⟩ := callbackOrder (O := Nat) (P := Nat) allOk_valid
  refine ⟨Machine.Execution.ofRun start_init run, fair, ?_, ?_, rfl, ?_⟩
  · rw [last]
    exact ran
  · exact (safe _ (Machine.Execution.reachable _ 22)).2.1
  · exact (live _ fair).2 8 1 7 rfl

end CoWq.CallbackWq
