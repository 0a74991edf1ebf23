import CoWq.Lib.Machine
import CoWq.Task.UsrList
import CoWq.Task.Workqueue

/-!
# The callback router

The state of one `callback_wq`: its ring of pending entries, the flags that
coalesce posts and schedule the runner, and the drains that run the callbacks.
A step is a critical section or a stretch of code between two shared accesses:
a post up to the end of its lock, the post of the runner, the pop of a worker,
and each turn of the two loops of `drain`.

* `State`, `Action`, `machine`: any number of posting threads and workers.
* `Place`: the four ways in which somebody is in charge of the runner.
* `Single`: at most one of them, and exactly one when `running` is set.
-/

namespace CoWq.CallbackWq

open UsrList Workqueue

/-- The nodes on the executor's queue: the runner, and those of others. -/
inductive Node (O : Type*)
  | runner
  | other (o : O)
  deriving DecidableEq, Repr

/-- The `list_head`s: `pending`, the `local` of each drain, the links of the entries. -/
inductive Link
  | pending
  | loc (k : Nat)
  | entry (e : Nat)
  deriving DecidableEq, Repr

/-- The program points of `drain`. -/
inductive Pc
  /-- not begun, or returned -/
  | done
  /-- the runner is popped, `drain` not entered -/
  | popped
  /-- at the lock of the outer loop -/
  | loop
  /-- at the test of the inner loop -/
  | batch
  /-- with an entry out of `local`, at `store_enqueued` -/
  | took (e : Nat)
  /-- at `n->func(n)` -/
  | call (e : Nat)
  | inCall (e : Nat)
  /-- behind the outer loop, at the reset of `runner.guard` -/
  | exit
  deriving DecidableEq, Repr

structure State (W O P : Type*) where
  ring : Ring Link
  /-- `pending_entry::waiter` -/
  waiter : Nat → W
  callbackEnqueued : W → Bool
  running : Bool
  /-- `runner.guard` holds a reference -/
  guard : Bool
  wsHead : List (Node O)
  /-- the posts behind their critical section, at `exec.post(runner)` -/
  needSched : P → Bool
  /-- the pops of the runner so far -/
  drains : Nat
  pc : Nat → Pc
  /-- `keep_alive` holds a reference -/
  keepAlive : Nat → Bool
  /-- the entries, in the order they were linked into `pending` -/
  accepted : List Nat
  /-- the entries whose waiter was run -/
  ran : List Nat

inductive Action (W O P : Type*)
  | post (p : P) (w : W)
  /-- `exec.post(runner)` -/
  | schedule (p : P)
  /-- somebody posts another node to the executor -/
  | postOther (o : O)
  | workOnce
  /-- `drain` is entered -/
  | drain (k : Nat)
  /-- the critical section of the outer loop -/
  | takeBatch (k : Nat)
  /-- a turn of the inner loop, up to `capture_waiter` -/
  | next (k : Nat)
  | storeEnqueued (k : Nat)
  | callFunc (k : Nat)
  /-- the callback returns -/
  | ret (k : Nat)
  | resetGuard (k : Nat)
  deriving DecidableEq, Repr

section Machine

variable {W O P : Type*} [DecidableEq W] [DecidableEq O] [DecidableEq P]

def State.setPc (s : State W O P) (k : Nat) (p : Pc) : State W O P :=
  { s with pc := fun x => if x = k then p else s.pc x }

def State.setNeedSched (s : State W O P) (p : P) (b : Bool) : State W O P :=
  { s with needSched := fun x => if x = p then b else s.needSched x }

def State.setEnqueued (s : State W O P) (w : W) (b : Bool) : State W O P :=
  { s with callbackEnqueued := fun x => if x = w then b else s.callbackEnqueued x }

/-- The constructors of `state` and of its runner. -/
def init (s : State W O P) : Prop :=
  s.ring.Linked .pending [] ∧ (∀ w, s.callbackEnqueued w = false) ∧ s.running = false ∧
    s.guard = false ∧ .runner ∉ s.wsHead ∧ (∀ p, s.needSched p = false) ∧ s.drains = 0 ∧
    (∀ k, s.pc k = .done) ∧ (∀ k, s.keepAlive k = false) ∧ s.accepted = [] ∧ s.ran = []

/-- A fresh entry at the tail of `pending`. -/
def link (s : State W O P) (w : W) : State W O P :=
  let e := s.accepted.length
  { s with
    ring := listAddTail s.ring (.entry e) .pending
    waiter := fun x => if x = e then w else s.waiter x
    accepted := s.accepted ++ [e] }

/-- The critical section of `post`. -/
def postLocked (s : State W O P) (p : P) (w : W) : State W O P :=
  if s.callbackEnqueued w then s
  else
    let s := link (s.setEnqueued w true) w
    if s.running then s else { s with running := true, guard := true }.setNeedSched p true

/-- The test of `drain` on the ends of `pending`; the addresses in a ring are never
null, so `is_pointer_plausible` holds of each. -/
def corrupted (r : Ring Link) : Bool :=
  r.prev (r.next .pending) ≠ .pending || r.next (r.prev .pending) ≠ .pending

/-- The critical section of `drain`. -/
def drainLocked (s : State W O P) (k : Nat) : State W O P :=
  if listEmpty s.ring .pending then { s with running := false }.setPc k .exit
  else if corrupted s.ring then
    { s with running := false, ring := initListHead s.ring .pending }.setPc k .exit
  else { s with ring := listSteal s.ring .pending (.loc k) }.setPc k .batch

variable (magicOk funcOk : W → Bool)

def step (s : State W O P) : Action W O P → Option (State W O P)
  | .post p w =>
      if s.needSched p = false then
        -- a waiter without its magic is skipped
        if magicOk w then some (postLocked s p w) else some s
      else none
  | .schedule p =>
      if s.needSched p = true then
        some ({ s with wsHead := addNewNolock s.wsHead .runner }.setNeedSched p false)
      else none
  | .postOther o => some { s with wsHead := addNewNolock s.wsHead (.other o) }
  | .workOnce =>
      match s.wsHead with
      | [] => none
      | .other _ :: rest => some { s with wsHead := rest }
      | .runner :: rest =>
          some ({ s with wsHead := rest, drains := s.drains + 1 }.setPc s.drains .popped)
  | .drain k =>
      if s.pc k = .popped then
        some ({ s with
          keepAlive := fun x => if x = k then s.guard else s.keepAlive x }.setPc k .loop)
      else none
  | .takeBatch k => if s.pc k = .loop then some (drainLocked s k) else none
  | .next k =>
      if s.pc k = .batch then
        if listEmpty s.ring (.loc k) then some (s.setPc k .loop)
        else
          match s.ring.next (.loc k) with
          | .entry e => some ({ s with ring := listDel s.ring (.entry e) }.setPc k (.took e))
          | _ => none
      else none
  | .storeEnqueued k =>
      match s.pc k with
      | .took e =>
          let runs := funcOk (s.waiter e) && magicOk (s.waiter e)
          some ((s.setEnqueued (s.waiter e) false).setPc k (if runs then .call e else .batch))
      | _ => none
  | .callFunc k =>
      match s.pc k with
      | .call e => some ({ s with ran := s.ran ++ [e] }.setPc k (.inCall e))
      | _ => none
  | .ret k =>
      match s.pc k with
      | .inCall _ => some (s.setPc k .batch)
      | _ => none
  | .resetGuard k =>
      if s.pc k = .exit then
        some ({ s with
          guard := if s.guard = s.keepAlive k then false else s.guard
          keepAlive := fun x => if x = k then false else s.keepAlive x }.setPc k .done)
      else none

def machine : Machine (State W O P) (Action W O P) := ⟨init, step magicOk funcOk⟩

/-- Every waiter is valid. -/
def allOk (_ : Nat) : Bool := true

/-- A new `callback_wq`. -/
def start : State Nat O P where
  ring := ⟨id, id⟩
  waiter := id
  callbackEnqueued := fun _ => false
  running := false
  guard := false
  wsHead := []
  needSched := fun _ => false
  drains := 0
  pc := fun _ => .done
  keepAlive := fun _ => false
  accepted := []
  ran := []

omit [DecidableEq O] [DecidableEq P] in
theorem start_init : init (start : State Nat O P) :=
  ⟨⟨List.nodup_singleton _, rfl, rfl⟩, fun _ => rfl, rfl, rfl, List.not_mem_nil, fun _ => rfl, rfl,
    fun _ => rfl, fun _ => rfl, rfl, rfl⟩

end Machine

/-! ## Who is in charge of the runner -/

/-- A drain that has not yet cleared `running`. -/
def Pc.busy : Pc → Bool
  | .loop => true
  | .batch => true
  | .took _ => true
  | .call _ => true
  | .inCall _ => true
  | _ => false

/-- The ways to be in charge of the runner. -/
inductive Place (P : Type*)
  /-- a post that has set `running` and not yet posted the runner -/
  | scheduling (p : P)
  /-- the runner is linked in the executor's queue -/
  | linked
  /-- the runner is popped and its drain has not begun -/
  | popped (k : Nat)
  /-- a drain that has not yet cleared `running` -/
  | draining (k : Nat)
  deriving DecidableEq

variable {W O P : Type*} {s t : State W O P} {place : Option (Place P)}

def At (s : State W O P) : Place P → Prop
  | .scheduling p => s.needSched p = true
  | .linked => .runner ∈ s.wsHead
  | .popped k => s.pc k = .popped
  | .draining k => (s.pc k).busy = true

variable [DecidableEq O]

/-- Nobody but `place` is in charge of the runner. -/
structure Single (s : State W O P) (place : Option (Place P)) : Prop where
  at_iff : ∀ x, At s x ↔ place = some x
  count : s.wsHead.count .runner ≤ 1
  running : s.running = true ↔ place ≠ none
  later : ∀ k, s.drains ≤ k → s.pc k = .done

theorem Single.init (start : init s) : Single s none := by
  obtain ⟨-, -, running, -, wsHead, needSched, -, pc, -⟩ := start
  refine ⟨fun x => ?_, ?_, by simp [running], fun k _ => pc k⟩
  · cases x <;> simp [At, needSched, wsHead, pc, Pc.busy]
  · rw [List.count_eq_zero.mpr wsHead]
    exact Nat.zero_le 1

/-- A step that changes neither the flags nor the places. -/
theorem Single.same (h : Single s place) (needSched : t.needSched = s.needSched)
    (wsHead : t.wsHead = s.wsHead) (drains : t.drains = s.drains) (pc : t.pc = s.pc)
    (running : t.running = s.running) : Single t place := by
  refine ⟨fun x => ?_, wsHead ▸ h.count, running ▸ h.running, ?_⟩
  · rw [← h.at_iff x]
    cases x <;> simp only [At, needSched, wsHead, pc]
  · rw [drains, pc]
    exact h.later

theorem Single.only {x : Place P} (h : Single s place) (here : At s x) :
    place = some x ∧ ∀ y, At s y → y = x := by
  have same := (h.at_iff x).mp here
  refine ⟨same, fun y there => ?_⟩
  have also := (h.at_iff y).mp there
  rw [same] at also
  exact (Option.some.inj also).symm

/-- A drain in charge goes on to another point before it clears `running`. -/
theorem Single.goesOn {k : Nat} {p : Pc} (h : Single s place) (busy : (s.pc k).busy)
    (still : p.busy) (needSched : t.needSched = s.needSched) (wsHead : t.wsHead = s.wsHead)
    (drains : t.drains = s.drains) (running : t.running = s.running)
    (pc : t.pc = (s.setPc k p).pc) : Single t place := by
  refine ⟨fun x => ?_, wsHead ▸ h.count, running ▸ h.running, fun j later => ?_⟩
  · rw [← h.at_iff x]
    cases x with
    | scheduling p => simp only [At, needSched]
    | linked => simp only [At, wsHead]
    | popped j => grind -linarith [At, State.setPc, Pc.busy]
    | draining j => grind -linarith [At, State.setPc, Pc.busy]
  · rw [drains] at later
    have := h.later j later
    grind -linarith [State.setPc, Pc.busy]

/-- Who is in charge behind a step. -/
def moved (magicOk : W → Bool) (s : State W O P) (place : Option (Place P)) :
    Action W O P → Option (Place P)
  | .post p w =>
      if magicOk w = true ∧ s.callbackEnqueued w = false ∧ s.running = false then
        some (.scheduling p)
      else place
  | .schedule _ => some .linked
  | .workOnce => if s.wsHead.head? = some .runner then some (.popped s.drains) else place
  | .drain k => some (.draining k)
  | .takeBatch _ => if listEmpty s.ring .pending ∨ corrupted s.ring then none else place
  | _ => place

theorem Single.postOther {o : O} (h : Single s place) :
    Single { s with wsHead := addNewNolock s.wsHead (.other o) } place := by
  refine ⟨fun x => ?_, ?_, h.running, h.later⟩
  · rw [← h.at_iff x]
    cases x <;> simp [At, mem_addNewNolock]
  · have kept : (s.wsHead.erase (.other o)).count .runner = s.wsHead.count .runner :=
      List.count_erase_of_ne (by simp)
    simpa [addNewNolock, List.count_append, kept] using h.count

theorem Single.workOnce {rest : List (Node O)} (h : Single s place)
    (first : s.wsHead = .runner :: rest) :
    Single ({ s with wsHead := rest, drains := s.drains + 1 }.setPc s.drains .popped)
      (some (.popped s.drains)) := by
  have linked : At s .linked := by
    rw [At, first]
    exact List.mem_cons_self
  obtain ⟨here, only⟩ := h.only linked
  have out : .runner ∉ rest := by
    have count := h.count
    rw [first, List.count_cons_self] at count
    exact List.count_eq_zero.mp (by omega)
  refine ⟨fun x => ?_, ?_, ?_, fun k later => ?_⟩
  · have none := only x
    cases x <;> grind -linarith [At, State.setPc, Pc.busy]
  · simp [State.setPc, List.count_eq_zero.mpr out]
  · have running := h.running
    rw [here] at running
    simpa [State.setPc] using running
  · have idle := h.later k
    grind -linarith [State.setPc]

/-- The drain in charge clears `running`. -/
theorem Single.stop {k : Nat} (h : Single s place) (busy : (s.pc k).busy)
    (needSched : t.needSched = s.needSched) (wsHead : t.wsHead = s.wsHead)
    (drains : t.drains = s.drains) (running : t.running = false)
    (pc : t.pc = (s.setPc k .exit).pc) : Single t none := by
  have only := (h.only (x := .draining k) busy).2
  refine ⟨fun x => ?_, wsHead ▸ h.count, by simp [running], fun j later => ?_⟩
  · have none := only x
    cases x <;> grind -linarith [At, State.setPc, Pc.busy]
  · rw [drains] at later
    have := h.later j later
    grind -linarith [State.setPc, Pc.busy]

section Steps

variable [DecidableEq W] [DecidableEq P] {magicOk funcOk : W → Bool}

theorem Single.post {p : P} {w : W} (h : Single s place) :
    Single (postLocked s p w) (if s.callbackEnqueued w = false ∧ s.running = false then
      some (.scheduling p) else place) := by
  unfold postLocked
  cases enqueued : s.callbackEnqueued w with
  | true =>
      simp only [if_true, Bool.true_eq_false, false_and, if_false]
      exact h
  | false =>
      cases running : s.running with
      | true =>
          simp only [Bool.false_eq_true, if_false, State.setEnqueued, link, running, if_true,
            Bool.true_eq_false, and_false]
          exact h.same rfl rfl rfl rfl running.symm
      | false =>
          have nobody : ∀ x, ¬ At s x := by
            intro x here
            have none : place = none := by
              by_contra some
              rw [h.running.mpr some] at running
              cases running
            rw [h.at_iff, none] at here
            cases here
          simp only [Bool.false_eq_true, if_false, State.setEnqueued, link, running, and_self,
            if_true]
          refine ⟨fun x => ?_, h.count, by simp [State.setNeedSched], h.later⟩
          have none := nobody x
          cases x <;> grind -linarith [At, State.setNeedSched]

omit [DecidableEq W] in
theorem Single.schedule {p : P} (h : Single s place) (needSched : s.needSched p = true) :
    Single ({ s with wsHead := addNewNolock s.wsHead .runner }.setNeedSched p false)
      (some .linked) := by
  obtain ⟨here, only⟩ := h.only (x := .scheduling p) needSched
  have out : .runner ∉ s.wsHead := fun mem => by cases only .linked mem
  refine ⟨fun x => ?_, ?_, ?_, h.later⟩
  · have none := only x
    cases x <;> grind -linarith [At, State.setNeedSched, mem_addNewNolock]
  · have zero := List.count_eq_zero.mpr out
    simp [State.setNeedSched, addNewNolock, List.erase_of_not_mem out, List.count_append, zero]
  · have running := h.running
    rw [here] at running
    simpa [State.setNeedSched] using running

theorem Single.step {a : Action W O P} (h : Single s place)
    (run : step magicOk funcOk s a = some t) : Single t (moved magicOk s place a) := by
  cases a with
  | post p w =>
      simp only [CallbackWq.step, Option.ite_none_right_eq_some] at run
      obtain ⟨-, run⟩ := run
      cases ok : magicOk w with
      | true =>
          rw [ok, if_pos rfl, Option.some.injEq] at run
          subst run
          simp only [moved, ok, true_and]
          exact h.post
      | false =>
          rw [ok, if_neg Bool.false_ne_true, Option.some.injEq] at run
          subst run
          simpa [moved, ok] using h
  | schedule p =>
      simp only [CallbackWq.step, Option.ite_none_right_eq_some, Option.some.injEq] at run
      obtain ⟨needSched, rfl⟩ := run
      exact h.schedule needSched
  | postOther o =>
      simp only [CallbackWq.step, Option.some.injEq] at run
      subst run
      exact h.postOther
  | workOnce =>
      simp only [CallbackWq.step] at run
      split at run
      · cases run
      · rename_i o rest first
        rw [Option.some.injEq] at run
        subst run
        rw [moved, if_neg (by simp [first])]
        refine ⟨fun x => ?_, ?_, h.running, h.later⟩
        · rw [← h.at_iff x]
          cases x <;> simp [At, first]
        · have count := h.count
          rwa [first, List.count_cons_of_ne (by simp)] at count
      · rename_i rest first
        rw [Option.some.injEq] at run
        subst run
        rw [moved, if_pos (by simp [first])]
        exact h.workOnce first
  | drain k =>
      simp only [CallbackWq.step, Option.ite_none_right_eq_some, Option.some.injEq] at run
      obtain ⟨popped, rfl⟩ := run
      obtain ⟨here, only⟩ := h.only (x := .popped k) popped
      refine ⟨fun x => ?_, h.count, ?_, fun j later => ?_⟩
      · have none := only x
        rw [moved]
        cases x <;> grind -linarith [At, State.setPc, Pc.busy]
      · have running := h.running
        rw [here] at running
        simpa [State.setPc, moved] using running
      · have := h.later j later
        grind -linarith [State.setPc]
  | takeBatch k =>
      simp only [CallbackWq.step, Option.ite_none_right_eq_some, Option.some.injEq] at run
      obtain ⟨loop, rfl⟩ := run
      have busy : (s.pc k).busy := by rw [loop]; rfl
      unfold drainLocked moved
      cases empty : listEmpty s.ring .pending with
      | true => exact h.stop busy rfl rfl rfl rfl rfl
      | false =>
          cases bad : corrupted s.ring with
          | true => exact h.stop busy rfl rfl rfl rfl rfl
          | false => exact h.goesOn busy (p := .batch) rfl rfl rfl rfl rfl rfl
  | next k =>
      simp only [CallbackWq.step, Option.ite_none_right_eq_some] at run
      obtain ⟨batch, run⟩ := run
      have busy : (s.pc k).busy := by rw [batch]; rfl
      split at run
      · rw [Option.some.injEq] at run
        subst run
        exact h.goesOn busy rfl rfl rfl rfl rfl rfl
      · split at run
        · rw [Option.some.injEq] at run
          subst run
          exact h.goesOn busy rfl rfl rfl rfl rfl rfl
        · cases run
  | storeEnqueued k =>
      simp only [CallbackWq.step] at run
      split at run
      · rename_i e took
        rw [Option.some.injEq] at run
        subst run
        refine h.goesOn (by rw [took]; rfl) ?_ rfl rfl rfl rfl rfl
        split <;> rfl
      · cases run
  | callFunc k =>
      simp only [CallbackWq.step] at run
      split at run
      · rename_i e call
        rw [Option.some.injEq] at run
        subst run
        exact h.goesOn (by rw [call]; rfl) rfl rfl rfl rfl rfl rfl
      · cases run
  | ret k =>
      simp only [CallbackWq.step] at run
      split at run
      · rename_i e call
        rw [Option.some.injEq] at run
        subst run
        exact h.goesOn (by rw [call]; rfl) rfl rfl rfl rfl rfl rfl
      · cases run
  | resetGuard k =>
      simp only [CallbackWq.step, Option.ite_none_right_eq_some, Option.some.injEq] at run
      obtain ⟨exit, rfl⟩ := run
      refine ⟨fun x => ?_, h.count, h.running, fun j later => ?_⟩
      · refine Iff.trans ?_ (h.at_iff x)
        cases x <;> grind -linarith [At, State.setPc, Pc.busy]
      · have := h.later j later
        grind -linarith [State.setPc]

theorem Single.via {ok : State W O P → Action W O P → Prop}
    (run : (machine magicOk funcOk).Via ok s) : ∃ place, Single s place := by
  refine run.invariant (I := fun s => ∃ place, Single s place) (fun s start => ?_)
    fun s a t before _ step => ?_
  · exact ⟨none, Single.init start⟩
  · obtain ⟨place, h⟩ := before
    exact ⟨_, h.step step⟩

end Steps

end CoWq.CallbackWq
