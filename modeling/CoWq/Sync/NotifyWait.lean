import CoWq.Sync.Notify
import CoWq.Sync.TimerCancel

/-!
# What a timed notification wait leaves behind

`NotifyReqTimeoutAwaiter` on an executor whose lock does not block: one worker runs one
callback after the other, and what it has popped is in its hand.  A request stays
registered while its worknode is queued, and only `notify_node` and the timer heap are
looked after when the awaiter is destroyed.

* `Waits`, `Action`, `step`, `waiting`: the machine.
* `Separate`: steps that keep notification and expiry of each wait apart.
* `Tidy`: what this leads to, for one awaiter; `Tidy.step`.
* `request_unlinked_of_separate`: then a destroyed awaiter has left nothing behind.
* `dangling_request`: otherwise its worknode is still queued, and run.
-/

namespace CoWq.NotifyWait

open Workqueue LinkedHeap Timer

/-- The worknodes of the executor: `Notify`, the timer queue, and of every awaiter its
request and its `TimeoutNode`. -/
inductive Node (A : Type*)
  | notify
  | timer
  | req (a : A)
  | tmo (a : A)
  deriving DecidableEq, Repr

inductive Life
  | fresh
  /-- behind `await_suspend` -/
  | waiting
  | resumed
  | destroyed
  deriving DecidableEq, Repr

/-- A `NotifyReqTimeoutAwaiter`; `cancelled` is part of its `notify_req_base`. -/
structure Wait where
  life : Life
  armed : Bool
  /-- `mRegistered` -/
  registered : Bool
  /-- what `await_resume` answered -/
  result : Option Bool
  deriving DecidableEq, Repr

structure Waits (A : Type*) extends Timer.State (Node A) Unit where
  ntf : Notify A
  /-- what the worker has popped -/
  hand : Option (Node A)
  /-- the notifications between increment and `post` -/
  posting : Nat
  wait : A → Wait

inductive Action (A : Type*)
  | notifyOne
  | notifyAll
  | notifyPost
  /-- `tick_update` posts the timer queue -/
  | tickUpdate
  | workOnce
  | inotifyCb
  | timChkCb (now : Int) (fuel : Nat)
  | awaitSuspend (a : A) (now : Int)
  /-- the callback of the request, up to the resume -/
  | notified (a : A) (fuel : Nat)
  | onTimer (a : A)
  | awaitResume (a : A)
  | destroy (a : A) (fuel : Nat)
  deriving DecidableEq, Repr

variable {A : Type*} [DecidableEq A]

def Waits.setWait (s : Waits A) (a : A) (w : Wait) : Waits A :=
  { s with wait := Function.update s.wait a w }

/-- `inotify_num` -/
def inotifyNum (s : Waits A) (reqCnt : Int) : Waits A :=
  { s with wsHead := (s.ntf.inotifyNum reqCnt).foldl (fun q a => addNewNolock q (.req a)) s.wsHead }

/-- The limit with which `inotify_cb` calls `inotify_num`, if it does. -/
def limit (n : Notify A) : Option Int :=
  if n.acquireList = [] then none else if 0 < n.notifyAll then some (-1) else some n.notifyOne.toInt

/-- `inotify_cb` -/
def inotifyCb (s : Waits A) : Waits A :=
  match limit s.ntf with
  | none => s
  | some reqCnt =>
      let t := inotifyNum s reqCnt
      { t with
        ntf := { t.ntf with
          notifyAll := if 0 < s.ntf.notifyAll then 0 else s.ntf.notifyAll
          notifyOne := 0 } }

/-- `mTimerQ.cancel(&mTimeout)` -/
def cancelTimeout (s : Waits A) (a : A) (fuel : Nat) : Option (Waits A) :=
  (Timer.cancel () fuel s.toState (some (.tmo a))).map fun t => { s with toState := t }

/-- The awaiters `A` with their `mTimeoutMs`. -/
def step (ms : A → UInt32) (s : Waits A) : Action A → Option (Waits A)
  | .notifyOne =>
      some { s with
        ntf := { s.ntf with notifyOne := s.ntf.notifyOne + 1 }
        posting := s.posting + 1 }
  | .notifyAll =>
      some { s with
        ntf := { s.ntf with notifyAll := s.ntf.notifyAll + 1 }
        posting := s.posting + 1 }
  | .notifyPost =>
      if 0 < s.posting then
        some { s with posting := s.posting - 1, wsHead := addNewNolock s.wsHead .notify }
      else none
  | .tickUpdate =>
      some { s with
        wsHead := if s.heapRoot = none then s.wsHead else addNewNolock s.wsHead .timer }
  | .workOnce =>
      if s.hand = none then
        match s.wsHead with
        | [] => none
        | n :: rest => some { s with wsHead := rest, hand := some n }
      else none
  | .inotifyCb =>
      if s.hand = some .notify then some { inotifyCb s with hand := none } else none
  | .timChkCb now fuel =>
      if s.hand = some .timer then
        (Timer.timChkCb now fuel s.toState).map fun r => { s with toState := r.1, hand := none }
      else none
  | .awaitSuspend a now =>
      let w := s.wait a
      if w.life = .fresh then
        let t := { s.setWait a { w with life := .waiting, armed := true, registered := true } with
          ntf := s.ntf.regist a }
        if ms a ≠ 0xffffffff then
          some { t with toState := postDelayedWork () s.toState (.tmo a) now (ms a) }
        else some t
      else none
  | .notified a fuel =>
      let w := s.wait a
      if s.hand = some (.req a) then
        if w.armed then
          cancelTimeout { s.setWait a { w with armed := false, life := .resumed } with
            hand := none } a fuel
        else some { s with hand := none }
      else none
  | .onTimer a =>
      let w := s.wait a
      if s.hand = some (.tmo a) then
        if w.armed then
          some { s.setWait a { w with armed := false, life := .resumed } with
            ntf := { s.ntf with cancelled := Function.update s.ntf.cancelled a true }
            hand := none }
        else some { s with hand := none }
      else none
  | .awaitResume a =>
      let w := s.wait a
      if w.life = .resumed ∧ w.result = none then
        some (s.setWait a { w with result := some (!s.ntf.cancelled a) })
      else none
  | .destroy a fuel =>
      let w := s.wait a
      if w.life = .resumed ∧ w.result ≠ none then
        let t := s.setWait a { w with life := .destroyed, registered := false }
        cancelTimeout (if w.registered then { t with ntf := s.ntf.unregist a } else t) a fuel
      else none

/-- The states before the first await. -/
structure Init (s : Waits A) : Prop where
  wsHead : s.wsHead = []
  heapRoot : s.heapRoot = none
  ownerQueue : ∀ n, s.mem.ownerQueue n = none
  func : ∀ n, s.mem.func n = true
  acquireList : s.ntf.acquireList = []
  cancelled : ∀ a, s.ntf.cancelled a = false
  hand : s.hand = none
  wait : ∀ a, s.wait a = ⟨.fresh, false, false, none⟩

def waiting (ms : A → UInt32) : Machine (Waits A) (Action A) where
  init := Init
  step := step ms

/-- A request is posted only while its `TimeoutNode` is not queued and its coroutine waits,
and a `TimeoutNode` expires only while its request is not queued. -/
def Separate (s : Waits A) : Action A → Prop
  | .inotifyCb => ∀ reqCnt, limit s.ntf = some reqCnt → ∀ a ∈ s.ntf.inotifyNum reqCnt,
      .tmo a ∉ s.wsHead ∧ (s.wait a).life = .waiting
  | .timChkCb now _ => ∀ a, s.mem.ownerQueue (.tmo a) = some () →
      s.mem.expire (.tmo a) ≤ now → .req a ∉ s.wsHead
  | _ => True

/-! ## What every step keeps -/

variable {ms : A → UInt32} {s t : Waits A} {act : Action A} {a : A}

/-- The queue and the list hold each element once, and the heap is one of `TimeoutNode`s. -/
structure Sound (s : Waits A) : Prop where
  kept : Kept s.toState
  wsHead : s.wsHead.Nodup
  acquireList : s.ntf.acquireList.Nodup
  owned : ∀ n, s.mem.ownerQueue n = some () → ∃ a, n = .tmo a

/-- Request and `TimeoutNode` of `a` are not under way together, and only while the
coroutine waits. -/
structure Tidy (s : Waits A) (a : A) : Prop where
  req : .req a ∈ s.wsHead ∨ s.hand = some (.req a) →
    (s.wait a).life = .waiting ∧ .tmo a ∉ s.wsHead
  reqOnce : s.hand = some (.req a) → .req a ∉ s.wsHead
  tmo : .tmo a ∈ s.wsHead ∨ s.hand = some (.tmo a) →
    (s.wait a).life = .waiting ∧ .req a ∉ s.wsHead ∧ s.mem.ownerQueue (.tmo a) ≠ some ()
  tmoOnce : s.hand = some (.tmo a) → .tmo a ∉ s.wsHead
  heap : s.mem.ownerQueue (.tmo a) = some () → (s.wait a).life = .waiting
  armed : (s.wait a).armed = true ↔ (s.wait a).life = .waiting
  list : a ∈ s.ntf.acquireList → (s.wait a).registered = true
  registered : (s.wait a).registered = true →
    (s.wait a).life = .waiting ∨ (s.wait a).life = .resumed

theorem cancelTimeout_spec {fuel : Nat} (kept : Kept s.toState)
    (call : cancelTimeout s a fuel = some t) :
    Kept t.toState ∧ t.wsHead = s.wsHead ∧ t.ntf = s.ntf ∧ t.hand = s.hand ∧ t.wait = s.wait ∧
      ∀ n, t.mem.ownerQueue n = some () ↔ s.mem.ownerQueue n = some () ∧ n ≠ .tmo a := by
  obtain ⟨u, removed, rfl⟩ := Option.map_eq_some_iff.mp call
  obtain ⟨kept', wsHead, -, owned⟩ := kept.cancel removed
  exact ⟨kept', wsHead, rfl, rfl, rfl, owned⟩

theorem mem_inotifyNum {reqCnt : Int} {n : Node A} : n ∈ (inotifyNum s reqCnt).wsHead ↔
    n ∈ s.wsHead ∨ ∃ a ∈ s.ntf.inotifyNum reqCnt, n = .req a :=
  mem_foldl_addNewNolock

/-- `inotify_cb` posts what `Separate` looks at, and changes the counters. -/
theorem inotifyCb_spec (s : Waits A) :
    (inotifyCb s).toState = { s.toState with wsHead := (inotifyCb s).wsHead } ∧
      (inotifyCb s).wait = s.wait ∧ (inotifyCb s).ntf.acquireList = s.ntf.acquireList ∧
      (s.wsHead.Nodup → (inotifyCb s).wsHead.Nodup) ∧
      ∀ n, n ∈ (inotifyCb s).wsHead ↔ n ∈ s.wsHead ∨
        ∃ reqCnt, limit s.ntf = some reqCnt ∧ ∃ a ∈ s.ntf.inotifyNum reqCnt, n = .req a := by
  unfold inotifyCb
  cases bound : limit s.ntf with
  | none => exact ⟨rfl, rfl, rfl, id, fun n => by simp⟩
  | some reqCnt =>
      refine ⟨rfl, rfl, rfl, nodup_foldl_addNewNolock, fun n => ?_⟩
      simp only [Option.some.injEq, exists_eq_left']
      exact mem_inotifyNum

theorem Sound.step (sound : Sound s) (tidy : ∀ a, Tidy s a) (run : step ms s act = some t) :
    Sound t := by
  obtain ⟨kept, wsHead, acquireList, owned⟩ := sound
  cases act with
  | notifyOne =>
      cases run
      exact ⟨kept, wsHead, acquireList, owned⟩
  | notifyAll =>
      cases run
      exact ⟨kept, wsHead, acquireList, owned⟩
  | notifyPost =>
      obtain ⟨-, run⟩ := Option.ite_none_right_eq_some.mp run
      cases run
      exact ⟨kept.congr rfl rfl, nodup_addNewNolock wsHead, acquireList, owned⟩
  | tickUpdate =>
      cases run
      refine ⟨kept.congr rfl rfl, ?_, acquireList, owned⟩
      dsimp only
      split
      · exact wsHead
      · exact nodup_addNewNolock wsHead
  | workOnce =>
      obtain ⟨-, run⟩ := Option.ite_none_right_eq_some.mp run
      split at run <;> cases run
      rename_i first
      rw [first] at wsHead
      exact ⟨kept.congr rfl rfl, (List.nodup_cons.mp wsHead).2, acquireList, owned⟩
  | inotifyCb =>
      obtain ⟨-, run⟩ := Option.ite_none_right_eq_some.mp run
      cases run
      obtain ⟨timer, -, list, nodup, -⟩ := inotifyCb_spec s
      refine ⟨?_, nodup wsHead, list ▸ acquireList, ?_⟩
      · dsimp only
        rw [timer]
        exact kept.congr rfl rfl
      · dsimp only
        rw [timer]
        exact owned
  | timChkCb now fuel =>
      obtain ⟨-, run⟩ := Option.ite_none_right_eq_some.mp run
      obtain ⟨r, call, rfl⟩ := Option.map_eq_some_iff.mp run
      obtain ⟨kept', popped, owned'⟩ := kept.timChkCb call
      exact ⟨kept', popped.nodup wsHead, acquireList, fun n own => owned n ((owned' n).mp own).1⟩
  | awaitSuspend a now =>
      obtain ⟨fresh, run⟩ := Option.ite_none_right_eq_some.mp run
      have idle : s.mem.ownerQueue (.tmo a) ≠ some () := by
        intro own
        have waits := (tidy a).heap own
        rw [fresh] at waits
        cases waits
      have out : a ∉ s.ntf.acquireList := by
        intro mem
        rcases (tidy a).registered ((tidy a).list mem) with waits | resumed
        · rw [fresh] at waits
          cases waits
        · rw [fresh] at resumed
          cases resumed
      have list : (s.ntf.regist a).acquireList.Nodup := by
        refine List.nodup_append.mpr ⟨acquireList, List.nodup_singleton a, ?_⟩
        intro b mem b' mem' same
        exact out (List.mem_singleton.mp mem' ▸ same ▸ mem)
      split at run <;> cases run
      · refine ⟨kept.postDelayedWork idle now (ms a), wsHead, list, fun n own => ?_⟩
        rcases eq_or_ne n (.tmo a) with rfl | other
        · exact ⟨a, rfl⟩
        · exact owned n (by simpa [Timer.postDelayedWork, other] using own)
      · exact ⟨kept, wsHead, list, owned⟩
  | notified a fuel =>
      obtain ⟨-, run⟩ := Option.ite_none_right_eq_some.mp run
      split at run
      · obtain ⟨kept', queue, ntf, -, -, owned'⟩ := cancelTimeout_spec (by exact kept) run
        exact ⟨kept', queue ▸ wsHead, ntf ▸ acquireList, fun n own => owned n ((owned' n).mp own).1⟩
      · cases run
        exact ⟨kept, wsHead, acquireList, owned⟩
  | onTimer a =>
      obtain ⟨-, run⟩ := Option.ite_none_right_eq_some.mp run
      split at run <;> cases run <;> exact ⟨kept, wsHead, acquireList, owned⟩
  | awaitResume a =>
      obtain ⟨-, run⟩ := Option.ite_none_right_eq_some.mp run
      cases run
      exact ⟨kept, wsHead, acquireList, owned⟩
  | destroy a fuel =>
      obtain ⟨-, run⟩ := Option.ite_none_right_eq_some.mp run
      split at run
      · obtain ⟨kept', queue, ntf, -, -, owned'⟩ := cancelTimeout_spec (by exact kept) run
        refine ⟨kept', queue ▸ wsHead, ?_, fun n own => owned n ((owned' n).mp own).1⟩
        rw [ntf]
        exact acquireList.erase a
      · obtain ⟨kept', queue, ntf, -, -, owned'⟩ := cancelTimeout_spec (by exact kept) run
        exact ⟨kept', queue ▸ wsHead, ntf ▸ acquireList, fun n own => owned n ((owned' n).mp own).1⟩

omit [DecidableEq A] in
/-- What a step that posts no request and no `TimeoutNode` leaves as it is. -/
theorem Tidy.congr (tidy : Tidy s a) (wait : t.wait = s.wait)
    (list : t.ntf.acquireList = s.ntf.acquireList)
    (owner : t.mem.ownerQueue = s.mem.ownerQueue)
    (hand : t.hand = s.hand ∨ t.hand = none)
    (req : .req a ∈ t.wsHead ↔ .req a ∈ s.wsHead)
    (tmo : .tmo a ∈ t.wsHead ↔ .tmo a ∈ s.wsHead) : Tidy t a := by
  cases tidy
  constructor <;> grind -linarith

theorem Tidy.workOnce (sound : Sound s) (tidy : Tidy s a) (run : step ms s .workOnce = some t) :
    Tidy t a := by
  obtain ⟨free, run⟩ := Option.ite_none_right_eq_some.mp run
  split at run <;> cases run
  rename_i n rest first
  have nodup := sound.wsHead
  rw [first] at nodup
  have out := (List.nodup_cons.mp nodup).1
  cases tidy
  constructor <;> dsimp only <;> grind -linarith

theorem Tidy.inotifyCb (tidy : Tidy s a) (separate : Separate s .inotifyCb)
    (run : step ms s .inotifyCb = some t) : Tidy t a := by
  obtain ⟨hand, run⟩ := Option.ite_none_right_eq_some.mp run
  cases run
  obtain ⟨timer, wait, list, -, queue⟩ := inotifyCb_spec s
  have req := queue (.req a)
  have tmo := queue (.tmo a)
  simp only [Separate] at separate
  have mem : (NotifyWait.inotifyCb s).mem = s.mem := by rw [timer]
  cases tidy
  constructor <;> dsimp only <;> grind -linarith

theorem Tidy.timChkCb {now : Int} {fuel : Nat} (sound : Sound s) (tidy : Tidy s a)
    (separate : Separate s (.timChkCb now fuel)) (run : step ms s (.timChkCb now fuel) = some t) :
    Tidy t a := by
  obtain ⟨hand, run⟩ := Option.ite_none_right_eq_some.mp run
  obtain ⟨r, call, rfl⟩ := Option.map_eq_some_iff.mp run
  obtain ⟨-, popped, owned⟩ := sound.kept.timChkCb call
  have req : .req a ∉ r.2 := by
    intro mem
    obtain ⟨b, wrong⟩ := sound.owned _ (popped.due _ mem).1
    cases wrong
  have reqQueue := popped.wsHead (.req a)
  have tmoQueue := popped.wsHead (.tmo a)
  have due : .tmo a ∈ r.2 → s.mem.ownerQueue (.tmo a) = some () ∧ .req a ∉ s.wsHead :=
    fun mem => ⟨(popped.due _ mem).1, separate a (popped.due _ mem).1 (popped.due _ mem).2⟩
  have own := owned (.tmo a)
  cases tidy
  constructor <;> dsimp only <;> grind -linarith

theorem Tidy.awaitSuspend {b : A} {now : Int} (tidy : Tidy s a)
    (run : step ms s (.awaitSuspend b now) = some t) : Tidy t a := by
  obtain ⟨fresh, run⟩ := Option.ite_none_right_eq_some.mp run
  cases tidy
  rcases eq_or_ne a b with rfl | other
  · split at run <;> cases run <;>
      constructor <;> dsimp only [Waits.setWait, Notify.regist, Timer.postDelayedWork] <;>
        grind -linarith
  · split at run <;> cases run <;>
      constructor <;> dsimp only [Waits.setWait, Notify.regist, Timer.postDelayedWork] <;>
      grind -linarith [Function.update_apply]

theorem Tidy.notified {b : A} {fuel : Nat} (sound : Sound s) (tidy : Tidy s a)
    (run : step ms s (.notified b fuel) = some t) : Tidy t a := by
  obtain ⟨hand, run⟩ := Option.ite_none_right_eq_some.mp run
  split at run
  · obtain ⟨-, queue, ntf, hand', wait, owned⟩ := cancelTimeout_spec (by exact sound.kept) run
    have own := owned (.tmo a)
    have here := congrFun wait a
    simp only [Waits.setWait, Function.update_apply] at queue ntf hand' here own
    clear run owned wait
    cases tidy
    constructor <;> grind -linarith
  · cases run
    exact tidy.congr rfl rfl rfl (.inr rfl) .rfl .rfl

theorem Tidy.onTimer {b : A} (tidy : Tidy s a) (run : step ms s (.onTimer b) = some t) :
    Tidy t a := by
  obtain ⟨hand, run⟩ := Option.ite_none_right_eq_some.mp run
  split at run <;> cases run
  · cases tidy
    constructor <;> dsimp only [Waits.setWait] <;> grind -linarith [Function.update_apply]
  · exact tidy.congr rfl rfl rfl (.inr rfl) .rfl .rfl

theorem Tidy.destroy {b : A} {fuel : Nat} (sound : Sound s) (tidy : Tidy s a)
    (run : step ms s (.destroy b fuel) = some t) : Tidy t a := by
  obtain ⟨⟨resumed, -⟩, run⟩ := Option.ite_none_right_eq_some.mp run
  have erased := sound.acquireList.mem_erase_iff (a := a) (b := b)
  split at run
  all_goals
    obtain ⟨-, queue, ntf, hand', wait, owned⟩ := cancelTimeout_spec (by exact sound.kept) run
    have own := owned (.tmo a)
    have here := congrFun wait a
    simp only [Waits.setWait, Notify.unregist, Function.update_apply] at queue ntf hand' here own
    clear run owned wait
    cases tidy
    constructor <;> grind -linarith

theorem Tidy.step (sound : Sound s) (tidy : Tidy s a) (separate : Separate s act)
    (run : NotifyWait.step ms s act = some t) : Tidy t a := by
  cases act with
  | notifyOne =>
      cases run
      exact tidy.congr rfl rfl rfl (.inl rfl) .rfl .rfl
  | notifyAll =>
      cases run
      exact tidy.congr rfl rfl rfl (.inl rfl) .rfl .rfl
  | notifyPost =>
      obtain ⟨-, run⟩ := Option.ite_none_right_eq_some.mp run
      cases run
      exact tidy.congr rfl rfl rfl (.inl rfl) (by simp [mem_addNewNolock])
        (by simp [mem_addNewNolock])
  | tickUpdate =>
      cases run
      refine tidy.congr rfl rfl rfl (.inl rfl) ?_ ?_
      · dsimp only
        split <;> simp [mem_addNewNolock]
      · dsimp only
        split <;> simp [mem_addNewNolock]
  | workOnce => exact tidy.workOnce sound run
  | inotifyCb => exact tidy.inotifyCb separate run
  | timChkCb now fuel => exact tidy.timChkCb sound separate run
  | awaitSuspend b now => exact tidy.awaitSuspend run
  | notified b fuel => exact tidy.notified sound run
  | onTimer b => exact tidy.onTimer run
  | awaitResume b =>
      obtain ⟨-, run⟩ := Option.ite_none_right_eq_some.mp run
      cases run
      cases tidy
      constructor <;> dsimp only [Waits.setWait] <;> grind -linarith [Function.update_apply]
  | destroy b fuel => exact tidy.destroy sound run

theorem sound_tidy_of_via (run : (waiting ms).Via Separate s) : Sound s ∧ ∀ a, Tidy s a := by
  refine run.invariant (I := fun s => Sound s ∧ ∀ a, Tidy s a) ?_ ?_
  · rintro s ⟨wsHead, heapRoot, owner, -, list, -, hand, wait⟩
    refine ⟨⟨(HeapInv.empty heapRoot fun n => ?_).kept, ?_, ?_, ?_⟩, fun a => ?_⟩
    · simp [owner n]
    · simp [wsHead]
    · simp [list]
    · simp [owner]
    · constructor <;> simp [wsHead, owner, list, hand, wait a]
  · rintro s act t ⟨sound, tidy⟩ separate run
    exact ⟨sound.step tidy run, fun a => (tidy a).step sound separate run⟩

/-! ## What is left -/

/-- Neither node of `a` is in the executor's queue, in the heap below `heap_root` or in the
worker's hand, and its `notify_node` is not in `acquire_list`. -/
structure Unlinked (s : Waits A) (a : A) : Prop where
  wsHead : .req a ∉ s.wsHead ∧ .tmo a ∉ s.wsHead
  acquireList : a ∉ s.ntf.acquireList
  heap : ∃ h, Stored s.mem.links h s.heapRoot ∧ .req a ∉ nodes h ∧ .tmo a ∉ nodes h
  hand : s.hand ≠ some (.req a) ∧ s.hand ≠ some (.tmo a)

omit [DecidableEq A] in
theorem Tidy.unlinked (sound : Sound s) (tidy : Tidy s a)
    (destroyed : (s.wait a).life = .destroyed) : Unlinked s a := by
  obtain ⟨⟨h, inv⟩, -, -, owned⟩ := sound
  have req : ¬ (.req a ∈ s.wsHead ∨ s.hand = some (.req a)) := by
    intro under
    cases destroyed.symm.trans (tidy.req under).1
  have tmo : ¬ (.tmo a ∈ s.wsHead ∨ s.hand = some (.tmo a)) := by
    intro under
    cases destroyed.symm.trans (tidy.tmo under).1
  obtain ⟨reqQueue, reqHand⟩ := not_or.mp req
  obtain ⟨tmoQueue, tmoHand⟩ := not_or.mp tmo
  refine ⟨⟨reqQueue, tmoQueue⟩, fun mem => ?_, ⟨h, inv.stored, fun mem => ?_, fun mem => ?_⟩,
    reqHand, tmoHand⟩
  · rcases tidy.registered (tidy.list mem) with waits | resumed
    · cases destroyed.symm.trans waits
    · cases destroyed.symm.trans resumed
  · obtain ⟨b, wrong⟩ := owned _ ((inv.owned _).mpr mem)
    cases wrong
  · cases destroyed.symm.trans (tidy.heap ((inv.owned _).mpr mem))

/-- A destroyed awaiter stays destroyed. -/
theorem Tidy.destroyed (tidy : ∀ a, Tidy s a) (run : NotifyWait.step ms s act = some t)
    (destroyed : (s.wait a).life = .destroyed) : (t.wait a).life = .destroyed := by
  have other : ∀ {b : A} {w : Wait}, (s.wait b).life ≠ .destroyed →
      (Function.update s.wait b w a).life = .destroyed := by
    intro b w alive
    have ne : a ≠ b := by
      rintro rfl
      exact alive destroyed
    rwa [Function.update_of_ne ne]
  cases act with
  | notifyOne | notifyAll | tickUpdate =>
      cases run
      exact destroyed
  | notifyPost =>
      obtain ⟨-, run⟩ := Option.ite_none_right_eq_some.mp run
      cases run
      exact destroyed
  | workOnce =>
      obtain ⟨-, run⟩ := Option.ite_none_right_eq_some.mp run
      split at run <;> cases run
      exact destroyed
  | inotifyCb =>
      obtain ⟨-, run⟩ := Option.ite_none_right_eq_some.mp run
      cases run
      rw [(inotifyCb_spec s).2.1]
      exact destroyed
  | timChkCb now fuel =>
      obtain ⟨-, run⟩ := Option.ite_none_right_eq_some.mp run
      obtain ⟨r, -, rfl⟩ := Option.map_eq_some_iff.mp run
      exact destroyed
  | awaitSuspend b now =>
      obtain ⟨fresh, run⟩ := Option.ite_none_right_eq_some.mp run
      split at run <;> cases run <;> exact other (by simp [fresh])
  | notified b fuel =>
      obtain ⟨hand, run⟩ := Option.ite_none_right_eq_some.mp run
      have waits := ((tidy b).req (.inr hand)).1
      split at run
      · obtain ⟨u, -, rfl⟩ := Option.map_eq_some_iff.mp run
        exact other (by simp [waits])
      · cases run
        exact destroyed
  | onTimer b =>
      obtain ⟨hand, run⟩ := Option.ite_none_right_eq_some.mp run
      have waits := ((tidy b).tmo (.inr hand)).1
      split at run <;> cases run
      · exact other (by simp [waits])
      · exact destroyed
  | awaitResume b =>
      obtain ⟨⟨resumed, -⟩, run⟩ := Option.ite_none_right_eq_some.mp run
      cases run
      exact other (by simp [resumed])
  | destroy b fuel =>
      obtain ⟨⟨resumed, -⟩, run⟩ := Option.ite_none_right_eq_some.mp run
      obtain ⟨u, -, rfl⟩ := Option.map_eq_some_iff.mp run
      split <;> exact other (by simp [resumed])

/-- **A wait leaves nothing behind as long as its notification and its expiry are kept
apart**: when the awaiter is destroyed, and after any later steps, its two nodes and its
`notify_node` are in no container. -/
theorem request_unlinked_of_separate (run : (waiting ms).Via Separate s)
    (destroyed : (s.wait a).life = .destroyed) (later : (waiting ms).Leads Separate s t) :
    (t.wait a).life = .destroyed ∧ Unlinked t a := by
  have still : (t.wait a).life = .destroyed := by
    induction later with
    | refl => exact destroyed
    | tail before step ih =>
        obtain ⟨act, -, step⟩ := step
        exact Tidy.destroyed (sound_tidy_of_via (run.leads before)).2 step ih
  obtain ⟨sound, tidy⟩ := sound_tidy_of_via (run.leads later)
  exact ⟨still, (tidy a).unlinked sound still⟩

/-! ## Runs -/

instance [Fintype A] (s : Waits A) (act : Action A) : Decidable (Separate s act) :=
  match act with
  | .inotifyCb => inferInstanceAs (Decidable (∀ reqCnt, limit s.ntf = some reqCnt →
      ∀ a ∈ s.ntf.inotifyNum reqCnt, .tmo a ∉ s.wsHead ∧ (s.wait a).life = .waiting))
  | .timChkCb now _ => inferInstanceAs (Decidable (∀ a, s.mem.ownerQueue (.tmo a) = some () →
      s.mem.expire (.tmo a) ≤ now → .req a ∉ s.wsHead))
  | .notifyOne => .isTrue trivial
  | .notifyAll => .isTrue trivial
  | .notifyPost => .isTrue trivial
  | .tickUpdate => .isTrue trivial
  | .workOnce => .isTrue trivial
  | .awaitSuspend _ _ => .isTrue trivial
  | .notified _ _ => .isTrue trivial
  | .onTimer _ => .isTrue trivial
  | .awaitResume _ => .isTrue trivial
  | .destroy _ _ => .isTrue trivial

/-- Nobody waits. -/
def start : Waits A where
  mem := ⟨fun _ => ⟨none, none, none⟩, fun _ => 0, fun _ => true, fun _ => none⟩
  heapRoot := none
  wsHead := []
  ntf := ⟨[], fun _ => false, 0, 0⟩
  hand := none
  posting := 0
  wait _ := ⟨.fresh, false, false, none⟩

theorem start_init : (waiting ms).init start := by
  constructor <;> intros <;> rfl

/-- A wait that is notified. -/
def notifiedRun : List (Action Unit) :=
  [.awaitSuspend () 0, .notifyOne, .notifyPost, .workOnce, .inotifyCb, .workOnce,
    .notified () 1, .awaitResume (), .destroy () 1]

theorem request_unlinked_of_separate_notified : ∃ s t : Waits Unit,
    (waiting fun _ => 5).execOk Separate start notifiedRun = some s ∧
    (waiting fun _ => 5).execOk Separate s [.notifyOne, .notifyPost, .workOnce] = some t ∧
    (t.wait ()).life = .destroyed ∧ Unlinked t () := by
  obtain ⟨s, t, run, later, destroyed⟩ : ∃ s t,
      (waiting fun _ => 5).execOk Separate start notifiedRun = some s ∧
      (waiting fun _ => 5).execOk Separate s [.notifyOne, .notifyPost, .workOnce] = some t ∧
      (s.wait ()).life = .destroyed := ⟨_, _, rfl, rfl, rfl⟩
  exact ⟨s, t, run, later, request_unlinked_of_separate (.execOk (.init start_init) run) destroyed
    (Machine.leads_of_execOk later)⟩

/-- The timer expires, and the notification posts the request behind it in the queue: the
awaiter is destroyed with its request linked, and the worker runs it. -/
theorem dangling_request : ∃ s t : Waits Unit,
    (waiting fun _ => 5).Reachable s ∧ (s.wait ()).life = .destroyed ∧ ¬ Unlinked s () ∧
      step (fun _ => 5) s .workOnce = some t ∧ t.hand = some (.req ()) := by
  obtain ⟨s, t, run, destroyed, linked, later, hand⟩ : ∃ s t,
      (waiting fun _ => 5).exec start [.awaitSuspend () 0, .tickUpdate, .notifyOne, .notifyPost,
        .workOnce, .timChkCb 5000000 2, .workOnce, .inotifyCb, .workOnce, .onTimer (),
        .awaitResume (), .destroy () 1] = some s ∧
      (s.wait ()).life = .destroyed ∧ .req () ∈ s.wsHead ∧
      step (fun _ => 5) s .workOnce = some t ∧ t.hand = some (.req ()) :=
    ⟨_, _, rfl, rfl, by decide, rfl, rfl⟩
  exact ⟨s, t, .exec (.init start_init) run, destroyed,
    fun unlinked => unlinked.wsHead.1 linked, later, hand⟩

end CoWq.NotifyWait
