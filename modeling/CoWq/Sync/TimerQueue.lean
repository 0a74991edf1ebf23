import CoWq.Sync.TimerHeap

/-!
# The timer queue over whole runs

* `Reaches tcq live s`: some sequence of `post_delayed_work`, `cancel` and
  `tim_chk_cb` calls leads to `s`, where `live` are the posted nodes that have
  been neither cancelled nor popped.
* `Reaches.heapInv`: the heap invariant holds after every such sequence.
* `heap_shape`: what this says about the pointers.
-/

namespace CoWq.Timer

open Batteries.PairingHeapImp LinkedHeap Links

variable {P Q : Type*} [DecidableEq P] [DecidableEq Q]

/-- The calls made on the queue `tcq`.  A node is posted only while it is not in
the heap; the clock values are free, and every call is one that returns. -/
inductive Reaches (tcq : Q) : Set P → State P Q → Prop
  | init {s : State P Q} : s.heapRoot = none → (∀ n, s.mem.ownerQueue n ≠ some tcq) →
      Reaches tcq ∅ s
  | post {live : Set P} {s : State P Q} (dwork : P) (now : Int) (ms : UInt32) :
      Reaches tcq live s → dwork ∉ live →
      Reaches tcq (insert dwork live) (postDelayedWork tcq s dwork now ms)
  | cancel {live : Set P} {s t : State P Q} (fuel : Nat) (node : Option P) :
      Reaches tcq live s → cancel tcq fuel s node = some t →
      Reaches tcq (live \ {n | node = some n}) t
  | timChkCb {live : Set P} {s t : State P Q} {popped : List P} (now : Int) (fuel : Nat) :
      Reaches tcq live s → timChkCb now fuel s = some (t, popped) →
      Reaches tcq (live \ {n | n ∈ popped}) t
  -- the executor and the users of the nodes
  | elsewhere {live : Set P} {s : State P Q} (wsHead : List P) (func : P → Bool) :
      Reaches tcq live s →
      Reaches tcq live { s with mem := { s.mem with func := func }, wsHead := wsHead }

theorem Reaches.heapInv {tcq : Q} {live : Set P} {s : State P Q} (run : Reaches tcq live s) :
    ∃ h, HeapInv tcq live s h := by
  induction run with
  | init empty foreign => exact ⟨.nil, .empty empty foreign⟩
  | post dwork now ms _ idle ih =>
      obtain ⟨h, inv⟩ := ih
      exact inv.postDelayedWork idle now ms
  | @cancel live s t fuel node _ call ih =>
      obtain ⟨h, inv⟩ := ih
      cases node with
      | none =>
          obtain rfl : s = t := Option.some.inj call
          exact ⟨h, by simpa using inv⟩
      | some n =>
          obtain ⟨h', inv'⟩ := inv.of_cancel call
          refine ⟨h', ?_⟩
          convert inv' using 3
          ext x
          simp [eq_comm]
  | timChkCb now fuel _ call ih =>
      obtain ⟨h, inv⟩ := ih
      obtain ⟨h', inv', -⟩ := inv.of_timChkCb call
      exact ⟨h', inv'⟩
  | elsewhere wsHead func _ ih =>
      obtain ⟨h, inv⟩ := ih
      exact ⟨h, inv.stored, inv.ordered, inv.posted, inv.owned⟩

/-! ## The pointers -/

section Pointers

variable {tcq : Q} {live : Set P} {s : State P Q} {h : Heap P} (inv : HeapInv tcq live s h)

include inv

omit [DecidableEq P] [DecidableEq Q] in
theorem HeapInv.root_links {r : P} (root : s.heapRoot = some r) :
    (s.mem.links r).parent = none ∧ (s.mem.links r).sibling = none := by
  have rep := inv.stored.rep
  cases h with
  | nil => exact absurd (root.symm.trans rep) (by simp)
  | node a c sib =>
      obtain ⟨top, rfl, alone, -⟩ := rep
      obtain rfl : a = r := Option.some.inj (top.symm.trans root)
      exact ⟨inv.stored.top a root, alone⟩

omit [DecidableEq Q] in
/-- The chain of a node of the heap is the top level of what hangs below it. -/
theorem HeapInv.chain {q : P} (mem : q ∈ live) :
    Chain s.mem.links (s.mem.links q).child (roots (under q h)) ∧
      (q :: roots (under q h)).Nodup ∧
      ∀ n ∈ roots (under q h), n ∈ live ∧ s.heapRoot ≠ some n ∧
        (s.mem.links n).parent = some q ∧ s.mem.expire q ≤ s.mem.expire n := by
  have inH := (inv.posted q).mpr mem
  have below : Rep s.mem.links (some q) (under q h) (s.mem.links q).child := by
    have rep := inv.stored.rep
    cases h with
    | nil => cases inH
    | node a c sib =>
        obtain ⟨-, rfl, -, rep⟩ := rep
        rw [under]
        split
        · rename_i same
          exact same ▸ rep
        · rename_i other
          have inC : q ∈ nodes c := by simpa [Ne.symm other] using inH
          rw [if_pos inC]
          exact rep.under inC
  refine ⟨below.chain, ?_, fun n inChain => ?_⟩
  · exact (nodup_under inv.stored.nodup inH).sublist ((roots_sublist _).cons_cons q)
  · have parent := below.parent_of_roots inChain
    refine ⟨(inv.posted n).mp (mem_under (roots_subset inChain)), fun root => ?_, parent, ?_⟩
    · exact absurd (parent.symm.trans (inv.root_links root).1) (by simp)
    · simpa [before] using WF_under inv.ordered inChain

omit [DecidableEq Q] in
theorem HeapInv.inner {n : P} (mem : n ∈ live) (inner : s.heapRoot ≠ some n) :
    ∃ q ∈ live, n ∈ roots (under q h) := by
  rcases roots_or_under inv.stored.nodup ((inv.posted n).mpr mem) with top | ⟨q, hq, low⟩
  · have rep := inv.stored.rep
    cases h with
    | nil => cases top
    | node a c sib =>
        obtain ⟨root, rfl, -⟩ := rep
        obtain rfl : n = a := by simpa [roots] using top
        exact (inner root).elim
  · exact ⟨q, (inv.posted q).mp hq, low⟩

end Pointers

/-- **The representation of the timer queue.**  After every sequence of calls
the links from `heap_root` spell out a finite tree without repetition, whose
nodes are exactly the live ones and exactly the ones this queue owns.  The root
has neither parent nor sibling, every other node is once in the chain of the
node its parent field names and in no other chain, and no node expires before
its parent.  Every further `cancel` and `tim_chk_cb` returns, and a `cancel`
takes out the cancelled node and no other. -/
theorem heap_shape {tcq : Q} {live : Set P} {s : State P Q}
    (run : Reaches tcq live s) :
    (∃ h : Heap P, Stored s.mem.links h s.heapRoot ∧ ∀ n, n ∈ nodes h ↔ n ∈ live) ∧
      (∀ n, s.mem.ownerQueue n = some tcq ↔ n ∈ live) ∧
      (∀ r, s.heapRoot = some r →
        (s.mem.links r).parent = none ∧ (s.mem.links r).sibling = none) ∧
      (∀ n ∈ live, s.heapRoot ≠ some n → ∃ q ∈ live, ∃ chain,
        (s.mem.links n).parent = some q ∧
          Chain s.mem.links (s.mem.links q).child chain ∧ chain.count n = 1) ∧
      (∀ q ∈ live, ∃ chain, Chain s.mem.links (s.mem.links q).child chain ∧
        ∀ n ∈ chain, n ∈ live ∧ s.heapRoot ≠ some n ∧ (s.mem.links n).parent = some q ∧
          s.mem.expire q ≤ s.mem.expire n) ∧
      (∀ now, ∃ fuel r, timChkCb now fuel s = some r) ∧
      (∀ node, ∃ fuel t, cancel tcq fuel s node = some t) ∧
      ∀ n fuel t, cancel tcq fuel s (some n) = some t →
        ∃ h : Heap P, Stored t.mem.links h t.heapRoot ∧ ∀ x, x ∈ nodes h ↔ x ∈ live ∧ x ≠ n := by
  obtain ⟨h, inv⟩ := run.heapInv
  refine ⟨⟨h, inv.stored, inv.posted⟩, fun n => (inv.owned n).trans (inv.posted n),
    fun r root => inv.root_links root, fun n mem low => ?_, fun q mem => ?_, fun now => ?_,
    fun node => ?_, fun n fuel t call => ?_⟩
  · obtain ⟨q, hq, inChain⟩ := inv.inner mem low
    obtain ⟨chain, nodup, members⟩ := inv.chain hq
    exact ⟨q, hq, _, (members n inChain).2.2.1, chain,
      List.count_eq_one_of_mem (List.nodup_cons.mp nodup).2 inChain⟩
  · obtain ⟨chain, -, members⟩ := inv.chain mem
    exact ⟨_, chain, members⟩
  · obtain ⟨t, h', out, call, -⟩ := timChkLoop_spec now [] inv (Nat.lt_succ_self _)
    exact ⟨_, _, call⟩
  · cases node with
    | none => exact ⟨0, s, rfl⟩
    | some n =>
        obtain ⟨t, h', call, -⟩ := inv.cancel (Nat.lt_succ_self _) n
        exact ⟨_, t, call⟩
  · obtain ⟨h', inv'⟩ := (Reaches.cancel fuel (some n) run call).heapInv
    refine ⟨h', inv'.stored, fun x => ?_⟩
    rw [inv'.posted]
    simp [eq_comm]

/-- A queue without nodes. -/
def emptyQueue : State Nat Unit where
  mem := ⟨fun _ => ⟨none, none, none⟩, fun _ => 0, fun _ => true, fun _ => none⟩
  heapRoot := none
  wsHead := []

/-- Two posts, and a `cancel` of the later one, which is the inner node. -/
theorem heap_shape_two_posts :
    let posted := postDelayedWork () (postDelayedWork () emptyQueue 0 0 5) 1 0 7
    ∃ t, cancel () 3 posted (some 1) = some t ∧ t.heapRoot = some 0 ∧
      (∀ n, t.mem.ownerQueue n = some () ↔ n ∈ (({1, 0} : Set Nat) \ {n | some 1 = some n})) ∧
      ∃ h : Heap Nat, Stored t.mem.links h t.heapRoot := by
  have run : Reaches () (insert 1 (insert 0 ∅))
      (postDelayedWork () (postDelayedWork () emptyQueue 0 0 5) 1 0 7) :=
    .post 1 0 7 (.post 0 0 5 (.init rfl fun _ => by simp [emptyQueue]) (by simp)) (by simp)
  obtain ⟨t, call, root⟩ : ∃ t, cancel () 3
      (postDelayedWork () (postDelayedWork () emptyQueue 0 0 5) 1 0 7) (some 1) = some t ∧
      t.heapRoot = some 0 := ⟨_, rfl, rfl⟩
  obtain ⟨⟨h, stored, -⟩, owner, -⟩ := heap_shape (Reaches.cancel 3 (some 1) run call)
  exact ⟨t, call, root, by simpa using owner, h, stored⟩

end CoWq.Timer
