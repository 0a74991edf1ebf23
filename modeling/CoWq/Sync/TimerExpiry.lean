import CoWq.Sync.TimerQueue

/-!
# One run of `tim_chk_cb`

* `HeapInv.root_first`: the root of the heap is due before every other node.
* `Expired`: what a run that pops the nodes `popped` has done, outside the heap it leaves.
* `timChkLoop_expired`: the loop pops the due nodes, by induction on the rounds.
* `pops_due`: the same for `tim_chk_cb`, with the queue of the executor written out.
-/

namespace CoWq.Timer

open Batteries.PairingHeapImp LinkedHeap Links Workqueue

variable {P Q : Type*} [DecidableEq P] {tcq : Q} {live : Set P} {s t : State P Q}
  {now : Int} {popped : List P}

omit [DecidableEq P] in
theorem HeapInv.root_first {r : P} {c : Heap P} (inv : HeapInv tcq live s (.node r c .nil))
    {x : P} (mem : x ∈ live) : s.mem.expire r ≤ s.mem.expire x := by
  have inH := (inv.posted x).mpr mem
  simp only [nodes_node, nodes_nil, List.append_nil, List.mem_cons] at inH
  rcases inH with rfl | below
  · exact le_refl _
  · cases inv.ordered with
    | node wf =>
        have first : before s.mem.expire r x = true := by
          refine NodeWF_nodes (fun {a b c} ab bc => ?_) wf below
          simp only [before, decide_eq_true_eq] at ab bc ⊢
          exact le_trans ab bc
        exact of_decide_eq_true first

/-- The nodes `popped` are the due ones in the order of their times.  They are posted to the
executor if they have a callback, and they have neither owner nor links left; nothing else of
the node memory changes, the links inside the heap apart. -/
structure Expired (live : Set P) (now : Int) (s t : State P Q) (popped : List P) : Prop where
  due : ∀ x, x ∈ popped ↔ x ∈ live ∧ s.mem.expire x ≤ now
  nodup : popped.Nodup
  sorted : popped.Pairwise fun x y => s.mem.expire x ≤ s.mem.expire y
  wsHead : t.wsHead = (popped.filter s.mem.func).foldl addNewNolock s.wsHead
  cleared : ∀ x ∈ popped, t.mem.ownerQueue x = none ∧ t.mem.links x = ⟨none, none, none⟩
  owner : ∀ x, x ∉ popped → t.mem.ownerQueue x = s.mem.ownerQueue x
  links : ∀ x, x ∉ live → t.mem.links x = s.mem.links x
  func : t.mem.func = s.mem.func
  expire : t.mem.expire = s.mem.expire

/-- The loop ends here: no node of the heap is due. -/
theorem Expired.of_none_due (later : ∀ x ∈ live, now < s.mem.expire x) :
    Expired live now s s [] := by
  refine ⟨fun x => ?_, List.nodup_nil, .nil, rfl, ?_, fun _ _ => rfl, fun _ _ => rfl, rfl, rfl⟩
  · simp only [List.not_mem_nil, false_iff, not_and, not_le]
    exact later x
  · simp

/-- One round before the others. -/
theorem Expired.cons {r : P} {c : Heap P} {t₁ : State P Q}
    (inv : HeapInv tcq live s (.node r c .nil)) (due : s.mem.expire r ≤ now)
    (pop : RootPopped tcq live s t₁ r c) (rest : Expired (live \ {r}) now t₁ t popped) :
    Expired live now s t (r :: popped) := by
  have top : r ∈ live := (inv.posted r).mp List.mem_cons_self
  have out : r ∉ popped := fun mem => ((rest.due r).mp mem).1.2 rfl
  have apart : ∀ x, x ∉ live → x ∉ r :: nodes c := by
    intro x idle mem
    exact idle ((inv.posted x).mp (by simpa using mem))
  refine ⟨fun x => ?_, List.nodup_cons.mpr ⟨out, rest.nodup⟩, ?_, ?_, fun x mem => ?_,
    fun x notIn => ?_, fun x idle => ?_, rest.func.trans pop.func, rest.expire.trans pop.expire⟩
  · rw [List.mem_cons, rest.due x, pop.expire, Set.mem_sdiff, Set.mem_singleton_iff]
    by_cases same : x = r
    · simp [same, top, due]
    · simp [same]
  · refine List.pairwise_cons.mpr ⟨fun x mem => ?_, pop.expire ▸ rest.sorted⟩
    exact inv.root_first ((rest.due x).mp mem).1.1
  · rw [rest.wsHead, pop.wsHead, pop.func, List.filter_cons]
    by_cases callback : s.mem.func r = true
    · rw [if_pos callback, if_pos callback, List.foldl_cons]
    · rw [if_neg callback, if_neg callback]
  · rcases List.mem_cons.mp mem with rfl | mem
    · -- the later rounds do not reach the node that was popped
      have gone : x ∉ live \ {x} := fun h => h.2 rfl
      refine ⟨(rest.owner x out).trans ?_, (rest.links x gone).trans pop.cleared⟩
      rw [pop.owner, Function.update_self]
    · exact rest.cleared x mem
  · obtain ⟨ne, notIn⟩ := not_or.mp (List.mem_cons.not.mp notIn)
    rw [rest.owner x notIn, pop.owner, Function.update_of_ne ne]
  · rw [rest.links x fun h => idle h.1, pop.frame x (apart x idle)]

/-- With more fuel than the heap has nodes the loop ends, and it has popped the due nodes. -/
theorem timChkLoop_expired (now : Int) : ∀ {fuel : Nat} {live : Set P} {s : State P Q} {h : Heap P}
    (before : List P), HeapInv tcq live s h → (nodes h).length < fuel →
    ∃ t h' popped, timChkLoop now fuel s before = some (t, before ++ popped) ∧
      HeapInv tcq (live \ {x | x ∈ popped}) t h' ∧ Expired live now s t popped := by
  intro fuel
  induction fuel with
  | zero => exact fun _ _ size => absurd size (Nat.not_lt_zero _)
  | succ fuel ih =>
      intro live s h before inv size
      have rep := inv.stored.rep
      cases h with
      | nil =>
          have root : s.heapRoot = none := rep
          refine ⟨s, .nil, [], by simp [timChkLoop, root], by simpa using inv, .of_none_due ?_⟩
          exact fun x mem => absurd ((inv.posted x).mpr mem) List.not_mem_nil
      | node r c sib =>
          obtain ⟨root, rfl, -, -⟩ := rep
          by_cases due : s.mem.expire r ≤ now
          · have size' : (nodes c).length < fuel := by
              simp only [nodes_node, nodes_nil, List.append_nil, List.length_cons] at size
              omega
            obtain ⟨t₁, round, pop⟩ := inv.popRoot due size' before
            have perm := nodes_combine (Timer.before s.mem.expire) c
            obtain ⟨t, h', popped, run, final, rest⟩ := ih (before ++ [r]) pop.inv
              (by rw [perm.length_eq]; exact size')
            refine ⟨t, h', r :: popped, ?_, ?_, .cons inv due pop rest⟩
            · rw [round, run, List.append_assoc, List.singleton_append]
            · have same : live \ {x | x ∈ r :: popped} = (live \ {r}) \ {x | x ∈ popped} := by
                ext x
                simp [and_assoc]
              exact same ▸ final
          · refine ⟨s, .node r c .nil, [], by simp [timChkLoop, root, due], by simpa using inv,
              .of_none_due fun x mem => ?_⟩
            have first := inv.root_first mem
            omega

/-- **Expiry pops exactly the due timers, in order.**  Whatever the heap and the clock, one
`tim_chk_cb` returns; it pops each node that is due once, the earlier ones first, and appends
those with a callback to the executor's queue in that order.  The popped nodes have no owner
and no links left, and the other nodes stay in a heap that keeps its invariant. -/
theorem pops_due {h : Heap P} (inv : HeapInv tcq live s h) (now : Int) :
    ∃ t popped, (∀ fuel, (nodes h).length < fuel → timChkCb now fuel s = some (t, popped)) ∧
      (∀ x, x ∈ popped ↔ x ∈ live ∧ s.mem.expire x ≤ now) ∧ popped.Nodup ∧
      popped.Pairwise (fun x y => s.mem.expire x ≤ s.mem.expire y) ∧
      (t.wsHead =
        s.wsHead.diff (popped.filter s.mem.func) ++ popped.filter s.mem.func) ∧
      (∀ x ∈ popped, t.mem.ownerQueue x = none ∧ t.mem.links x = ⟨none, none, none⟩) ∧
      (∀ x, x ∉ popped → t.mem.ownerQueue x = s.mem.ownerQueue x) ∧
      t.mem.expire = s.mem.expire ∧ t.mem.func = s.mem.func ∧
      ∃ h', HeapInv tcq {x | x ∈ live ∧ now < s.mem.expire x} t h' := by
  obtain ⟨t, h', popped, run, final, done⟩ :=
    timChkLoop_expired now [] inv (Nat.lt_succ_self _)
  have kept : live \ {x | x ∈ popped} = {x | x ∈ live ∧ now < s.mem.expire x} := by
    ext x
    simp only [Set.mem_sdiff, Set.mem_ofPred_eq, done.due x, not_and, not_le]
    exact ⟨fun ⟨mem, late⟩ => ⟨mem, late mem⟩, fun ⟨mem, late⟩ => ⟨mem, fun _ => late⟩⟩
  refine ⟨t, popped, fun fuel size => timChkLoop_mono size run, done.due, done.nodup, done.sorted,
    ?_, done.cleared, done.owner, done.expire, done.func, h', kept ▸ final⟩
  rw [done.wsHead, foldl_addNewNolock (done.nodup.filter _)]

/-- Four posts, the third without callback, and a run before the last is due. -/
theorem pops_due_four :
    let empty : State Nat Unit :=
      { emptyQueue with mem := { emptyQueue.mem with func := fun n => n != 2 } }
    let s := postDelayedWork () (postDelayedWork () (postDelayedWork () (postDelayedWork ()
      empty 0 0 7) 1 0 5) 2 0 3) 3 0 20
    ∃ t, timChkCb 10000000 5 s = some (t, [2, 1, 0]) ∧ t.wsHead = [1, 0] ∧
      t.mem.ownerQueue 3 = some () ∧ ∃ live h, 3 ∈ live ∧ HeapInv () live t h := by
  intro empty s
  obtain ⟨h₁, inv₁⟩ : ∃ h, HeapInv () (insert 0 ∅) (postDelayedWork () empty 0 0 7) h :=
    (HeapInv.empty rfl fun _ => by simp [empty, emptyQueue]).postDelayedWork (by simp) 0 7
  obtain ⟨h₂, inv₂⟩ := inv₁.postDelayedWork (show 1 ∉ _ by simp) 0 5
  obtain ⟨h₃, inv₃⟩ := inv₂.postDelayedWork (show 2 ∉ _ by simp) 0 3
  obtain ⟨h₄, inv₄⟩ := inv₃.postDelayedWork (show 3 ∉ _ by simp) 0 20
  obtain ⟨t, popped, runs, due, -, -, wsHead, -, owner, -, -, h', inv'⟩ := pops_due inv₄ 10000000
  obtain ⟨t', run⟩ : ∃ t', timChkCb 10000000 5 s = some (t', [2, 1, 0]) := ⟨_, rfl⟩
  -- the heap has four nodes, so five rounds are enough
  have same := timChkLoop_mono (Nat.le_add_right 5 ((nodes h₄).length + 1)) run
  have same' := (runs (5 + ((nodes h₄).length + 1)) (by omega)).symm.trans same
  obtain ⟨rfl, rfl⟩ : t = t' ∧ popped = [2, 1, 0] := by simpa using same'
  refine ⟨t, run, wsHead.trans rfl, (owner 3 (by decide)).trans rfl, _, h', ?_, inv'⟩
  refine ⟨by simp, ?_⟩
  have expire : s.mem.expire 3 = 20000000 := rfl
  show (10000000 : Int) < s.mem.expire 3
  omega

end CoWq.Timer
