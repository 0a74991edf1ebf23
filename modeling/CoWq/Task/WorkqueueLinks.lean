import CoWq.Lib.Machine
import CoWq.Task.UsrList
import CoWq.Task.Workqueue

/-!
# The executor's queue, pointer by pointer

The operations of `workqueue` on the links of its worknodes, and the sequence of nodes
that the ring of `ws_head` stands for.

* `Heap`, `Call`, `workqueue`: the machine of all calls on one queue.
* `linkTail_spec`: `post` and `add_new_nolock` are `addNewNolock` on the sequence.
* `spliceTail_spec`, `spliceTail_eq_foldl`: the batch `post` is `postBatch`, and the same
  as posting its nodes in order.
* `workqueue_refines`: the rings of every reachable state.
-/

namespace CoWq.Workqueue

open CoWq.Ring UsrList

variable {N : Type*} [DecidableEq N]

/-- All list heads: their links, whether `func` is set in the worknode around one, and the
callbacks run so far. -/
structure Heap (N : Type*) where
  links : Ring N
  func : N → Bool
  ran : List N

inductive Call (N : Type*)
  | post (pnode : N)
  | postBatch (batchHead : N)
  | addNewNolock (pnode : N)
  | workOnce
  deriving DecidableEq, Repr

/-- The critical section of `post`, which is the body of `add_new_nolock`. -/
def linkTail (wsHead : N) (r : Ring N) (pnode : N) : Ring N :=
  listAddTail (listDel r pnode) pnode wsHead

/-- The critical section of the batch `post`. -/
def spliceTail (wsHead : N) (r : Ring N) (batchHead : N) : Ring N :=
  let first := r.next batchHead
  let last := r.prev batchHead
  let r := r.setPrev first (r.prev wsHead)
  let r := r.setNext (r.prev wsHead) first
  let r := r.setNext last wsHead
  let r := r.setPrev wsHead last
  initListHead r batchHead

/-- `get_work_node` -/
def getWorkNode (wsHead : N) (r : Ring N) : Ring N × Option N :=
  if listEmpty r wsHead then (r, none)
  else (listDel r (r.next wsHead), some (r.next wsHead))

/-- `work_once`, with its answer. -/
def workOnce (wsHead : N) (s : Heap N) : Heap N × Bool :=
  match getWorkNode wsHead s.links with
  | (r, none) => ({ s with links := r }, false)
  | (r, some pnod) =>
      -- a null callback is reported and skipped
      ({ s with links := r, ran := if s.func pnod then s.ran ++ [pnod] else s.ran }, true)

def call (wsHead : N) (s : Heap N) : Call N → Heap N
  | .post pnode => { s with links := linkTail wsHead s.links pnode }
  | .addNewNolock pnode => { s with links := linkTail wsHead s.links pnode }
  | .postBatch batchHead =>
      if listEmpty s.links batchHead then s
      else { s with links := spliceTail wsHead s.links batchHead }
  | .workOnce => (workOnce wsHead s).1

/-- The queue of `wsHead`, from any links that are disjoint rings. -/
def workqueue (wsHead : N) : Machine (Heap N) (Call N) where
  init s := Mutual s.links ∧ ∃ q, s.links.Linked wsHead q
  step s c := some (call wsHead s c)

/-- A worknode is not the head of the queue, and a batch is a ring of its own. -/
def Allowed (wsHead : N) (s : Heap N) : Call N → Prop
  | .post pnode => pnode ≠ wsHead
  | .addNewNolock pnode => pnode ≠ wsHead
  | .postBatch batchHead => ∃ batch, s.links.Linked batchHead batch ∧ wsHead ∉ batchHead :: batch
  | .workOnce => True

variable {r : Ring N} {wsHead batchHead n y : N} {q batch : List N}

/-! ## Appending one node -/

theorem linkTail_mutual (m : Mutual r) (other : n ≠ wsHead) : Mutual (linkTail wsHead r n) :=
  mutual_listAddTail (mutual_listDel m) listDel_self.1 other

theorem linkTail_queue (m : Mutual r) (h : r.Linked wsHead q) (other : n ≠ wsHead) :
    (linkTail wsHead r n).Linked wsHead (addNewNolock q n) := by
  refine linked_listAddTail (linked_listDel_erase m h other) ?_
  refine List.not_mem_cons_of_ne_of_not_mem other ?_
  exact fun mem => ((List.nodup_cons.mp h.nodup).2.mem_erase_iff.mp mem).1 rfl

/-- Any other ring at most loses the node. -/
theorem linkTail_others (m : Mutual r) (h : r.Linked wsHead q) (other : n ≠ wsHead) {base : N}
    {ys : List N} (ring : r.Linked base ys) (out : wsHead ∉ base :: ys) (stays : base ≠ n) :
    (linkTail wsHead r n).Linked base (ys.erase n) := by
  have queue := linked_listDel_erase m h other
  have ring' := linked_listDel_erase m ring (Ne.symm stays)
  have fewer : ∀ y ∈ base :: ys.erase n, y ∈ base :: ys :=
    fun y mem => List.cons_subset_cons base List.erase_subset mem
  have apart := queue.apart ring' fun mem => out (fewer wsHead mem)
  refine ring'.frame fun y mem => listAddTail_other queue ?_ (apart y mem)
  rintro rfl
  rcases List.mem_cons.mp mem with same | mem
  · exact stays same.symm
  · exact ((List.nodup_cons.mp ring.nodup).2.mem_erase_iff.mp mem).1 rfl

/-! ## Appending a ring -/

theorem spliceTail_next (apart : wsHead ≠ r.next batchHead) :
    (spliceTail wsHead r batchHead).next y =
      if y = batchHead then batchHead else if y = r.prev batchHead then wsHead
      else if y = r.prev wsHead then r.next batchHead else r.next y := by
  simp [spliceTail, initListHead, apart]

theorem spliceTail_prev :
    (spliceTail wsHead r batchHead).prev y =
      if y = batchHead then batchHead else if y = wsHead then r.prev batchHead
      else if y = r.next batchHead then r.prev wsHead else r.prev y := by
  simp [spliceTail, initListHead]

section Splice

variable (h : r.Linked wsHead q) (ring : r.Linked batchHead batch) (some_node : batch ≠ [])
  (out : wsHead ∉ batchHead :: batch)

include h ring out

omit [DecidableEq N] in
/-- Neither ring points into the other. -/
theorem splice_apart : wsHead ≠ r.next batchHead ∧ wsHead ≠ r.prev batchHead ∧
    wsHead ≠ batchHead ∧ r.prev wsHead ≠ batchHead ∧
    ∀ y ∈ batchHead :: batch, y ∉ wsHead :: q := by
  have away := h.apart ring out
  have first := ring.closed List.mem_cons_self
  have last := (h.closed List.mem_cons_self).2
  have own := away batchHead List.mem_cons_self
  exact ⟨fun same => out (same ▸ first.1), fun same => out (same ▸ first.2),
    fun same => out (same ▸ List.mem_cons_self), fun same => own (same ▸ last), away⟩

theorem spliceTail_mutual (m : Mutual r) (some_node : batch ≠ []) :
    Mutual (spliceTail wsHead r batchHead) := by
  obtain ⟨notFirst, notEnd, ne, notLast, -⟩ := splice_apart h ring out
  have notSelf : r.next batchHead ≠ batchHead := fun alone => some_node (ring.next_head.mp alone)
  have atBatch := m batchHead
  have atHead := m wsHead
  intro y
  have here := m y
  simp only [spliceTail_next notFirst, spliceTail_prev]
  constructor <;> grind

/-- The batch ends up behind the queue, and its head on its own. -/
theorem spliceTail_queue (some_node : batch ≠ []) :
    (spliceTail wsHead r batchHead).Linked wsHead (postBatch q batch) ∧
      (spliceTail wsHead r batchHead).Linked batchHead [] := by
  obtain ⟨notFirst, notEnd, ne, notLast, away⟩ := splice_apart h ring out
  refine ⟨⟨?_, ?_⟩, linked_initListHead⟩
  · refine List.nodup_append.mpr ⟨h.nodup, (List.nodup_cons.mp ring.nodup).2, ?_⟩
    rintro y mem z mem' rfl
    exact away y (List.mem_cons_of_mem _ mem') mem
  · obtain ⟨x, zs, rfl⟩ := List.exists_cons_of_ne_nil some_node
    obtain ⟨first, -⟩ := ring.first
    have nodup := (List.nodup_cons.mp ring.nodup)
    have lastQueue := (h.closed List.mem_cons_self).2
    have lastBatch := (ring.closed List.mem_cons_self).2
    have firstBatch := (ring.closed List.mem_cons_self).1
    unfold postBatch
    rw [seg_append]
    constructor
    · refine h.seg.turn h.nodup (fun y mem notLast' => ?_) (fun y mem => ?_) ⟨?_, ?_⟩
      · rw [spliceTail_next notFirst, if_neg, if_neg, if_neg notLast']
        · rintro rfl
          exact away _ lastBatch mem
        · rintro rfl
          exact away _ List.mem_cons_self mem
      · rw [spliceTail_prev, if_neg, if_neg, if_neg]
        · rintro rfl
          exact away _ firstBatch (List.mem_cons_of_mem _ mem)
        · rintro rfl
          exact (List.nodup_cons.mp h.nodup).1 mem
        · rintro rfl
          exact away _ List.mem_cons_self (List.mem_cons_of_mem _ mem)
      · rw [spliceTail_next notFirst, if_neg notLast, if_neg, if_pos rfl, first]
        exact fun same => away _ lastBatch (same ▸ lastQueue)
      · rw [spliceTail_prev, if_neg, if_neg, if_pos first.symm]
        · exact fun same => notFirst (same.symm.trans first.symm)
        · rintro rfl
          exact nodup.1 List.mem_cons_self
    · refine ring.seg.2.2.turn nodup.2 (fun y mem notLast' => ?_) (fun y mem => ?_) ⟨?_, ?_⟩
      · rw [spliceTail_next notFirst, if_neg, if_neg notLast', if_neg]
        · rintro rfl
          exact away _ (List.mem_cons_of_mem _ mem) lastQueue
        · rintro rfl
          exact nodup.1 mem
      · rw [spliceTail_prev, if_neg, if_neg, if_neg]
        · rw [first]
          rintro rfl
          exact (List.nodup_cons.mp nodup.2).1 mem
        · rintro rfl
          exact away _ (List.mem_cons_of_mem _ (List.mem_cons_of_mem _ mem)) List.mem_cons_self
        · rintro rfl
          exact nodup.1 (List.mem_cons_of_mem _ mem)
      · rw [spliceTail_next notFirst, if_neg, if_pos rfl]
        intro alone
        have empty := ring.next_head.mp
        have around := ring.around
        rw [alone] at around
        exact some_node (empty around.2)
      · rw [spliceTail_prev, if_neg ne, if_pos rfl]

/-- The rings of neither are left alone. -/
theorem spliceTail_others {base : N} {ys : List N} (other : r.Linked base ys)
    (notQueue : wsHead ∉ base :: ys) (notBatch : batchHead ∉ base :: ys) :
    (spliceTail wsHead r batchHead).Linked base ys := by
  obtain ⟨notFirst, -⟩ := splice_apart h ring out
  refine other.frame fun y mem => ?_
  have offQueue := h.apart other notQueue y mem
  have offBatch := ring.apart other notBatch y mem
  have first := (ring.closed List.mem_cons_self)
  have last := (h.closed List.mem_cons_self)
  rw [spliceTail_next notFirst, spliceTail_prev, if_neg, if_neg, if_neg, if_neg, if_neg, if_neg]
  · exact ⟨rfl, rfl⟩
  all_goals
    rintro rfl
  · exact offBatch first.1
  · exact offQueue List.mem_cons_self
  · exact offBatch List.mem_cons_self
  · exact offQueue last.2
  · exact offBatch first.2
  · exact offBatch List.mem_cons_self

end Splice

/-! ## One by one -/

/-- A node in neither ring keeps its links when one is moved to the other. -/
theorem linkTail_other (m : Mutual r) (h : r.Linked wsHead q)
    (ring : r.Linked batchHead (n :: batch)) (out : wsHead ∉ batchHead :: n :: batch)
    (offQueue : y ∉ wsHead :: q) (offBatch : y ∉ batchHead :: n :: batch) :
    (linkTail wsHead r n).next y = r.next y ∧ (linkTail wsHead r n).prev y = r.prev y := by
  have notHead : n ≠ wsHead := by
    rintro rfl
    exact out (by simp)
  have notSelf : y ≠ n := by
    rintro rfl
    exact offBatch (by simp)
  have queue := linked_listDel_erase m h notHead
  have first : r.Linked batchHead ([] ++ n :: batch) := ring
  have taken := listDel_other first offBatch
  have added := listAddTail_other queue notSelf fun mem =>
    offQueue (List.cons_subset_cons wsHead List.erase_subset mem)
  exact ⟨added.1.trans taken.1, added.2.trans taken.2⟩

/-- The batch posted node by node. -/
theorem foldl_linkTail : ∀ {batch q : List N} {r : Ring N}, Mutual r → r.Linked wsHead q →
    r.Linked batchHead batch → wsHead ∉ batchHead :: batch →
    (batch.foldl (linkTail wsHead) r).Linked wsHead (q ++ batch) ∧
      (batch.foldl (linkTail wsHead) r).Linked batchHead [] ∧
      ∀ y, y ∉ wsHead :: q → y ∉ batchHead :: batch →
        (batch.foldl (linkTail wsHead) r).next y = r.next y ∧
          (batch.foldl (linkTail wsHead) r).prev y = r.prev y
  | [], q, r, m, h, ring, out => ⟨by simpa using h, ring, fun _ _ _ => ⟨rfl, rfl⟩⟩
  | n :: batch, q, r, m, h, ring, out => by
      have notHead : n ≠ wsHead := by
        rintro rfl
        exact out (by simp)
      have notBase : batchHead ≠ n := by
        rintro rfl
        exact (List.nodup_cons.mp ring.nodup).1 List.mem_cons_self
      have fresh : n ∉ q := fun mem =>
        h.apart ring out n (by simp) (List.mem_cons_of_mem _ mem)
      have queue := linkTail_queue m h notHead
      rw [addNewNolock, List.erase_of_not_mem fresh] at queue
      have rest := linkTail_others m h notHead ring out notBase
      rw [List.erase_cons_head] at rest
      have out' : wsHead ∉ batchHead :: batch := fun mem =>
        out (List.cons_subset_cons _ (List.subset_cons_self n batch) mem)
      obtain ⟨whole, empty, others⟩ := foldl_linkTail (linkTail_mutual m notHead) queue rest out'
      rw [List.append_assoc, List.singleton_append] at whole
      refine ⟨whole, empty, fun y offQueue offBatch => ?_⟩
      have here := linkTail_other m h ring out offQueue offBatch
      obtain ⟨next, prev⟩ := others y (by simp_all) (by simp_all)
      exact ⟨next.trans here.1, prev.trans here.2⟩

/-- **A batch is its nodes in order**: the two leave the same pointers everywhere. -/
theorem spliceTail_eq_foldl (m : Mutual r) (h : r.Linked wsHead q)
    (ring : r.Linked batchHead batch) (out : wsHead ∉ batchHead :: batch)
    (some_node : batch ≠ []) :
    spliceTail wsHead r batchHead = batch.foldl (linkTail wsHead) r := by
  obtain ⟨queue, empty⟩ := spliceTail_queue h ring out some_node
  obtain ⟨queue', empty', others⟩ := foldl_linkTail m h ring out
  obtain ⟨notFirst, -⟩ := splice_apart h ring out
  have first := ring.closed List.mem_cons_self
  have last := (h.closed List.mem_cons_self).2
  have same : ∀ y, (spliceTail wsHead r batchHead).next y =
      (batch.foldl (linkTail wsHead) r).next y ∧ (spliceTail wsHead r batchHead).prev y =
      (batch.foldl (linkTail wsHead) r).prev y := by
    intro y
    by_cases inQueue : y ∈ wsHead :: (q ++ batch)
    · exact queue'.agree queue y inQueue
    · by_cases isHead : y = batchHead
      · exact empty'.agree empty y (by simp [isHead])
      · have offQueue : y ∉ wsHead :: q := fun mem => inQueue (by
          rw [← List.cons_append]
          exact List.mem_append_left _ mem)
        have offBatch : y ∉ batchHead :: batch :=
          List.not_mem_cons_of_ne_of_not_mem isHead fun mem => inQueue (by simp [mem])
        obtain ⟨next, prev⟩ := others y offQueue offBatch
        rw [next, prev, spliceTail_next notFirst, spliceTail_prev, if_neg isHead, if_neg isHead,
          if_neg, if_neg, if_neg, if_neg]
        · exact ⟨rfl, rfl⟩
        all_goals
          rintro rfl
        · exact offBatch first.1
        · exact offQueue List.mem_cons_self
        · exact offQueue last
        · exact offBatch first.2
  exact Ring.ext (funext fun y => (same y).1) (funext fun y => (same y).2)

/-! ## Taking the first node -/

theorem workOnce_nil {s : Heap N} (h : s.links.Linked wsHead []) :
    workOnce wsHead s = (s, false) := by
  have empty := (listEmpty_iff h).mpr rfl
  simp [workOnce, getWorkNode, empty]

theorem workOnce_cons {s : Heap N} (h : s.links.Linked wsHead (n :: q)) :
    workOnce wsHead s =
      ({ s with
          links := listDel s.links n
          ran := if s.func n then s.ran ++ [n] else s.ran }, true) := by
  have some_node : listEmpty s.links wsHead = false := by
    simpa using (listEmpty_iff h).not.mpr (List.cons_ne_nil n q)
  simp [workOnce, getWorkNode, some_node, h.first.1]

/-! ## Runs -/

variable {s t : Heap N}

/-- Every call leaves the links mutual and a ring at `ws_head`. -/
theorem call_linked {c : Call N} (m : Mutual s.links) (h : s.links.Linked wsHead q)
    (allowed : Allowed wsHead s c) :
    Mutual (call wsHead s c).links ∧ ∃ q', (call wsHead s c).links.Linked wsHead q' := by
  cases c with
  | post n => exact ⟨linkTail_mutual m allowed, _, linkTail_queue m h allowed⟩
  | addNewNolock n => exact ⟨linkTail_mutual m allowed, _, linkTail_queue m h allowed⟩
  | postBatch b =>
      obtain ⟨batch, ring, out⟩ := allowed
      simp only [call]
      split
      · exact ⟨m, q, h⟩
      · rename_i some_node
        have filled : batch ≠ [] := fun none => some_node ((listEmpty_iff ring).mpr none)
        exact ⟨spliceTail_mutual h ring out m filled, _, (spliceTail_queue h ring out filled).1⟩
  | workOnce =>
      simp only [call]
      cases q with
      | nil =>
          rw [workOnce_nil h]
          exact ⟨m, [], h⟩
      | cons n q =>
          rw [workOnce_cons h]
          exact ⟨mutual_listDel m, q, linked_listDel_first h⟩

theorem via_linked (run : (workqueue wsHead).Via (Allowed wsHead) s) :
    Mutual s.links ∧ ∃ q, s.links.Linked wsHead q := by
  refine run.invariant (fun s start => start) ?_
  rintro s c t ⟨m, q, h⟩ allowed step
  cases step
  exact call_linked m h allowed

/-- Every ring apart from the queue's keeps its nodes, but for those in `gone`. -/
def OthersKept (wsHead : N) (r r' : Ring N) (gone : List N) : Prop :=
  ∀ base ys, r.Linked base ys → wsHead ∉ base :: ys → base ∉ gone →
    r'.Linked base (ys.filter (· ∉ gone))

theorem filter_singleton {ys : List N} (nodup : ys.Nodup) :
    ys.filter (· ∉ [n]) = ys.erase n := by
  rw [nodup.erase_eq_filter]
  refine List.filter_congr fun y _ => ?_
  by_cases same : y = n <;> simp [same]

theorem othersKept_linkTail (m : Mutual r) (h : r.Linked wsHead q) (other : n ≠ wsHead) :
    OthersKept wsHead r (linkTail wsHead r n) [n] := by
  intro base ys ring out stays
  rw [filter_singleton (List.nodup_cons.mp ring.nodup).2]
  exact linkTail_others m h other ring out fun same =>
    stays (same ▸ List.mem_singleton_self base)

theorem othersKept_spliceTail (h : r.Linked wsHead q) (ring : r.Linked batchHead batch)
    (out : wsHead ∉ batchHead :: batch) :
    OthersKept wsHead r (spliceTail wsHead r batchHead) (batchHead :: batch) := by
  intro base ys other notQueue stays
  have apart : ∀ y ∈ base :: ys, y ∉ batchHead :: batch := by
    intro y mem shared
    exact other.apart ring stays y shared mem
  have notBatch : batchHead ∉ base :: ys := fun mem => apart batchHead mem List.mem_cons_self
  have all : ys.filter (· ∉ batchHead :: batch) = ys :=
    List.filter_eq_self.mpr fun y mem => by simpa using apart y (List.mem_cons_of_mem _ mem)
  rw [all]
  exact spliceTail_others h ring out other notQueue notBatch

theorem othersKept_listDel (m : Mutual r) :
    OthersKept wsHead r (listDel r n) [n] := by
  intro base ys ring out stays
  rw [filter_singleton (List.nodup_cons.mp ring.nodup).2]
  exact linked_listDel_erase m ring fun same => stays (same ▸ List.mem_singleton_self n)

theorem foldl_post : (batch.foldl (fun u n => call wsHead u (.post n)) s) =
    { s with links := batch.foldl (linkTail wsHead) s.links } := by
  induction batch generalizing s with
  | nil => rfl
  | cons n batch ih => exact ih

/-- **The queue is a sequence without duplicates.**  In every state that the calls lead to,
the links undo each other and the ring of `ws_head` is a list of distinct nodes; posting a
node takes it out of whatever ring it is in and appends it; a batch is appended as a
whole, exactly as if its nodes were posted in order, and its head is left empty;
`work_once` takes and runs the first node.  No other ring loses a node that is not taken. -/
theorem workqueue_refines (run : (workqueue wsHead).Via (Allowed wsHead) s) :
    Mutual s.links ∧ ∃ q, s.links.Linked wsHead q ∧
      (∀ n c, n ≠ wsHead → c = .post n ∨ c = .addNewNolock n →
        (call wsHead s c).links.Linked wsHead (addNewNolock q n) ∧
          (call wsHead s c).ran = s.ran ∧
          OthersKept wsHead s.links (call wsHead s c).links [n]) ∧
      (∀ b batch, s.links.Linked b batch → wsHead ∉ b :: batch →
        (call wsHead s (.postBatch b)).links.Linked wsHead (postBatch q batch) ∧
          (call wsHead s (.postBatch b)).links.Linked b [] ∧
          call wsHead s (.postBatch b) = batch.foldl (fun u n => call wsHead u (.post n)) s ∧
          OthersKept wsHead s.links (call wsHead s (.postBatch b)).links (b :: batch)) ∧
      (q = [] → workOnce wsHead s = (s, false)) ∧
      ∀ n rest, q = n :: rest → (workOnce wsHead s).2 = true ∧
        (workOnce wsHead s).1.links.Linked wsHead rest ∧
        (workOnce wsHead s).1.ran = (if s.func n then s.ran ++ [n] else s.ran) ∧
        OthersKept wsHead s.links (workOnce wsHead s).1.links [n] := by
  obtain ⟨m, q, h⟩ := via_linked run
  refine ⟨m, q, h, fun n c other posts => ?_, fun b batch ring out => ?_, ?_, ?_⟩
  · have same : call wsHead s c = { s with links := linkTail wsHead s.links n } := by
      rcases posts with rfl | rfl <;> rfl
    rw [same]
    exact ⟨linkTail_queue m h other, rfl, othersKept_linkTail m h other⟩
  · rw [foldl_post]
    simp only [call]
    split
    · rename_i alone
      obtain rfl := (listEmpty_iff ring).mp alone
      refine ⟨by simpa [postBatch] using h, ring, rfl, fun base ys other notQueue stays => ?_⟩
      have all : ys.filter (· ∉ [b]) = ys := by
        refine List.filter_eq_self.mpr fun y mem => ?_
        have off := other.apart ring stays
        simp only [List.mem_singleton, decide_not, Bool.not_eq_true', decide_eq_false_iff_not]
        rintro rfl
        exact off y (by simp) (List.mem_cons_of_mem _ mem)
      rw [all]
      exact other
    · rename_i some_node
      have filled : batch ≠ [] := fun none => some_node ((listEmpty_iff ring).mpr none)
      obtain ⟨queue, empty⟩ := spliceTail_queue h ring out filled
      exact ⟨queue, empty, by rw [spliceTail_eq_foldl m h ring out filled],
        othersKept_spliceTail h ring out⟩
  · rintro rfl
    exact workOnce_nil h
  · rintro n rest rfl
    rw [workOnce_cons h]
    exact ⟨rfl, linked_listDel_first h, rfl, othersKept_listDel m⟩

/-- A batch of one node, 11 at the head 10; every other node hangs in no ring. -/
def batchOfOne : Heap Nat where
  links := ⟨fun x => if x = 10 then 11 else if x = 11 then 10 else x,
    fun x => if x = 10 then 11 else if x = 11 then 10 else x⟩
  func := fun _ => true
  ran := []

theorem batchOfOne_init : (workqueue 0).init batchOfOne := by
  refine ⟨fun x => ?_, [], List.nodup_singleton 0, rfl, rfl⟩
  simp only [batchOfOne]
  split <;> simp_all

theorem workqueue_refines_batchOfOne :
    (call 0 batchOfOne (.post 1)).links.Linked 0 [1] ∧
      (call 0 batchOfOne (.postBatch 10)).links.Linked 0 [11] ∧
      (call 0 batchOfOne (.postBatch 10)).links.Linked 10 [] := by
  have batch : batchOfOne.links.Linked 10 [11] :=
    ⟨by decide, by unfold batchOfOne Seg Seg; decide⟩
  obtain ⟨-, q, queue, posts, splices, -⟩ := workqueue_refines (.init batchOfOne_init)
  obtain rfl : q = [] := (listEmpty_iff queue).mp (by decide)
  obtain ⟨spliced, empty, -⟩ := splices 10 [11] batch (by decide)
  exact ⟨(posts 1 _ (by decide) (.inl rfl)).1, spliced, empty⟩

end CoWq.Workqueue
