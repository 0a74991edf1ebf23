import CoWq.Lib.LinkedHeap
import CoWq.Task.Workqueue

/-!
# The timer queue

`Timer_check_queue` keeps its nodes in a pairing heap whose links are fields of
the nodes themselves.  The model keeps one map per field of `Timer_worknode`, so
that the heap functions, which only touch links, are functions on the link map.

The recursive merge and the two loops take fuel; the termination of each call is
part of its specification (`twoPassMerge_spec`, `unlink_spec`
and `timChkLoop_spec`), with any fuel above the number of nodes in the heap.
-/

namespace CoWq.Timer

open Batteries.PairingHeapImp LinkedHeap Links Workqueue

/-- The fields of every `Timer_worknode`.  `func` records whether the callback
pointer is set. -/
structure Mem (P Q : Type*) where
  links : P → Links P
  expire : P → Int
  func : P → Bool
  ownerQueue : P → Option Q

/-- A `Timer_check_queue` with the node memory and the executor's run queue. -/
structure State (P Q : Type*) where
  mem : Mem P Q
  heapRoot : Option P
  wsHead : List P

variable {P Q : Type*} [DecidableEq P] [DecidableEq Q]

/-- `heap_meld`: the later root becomes the first child of the earlier one. -/
def heapMeld (expire : P → Int) (l : P → Links P) :
    Option P → Option P → (P → Links P) × Option P
  | none, b => (l, b)
  | some a, none => (l, some a)
  | some a, some b =>
      if expire a ≤ expire b then
        let l := setSibling l b (l a).child
        let l := setChild l a (some b)
        let l := setParent l b (some a)
        (l, some a)
      else
        let l := setSibling l a (l b).child
        let l := setChild l b (some a)
        let l := setParent l a (some b)
        (l, some b)

/-- `two_pass_merge`.  The two arguments of the outer meld are independent calls
on disjoint nodes; they are evaluated left to right here. -/
def twoPassMerge (expire : P → Int) :
    Nat → (P → Links P) → Option P → Option ((P → Links P) × Option P)
  | 0, _, _ => none
  | _ + 1, l, none => some (l, none)
  | fuel + 1, l, some a =>
      match (l a).sibling with
      | none => some (l, some a)
      | some b =>
          let rest := (l b).sibling
          let l := setSibling l a none
          let l := setSibling l b none
          let l := setParent l a none
          let l := setParent l b none
          let (l, root1) := heapMeld expire l (some a) (some b)
          match twoPassMerge expire fuel l rest with
          | none => none
          | some (l, root2) => some (heapMeld expire l root1 root2)

/-- `delete_min`: the root is dropped and its children become the heap. -/
def deleteMin (expire : P → Int) (fuel : Nat) (l : P → Links P) (root : P) :
    Option ((P → Links P) × Option P) :=
  match twoPassMerge expire fuel l (l root).child with
  | none => none
  | some (l, none) => some (l, none)
  | some (l, some nr) => some (setParent l nr none, some nr)

/-- `heap_root->parent = nullptr` when there is a root. -/
def orphan (l : P → Links P) : Option P → P → Links P
  | none => l
  | some r => setParent l r none

/-- The three links of a node that leaves the heap are cleared. -/
def clearLinks (l : P → Links P) (node : P) : P → Links P :=
  setParent (setSibling (setChild l node none) node none) node none

/-- The loop of `tim_chk_cb` under the lock, with the nodes popped so far. -/
def timChkLoop (now : Int) : Nat → State P Q → List P → Option (State P Q × List P)
  | 0, _, _ => none
  | fuel + 1, s, popped =>
      match s.heapRoot with
      | none => some (s, popped)
      | some dpos =>
          if s.mem.expire dpos ≤ now then
            match deleteMin s.mem.expire fuel s.mem.links dpos with
            | none => none
            | some (l, root) =>
                let mem :=
                  { s.mem with
                    links := clearLinks l dpos
                    ownerQueue := Function.update s.mem.ownerQueue dpos none }
                let wsHead :=
                  -- a node without callback is reported and dropped
                  if s.mem.func dpos then addNewNolock s.wsHead dpos else s.wsHead
                timChkLoop now fuel ⟨mem, root, wsHead⟩ (popped ++ [dpos])
          else some (s, popped)

/-- `tim_chk_cb` at the clock value `now`, with the nodes it popped. -/
def timChkCb (now : Int) (fuel : Nat) (s : State P Q) : Option (State P Q × List P) :=
  timChkLoop now fuel s []

/-- `std::chrono::milliseconds(ms)` in ticks of the steady clock. -/
def milliseconds (ms : UInt32) : Int := ms.toNat * 1000000

/-- `post_delayed_work` at the clock value `now`. -/
def postDelayedWork (tcq : Q) (s : State P Q) (dwork : P) (now : Int) (ms : UInt32) :
    State P Q :=
  let expire := Function.update s.mem.expire dwork (now + milliseconds ms)
  let links := clearLinks s.mem.links dwork
  let ownerQueue := Function.update s.mem.ownerQueue dwork (some tcq)
  let (links, root) := heapMeld expire links s.heapRoot (some dwork)
  ⟨⟨orphan links root, expire, s.mem.func, ownerQueue⟩, root, s.wsHead⟩

/-- The walk of `cancel` along the child list of `parent`. -/
def unlink (parent node : P) :
    Nat → (P → Links P) → Option P → Option P → Option (P → Links P)
  | 0, _, _, _ => none
  | _ + 1, l, _, none => some l
  | fuel + 1, l, prev, some cur =>
      if cur = node then
        match prev with
        | some prev => some (setSibling l prev (l cur).sibling)
        | none => some (setChild l parent (l cur).sibling)
      else unlink parent node fuel l (some cur) (l cur).sibling

/-- The links and the root after `cancel` has taken `node` out of the heap. -/
def cancelLinks (expire : P → Int) (fuel : Nat) (l : P → Links P) (heapRoot : Option P)
    (node : P) : Option ((P → Links P) × Option P) :=
  if heapRoot = some node then deleteMin expire fuel l node
  else
    let unlinked :=
      match (l node).parent with
      | some parent => unlink parent node fuel l none (l parent).child
      | none => some l
    match unlinked with
    | none => none
    | some l =>
        match (l node).child with
        | none => some (l, heapRoot)
        | some child =>
            match twoPassMerge expire fuel l (some child) with
            | none => none
            | some (l, merged) =>
                let l := orphan l merged
                let (l, root) := heapMeld expire l heapRoot merged
                some (orphan l root, root)

/-- `cancel`: nothing happens for a null node or a node of another queue. -/
def cancel (tcq : Q) (fuel : Nat) (s : State P Q) : Option P → Option (State P Q)
  | none => some s
  | some node =>
      if s.mem.ownerQueue node ≠ some tcq then some s
      else
        match cancelLinks s.mem.expire fuel s.mem.links s.heapRoot node with
        | none => none
        | some (l, root) =>
            some { s with
              mem :=
                { s.mem with
                  links := clearLinks l node
                  ownerQueue := Function.update s.mem.ownerQueue node none }
              heapRoot := root }

/-! ## More fuel changes nothing -/

variable {expire : P → Int}

theorem twoPassMerge_mono {fuel fuel' : Nat} (more : fuel ≤ fuel') {l : P → Links P}
    {p : Option P} {r : (P → Links P) × Option P}
    (run : twoPassMerge expire fuel l p = some r) : twoPassMerge expire fuel' l p = some r := by
  induction fuel generalizing fuel' l p r with
  | zero => cases run
  | succ fuel ih =>
      obtain ⟨k, rfl⟩ : ∃ k, fuel' = k + 1 := ⟨fuel' - 1, by omega⟩
      cases p with
      | none => exact run
      | some a =>
          simp only [twoPassMerge] at run ⊢
          cases sib : (l a).sibling with
          | none => simpa [sib] using run
          | some b =>
              simp only [sib] at run ⊢
              split at run
              · cases run
              · rename_i inner
                rw [ih (by omega) inner]
                exact run

theorem deleteMin_mono {fuel fuel' : Nat} (more : fuel ≤ fuel') {l : P → Links P} {root : P}
    {r : (P → Links P) × Option P} (run : deleteMin expire fuel l root = some r) :
    deleteMin expire fuel' l root = some r := by
  rw [deleteMin] at run ⊢
  cases merge : twoPassMerge expire fuel l (l root).child with
  | none => simp [merge] at run
  | some m =>
      rw [twoPassMerge_mono more merge]
      simpa [merge] using run

theorem unlink_mono {parent node : P} {fuel fuel' : Nat} (more : fuel ≤ fuel')
    {l l' : P → Links P} {prev cur : Option P}
    (run : unlink parent node fuel l prev cur = some l') :
    unlink parent node fuel' l prev cur = some l' := by
  induction fuel generalizing fuel' prev cur with
  | zero => cases run
  | succ fuel ih =>
      obtain ⟨k, rfl⟩ : ∃ k, fuel' = k + 1 := ⟨fuel' - 1, by omega⟩
      cases cur with
      | none => exact run
      | some cur =>
          simp only [unlink] at run ⊢
          by_cases found : cur = node
          · simpa [found] using run
          · simp only [if_neg found] at run ⊢
            exact ih (by omega) run

theorem cancelLinks_mono {fuel fuel' : Nat} (more : fuel ≤ fuel') {l : P → Links P}
    {root : Option P} {node : P} {r : (P → Links P) × Option P}
    (run : cancelLinks expire fuel l root node = some r) :
    cancelLinks expire fuel' l root node = some r := by
  rw [cancelLinks] at run ⊢
  by_cases isRoot : root = some node
  · rw [if_pos isRoot] at run ⊢
    exact deleteMin_mono more run
  · rw [if_neg isRoot] at run ⊢
    -- the list of the parent is walked first, then the children are merged
    cases walk : (match (l node).parent with
        | some parent => unlink parent node fuel l none (l parent).child
        | none => some l) with
    | none => simp [walk] at run
    | some l₁ =>
        have walk' : (match (l node).parent with
            | some parent => unlink parent node fuel' l none (l parent).child
            | none => some l) = some l₁ := by
          cases parent : (l node).parent with
          | none => simpa [parent] using walk
          | some q =>
              rw [parent] at walk
              exact unlink_mono more walk
        simp only [walk] at run
        simp only [walk']
        cases child : (l₁ node).child with
        | none => simpa [child] using run
        | some c =>
            simp only [child] at run ⊢
            cases merge : twoPassMerge expire fuel l₁ (some c) with
            | none => simp [merge] at run
            | some m =>
                rw [twoPassMerge_mono more merge]
                simpa [merge] using run

theorem cancel_mono {tcq : Q} {fuel fuel' : Nat} (more : fuel ≤ fuel') {s t : State P Q}
    {node : Option P} (run : cancel tcq fuel s node = some t) :
    cancel tcq fuel' s node = some t := by
  cases node with
  | none => exact run
  | some node =>
      simp only [cancel] at run ⊢
      split at run
      · rename_i other
        rw [if_pos other]
        exact run
      · rename_i own
        rw [if_neg own]
        cases links : cancelLinks s.mem.expire fuel s.mem.links s.heapRoot node with
        | none => simp [links] at run
        | some r =>
            rw [cancelLinks_mono more links]
            simpa [links] using run

omit [DecidableEq Q] in
theorem timChkLoop_mono {now : Int} {fuel fuel' : Nat} (more : fuel ≤ fuel') {s : State P Q}
    {popped : List P} {r : State P Q × List P}
    (run : timChkLoop now fuel s popped = some r) :
    timChkLoop now fuel' s popped = some r := by
  induction fuel generalizing fuel' s popped with
  | zero => cases run
  | succ fuel ih =>
      obtain ⟨k, rfl⟩ : ∃ k, fuel' = k + 1 := ⟨fuel' - 1, by omega⟩
      rw [timChkLoop] at run ⊢
      cases root : s.heapRoot with
      | none => simpa [root] using run
      | some dpos =>
          simp only [root] at run ⊢
          by_cases due : s.mem.expire dpos ≤ now
          · rw [if_pos due] at run ⊢
            cases pop : deleteMin s.mem.expire fuel s.mem.links dpos with
            | none => simp [pop] at run
            | some m =>
                rw [deleteMin_mono (by omega) pop]
                simp only [pop] at run
                exact ih (by omega) run
          · rw [if_neg due] at run ⊢
            exact run

end CoWq.Timer
