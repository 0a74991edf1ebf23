import Mathlib.Data.List.Nodup

/-!
# The executor's queue

The ring of `workqueue::ws_head` as the list of its nodes, oldest first.  A node
that is posted first leaves the place it is linked in.
-/

namespace CoWq.Workqueue

variable {N : Type*}

/-- `add_new_nolock` and the critical section of `post`: `list_del`, then
`list_add_tail`. -/
def addNewNolock [DecidableEq N] (wsHead : List N) (pnode : N) : List N :=
  wsHead.erase pnode ++ [pnode]

/-- The critical section of the batch `post`: the ring of the batch is spliced in
at the tail. -/
def postBatch (wsHead batch : List N) : List N := wsHead ++ batch

variable [DecidableEq N] {wsHead : List N} {pnode x : N}

theorem mem_addNewNolock : x ∈ addNewNolock wsHead pnode ↔ x ∈ wsHead ∨ x = pnode := by
  rw [addNewNolock, List.mem_append, List.mem_singleton]
  by_cases same : x = pnode
  · simp [same]
  · simp [same, List.mem_erase_of_ne same]

theorem nodup_addNewNolock (nodup : wsHead.Nodup) : (addNewNolock wsHead pnode).Nodup := by
  rw [addNewNolock, List.nodup_append]
  refine ⟨nodup.erase pnode, List.nodup_singleton pnode, ?_⟩
  intro x mem y mem'
  rw [List.mem_singleton.mp mem']
  exact (nodup.mem_erase_iff.mp mem).1

/-- Posting one node for each element of `l`. -/
theorem mem_foldl_addNewNolock {B : Type*} {node : B → N} {l : List B} {wsHead : List N} :
    x ∈ l.foldl (fun q b => addNewNolock q (node b)) wsHead ↔
      x ∈ wsHead ∨ ∃ b ∈ l, x = node b := by
  induction l generalizing wsHead with
  | nil => simp
  | cons b l ih =>
      rw [List.foldl_cons, ih, mem_addNewNolock]
      simp only [List.mem_cons, exists_eq_or_imp, or_assoc]

theorem nodup_foldl_addNewNolock {B : Type*} {node : B → N} {l : List B} {wsHead : List N}
    (nodup : wsHead.Nodup) : (l.foldl (fun q b => addNewNolock q (node b)) wsHead).Nodup := by
  induction l generalizing wsHead with
  | nil => exact nodup
  | cons b l ih => exact ih (nodup_addNewNolock nodup)

/-- Nodes posted one after the other end at the tail in their order, and none of them is
left where it may have been queued before. -/
theorem foldl_addNewNolock {posted : List N} (nodup : posted.Nodup) :
    posted.foldl addNewNolock wsHead = wsHead.diff posted ++ posted := by
  -- over the nodes `done` that are already at the tail
  have behind : ∀ {posted done wsHead : List N}, posted.Nodup → (∀ x ∈ posted, x ∉ done) →
      posted.foldl addNewNolock (wsHead ++ done) = wsHead.diff posted ++ (done ++ posted) := by
    intro posted
    induction posted with
    | nil => simp
    | cons p posted ih =>
        intro done wsHead nodup fresh
        obtain ⟨once, nodup⟩ := List.nodup_cons.mp nodup
        have erased : (wsHead ++ done).erase p = wsHead.erase p ++ done := by
          by_cases queued : p ∈ wsHead
          · exact List.erase_append_left done queued
          · rw [List.erase_append_right done queued,
              List.erase_of_not_mem (fresh p List.mem_cons_self), List.erase_of_not_mem queued]
        have fresh' : ∀ x ∈ posted, x ∉ done ++ [p] := by
          intro x mem
          have ne : x ≠ p := fun same => once (same ▸ mem)
          simp [fresh x (List.mem_cons_of_mem p mem), ne]
        rw [List.foldl_cons, addNewNolock, erased, List.append_assoc, ih nodup fresh',
          List.diff_cons, List.append_assoc, List.singleton_append]
  simpa using @behind posted [] wsHead nodup (by simp)

end CoWq.Workqueue
