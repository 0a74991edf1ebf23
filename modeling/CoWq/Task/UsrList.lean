import CoWq.Lib.Ring

/-!
# The list primitives

`list_head` and the functions on it, pointer write by pointer write, and what
each does to the rings it works on.  `listSteal` is the block with which
`callback_wq` moves a whole ring to another head.

* `linked_listAddTail`, `linked_listDel`, `linked_listSteal`: the ring written to.
* `listAddTail_other`, `listDel_other`: any other node.
-/

namespace CoWq.UsrList

open CoWq.Ring

variable {N : Type*} [DecidableEq N]

/-- `INIT_LIST_HEAD`. -/
def initListHead (r : Ring N) (list : N) : Ring N := (r.setNext list list).setPrev list list

/-- `__list_add`. -/
def listAddBetween (r : Ring N) (pnew prev next : N) : Ring N :=
  (((r.setPrev next pnew).setNext pnew next).setPrev pnew prev).setNext prev pnew

def listAddTail (r : Ring N) (pnew head : N) : Ring N :=
  listAddBetween r pnew (r.prev head) head

/-- `__list_del`. -/
def listDelBetween (r : Ring N) (prev next : N) : Ring N := (r.setPrev next prev).setNext prev next

def listDel (r : Ring N) (entry : N) : Ring N :=
  initListHead (listDelBetween r (r.prev entry) (r.next entry)) entry

def listEmpty (r : Ring N) (head : N) : Bool := r.next head = head

/-- The ring of `head` handed to the list head `loc`, as `drain` does it. -/
def listSteal (r : Ring N) (head loc : N) : Ring N :=
  let r := (r.setNext loc (r.next head)).setPrev loc (r.prev head)
  let r := r.setPrev (r.next loc) loc
  let r := r.setNext (r.prev loc) loc
  initListHead r head

variable {r : Ring N} {head loc n x y : N} {xs ys : List N}

theorem listEmpty_iff (h : r.Linked head xs) : listEmpty r head ↔ xs = [] := by
  rw [listEmpty, decide_eq_true_iff]
  exact h.next_head

theorem linked_initListHead : (initListHead r head).Linked head [] := by
  refine ⟨List.nodup_singleton head, ?_, ?_⟩ <;> simp [initListHead]

/-! ## Appending -/

theorem linked_listAddTail (h : r.Linked head xs) (new : n ∉ head :: xs) :
    (listAddTail r n head).Linked head (xs ++ [n]) := by
  obtain ⟨notHead, notMem⟩ := List.ne_and_not_mem_of_not_mem_cons new
  have nodup : (head :: (xs ++ [n])).Nodup := by
    rw [← List.cons_append]
    refine List.nodup_append.mpr ⟨h.nodup, List.nodup_singleton n, fun y mem z mem' => ?_⟩
    rw [List.mem_singleton.mp mem']
    exact fun same => new (same ▸ mem)
  refine ⟨nodup, ?_⟩
  rcases List.eq_nil_or_concat' xs with rfl | ⟨before, p, rfl⟩
  · have back := h.seg.2
    simp [listAddTail, listAddBetween, Seg, back, notHead, Ne.symm notHead]
  · have last := h.last.1
    obtain ⟨start, -⟩ := seg_append.mp h.seg
    have distinct := h.nodup
    rw [← List.cons_append, List.nodup_append] at distinct
    have notLast : p ≠ n := fun same => notMem (same ▸ by simp)
    have lastHead : p ≠ head := fun same =>
      distinct.2.2 head List.mem_cons_self p (List.mem_singleton_self p) same.symm
    rw [List.append_assoc, List.singleton_append, seg_append]
    constructor
    · refine start.frame (fun y mem => ?_) fun y mem => ?_
      · have ne : y ≠ p := distinct.2.2 y mem p (List.mem_singleton_self p)
        have old : y ≠ n := by
          rintro rfl
          rcases List.mem_cons.mp mem with same | mem
          · exact notHead same
          · exact notMem (List.mem_append_left _ mem)
        simp [listAddTail, listAddBetween, last, ne, old]
      · have ne : y ≠ head := by
          rintro rfl
          exact (List.nodup_cons.mp h.nodup).1 mem
        have old : y ≠ n := by
          rintro rfl
          exact notMem mem
        simp [listAddTail, listAddBetween, ne, old]
    · simp [listAddTail, listAddBetween, Seg, last, Ne.symm notLast, Ne.symm notHead]

theorem listAddTail_other (h : r.Linked head xs) (new : y ≠ n) (other : y ∉ head :: xs) :
    (listAddTail r n head).next y = r.next y ∧ (listAddTail r n head).prev y = r.prev y := by
  obtain ⟨notHead, notMem⟩ := List.ne_and_not_mem_of_not_mem_cons other
  have notLast : y ≠ r.prev head := by
    rcases List.eq_nil_or_concat' xs with rfl | ⟨before, p, rfl⟩
    · rw [h.seg.2]
      exact notHead
    · rw [h.last.1]
      exact fun same => notMem (by simp [same])
  simp [listAddTail, listAddBetween, new, notHead, notLast]

/-! ## Taking out -/

theorem listDel_self : (listDel r x).next x = x ∧ (listDel r x).prev x = x := by
  simp [listDel, initListHead]

/-- Beside the entry itself only the pointers at it are written. -/
theorem listDel_next (other : y ≠ x) (notPrev : y ≠ r.prev x) :
    (listDel r x).next y = r.next y := by
  simp [listDel, listDelBetween, initListHead, other, notPrev]

theorem listDel_prev (other : y ≠ x) (notNext : y ≠ r.next x) :
    (listDel r x).prev y = r.prev y := by
  simp [listDel, listDelBetween, initListHead, other, notNext]

/-- The way through `x` becomes the way past it. -/
theorem seg_listDel {a b : N} (seg : r.Seg a (xs ++ x :: ys) b)
    (nodup : (a :: (xs ++ x :: ys)).Nodup) (out : b ∉ xs ++ x :: ys) :
    (listDel r x).Seg a (xs ++ ys) b := by
  induction xs generalizing a with
  | nil =>
      obtain ⟨forth, back, rest⟩ := seg
      obtain ⟨notMem, nodup'⟩ := List.nodup_cons.mp nodup
      obtain ⟨ne, notRest⟩ := List.ne_and_not_mem_of_not_mem_cons notMem
      obtain ⟨notSelf, nodup''⟩ := List.nodup_cons.mp nodup'
      obtain ⟨ne', notYs⟩ := List.ne_and_not_mem_of_not_mem_cons out
      cases ys with
      | nil =>
          obtain ⟨on, -⟩ := rest
          simp [listDel, listDelBetween, initListHead, Seg, on, back, ne, ne']
      | cons z zs =>
          obtain ⟨on, -, tail⟩ := rest
          obtain ⟨otherZ, notTail⟩ := List.ne_and_not_mem_of_not_mem_cons notSelf
          obtain ⟨bZ, -⟩ := List.ne_and_not_mem_of_not_mem_cons notYs
          have notZs := (List.nodup_cons.mp nodup'').1
          refine ⟨?_, ?_, tail.frame (fun y mem => ?_) fun y mem => ?_⟩
          · simp [listDel, listDelBetween, initListHead, on, back, ne]
          · simp [listDel, listDelBetween, initListHead, on, back, otherZ.symm]
          · exact listDel_next (fun same => notSelf (same ▸ mem))
              fun same => notRest ((same.trans back) ▸ mem)
          · rw [List.mem_append, List.mem_singleton] at mem
            refine listDel_prev ?_ ?_
            · rintro rfl
              exact mem.elim notTail (Ne.symm ne')
            · rw [on]
              rintro rfl
              exact mem.elim notZs (Ne.symm bZ)
  | cons w xs ih =>
      obtain ⟨forth, back, rest⟩ := seg
      obtain ⟨notMem, nodup'⟩ := List.nodup_cons.mp nodup
      have out' : b ∉ xs ++ x :: ys := fun mem => out (List.mem_cons_of_mem _ mem)
      have mid : x ∈ xs ++ x :: ys := by simp
      obtain ⟨start, finish⟩ := seg_append.mp rest
      have before : r.prev x ∈ w :: xs := start.prev_mem x (by simp)
      have after : r.next x ∈ ys ++ [b] := finish.next_mem x List.mem_cons_self
      refine ⟨(listDel_next ?_ ?_).trans forth, (listDel_prev ?_ ?_).trans back,
        ih rest nodup' out'⟩
      · rintro rfl
        exact notMem (List.mem_cons_of_mem _ mid)
      · rintro rfl
        exact notMem (List.mem_append_left _ before)
      · rintro rfl
        exact (List.nodup_cons.mp nodup').1 mid
      · rintro rfl
        rw [List.mem_append, List.mem_singleton] at after
        rcases after with inside | same
        · exact (List.nodup_cons.mp nodup').1 (by simp [inside])
        · exact out (same ▸ List.mem_cons_self)

theorem linked_listDel (h : r.Linked head (xs ++ x :: ys)) :
    (listDel r x).Linked head (xs ++ ys) := by
  have fewer : (xs ++ ys).Sublist (xs ++ x :: ys) :=
    (List.Sublist.refl xs).append (List.sublist_cons_self x ys)
  exact ⟨h.nodup.sublist (fewer.cons_cons head),
    seg_listDel h.seg h.nodup (List.nodup_cons.mp h.nodup).1⟩

/-- The first node of a ring. -/
theorem linked_listDel_first (h : r.Linked head (x :: ys)) : (listDel r x).Linked head ys := by
  have ring : r.Linked head ([] ++ x :: ys) := h
  exact linked_listDel ring

theorem listDel_other (h : r.Linked head (xs ++ x :: ys)) (other : y ∉ head :: (xs ++ x :: ys)) :
    (listDel r x).next y = r.next y ∧ (listDel r x).prev y = r.prev y := by
  have mem : x ∈ head :: (xs ++ x :: ys) := by simp
  obtain ⟨next, prev⟩ := h.closed mem
  exact ⟨listDel_next (fun same => other (same ▸ mem)) fun same => other (same ▸ prev),
    listDel_prev (fun same => other (same ▸ mem)) fun same => other (same ▸ next)⟩

/-! ## Mutual links -/

theorem mutual_listDel (m : Mutual r) : Mutual (listDel r x) := by
  have here := m x
  intro y
  have there := m y
  simp only [listDel, listDelBetween, initListHead, setNext_next, setPrev_next, setNext_prev,
    setPrev_prev]
  grind

/-- A node that hangs in no ring is appended. -/
theorem mutual_listAddTail (m : Mutual r) (free : r.next n = n) (other : n ≠ head) :
    Mutual (listAddTail r n head) := by
  have here := m n
  have there := m head
  intro y
  have at_y := m y
  simp only [listAddTail, listAddBetween, setNext_next, setPrev_next, setNext_prev, setPrev_prev]
  grind

/-- The entry leaves whatever ring it is in, and no other. -/
theorem linked_listDel_erase (m : Mutual r) (h : r.Linked head xs) (ne : x ≠ head) :
    (listDel r x).Linked head (xs.erase x) := by
  by_cases mem : x ∈ xs
  · obtain ⟨before, after, -, rfl, gone⟩ := List.exists_erase_eq mem
    rw [gone]
    exact linked_listDel h
  · rw [List.erase_of_not_mem mem]
    have out : x ∉ head :: xs := List.not_mem_cons_of_ne_of_not_mem ne mem
    refine h.frame fun y inside => ?_
    have notX : y ≠ x := fun same => out (same ▸ inside)
    refine ⟨listDel_next notX fun same => out ?_, listDel_prev notX fun same => out ?_⟩
    · rw [← (m x).1, ← same]
      exact (h.closed inside).1
    · rw [← (m x).2, ← same]
      exact (h.closed inside).2

/-! ## Moving a whole ring -/

theorem linked_listSteal (h : r.Linked head (x :: xs)) (new : loc ∉ head :: x :: xs) :
    (listSteal r head loc).Linked loc (x :: xs) ∧ (listSteal r head loc).Linked head [] := by
  obtain ⟨notHead, notMem⟩ := List.ne_and_not_mem_of_not_mem_cons new
  obtain ⟨out, nodup⟩ := List.nodup_cons.mp h.nodup
  obtain ⟨ne, -⟩ := List.ne_and_not_mem_of_not_mem_cons notMem
  obtain ⟨headX, -⟩ := List.ne_and_not_mem_of_not_mem_cons out
  refine ⟨⟨List.nodup_cons.mpr ⟨notMem, nodup⟩, ?_⟩, linked_initListHead⟩
  have forth := h.first.1
  rcases List.eq_nil_or_concat' xs with rfl | ⟨before, p, rfl⟩
  · obtain ⟨-, last⟩ := h.seg.2.2
    simp [listSteal, initListHead, Seg, forth, last, notHead, ne, Ne.symm headX]
  · have last : r.prev head = p := by
      rw [← List.cons_append] at h
      exact h.last.1
    obtain ⟨-, -, tail⟩ := h.seg
    obtain ⟨start, -⟩ := seg_append.mp tail
    have apart : p ∉ x :: before := by
      rw [← List.cons_append, List.nodup_append] at nodup
      exact fun mem => nodup.2.2 p mem p (List.mem_singleton_self p) rfl
    have first : x ∉ before ++ [p] := (List.nodup_cons.mp nodup).1
    have notLast : p ≠ loc := fun same => notMem (same ▸ by simp)
    have lastHead : p ≠ head := fun same => out (same ▸ by simp)
    refine ⟨?_, ?_, seg_append.mpr ⟨start.frame (fun y mem => ?_) fun y mem => ?_, ?_⟩⟩
    · simp [listSteal, initListHead, forth, last, notHead, Ne.symm notLast]
    · simp [listSteal, initListHead, forth, Ne.symm headX]
    · have old : y ≠ p := fun same => apart (same ▸ mem)
      have other : y ≠ head := by
        rintro rfl
        rcases List.mem_cons.mp mem with same | mem
        · exact headX same
        · exact out (by simp [mem])
      have own : y ≠ loc := by
        rintro rfl
        rcases List.mem_cons.mp mem with same | mem
        · exact ne same
        · exact notMem (by simp [mem])
      simp [listSteal, initListHead, forth, last, old, other, own, ne]
    · have old : y ≠ x := fun same => first (same ▸ mem)
      have other : y ≠ head := by
        rintro rfl
        exact out (List.mem_cons_of_mem _ mem)
      have own : y ≠ loc := by
        rintro rfl
        exact notMem (List.mem_cons_of_mem _ mem)
      simp [listSteal, initListHead, forth, old, other, own]
    · simp [listSteal, initListHead, Seg, forth, last, notHead, lastHead, ne]

end CoWq.UsrList
