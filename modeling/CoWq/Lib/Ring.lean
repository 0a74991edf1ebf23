import Mathlib.Data.List.Nodup

/-!
# Doubly linked rings

Nodes with a next and a previous pointer, written one at a time.  A ring hangs
off its head: following `next` from the head visits the nodes in order and comes
back, and every `prev` points the other way.

* `Ring.Seg`: the way from one node to another through a list of nodes.
* `Ring.Linked`: a ring with its nodes, oldest first.
* `Seg.frame`, `Linked.frame`: what does not write these nodes keeps them linked.
* `Linked.first`, `Linked.last`: the neighbours of the head.
* `Linked.closed`, `Linked.apart`: no pointer leaves a ring, so two rings that differ in
  one node share none.
* `Ring.Mutual`: every node is where its neighbours say it is.
-/

namespace CoWq

/-- The pointers of all nodes. -/
@[ext]
structure Ring (N : Type*) where
  next : N → N
  prev : N → N

namespace Ring

variable {N : Type*}

/-- The nodes `xs` lie between `a` and `b`, in this order. -/
def Seg (r : Ring N) (a : N) : List N → N → Prop
  | [], b => r.next a = b ∧ r.prev b = a
  | x :: xs, b => r.next a = x ∧ r.prev x = a ∧ r.Seg x xs b

/-- The ring of `head` holds `xs`. -/
structure Linked (r : Ring N) (head : N) (xs : List N) : Prop where
  nodup : (head :: xs).Nodup
  seg : r.Seg head xs head

variable {r r' : Ring N} {head a b x : N} {xs ys : List N}

theorem seg_append : r.Seg a (xs ++ x :: ys) b ↔ r.Seg a xs x ∧ r.Seg x ys b := by
  induction xs generalizing a with
  | nil => exact and_assoc.symm
  | cons y xs ih => simp only [List.cons_append, Seg, ih, and_assoc]

theorem Seg.frame (h : r.Seg a xs b) (next : ∀ x ∈ a :: xs, r'.next x = r.next x)
    (prev : ∀ x ∈ xs ++ [b], r'.prev x = r.prev x) : r'.Seg a xs b := by
  induction xs generalizing a with
  | nil =>
      obtain ⟨forth, back⟩ := h
      exact ⟨(next a List.mem_cons_self).trans forth, (prev b List.mem_cons_self).trans back⟩
  | cons x xs ih =>
      obtain ⟨forth, back, rest⟩ := h
      exact ⟨(next a List.mem_cons_self).trans forth, (prev x List.mem_cons_self).trans back,
        ih rest (fun y mem => next y (List.mem_cons_of_mem _ mem))
          fun y mem => prev y (List.mem_cons_of_mem _ mem)⟩

theorem Linked.frame (h : r.Linked head xs)
    (same : ∀ x ∈ head :: xs, r'.next x = r.next x ∧ r'.prev x = r.prev x) :
    r'.Linked head xs := by
  refine ⟨h.nodup, h.seg.frame (fun x mem => (same x mem).1) fun x mem => (same x ?_).2⟩
  rw [List.mem_append, List.mem_singleton] at mem
  exact List.mem_cons.mpr mem.symm

theorem Linked.first (h : r.Linked head (x :: xs)) : r.next head = x ∧ r.prev x = head :=
  ⟨h.seg.1, h.seg.2.1⟩

theorem Linked.last (h : r.Linked head (xs ++ [x])) : r.prev head = x ∧ r.next x = head := by
  obtain ⟨forth, back⟩ := (seg_append.mp h.seg).2
  exact ⟨back, forth⟩

/-- The neighbours of the head point back at it. -/
theorem Linked.around (h : r.Linked head xs) :
    r.prev (r.next head) = head ∧ r.next (r.prev head) = head := by
  constructor
  · cases xs with
    | nil => rw [h.seg.1, h.seg.2]
    | cons x xs => rw [h.first.1, h.first.2]
  · rcases List.eq_nil_or_concat' xs with rfl | ⟨ys, x, rfl⟩
    · rw [h.seg.2, h.seg.1]
    · rw [h.last.1, h.last.2]

/-- The head points at itself in an empty ring only. -/
theorem Linked.next_head (h : r.Linked head xs) : r.next head = head ↔ xs = [] := by
  constructor
  · intro alone
    cases xs with
    | nil => rfl
    | cons x xs =>
        rw [h.first.1] at alone
        exact ((List.nodup_cons.mp h.nodup).1 (alone ▸ List.mem_cons_self)).elim
  · rintro rfl
    exact h.seg.1

/-! ## Rings are closed -/

theorem Seg.next_mem (h : r.Seg a xs b) : ∀ y ∈ a :: xs, r.next y ∈ xs ++ [b] := by
  induction xs generalizing a with
  | nil =>
      intro y mem
      rw [List.mem_singleton.mp mem, h.1]
      exact List.mem_singleton_self b
  | cons x xs ih =>
      obtain ⟨forth, -, rest⟩ := h
      intro y mem
      rcases List.mem_cons.mp mem with rfl | mem
      · rw [forth]
        exact List.mem_cons_self
      · exact List.mem_cons_of_mem _ (ih rest y mem)

theorem Seg.prev_mem (h : r.Seg a xs b) : ∀ y ∈ xs ++ [b], r.prev y ∈ a :: xs := by
  induction xs generalizing a with
  | nil =>
      intro y mem
      rw [List.mem_singleton.mp mem, h.2]
      exact List.mem_singleton_self a
  | cons x xs ih =>
      obtain ⟨-, back, rest⟩ := h
      intro y mem
      rcases List.mem_cons.mp mem with rfl | mem
      · rw [back]
        exact List.mem_cons_self
      · exact List.mem_cons_of_mem _ (ih rest y mem)

/-- No pointer leaves a ring. -/
theorem Linked.closed (h : r.Linked head xs) (mem : x ∈ head :: xs) :
    r.next x ∈ head :: xs ∧ r.prev x ∈ head :: xs := by
  have around : ∀ {y : N}, y ∈ xs ++ [head] ↔ y ∈ head :: xs := by
    intro y
    rw [List.mem_append, List.mem_singleton, List.mem_cons, or_comm]
  exact ⟨around.mp (h.seg.next_mem x mem), h.seg.prev_mem x (around.mpr mem)⟩

/-- A way whose last pointer is turned to another target. -/
theorem Seg.turn {c : N} (h : r.Seg a xs b) (nodup : (a :: xs).Nodup)
    (next : ∀ y ∈ a :: xs, y ≠ r.prev b → r'.next y = r.next y)
    (prev : ∀ y ∈ xs, r'.prev y = r.prev y)
    (turned : r'.next (r.prev b) = c ∧ r'.prev c = r.prev b) : r'.Seg a xs c := by
  induction xs generalizing a with
  | nil =>
      obtain ⟨-, back⟩ := h
      rwa [back] at turned
  | cons x xs ih =>
      obtain ⟨forth, back, rest⟩ := h
      obtain ⟨out, nodup'⟩ := List.nodup_cons.mp nodup
      have last : r.prev b ∈ x :: xs := rest.prev_mem b (by simp)
      refine ⟨(next a List.mem_cons_self ?_).trans forth,
        (prev x List.mem_cons_self).trans back,
        ih rest nodup' (fun y mem => next y (List.mem_cons_of_mem _ mem))
          fun y mem => prev y (List.mem_cons_of_mem _ mem)⟩
      rintro rfl
      exact out last

/-- What no pointer leaves and holds one node between `a` and `b` holds `a`. -/
theorem Seg.back_to {S : N → Prop} (closed : ∀ x, S x → S (r.prev x)) (h : r.Seg a xs b)
    (mem : x ∈ xs) (inside : S x) : S a := by
  induction xs generalizing a with
  | nil => cases mem
  | cons y xs ih =>
      obtain ⟨-, back, rest⟩ := h
      rcases List.mem_cons.mp mem with rfl | mem
      · exact back ▸ closed x inside
      · exact back ▸ closed y (ih rest mem)

/-- Two rings are the same set of nodes or have none in common. -/
theorem Linked.apart {base : N} (h : r.Linked head xs) (h' : r.Linked base ys)
    (out : head ∉ base :: ys) : ∀ x ∈ base :: ys, x ∉ head :: xs := by
  intro x mem shared
  have inside : head ∈ base :: ys := by
    rcases List.mem_cons.mp shared with rfl | shared
    · exact mem
    · exact h.seg.back_to (S := (· ∈ base :: ys)) (fun y there => (h'.closed there).2) shared mem
  exact out inside

/-- A ring determines its pointers. -/
theorem Linked.agree (h : r.Linked head xs) (h' : r'.Linked head xs) :
    ∀ x ∈ head :: xs, r'.next x = r.next x ∧ r'.prev x = r.prev x := by
  have along : ∀ {a : N} {xs : List N} {b : N}, r.Seg a xs b → r'.Seg a xs b →
      (∀ y ∈ a :: xs, r'.next y = r.next y) ∧ ∀ y ∈ xs ++ [b], r'.prev y = r.prev y := by
    intro a xs b seg seg'
    induction xs generalizing a with
    | nil =>
        constructor <;> intro y mem <;> rw [List.mem_singleton.mp mem]
        · exact seg'.1.trans seg.1.symm
        · exact seg'.2.trans seg.2.symm
    | cons z xs ih =>
        obtain ⟨next, prev⟩ := ih seg.2.2 seg'.2.2
        constructor <;> intro y mem <;> rcases List.mem_cons.mp mem with rfl | mem
        · exact seg'.1.trans seg.1.symm
        · exact next y mem
        · exact seg'.2.1.trans seg.2.1.symm
        · exact prev y mem
  obtain ⟨next, prev⟩ := along h.seg h'.seg
  intro x mem
  refine ⟨next x mem, prev x ?_⟩
  rw [List.mem_append, List.mem_singleton]
  exact (List.mem_cons.mp mem).symm

/-- `next` and `prev` undo each other everywhere: all nodes lie in rings. -/
def Mutual (r : Ring N) : Prop :=
  ∀ x, r.next (r.prev x) = x ∧ r.prev (r.next x) = x

/-! ## Writing pointers -/

variable [DecidableEq N]

/-- `a.next = b` -/
def setNext (r : Ring N) (a b : N) : Ring N :=
  { r with next := fun x => if x = a then b else r.next x }

/-- `a.prev = b` -/
def setPrev (r : Ring N) (a b : N) : Ring N :=
  { r with prev := fun x => if x = a then b else r.prev x }

@[simp] theorem setNext_next (r : Ring N) (a b x : N) :
    (r.setNext a b).next x = if x = a then b else r.next x := rfl

@[simp] theorem setNext_prev (r : Ring N) (a b x : N) : (r.setNext a b).prev x = r.prev x := rfl

@[simp] theorem setPrev_prev (r : Ring N) (a b x : N) :
    (r.setPrev a b).prev x = if x = a then b else r.prev x := rfl

@[simp] theorem setPrev_next (r : Ring N) (a b x : N) : (r.setPrev a b).next x = r.next x := rfl

end Ring

end CoWq
