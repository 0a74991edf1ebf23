import Mathlib.Data.List.Basic
import Mathlib.Order.Basic
import Mathlib.Data.Int.Order.Basic

/-!
# Byte streams received in chunks

A stream arrives cut into chunks of positive length.  One receive takes at most
as much as it asks for, and from the first chunk only, so every division of a
stream into receive results is the run of some list of chunks.

* `Inbound.recv`: one receive.  After the last chunk it answers `ending`, which
  is `0` for an orderly end and negative for a failure.
* `Inbound.fill`: the loop that receives until a buffer is full.
* `Inbound.fill_spec`: when enough is pending, the loop takes exactly that much,
  wherever the stream is cut.
* `Inbound.Breaks`: the receives have a break at a place of the stream.
-/

namespace CoWq

/-- What is still to be received, and what a receive answers at the end. -/
structure Inbound (α : Type*) where
  chunks : List (List α)
  ending : Int
  positive : ∀ c ∈ chunks, c ≠ []
  stops : ending ≤ 0

namespace Inbound

variable {α : Type*}

/-- A stream that ends with an orderly close. -/
theorem orderly_stops : (0 : Int) ≤ 0 := le_refl 0

/-- Nothing comes, and then the end. -/
def nothing : Inbound α where
  chunks := []
  ending := 0
  positive _ mem := absurd mem List.not_mem_nil
  stops := orderly_stops

/-- Everything still to be received. -/
def pending (s : Inbound α) : List α := s.chunks.flatten

/-- The stream without its first chunk. -/
def tail (s : Inbound α) : Inbound α :=
  ⟨s.chunks.tail, s.ending, fun c mem => s.positive c (List.mem_of_mem_tail mem), s.stops⟩

/-- The stream with `c` in place of its first chunk. -/
def behead (s : Inbound α) (c : List α) (rest : c ≠ []) : Inbound α :=
  ⟨c :: s.chunks.tail, s.ending, by
    intro x mem
    rcases List.mem_cons.mp mem with rfl | later
    · exact rest
    · exact s.positive x (List.mem_of_mem_tail later), s.stops⟩

/-- One receive of at most `cap`: its answer, what it took, and what remains. -/
def recv (s : Inbound α) (cap : Nat) : Int × List α × Inbound α :=
  match s.chunks with
  | [] => (s.ending, [], s)
  | c :: _ =>
      if long : cap < c.length then
        ((c.take cap).length, c.take cap, s.behead (c.drop cap) (by simpa using long))
      else (c.length, c, s.tail)

theorem recv_answer {s : Inbound α} {cap : Nat} (progress : 0 < (s.recv cap).1) :
    (s.recv cap).2.1.length = (s.recv cap).1 := by
  rw [recv] at progress ⊢
  split
  · rename_i none'
    rw [none'] at progress
    exact absurd progress (not_lt.mpr s.stops)
  · split <;> rfl

/-- What a receive takes comes off the front of the stream. -/
theorem recv_taken {s : Inbound α} {cap : Nat} (progress : 0 < (s.recv cap).1) :
    s.pending = (s.recv cap).2.1 ++ (s.recv cap).2.2.pending := by
  rw [recv] at progress ⊢
  split
  · rename_i none'
    rw [none'] at progress
    exact absurd progress (not_lt.mpr s.stops)
  · rename_i c cs chunks
    split
    · simp only [pending, behead, chunks, List.tail_cons, List.flatten_cons, ← List.append_assoc,
        List.take_append_drop]
    · simp only [pending, tail, chunks, List.tail_cons, List.flatten_cons]

theorem recv_le {s : Inbound α} {cap : Nat} : (s.recv cap).2.1.length ≤ cap := by
  rw [recv]
  split
  · exact Nat.zero_le cap
  · split
    · rw [List.length_take]
      exact Nat.min_le_left _ _
    · rename_i long
      exact Nat.not_lt.mp long

/-- While something is pending, a receive takes some of it. -/
theorem recv_pos {s : Inbound α} {cap : Nat} (some' : s.pending ≠ []) (room : 0 < cap) :
    0 < (s.recv cap).1 := by
  rw [recv]
  split
  · rename_i chunks
    exact absurd (by rw [pending, chunks, List.flatten_nil]) some'
  · rename_i c cs chunks
    have posC := List.length_pos_of_ne_nil (s.positive c (by simp [chunks]))
    split
    · rw [List.length_take]
      omega
    · exact Int.natCast_pos.mpr posC

/-- A receive that takes nothing finds the end. -/
theorem recv_ended {s : Inbound α} {cap : Nat} (room : 0 < cap) (ended : (s.recv cap).1 ≤ 0) :
    s.pending = [] ∧ s.recv cap = (s.ending, [], s) := by
  have none' : s.pending = [] := by
    by_contra some'
    have := recv_pos some' room
    omega
  refine ⟨none', ?_⟩
  rw [recv]
  split
  · rfl
  · rename_i c cs chunks
    rw [pending, chunks, List.flatten_cons] at none'
    exact absurd (List.append_eq_nil_iff.mp none').1 (s.positive c (by simp [chunks]))

/-- A receive leaves the end of the stream as it is. -/
theorem recv_ending (s : Inbound α) (cap : Nat) : (s.recv cap).2.2.ending = s.ending := by
  rw [recv]
  split
  · rfl
  · split <;> rfl

/-- A receive of a positive amount makes progress while something is pending. -/
theorem recv_spec {s : Inbound α} {bs rest : List α} (cap : Nat)
    (here : s.pending = bs ++ rest) (amount : bs.length = cap) (some' : 0 < cap) :
    ∃ data bs' s', s.recv cap = ((data.length : Int), data, s') ∧ 0 < data.length ∧
      bs = data ++ bs' ∧ s'.pending = bs' ++ rest ∧ s'.ending = s.ending := by
  cases chunks : s.chunks with
  | nil =>
      rw [pending, chunks] at here
      have empty : bs = [] := (List.append_eq_nil_iff.mp here.symm).1
      rw [empty, List.length_nil] at amount
      omega
  | cons c cs =>
      have full : c ++ cs.flatten = bs ++ rest := by
        simpa [pending, chunks] using here
      have posC : 0 < c.length :=
        List.length_pos_of_ne_nil (s.positive c (by simp [chunks]))
      by_cases long : cap < c.length
      · -- the receive ends inside the chunk and fills the request
        have cut : c.take cap = bs := by
          have same := congrArg (List.take cap) full
          rw [List.take_append_of_le_length (by omega)] at same
          rw [same, ← amount, List.take_left]
        have left : c.drop cap ++ cs.flatten = rest := by
          have same := congrArg (List.drop cap) full
          rw [List.drop_append_of_le_length (by omega)] at same
          rw [same, ← amount, List.drop_left]
        refine ⟨c.take cap, [], s.behead (c.drop cap) (by simpa using long), ?_, ?_, ?_, ?_, rfl⟩
        · simp only [recv]
          split
          · rename_i none'
            simp [chunks] at none'
          · rename_i c' cs' same
            obtain ⟨rfl, -⟩ : c' = c ∧ cs' = cs := by simpa [chunks, eq_comm] using same
            simp [long]
        · rw [List.length_take]
          omega
        · rw [cut, List.append_nil]
        · simp [pending, behead, chunks, left]
      · -- the whole chunk is taken
        obtain ⟨bs', rfl⟩ : ∃ bs', bs = c ++ bs' := by
          have start : c <+: bs := by
            have before : bs <+: c ++ cs.flatten := full ▸ List.prefix_append bs rest
            exact List.prefix_of_prefix_length_le (List.prefix_append c _) before (by omega)
          exact start.imp fun _ h => h.symm
        refine ⟨c, bs', s.tail, ?_, posC, rfl, ?_, rfl⟩
        · simp only [recv]
          split
          · rename_i none'
            simp [chunks] at none'
          · rename_i c' cs' same
            obtain ⟨rfl, -⟩ : c' = c ∧ cs' = cs := by simpa [chunks, eq_comm] using same
            simp [long]
        · have left : cs.flatten = bs' ++ rest := by
            rw [List.append_assoc] at full
            exact List.append_cancel_left full
          simpa [pending, tail, chunks] using left

/-- The loop that receives behind `buf` until `size` elements are there; it stops
with the answer of the first receive that is not positive. -/
def fill (size : Nat) (buf : List α) (s : Inbound α) : Except Int (List α) × Inbound α :=
  if buf.length < size then
    if (s.recv (size - buf.length)).1 ≤ 0 then
      (.error (s.recv (size - buf.length)).1, (s.recv (size - buf.length)).2.2)
    else fill size (buf ++ (s.recv (size - buf.length)).2.1) (s.recv (size - buf.length)).2.2
  else (.ok buf, s)
termination_by size - buf.length
decreasing_by
  rename_i room stop
  have len := recv_answer (not_le.mp stop)
  rw [List.length_append]
  omega

/-- **Filling a buffer does not depend on where the stream is cut.** -/
theorem fill_spec {size : Nat} (buf : List α) {bs rest : List α} {s : Inbound α}
    (here : s.pending = bs ++ rest) (amount : buf.length + bs.length = size) :
    ∃ s', fill size buf s = (.ok (buf ++ bs), s') ∧ s'.pending = rest ∧ s'.ending = s.ending := by
  induction steps : bs.length using Nat.strongRecOn generalizing buf bs s with
  | ind n ih =>
      subst steps
      rw [fill]
      by_cases room : buf.length < size
      · rw [if_pos room]
        obtain ⟨data, bs', s', run, progress, rfl, here', ending⟩ :=
          recv_spec (size - buf.length) here (by omega) (by omega)
        rw [List.length_append] at amount
        rw [run, if_neg (by push_cast; omega)]
        obtain ⟨s'', run', rest', ending'⟩ := ih bs'.length (by rw [List.length_append]; omega)
          (buf ++ data) here' (by rw [List.length_append]; omega) rfl
        exact ⟨s'', by simpa using run', rest', ending'.trans ending⟩
      · rw [if_neg room]
        obtain rfl : bs = [] := List.length_eq_zero_iff.mp (by omega)
        exact ⟨s, by simp, by simpa using here, rfl⟩

/-- A buffer that was filled holds the front of the stream. -/
theorem fill_ok {size : Nat} {buf bytes : List α} {s s' : Inbound α}
    (room : buf.length ≤ size) (run : fill size buf s = (.ok bytes, s')) :
    ∃ bs, bytes = buf ++ bs ∧ bytes.length = size ∧ s.pending = bs ++ s'.pending := by
  induction steps : size - buf.length using Nat.strongRecOn generalizing buf s with
  | ind n ih =>
      subst steps
      rw [fill] at run
      by_cases more : buf.length < size
      · rw [if_pos more] at run
        split at run
        · cases run
        · rename_i progress
          have taken := recv_taken (not_le.mp progress)
          have answer := recv_answer (not_le.mp progress)
          have most : (s.recv (size - buf.length)).2.1.length ≤ size - buf.length := recv_le
          obtain ⟨bs, rfl, full, rest⟩ := ih _ (by rw [List.length_append]; omega)
            (by rw [List.length_append]; omega) run rfl
          refine ⟨(s.recv (size - buf.length)).2.1 ++ bs, List.append_assoc .., full, ?_⟩
          rw [taken, rest, List.append_assoc]
      · rw [if_neg more] at run
        cases run
        exact ⟨[], (List.append_nil _).symm, by omega, rfl⟩

/-- A receive of at most `cap`, one after the other, ends behind `n` elements. -/
inductive Breaks (cap : Nat) : Inbound α → Nat → Prop
  | here {s : Inbound α} : Breaks cap s 0
  | recv {s : Inbound α} {n : Nat} (progress : 0 < (s.recv cap).1)
      (later : Breaks cap (s.recv cap).2.2 n) : Breaks cap s ((s.recv cap).2.1.length + n)

theorem breaks_iff {cap : Nat} {s : Inbound α} {n : Nat} (some' : 0 < n)
    (progress : 0 < (s.recv cap).1) :
    Breaks cap s n ↔ (s.recv cap).2.1.length ≤ n ∧
      Breaks cap (s.recv cap).2.2 (n - (s.recv cap).2.1.length) := by
  constructor
  · intro breaks
    cases breaks with
    | here => omega
    | @recv _ m _ later => exact ⟨Nat.le_add_right _ m, by rwa [Nat.add_sub_cancel_left]⟩
  · rintro ⟨within, later⟩
    have whole := Breaks.recv progress later
    rwa [Nat.add_sub_cancel' within] at whole

end Inbound

end CoWq
