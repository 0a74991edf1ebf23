import CoWq.IO.CallbackWq

/-!
# The entries of a callback router

Where the accepted entries are while the waiters are valid: their magic and their
function are set.

* `Routed`: the accepted entries are those already run, the one in the hand of the
  drain, its `local` and `pending`, in this order.
* `Routed.step`, `Routed.via`: what a step does to these rings, and so every run.
* `Due`: accepted and not yet run.
-/

namespace CoWq.CallbackWq

open UsrList Workqueue

/-- The points of a drain that has a batch. -/
def Pc.holds : Pc → Bool
  | .batch => true
  | .took _ => true
  | .call _ => true
  | .inCall _ => true
  | _ => false

/-- The entry out of `local` whose waiter is still to be run. -/
def Pc.hand : Pc → List Nat
  | .took e => [e]
  | .call e => [e]
  | _ => []

theorem Pc.busy_of_holds {p : Pc} (h : p.holds) : p.busy := by
  cases p <;> first | rfl | cases h

variable {W O P : Type*} {s t : State W O P} {place : Option (Place P)} {now ls ps : List Nat}

/-- Where the accepted entries are: run, `now` in the hand of the drain, `ls` in its
`local`, `ps` in `pending`. -/
structure Routed (s : State W O P) (now ls ps : List Nat) : Prop where
  pending : s.ring.Linked .pending (ps.map .entry)
  batch : ∀ k, (s.pc k).holds → s.ring.Linked (.loc k) (ls.map .entry)
  hand : ∀ k, (s.pc k).holds → (s.pc k).hand = now
  idle : (∀ k, (s.pc k).holds = false) → now = [] ∧ ls = []
  order : s.accepted = s.ran ++ now ++ ls ++ ps
  numbered : s.accepted = List.range s.accepted.length
  work : now ++ ls ++ ps ≠ [] → s.running = true
  enqueued : ∀ w, s.callbackEnqueued w = true →
    ∃ e, (e ∈ ls ∨ e ∈ ps ∨ ∃ k, s.pc k = .took e) ∧ s.waiter e = w

theorem Routed.init (start : init s) : Routed s [] [] [] := by
  obtain ⟨ring, enqueued, -, -, -, -, -, pc, -, accepted, ran⟩ := start
  constructor <;> simp [ring, enqueued, pc, accepted, ran, Pc.holds]

/-- A step that moves no entry. -/
theorem Routed.same (h : Routed s now ls ps) (ring : t.ring = s.ring)
    (pc : ∀ k, (t.pc k).holds = (s.pc k).holds ∧ (t.pc k).hand = (s.pc k).hand ∧
      ∀ e, s.pc k = .took e → t.pc k = .took e)
    (accepted : t.accepted = s.accepted) (ran : t.ran = s.ran) (running : t.running = s.running)
    (waiter : t.waiter = s.waiter) (enqueued : t.callbackEnqueued = s.callbackEnqueued) :
    Routed t now ls ps := by
  refine ⟨ring ▸ h.pending, fun k holds => ?_, fun k holds => ?_, fun idle => ?_, ?_, ?_, ?_,
    fun w set => ?_⟩
  · rw [(pc k).1] at holds
    exact ring ▸ h.batch k holds
  · rw [(pc k).1] at holds
    exact (pc k).2.1.trans (h.hand k holds)
  · exact h.idle fun k => (pc k).1 ▸ idle k
  · rw [accepted, ran]
    exact h.order
  · rw [accepted]
    exact h.numbered
  · rw [running]
    exact h.work
  · rw [enqueued] at set
    obtain ⟨e, place, same⟩ := h.enqueued w set
    refine ⟨e, place.imp id (Or.imp id (Exists.imp fun k took => (pc k).2.2 e took)), ?_⟩
    rw [waiter]
    exact same

theorem Routed.nodup (h : Routed s now ls ps) : (s.ran ++ now ++ ls ++ ps).Nodup := by
  rw [← h.order, h.numbered]
  exact List.nodup_range

/-- The drain that holds a batch is the only one that is busy. -/
theorem Routed.idle_of_busy [DecidableEq O] {k : Nat} (h : Routed s now ls ps)
    (single : Single s place) (busy : (s.pc k).busy) (free : (s.pc k).holds = false) :
    now = [] ∧ ls = [] := by
  refine h.idle fun j => ?_
  by_contra holds
  rw [Bool.not_eq_false] at holds
  have also := (single.only (x := .draining k) busy).2 (.draining j) (Pc.busy_of_holds holds)
  rw [Place.draining.inj also, free] at holds
  cases holds

theorem Routed.other_free [DecidableEq O] {k j : Nat} (single : Single s place)
    (busy : (s.pc k).busy) (other : j ≠ k) : (s.pc j).holds = false := by
  by_contra holds
  rw [Bool.not_eq_false] at holds
  have also := (single.only (x := .draining k) busy).2 (.draining j) (Pc.busy_of_holds holds)
  exact other (Place.draining.inj also)

/-! ## What a post does -/

theorem Routed.link [DecidableEq W] {w : W} (h : Routed s now ls ps) (ps' : List Nat)
    (running : t.running = true) (same : ps' = ps ++ [s.accepted.length])
    (ring : t.ring = listAddTail s.ring (.entry s.accepted.length) .pending)
    (waiter : t.waiter = fun x => if x = s.accepted.length then w else s.waiter x)
    (accepted : t.accepted = s.accepted ++ [s.accepted.length]) (pc : t.pc = s.pc)
    (ran : t.ran = s.ran)
    (enqueued : t.callbackEnqueued = fun x => if x = w then true else s.callbackEnqueued x) :
    Routed t now ls ps' := by
  have below : ∀ e ∈ s.ran ++ now ++ ls ++ ps, e < s.accepted.length := by
    intro e mem
    rw [← h.order, h.numbered] at mem
    exact List.mem_range.mp mem
  have notPending : Link.entry s.accepted.length ∉ .pending :: ps.map .entry := by
    intro mem
    simp only [List.mem_cons, reduceCtorEq, List.mem_map, Link.entry.injEq, exists_eq_right,
      false_or] at mem
    exact absurd (below _ (List.mem_append_right _ mem)) (by omega)
  subst same
  refine ⟨?_, fun k holds => ?_, ?_, ?_, ?_, ?_, fun _ => running, fun v set => ?_⟩
  · rw [ring, List.map_append]
    exact linked_listAddTail h.pending notPending
  · rw [pc] at holds
    rw [ring]
    refine (h.batch k holds).frame fun y mem => ?_
    have old : y ≠ .entry s.accepted.length := by
      rintro rfl
      simp only [List.mem_cons, reduceCtorEq, List.mem_map, Link.entry.injEq, exists_eq_right,
        false_or] at mem
      exact absurd (below s.accepted.length (by simp [mem])) (by omega)
    refine listAddTail_other h.pending old fun mem' => ?_
    have nodup := h.nodup
    rw [List.nodup_append] at nodup
    rcases List.mem_cons.mp mem with rfl | inBatch
    · simp at mem'
    · obtain ⟨e, inLs, rfl⟩ := List.mem_map.mp inBatch
      have inPs : e ∈ ps := by simpa using mem'
      exact nodup.2.2 e (List.mem_append_right _ inLs) e inPs rfl
  · rw [pc]
    exact h.hand
  · rw [pc]
    exact h.idle
  · rw [accepted, ran, ← List.append_assoc, ← h.order]
  · rw [accepted, List.length_append, List.length_singleton, List.range_succ, ← h.numbered]
  · rw [enqueued] at set
    rw [waiter, pc]
    dsimp only at set ⊢
    split at set
    · rename_i same
      exact ⟨s.accepted.length, .inr (.inl (by simp)), by rw [if_pos rfl, same]⟩
    · obtain ⟨e, place, same⟩ := h.enqueued v set
      have old : e < s.accepted.length := by
        refine below e ?_
        rcases place with inLs | inPs | ⟨k, took⟩
        · simp [inLs]
        · simp [inPs]
        · have hand := h.hand k (by rw [took]; rfl)
          rw [took] at hand
          simp [← hand, Pc.hand]
      refine ⟨e, place.imp id (Or.imp (List.mem_append_left _) id), ?_⟩
      rw [if_neg (by omega)]
      exact same

/-! ## What a drain does -/

theorem Routed.not_corrupted (h : Routed s now ls ps) : corrupted s.ring = false := by
  obtain ⟨first, last⟩ := h.pending.around
  simp [corrupted, first, last]

theorem Routed.steal [DecidableEq O] {k : Nat} (h : Routed s now ls ps)
    (single : Single s place) (loop : s.pc k = .loop)
    (some : listEmpty s.ring .pending = false) :
    Routed ({ s with ring := listSteal s.ring .pending (.loc k) }.setPc k .batch) [] ps [] := by
  obtain ⟨rfl, rfl⟩ := h.idle_of_busy single (by rw [loop]; rfl) (by rw [loop]; rfl)
  have free := fun j => Routed.other_free (j := j) single (k := k) (by rw [loop]; rfl)
  have order := h.order
  cases ps with
  | nil =>
      rw [(listEmpty_iff h.pending).mpr rfl] at some
      cases some
  | cons e rest =>
      have new : Link.loc k ∉ Link.pending :: (e :: rest).map Link.entry := by simp
      obtain ⟨stolen, empty⟩ := linked_listSteal h.pending new
      refine ⟨empty, fun j holds => ?_, fun j holds => ?_, fun idle => ?_, ?_, h.numbered,
        fun _ => h.work (by simp), fun w set => ?_⟩
      · by_cases same : j = k
        · exact same ▸ stolen
        · simp [State.setPc, same, free j same] at holds
      · by_cases same : j = k
        · simp [State.setPc, same, Pc.hand]
        · simp [State.setPc, same, free j same] at holds
      · simpa [State.setPc, Pc.holds] using idle k
      · simpa [State.setPc] using order
      · obtain ⟨e', place, same⟩ := h.enqueued w set
        refine ⟨e', .inl ?_, same⟩
        rcases place with inLs | inPs | ⟨j, took⟩
        · cases inLs
        · exact inPs
        · by_cases other : j = k
          · rw [other, loop] at took
            cases took
          · have := free j other
            rw [took] at this
            cases this

theorem Routed.stop [DecidableEq O] {k : Nat} (h : Routed s now ls ps)
    (single : Single s place) (loop : s.pc k = .loop)
    (none : listEmpty s.ring .pending = true) :
    Routed ({ s with running := false }.setPc k .exit) [] [] [] := by
  obtain ⟨rfl, rfl⟩ := h.idle_of_busy single (by rw [loop]; rfl) (by rw [loop]; rfl)
  obtain rfl : ps = [] := by
    have empty := (listEmpty_iff h.pending).mp none
    exact List.map_eq_nil_iff.mp empty
  have free := fun j => Routed.other_free (j := j) single (k := k) (by rw [loop]; rfl)
  have nobody : ∀ j, ((({ s with running := false } : State W O P).setPc k .exit).pc j).holds =
      false := by
    intro j
    by_cases same : j = k
    · simp [State.setPc, same, Pc.holds]
    · simpa [State.setPc, same] using free j same
  refine ⟨h.pending, fun j holds => ?_, fun j holds => ?_, fun _ => ⟨rfl, rfl⟩, h.order,
    h.numbered, fun some => (some rfl).elim, fun w set => ?_⟩
  · rw [nobody j] at holds
    cases holds
  · rw [nobody j] at holds
    cases holds
  · obtain ⟨e, place, same⟩ := h.enqueued w set
    rcases place with inLs | inPs | ⟨j, took⟩
    · cases inLs
    · cases inPs
    · by_cases other : j = k
      · rw [other, loop] at took
        cases took
      · have := free j other
        rw [took] at this
        cases this

theorem Routed.batch_over {k : Nat} (h : Routed s now ls ps) (batch : s.pc k = .batch)
    [DecidableEq O] (single : Single s place) (none : listEmpty s.ring (.loc k) = true) :
    Routed (s.setPc k .loop) [] [] ps := by
  have holds : (s.pc k).holds := by rw [batch]; rfl
  have free := fun j => Routed.other_free (j := j) single (Pc.busy_of_holds holds)
  obtain rfl : now = [] := by rw [← h.hand k holds, batch]; rfl
  obtain rfl : ls = [] := List.map_eq_nil_iff.mp ((listEmpty_iff (h.batch k holds)).mp none)
  have nobody : ∀ j, ((s.setPc k .loop).pc j).holds = false := by
    intro j
    by_cases same : j = k
    · simp [State.setPc, same, Pc.holds]
    · simpa [State.setPc, same] using free j same
  refine ⟨h.pending, fun j holds => ?_, fun j holds => ?_, fun _ => ⟨rfl, rfl⟩, h.order,
    h.numbered, h.work, fun w set => ?_⟩
  · rw [nobody j] at holds
    cases holds
  · rw [nobody j] at holds
    cases holds
  · obtain ⟨e, place, same⟩ := h.enqueued w set
    refine ⟨e, place.imp id (Or.imp id fun inHand => ?_), same⟩
    obtain ⟨j, took⟩ := inHand
    have other : j ≠ k := by
      rintro rfl
      rw [batch] at took
      cases took
    have := free j other
    rw [took] at this
    cases this

theorem Routed.take [DecidableEq O] {k e : Nat} {rest : List Nat}
    (h : Routed s now (e :: rest) ps) (single : Single s place) (batch : s.pc k = .batch) :
    Routed ({ s with ring := listDel s.ring (.entry e) }.setPc k (.took e)) [e] rest ps := by
  have holds : (s.pc k).holds := by rw [batch]; rfl
  have free := fun j => Routed.other_free (j := j) single (Pc.busy_of_holds holds)
  obtain rfl : now = [] := by rw [← h.hand k holds, batch]; rfl
  have linked : s.ring.Linked (.loc k) ([] ++ .entry e :: rest.map .entry) := h.batch k holds
  have apart : ∀ x ∈ e :: rest, x ∉ ps := by
    have nodup := h.nodup
    rw [List.nodup_append] at nodup
    exact fun x mem mem' => nodup.2.2 x (List.mem_append_right _ mem) x mem' rfl
  refine ⟨?_, fun j holds' => ?_, fun j holds' => ?_, fun idle => ?_, ?_, h.numbered,
    fun _ => h.work (by simp), fun w set => ?_⟩
  · refine h.pending.frame fun y mem => listDel_other linked fun mem' => ?_
    rcases List.mem_cons.mp mem with rfl | inPs
    · simp at mem'
    · obtain ⟨x, inList, rfl⟩ := List.mem_map.mp inPs
      refine apart x ?_ inList
      simpa using mem'
  · by_cases same : j = k
    · subst same
      exact linked_listDel linked
    · simp [State.setPc, same, free j same] at holds'
  · by_cases same : j = k
    · simp [State.setPc, same, Pc.hand]
    · simp [State.setPc, same, free j same] at holds'
  · simpa [State.setPc, Pc.holds] using idle k
  · simpa [State.setPc] using h.order
  · obtain ⟨x, place, same⟩ := h.enqueued w set
    rcases place with inLs | inPs | ⟨j, took⟩
    · rcases List.mem_cons.mp inLs with rfl | inRest
      · exact ⟨x, .inr (.inr ⟨k, by simp [State.setPc]⟩), same⟩
      · exact ⟨x, .inl inRest, same⟩
    · exact ⟨x, .inr (.inl inPs), same⟩
    · have other : j ≠ k := by
        rintro rfl
        rw [batch] at took
        cases took
      have := free j other
      rw [took] at this
      cases this

theorem Routed.store [DecidableEq O] [DecidableEq W] {k e : Nat} (h : Routed s now ls ps)
    (single : Single s place) (took : s.pc k = .took e) :
    Routed ((s.setEnqueued (s.waiter e) false).setPc k (.call e)) now ls ps := by
  have holds : (s.pc k).holds := by rw [took]; rfl
  have free := fun j => Routed.other_free (j := j) single (Pc.busy_of_holds holds)
  have hand := h.hand k holds
  rw [took] at hand
  refine ⟨h.pending, fun j holds' => ?_, fun j holds' => ?_, fun idle => ?_, h.order, h.numbered,
    h.work, fun w set => ?_⟩
  · by_cases same : j = k
    · exact same ▸ h.batch k holds
    · simp [State.setEnqueued, State.setPc, same, free j same] at holds'
  · by_cases same : j = k
    · simpa [State.setPc, same, Pc.hand] using hand
    · simp [State.setEnqueued, State.setPc, same, free j same] at holds'
  · simpa [State.setPc, Pc.holds] using idle k
  · -- the flag of the waiter in hand is down, every other one has its entry still
    have old : w ≠ s.waiter e := by
      rintro rfl
      simp [State.setEnqueued, State.setPc] at set
    obtain ⟨x, place, same⟩ :=
      h.enqueued w (by simpa [State.setEnqueued, State.setPc, old] using set)
    refine ⟨x, place.imp id (Or.imp id fun inHand => ?_), same⟩
    obtain ⟨j, tookx⟩ := inHand
    by_cases other : j = k
    · rw [other, took] at tookx
      exact (old (Pc.took.inj tookx ▸ same.symm)).elim
    · have := free j other
      rw [tookx] at this
      cases this

theorem Routed.run [DecidableEq O] {k e : Nat} (h : Routed s now ls ps) (single : Single s place)
    (call : s.pc k = .call e) :
    now = [e] ∧ Routed ({ s with ran := s.ran ++ [e] }.setPc k (.inCall e)) [] ls ps := by
  have holds : (s.pc k).holds := by rw [call]; rfl
  have free := fun j => Routed.other_free (j := j) single (Pc.busy_of_holds holds)
  obtain rfl : now = [e] := by rw [← h.hand k holds, call]; rfl
  refine ⟨rfl, h.pending, fun j holds' => ?_, fun j holds' => ?_, fun idle => ?_, ?_, h.numbered,
    fun _ => h.work (by simp), fun w set => ?_⟩
  · by_cases same : j = k
    · exact same ▸ h.batch k holds
    · simp [State.setPc, same, free j same] at holds'
  · by_cases same : j = k
    · simp [State.setPc, same, Pc.hand]
    · simp [State.setPc, same, free j same] at holds'
  · simpa [State.setPc, Pc.holds] using idle k
  · simpa [State.setPc] using h.order
  · obtain ⟨x, place, same⟩ := h.enqueued w set
    refine ⟨x, place.imp id (Or.imp id (Exists.imp fun j took => ?_)), same⟩
    have other : j ≠ k := by
      rintro rfl
      rw [call] at took
      cases took
    simpa [State.setPc, other] using took

/-! ## Entries that are due -/

/-- Entries are numbered as they come, so an entry is to be run while its number is
not below the count of the runs. -/
def Due (e : Nat) (s : State W O P) : Prop := s.ran.length ≤ e ∧ e < s.accepted.length

theorem Routed.ran_range (h : Routed s now ls ps) : s.ran = List.range s.ran.length := by
  have whole := h.numbered
  rw [h.order, List.append_assoc, List.append_assoc] at whole
  have start := congrArg (List.take s.ran.length) whole
  rw [List.take_left, List.take_range, List.length_append, Nat.min_eq_left (Nat.le_add_right _ _)]
    at start
  exact start

theorem Routed.due (h : Routed s now ls ps) {e : Nat} :
    Due e s ↔ e ∈ s.accepted ∧ e ∉ s.ran := by
  rw [Due, h.ran_range, h.numbered, List.mem_range, List.mem_range, List.length_range,
    List.length_range, Nat.not_lt, and_comm]

theorem Routed.due_mem (h : Routed s now ls ps) {e : Nat} (due : Due e s) :
    e ∈ now ++ ls ++ ps := by
  obtain ⟨accepted, ran⟩ := h.due.mp due
  rw [h.order, List.append_assoc, List.append_assoc, List.mem_append] at accepted
  rw [List.append_assoc]
  exact accepted.resolve_left ran

theorem Routed.due_of_mem (h : Routed s now ls ps) {e : Nat} (mem : e ∈ now ++ ls ++ ps) :
    Due e s := by
  have nodup := h.nodup
  rw [List.append_assoc, List.append_assoc, ← List.append_assoc now, List.nodup_append] at nodup
  refine h.due.mpr ⟨?_, fun ran => nodup.2.2 e ran e mem rfl⟩
  rw [h.order, List.append_assoc, List.append_assoc, ← List.append_assoc now]
  exact List.mem_append_right _ mem

/-! ## Every step -/

variable [DecidableEq O] [DecidableEq W] [DecidableEq P] {magicOk funcOk : W → Bool}

omit [DecidableEq O] in
theorem Routed.post (h : Routed s now ls ps) (p : P) (w : W) :
    ∃ ps', Routed (postLocked s p w) now ls ps' := by
  unfold postLocked
  cases enqueued : s.callbackEnqueued w with
  | true => exact ⟨ps, h⟩
  | false =>
      refine ⟨ps ++ [s.accepted.length], ?_⟩
      cases running : s.running with
      | true =>
          simp only [Bool.false_eq_true, if_false, CallbackWq.link, State.setEnqueued, running,
            if_true]
          exact h.link _ rfl rfl rfl rfl rfl rfl rfl rfl
      | false =>
          simp only [Bool.false_eq_true, if_false, CallbackWq.link, State.setEnqueued, running]
          exact h.link _ rfl rfl rfl rfl rfl rfl rfl rfl

theorem Routed.step {a : Action W O P} (h : Routed s now ls ps) (single : Single s place)
    (valid : ∀ w, magicOk w = true ∧ funcOk w = true)
    (run : step magicOk funcOk s a = some t) : ∃ now' ls' ps', Routed t now' ls' ps' := by
  cases a with
  | post p w =>
      simp only [CallbackWq.step, Option.ite_none_right_eq_some, (valid w).1, if_true,
        Option.some.injEq] at run
      obtain ⟨-, rfl⟩ := run
      obtain ⟨ps', after⟩ := h.post p w
      exact ⟨now, ls, ps', after⟩
  | schedule p =>
      simp only [CallbackWq.step, Option.ite_none_right_eq_some, Option.some.injEq] at run
      obtain ⟨-, rfl⟩ := run
      exact ⟨now, ls, ps, h.same rfl (fun _ => ⟨rfl, rfl, fun _ => id⟩) rfl rfl rfl rfl rfl⟩
  | postOther o =>
      simp only [CallbackWq.step, Option.some.injEq] at run
      subst run
      exact ⟨now, ls, ps, h.same rfl (fun _ => ⟨rfl, rfl, fun _ => id⟩) rfl rfl rfl rfl rfl⟩
  | workOnce =>
      simp only [CallbackWq.step] at run
      split at run
      · cases run
      · rw [Option.some.injEq] at run
        subst run
        exact ⟨now, ls, ps, h.same rfl (fun _ => ⟨rfl, rfl, fun _ => id⟩) rfl rfl rfl rfl rfl⟩
      · rw [Option.some.injEq] at run
        subst run
        have fresh := single.later s.drains le_rfl
        refine ⟨now, ls, ps, h.same rfl (fun k => ?_) rfl rfl rfl rfl rfl⟩
        grind -linarith [State.setPc, Pc.holds, Pc.hand]
  | drain k =>
      simp only [CallbackWq.step, Option.ite_none_right_eq_some, Option.some.injEq] at run
      obtain ⟨popped, rfl⟩ := run
      refine ⟨now, ls, ps, h.same rfl (fun j => ?_) rfl rfl rfl rfl rfl⟩
      grind -linarith [State.setPc, Pc.holds, Pc.hand]
  | takeBatch k =>
      simp only [CallbackWq.step, Option.ite_none_right_eq_some, Option.some.injEq] at run
      obtain ⟨loop, rfl⟩ := run
      unfold drainLocked
      cases empty : listEmpty s.ring .pending with
      | true => exact ⟨_, _, _, h.stop single loop empty⟩
      | false =>
          rw [h.not_corrupted]
          exact ⟨_, _, _, h.steal single loop empty⟩
  | next k =>
      simp only [CallbackWq.step, Option.ite_none_right_eq_some] at run
      obtain ⟨batch, run⟩ := run
      have linked := h.batch k (by rw [batch]; rfl)
      cases empty : listEmpty s.ring (.loc k) with
      | true =>
          rw [empty, if_pos rfl, Option.some.injEq] at run
          exact ⟨_, _, _, run ▸ h.batch_over batch single empty⟩
      | false =>
          rw [empty, if_neg Bool.false_ne_true] at run
          cases ls with
          | nil =>
              rw [(listEmpty_iff linked).mpr rfl] at empty
              cases empty
          | cons e rest =>
              rw [linked.first.1, Option.some.injEq] at run
              exact ⟨_, _, _, run ▸ h.take single batch⟩
  | storeEnqueued k =>
      simp only [CallbackWq.step] at run
      split at run
      · rename_i e took
        simp only [(valid _).1, (valid _).2, Bool.and_self, if_true, Option.some.injEq] at run
        exact ⟨_, _, _, run ▸ h.store single took⟩
      · cases run
  | callFunc k =>
      simp only [CallbackWq.step] at run
      split at run
      · rename_i e call
        rw [Option.some.injEq] at run
        exact ⟨_, _, _, run ▸ (h.run single call).2⟩
      · cases run
  | ret k =>
      simp only [CallbackWq.step] at run
      split at run
      · rename_i e call
        rw [Option.some.injEq] at run
        subst run
        refine ⟨now, ls, ps, h.same rfl (fun j => ?_) rfl rfl rfl rfl rfl⟩
        grind -linarith [State.setPc, Pc.holds, Pc.hand]
      · cases run
  | resetGuard k =>
      simp only [CallbackWq.step, Option.ite_none_right_eq_some, Option.some.injEq] at run
      obtain ⟨exit, rfl⟩ := run
      refine ⟨now, ls, ps, h.same rfl (fun j => ?_) rfl rfl rfl rfl rfl⟩
      grind -linarith [State.setPc, Pc.holds, Pc.hand]

theorem Routed.via {ok : State W O P → Action W O P → Prop}
    (valid : ∀ w, magicOk w = true ∧ funcOk w = true)
    (run : (machine magicOk funcOk).Via ok s) : ∃ now ls ps, Routed s now ls ps := by
  refine run.invariant_reach (I := fun s => ∃ now ls ps, Routed s now ls ps) (fun s start => ?_)
    fun s a t before routed _ step => ?_
  · exact ⟨[], [], [], Routed.init start⟩
  · obtain ⟨now, ls, ps, h⟩ := routed
    obtain ⟨place, single⟩ := Single.via before
    exact h.step single valid step

end CoWq.CallbackWq
