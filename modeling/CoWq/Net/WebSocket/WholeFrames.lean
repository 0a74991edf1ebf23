import CoWq.Net.WebSocket.Writers

/-!
# Frames stay whole when their writers take turns

* `Ordered`: over runs that meet `Alone`, the operations on the slot are the calls
  in the order they began, each with its payload right behind its header.
* `wire_of_alone`: the wire is a prefix of the whole frames of the calls that did
  not fail; once every call has returned it is these frames, and a reader gets
  exactly them back.
* `torn_frames`: two calls whose headers are enqueued one behind the other.
-/

namespace CoWq.WebSocket

open IoSerial (Phase late)

variable {C : Type*} [DecidableEq C] {calls : C → Call} {s t : State C}

/-- The operations of a call among those enqueued. -/
def ops (enqueued : List (C × Part)) (c : C) : List (C × Part) :=
  (c, .header) :: if (c, .body) ∈ enqueued then [(c, .body)] else []

/-- The calls in the order they began, each with its payload behind its header; only
the last one can lack it, and an operation that ended early is a failed header. -/
structure Ordered (calls : C → Call) (s : State C) : Prop where
  enqueued : s.io.calls = s.begun.flatMap (ops s.io.calls)
  nodup : s.begun.Nodup
  mid : ∀ c, Mid calls s c → ∃ before, s.begun = before ++ [c]
  body : ∀ c, (c, .body) ∈ s.io.calls →
    late (s.io.phase (c, .header)) ∧ (calls c).payload ≠ [] ∧ ¬ Failed s c
  complete : ∀ a, late (s.io.phase a) →
    s.sent a = (buf calls a).length ∨ (a.2 = .header ∧ Failed s a.1)
  failed : ∀ a, s.err a → late (s.io.phase a) ∧ a.2 = .header ∧ s.sent a = 0

theorem Ordered.header_mem (h : Ordered calls s) (c : C) :
    (c, .header) ∈ s.io.calls ↔ c ∈ s.begun := by
  rw [h.enqueued, List.mem_flatMap]
  constructor
  · rintro ⟨d, mem, inOps⟩
    rw [ops, List.mem_cons] at inOps
    rcases inOps with same | body
    · exact (Prod.mk.inj same).1 ▸ mem
    · split at body
      · simp at body
      · cases body
  · exact fun mem => ⟨c, mem, List.mem_cons_self⟩

theorem Ordered.body_begun (h : Ordered calls s) {c : C} (mem : (c, .body) ∈ s.io.calls) :
    c ∈ s.begun := by
  rw [h.enqueued, List.mem_flatMap] at mem
  obtain ⟨d, begun, inOps⟩ := mem
  rw [ops, List.mem_cons] at inOps
  rcases inOps with same | body
  · cases same
  · split at body
    · exact (Prod.mk.inj (List.mem_singleton.mp body)).1 ▸ begun
    · cases body

/-- A step of the slot that enqueues nothing, ends nothing and takes no bytes. -/
theorem Ordered.slot {act : IoSerial.Action (C × Part)} {io : IoSerial.State (C × Part)}
    (h : Ordered calls s) (placed : IoSerial.Placed s.io) (fifo : IoSerial.Fifo s.io)
    (slot : IoSerial.step s.io act = some io) (enqueues : ∀ x, act ≠ .awaitSuspend x)
    (ends : ∀ x, act ≠ .attemptOnce x .done) : Ordered calls { s with io := io } := by
  have same := IoSerial.calls_step slot enqueues
  have stays : ∀ x, late (io.phase x) = late (s.io.phase x) := fun x =>
    IoSerial.late_step placed slot x (fifo.owned placed x) (ends x)
  refine ⟨?_, h.nodup, fun c mid => ?_, fun c mem => ?_, fun a ended => ?_, fun a err => ?_⟩
  · rw [same]
    exact h.enqueued
  · rw [Mid, same] at mid
    exact h.mid c mid
  · rw [same] at mem
    obtain ⟨ended, rest⟩ := h.body c mem
    exact ⟨by rw [stays]; exact ended, rest⟩
  · rw [stays] at ended
    exact h.complete a ended
  · obtain ⟨ended, rest⟩ := h.failed a err
    exact ⟨by rw [stays]; exact ended, rest⟩

theorem Ordered.sendFrame {c : C} {io : IoSerial.State (C × Part)} (h : Ordered calls s)
    (placed : IoSerial.Placed s.io) (fifo : IoSerial.Fifo s.io)
    (slot : IoSerial.step s.io (.awaitSuspend (c, .header)) = some io)
    (alone : ∀ d ∈ s.begun, ¬ Mid calls s d) :
    Ordered calls { s with io := io, begun := s.begun ++ [c] } := by
  obtain ⟨fresh, enqueued, -⟩ := IoSerial.awaitSuspend_slot slot
  have new : c ∉ s.begun := fun mem =>
    (placed.recorded.called _).mp fresh ((h.header_mem c).mpr mem)
  have stays : ∀ x, late (io.phase x) = late (s.io.phase x) := fun x =>
    IoSerial.late_step placed slot x (fifo.owned placed x) (by simp)
  have body : ∀ d, (d, .body) ∈ io.calls ↔ (d, .body) ∈ s.io.calls := by simp [enqueued]
  refine ⟨?_, ?_, fun d mid => ?_, fun d mem => ?_, fun a ended => ?_, fun a err => ?_⟩
  · have first : ops io.calls c = [(c, .header)] := by
      rw [ops, if_neg]
      exact fun mem => new (h.body_begun ((body c).mp mem))
    have others : ∀ d ∈ s.begun, ops s.io.calls d = ops io.calls d := by
      intro d _
      simp only [ops, body]
    dsimp only
    rw [List.flatMap_append, List.flatMap_singleton, first, ← List.flatMap_congr others,
      ← h.enqueued,
      enqueued]
  · exact List.nodup_append.mpr ⟨h.nodup, List.nodup_singleton c, by
      intro x mem y mem'
      rw [List.mem_singleton.mp mem']
      exact fun same => new (same ▸ mem)⟩
  · -- nobody else was between its operations
    obtain ⟨header, noBody, payload, kept⟩ := mid
    rw [enqueued, List.mem_append, List.mem_singleton] at header
    rcases header with before | same
    · exact (alone d ((h.header_mem d).mp before)
        ⟨before, fun mem => noBody ((body d).mpr mem), payload, kept⟩).elim
    · exact ⟨s.begun, by rw [(Prod.mk.inj same).1]⟩
  · obtain ⟨ended, rest⟩ := h.body d ((body d).mp mem)
    exact ⟨by rw [stays]; exact ended, rest⟩
  · rw [stays] at ended
    exact h.complete a ended
  · obtain ⟨ended, rest⟩ := h.failed a err
    exact ⟨by rw [stays]; exact ended, rest⟩

theorem Ordered.sendBody {c : C} {io : IoSerial.State (C × Part)} (h : Ordered calls s)
    (placed : IoSerial.Placed s.io) (fifo : IoSerial.Fifo s.io)
    (slot : IoSerial.step s.io (.awaitSuspend (c, .body)) = some io)
    (resumed : s.io.phase (c, .header) = .resumed) (kept : ¬ Failed s c)
    (payload : (calls c).payload ≠ []) : Ordered calls { s with io := io } := by
  obtain ⟨fresh, enqueued, -⟩ := IoSerial.awaitSuspend_slot slot
  have stays : ∀ x, late (io.phase x) = late (s.io.phase x) := fun x =>
    IoSerial.late_step placed slot x (fifo.owned placed x) (by simp)
  have new : (c, Part.body) ∉ s.io.calls := (placed.recorded.called _).mp fresh
  have header : (c, Part.header) ∈ s.io.calls := by
    by_contra out
    rw [(placed.recorded.called _).mpr out] at resumed
    cases resumed
  obtain ⟨before, begun⟩ := h.mid c ⟨header, new, payload, kept⟩
  have nodup := h.nodup
  rw [begun, List.nodup_append] at nodup
  have ended : late (s.io.phase (c, .header)) := by rw [resumed]; rfl
  refine ⟨?_, h.nodup, fun d mid => ?_, fun d mem => ?_, fun a late' => ?_, fun a err => ?_⟩
  · have others : ∀ d ∈ before, ops s.io.calls d = ops io.calls d := by
      intro d mem
      have ne : d ≠ c := nodup.2.2 d mem c (List.mem_singleton_self c)
      simp [ops, enqueued, ne]
    have was : ops s.io.calls c = [(c, .header)] := by rw [ops, if_neg new]
    have now : ops io.calls c = [(c, .header), (c, .body)] := by
      rw [ops, if_pos (by simp [enqueued])]
    have split := h.enqueued
    rw [begun, List.flatMap_append, List.flatMap_singleton, was] at split
    have whole : io.calls = s.begun.flatMap (ops io.calls) :=
      calc io.calls = s.io.calls ++ [(c, .body)] := enqueued
        _ = before.flatMap (ops s.io.calls) ++ [(c, .header)] ++ [(c, .body)] :=
          congrArg (· ++ [(c, Part.body)]) split
        _ = before.flatMap (ops io.calls) ++ ops io.calls c := by
          rw [List.flatMap_congr others, now, List.append_assoc, List.singleton_append]
        _ = s.begun.flatMap (ops io.calls) := by
          rw [begun, List.flatMap_append, List.flatMap_singleton]
    exact whole
  · obtain ⟨header', noBody, payload', kept'⟩ := mid
    rw [enqueued, List.mem_append, not_or, List.mem_singleton] at noBody
    rw [enqueued, List.mem_append, List.mem_singleton] at header'
    have before' := header'.resolve_right (by simp)
    exact h.mid d ⟨before', noBody.1, payload', kept'⟩
  · rw [enqueued, List.mem_append, List.mem_singleton] at mem
    rcases mem with before' | same
    · obtain ⟨ended', rest⟩ := h.body d before'
      exact ⟨by rw [stays]; exact ended', rest⟩
    · obtain rfl : d = c := (Prod.mk.inj same).1
      exact ⟨by rw [stays]; exact ended, payload, kept⟩
  · rw [stays] at late'
    exact h.complete a late'
  · obtain ⟨ended', rest⟩ := h.failed a err
    exact ⟨by rw [stays]; exact ended', rest⟩

/-- The kernel takes bytes of an operation that has not ended. -/
theorem Ordered.kernelSend {a : C × Part} {n : Nat} {wire : List UInt8} (h : Ordered calls s)
    (place : s.io.phase a = .running) :
    Ordered calls { s with
      wire := wire, sent := fun x => if x = a then s.sent a + n else s.sent x } := by
  have going : late (s.io.phase a) = false := by rw [place]; rfl
  have same : ∀ x, late (s.io.phase x) →
      (if x = a then s.sent a + n else s.sent x) = s.sent x := by
    intro x ended
    rw [if_neg]
    rintro rfl
    rw [going] at ended
    cases ended
  have failed : ∀ c, Failed { s with
      wire := wire, sent := fun x => if x = a then s.sent a + n else s.sent x } c ↔
        Failed s c := by
    intro c
    constructor
    · rintro ⟨err, zero⟩
      exact ⟨err, (same _ (h.failed _ err).1) ▸ zero⟩
    · rintro ⟨err, zero⟩
      exact ⟨err, (same _ (h.failed _ err).1).trans zero⟩
  refine ⟨h.enqueued, h.nodup, fun c mid => ?_, fun c mem => ?_, fun x ended => ?_, fun x err => ?_⟩
  · rw [Mid, failed] at mid
    exact h.mid c mid
  · rw [failed]
    exact h.body c mem
  · rw [failed]
    dsimp only
    rw [same x ended]
    exact h.complete x ended
  · obtain ⟨ended, rest⟩ := h.failed x err
    dsimp only
    rw [same x ended]
    exact ⟨ended, rest⟩

/-- An operation ends, with everything sent or as a header that failed. -/
theorem Ordered.ended {a : C × Part} {io : IoSerial.State (C × Part)} {err : C × Part → Bool}
    (h : Ordered calls s) (placed : IoSerial.Placed s.io) (fifo : IoSerial.Fifo s.io)
    (slot : IoSerial.step s.io (.attemptOnce a .done) = some io)
    (others : ∀ x, x ≠ a → err x = s.err x)
    (how : s.sent a = (buf calls a).length ∧ err a = s.err a ∨
      a.2 = .header ∧ err a = true ∧ s.sent a = 0) :
    Ordered calls { s with io := io, err := err } := by
  have calls' := IoSerial.calls_step slot (by simp)
  have running : s.io.phase a = .running := by
    simp only [IoSerial.step, Option.ite_none_right_eq_some] at slot
    exact slot.1
  have going : late (s.io.phase a) = false := by rw [running]; rfl
  have after : late (io.phase a) := by
    simp only [IoSerial.step, Option.ite_none_right_eq_some, Option.some.injEq] at slot
    rw [← slot.2]
    simp [IoSerial.State.setPhase, late]
  have stays : ∀ x, x ≠ a → late (io.phase x) = late (s.io.phase x) := fun x ne =>
    IoSerial.late_step placed slot x (fifo.owned placed x) (by simpa using ne.symm)
  have quiet : s.err a = false := by
    cases err' : s.err a with
    | false => rfl
    | true =>
        have ended := (h.failed a err').1
        rw [going] at ended
        cases ended
  have grows : ∀ c, Failed s c → Failed { s with io := io, err := err } c := by
    rintro c ⟨err', zero⟩
    have ne : (c, Part.header) ≠ a := by
      rintro rfl
      rw [quiet] at err'
      cases err'
    exact ⟨(others _ ne).trans err', zero⟩
  have only : ∀ c, (c, Part.header) ≠ a → Failed { s with io := io, err := err } c → Failed s c :=
    fun c ne failed => ⟨(others _ ne) ▸ failed.1, failed.2⟩
  refine ⟨?_, h.nodup, fun c mid => ?_, fun c mem => ?_, fun x ended => ?_, fun x err' => ?_⟩
  · rw [calls']
    exact h.enqueued
  · obtain ⟨header, body, payload, kept⟩ := mid
    rw [calls'] at header body
    exact h.mid c ⟨header, body, payload, fun failed => kept (grows c failed)⟩
  · rw [calls'] at mem
    obtain ⟨ended, payload, kept⟩ := h.body c mem
    have ne : (c, Part.header) ≠ a := by
      rintro rfl
      rw [going] at ended
      cases ended
    exact ⟨by rw [stays _ ne]; exact ended, payload, fun failed => kept (only c ne failed)⟩
  · by_cases same : x = a
    · subst same
      rcases how with ⟨all, -⟩ | ⟨header, failed, zero⟩
      · exact .inl all
      · refine .inr ⟨header, ?_⟩
        have pair : (x.1, Part.header) = x := by rw [← header]
        exact ⟨by rw [pair]; exact failed, by rw [pair]; exact zero⟩
    · rw [stays x same] at ended
      exact (h.complete x ended).imp id (And.imp_right (grows x.1))
  · by_cases same : x = a
    · subst same
      rcases how with ⟨-, kept⟩ | ⟨header, -, zero⟩
      · dsimp only at err'
        rw [kept, quiet] at err'
        cases err'
      · exact ⟨after, header, zero⟩
    · obtain ⟨ended, rest⟩ := h.failed x ((others x same) ▸ err')
      exact ⟨by rw [stays x same]; exact ended, rest⟩

theorem Ordered.step {a : Action C} (h : Ordered calls s) (placed : IoSerial.Placed s.io)
    (fifo : IoSerial.Fifo s.io) (alone : Alone calls s a) (run : step calls s a = some t) :
    Ordered calls t := by
  cases a with
  | sendFrame c =>
      obtain ⟨io, slot, rfl⟩ := Option.map_eq_some_iff.mp run
      exact h.sendFrame placed fifo slot alone
  | sendBody c =>
      simp only [WebSocket.step, Option.ite_none_right_eq_some] at run
      obtain ⟨⟨resumed, kept, payload⟩, run⟩ := run
      obtain ⟨io, slot, rfl⟩ := Option.map_eq_some_iff.mp run
      exact h.sendBody placed fifo slot resumed kept payload
  | kernelSend a n =>
      simp only [WebSocket.step, Option.ite_none_right_eq_some, Option.some.injEq] at run
      obtain ⟨⟨place, -, -⟩, rfl⟩ := run
      exact h.kernelSend place
  | kernelStop a err =>
      simp only [WebSocket.step, Option.ite_none_right_eq_some] at run
      obtain ⟨io, slot, rfl⟩ := Option.map_eq_some_iff.mp run.2
      obtain ⟨header, rfl, zero⟩ := alone
      exact h.ended placed fifo slot (fun x ne => if_neg ne) (.inr ⟨header, if_pos rfl, zero⟩)
  | kernelAgain a =>
      simp only [WebSocket.step, Option.ite_none_right_eq_some] at run
      obtain ⟨io, slot, rfl⟩ := Option.map_eq_some_iff.mp run.2
      exact h.slot placed fifo slot (by simp) (by simp)
  | sentAll a =>
      simp only [WebSocket.step, Option.ite_none_right_eq_some] at run
      obtain ⟨all, run⟩ := run
      obtain ⟨io, slot, rfl⟩ := Option.map_eq_some_iff.mp run
      exact h.ended placed fifo slot (fun _ _ => rfl) (.inl ⟨all, rfl⟩)
  | io act =>
      simp only [WebSocket.step, Option.ite_none_right_eq_some] at run
      obtain ⟨quiet, run⟩ := run
      obtain ⟨io, slot, rfl⟩ := Option.map_eq_some_iff.mp run
      refine h.slot placed fifo slot (fun x same => ?_) (fun x same => ?_) <;>
        · rw [same] at quiet
          cases quiet

theorem Ordered.via (run : (machine calls).Via (Alone calls) s) : Ordered calls s := by
  refine run.invariant_reach (fun s start => ?_) fun s a t before h alone step =>
    h.step (IoSerial.Placed.via (io_via before)) (IoSerial.Fifo.via (io_via before)) alone step
  obtain ⟨⟨-, -, -, -, -, phase, -, -, io, -⟩, -, -, err, begun⟩ := start
  constructor <;> simp [io, begun, phase, late, err, Mid]

/-! ## Whole frames -/

/-- What an operation puts on the wire in the end: a failed header nothing, any other
operation its buffer. -/
def full (calls : C → Call) (s : State C) (a : C × Part) : List UInt8 :=
  if a.2 = .header ∧ Failed s a.1 then [] else buf calls a

/-- The calls that did not fail, in the order they began. -/
def succeeded (s : State C) : List C := s.begun.filter fun c => ¬ Failed s c

omit [DecidableEq C] in
theorem piece_prefix (a : C × Part) :
    piece calls s.sent a <+: full calls s a := by
  rw [full]
  split
  · rename_i gone
    have pair : (a.1, Part.header) = a := by rw [← gone.1]
    have zero : s.sent a = 0 := pair ▸ gone.2.2
    rewrite [piece, zero, List.take_zero]
    exact List.prefix_rfl
  · exact List.take_prefix _ _

theorem Ordered.piece_full (h : Ordered calls s) {a : C × Part} (ended : late (s.io.phase a)) :
    piece calls s.sent a = full calls s a := by
  rcases h.complete a ended with all | ⟨header, failed⟩
  · by_cases gone : a.2 = .header ∧ Failed s a.1
    · have pair : (a.1, Part.header) = a := by rw [← gone.1]
      have zero : s.sent a = 0 := pair ▸ gone.2.2
      rw [full, if_pos gone, piece, zero, List.take_zero]
    · rw [full, if_neg gone, piece, all, List.take_length]
  · have pair : (a.1, Part.header) = a := by rw [← header]
    have zero : s.sent a = 0 := pair ▸ failed.2
    rw [full, if_pos ⟨header, failed⟩, piece, zero, List.take_zero]

/-- The operations of a call that is not between them make up its frame. -/
theorem Ordered.ops_full (h : Ordered calls s) {c : C} (begun : c ∈ s.begun)
    (done : ¬ Mid calls s c) :
    (ops s.io.calls c).flatMap (full calls s) =
      if Failed s c then [] else (calls c).frame := by
  have header : full calls s (c, .header) = if Failed s c then [] else (calls c).header := by
    simp [full, buf]
  have body : full calls s (c, .body) = (calls c).body := by simp [full, buf]
  by_cases enqueued : (c, Part.body) ∈ s.io.calls
  · have kept := (h.body c enqueued).2.2
    rw [ops, if_pos enqueued, List.flatMap_cons, List.flatMap_singleton, header, body, if_neg kept,
      if_neg kept]
    rfl
  · rw [ops, if_neg enqueued, List.flatMap_singleton, header]
    by_cases failed : Failed s c
    · rw [if_pos failed, if_pos failed]
    · have empty : (calls c).payload = [] := by
        by_contra payload
        exact done ⟨(h.header_mem c).mpr begun, enqueued, payload, failed⟩
      rw [if_neg failed, if_neg failed, Call.frame, Call.body, empty]
      simp [frameBody, applyMask]

/-- What a call has enqueued starts its frame. -/
theorem ops_prefix (c : C) :
    (ops s.io.calls c).flatMap (full calls s) <+:
      if Failed s c then (ops s.io.calls c).flatMap (full calls s) else (calls c).frame := by
  by_cases failed : Failed s c
  · rewrite [if_pos failed]
    exact List.prefix_rfl
  · rw [if_neg failed, ops, Call.frame]
    have header : full calls s (c, .header) = (calls c).header := by simp [full, buf, failed]
    have body : full calls s (c, .body) = (calls c).body := by simp [full, buf]
    split
    · rewrite [List.flatMap_cons, List.flatMap_singleton, header, body]
      exact List.prefix_rfl
    · rw [List.flatMap_singleton, header]
      exact List.prefix_append _ _

/-- Two ways to spell out a list that differ in the last element only. -/
theorem flatMap_prefix {α β : Type*} {l : List α} {f g : α → List β}
    (start : ∀ a ∈ l, f a <+: g a)
    (same : ∀ before a, l = before ++ [a] → ∀ x ∈ before, f x = g x) :
    l.flatMap f <+: l.flatMap g := by
  rcases List.eq_nil_or_concat l with rfl | ⟨before, a, rfl⟩
  · exact List.prefix_rfl
  · rw [List.concat_eq_append] at start same ⊢
    rw [List.flatMap_append, List.flatMap_append, List.flatMap_congr (same before a rfl),
      List.flatMap_singleton, List.flatMap_singleton]
    exact (List.prefix_append_right_inj _).mpr (start a (by simp))

theorem flatMap_filter {α β : Type*} (l : List α) (p : α → Prop) [DecidablePred p]
    (f : α → List β) :
    l.flatMap (fun a => if p a then [] else f a) = (l.filter fun a => ¬ p a).flatMap f := by
  induction l with
  | nil => rfl
  | cons a l ih =>
      by_cases out : p a
      · rw [List.flatMap_cons, if_pos out, ih, List.filter_cons_of_neg (by simpa using out)]
        rfl
      · rw [List.flatMap_cons, if_neg out, ih, List.filter_cons_of_pos (by simpa using out),
          List.flatMap_cons]

/-- Everything on the wire is the start of whole frames. -/
theorem Ordered.wire_prefix (h : Ordered calls s) (wired : Wired calls s)
    (placed : IoSerial.Placed s.io) (fifo : IoSerial.Fifo s.io) :
    s.wire <+: (succeeded s).flatMap fun c => (calls c).frame := by
  have released : ∀ a ∈ s.io.releases, late (s.io.phase a) := by
    intro a mem
    have behind := (placed.recorded.past a mem).2
    cases place : s.io.phase a <;> rw [place] at behind <;> first | rfl | cases behind
  have granted : s.wire <+: s.io.grants.flatMap (full calls s) := by
    rw [wired.wire]
    refine flatMap_prefix (fun a _ => piece_prefix a) fun before a last x mem => ?_
    refine h.piece_full (released x ?_)
    cases locked : s.io.locked with
    | false => exact (fifo.free locked).1 ▸ last ▸ List.mem_append_left _ mem
    | true =>
        obtain ⟨b, last'⟩ := fifo.taken locked
        have same : before = s.io.releases := (List.append_inj' (last.symm.trans last') rfl).1
        exact same ▸ mem
  have enqueued : s.io.grants.flatMap (full calls s) <+: s.io.calls.flatMap (full calls s) := by
    rw [← fifo.order, List.flatMap_append]
    exact List.prefix_append _ _
  refine (granted.trans enqueued).trans ?_
  rw [succeeded, ← flatMap_filter, h.enqueued, List.flatMap_assoc]
  refine flatMap_prefix (fun c mem => ?_) fun before c last x mem => ?_
  · by_cases failed : Failed s c
    · rewrite [h.ops_full mem (fun mid => mid.2.2.2 failed), if_pos failed]
      exact List.prefix_rfl
    · have start : (ops s.io.calls c).flatMap (full calls s) <+: _ := ops_prefix c
      rwa [if_neg failed] at start ⊢
  · refine h.ops_full (last ▸ List.mem_append_left _ mem) fun mid => ?_
    -- only the last call can be between its operations
    obtain ⟨before', last'⟩ := h.mid x mid
    obtain ⟨-, same⟩ := List.append_inj' (last.symm.trans last') rfl
    have nodup := h.nodup
    rw [last, List.nodup_append] at nodup
    exact nodup.2.2 x mem c (List.mem_singleton_self c) (List.singleton_inj.mp same).symm

/-- With every call returned, the wire holds whole frames. -/
theorem Ordered.wire_returned (h : Ordered calls s) (wired : Wired calls s)
    (placed : IoSerial.Placed s.io) (fifo : IoSerial.Fifo s.io)
    (returned : ∀ c ∈ s.begun, Returned calls s c) :
    s.wire = (succeeded s).flatMap fun c => (calls c).frame := by
  have resumed : ∀ a ∈ s.io.calls, s.io.phase a = .resumed := by
    rintro ⟨c, part⟩ mem
    cases part with
    | header => exact (returned c ((h.header_mem c).mp mem)).1
    | body =>
        obtain ⟨-, payload, kept⟩ := h.body c mem
        exact ((returned c (h.body_begun mem)).2.resolve_left kept).resolve_left payload
  have nobody : s.io.waiters = [] := by
    refine List.eq_nil_iff_forall_not_mem.mpr fun a mem => ?_
    have called : a ∈ s.io.calls := fifo.order ▸ List.mem_append_right _ mem
    have waits := placed.linked.waiting a mem
    rw [resumed a called] at waits
    cases waits
  have order := fifo.order
  rw [nobody, List.append_nil] at order
  have pieces : ∀ a ∈ s.io.calls, piece calls s.sent a = full calls s a := fun a mem =>
    h.piece_full (by rw [resumed a mem]; rfl)
  have done : ∀ c ∈ s.begun, ¬ Mid calls s c := by
    rintro c mem ⟨-, body, payload, kept⟩
    have last := ((returned c mem).2.resolve_left kept).resolve_left payload
    have fresh := (placed.recorded.called _).mpr body
    rw [last] at fresh
    cases fresh
  calc s.wire = s.io.calls.flatMap (piece calls s.sent) := order ▸ wired.wire
    _ = s.io.calls.flatMap (full calls s) := List.flatMap_congr pieces
    _ = s.begun.flatMap fun c => (ops s.io.calls c).flatMap (full calls s) := by
      conv_lhs => rw [h.enqueued]
      rw [List.flatMap_assoc]
    _ = s.begun.flatMap fun c => if Failed s c then [] else (calls c).frame :=
      List.flatMap_congr fun c mem => h.ops_full mem (done c mem)
    _ = (succeeded s).flatMap fun c => (calls c).frame := flatMap_filter _ _ _

/-! ## The peer -/

/-- The frame a peer that unmasks gets for a call. -/
def Call.received (c : Call) : Frame := sentFrame c.op c.payload c.opts c.random

/-- `read_frame`, called `n` times. -/
def readFrames (readOpts : FrameReadOptions) : Nat → Reader (List Frame)
  | 0 => pure []
  | n + 1 => do
      let first ← readFrame readOpts
      let rest ← readFrames readOpts n
      return first :: rest

theorem readFrames_frames {readOpts : FrameReadOptions} (unmask : readOpts.autoUnmask)
    {cs : List Call} (accepts : ∀ c ∈ cs, Accepts readOpts c.op c.payload c.opts)
    {peer : Inbound UInt8} {rest : List UInt8}
    (here : peer.pending = cs.flatMap Call.frame ++ rest) :
    ∃ peer', readFrames readOpts cs.length peer = (.ok (cs.map Call.received), peer') ∧
      peer'.pending = rest := by
  induction cs generalizing peer with
  | nil => exact ⟨peer, rfl, here⟩
  | cons c cs ih =>
      rw [List.flatMap_cons, List.append_assoc] at here
      obtain ⟨peer₁, first, here₁⟩ :=
        readFrame_frameBytes c.random (accepts c List.mem_cons_self) (fun _ => unmask) here
      obtain ⟨peer₂, others, here₂⟩ :=
        ih (fun d mem => accepts d (List.mem_cons_of_mem _ mem)) here₁
      refine ⟨peer₂, ?_, here₂⟩
      simp only [List.length_cons, readFrames, bind, ExceptT.bind, ExceptT.mk, StateT.bind,
        ExceptT.bindCont, first, others, List.map_cons]
      rfl

/-- **Writers that take turns do not tear each other's frames.**  When a call starts
only while no other one is between its header and its payload, and no operation
fails behind the first byte of a frame, the wire is at any time the start of whole
frames; with every call returned, it is the frames of the calls that did not fail,
one for each, and a peer that accepts them reads exactly these. -/
theorem wire_of_alone (run : (machine calls).Via (Alone calls) s) :
    s.wire <+: ((succeeded s).flatMap fun c => (calls c).frame) ∧ (succeeded s).Nodup ∧
      ((∀ c ∈ s.begun, Returned calls s c) →
        s.wire = ((succeeded s).flatMap fun c => (calls c).frame) ∧
        ∀ readOpts : FrameReadOptions, readOpts.autoUnmask →
          (∀ c ∈ succeeded s, Accepts readOpts (calls c).op (calls c).payload (calls c).opts) →
          ∀ peer : Inbound UInt8, peer.pending = s.wire →
          ∃ peer', (readFrames readOpts (succeeded s).length).run peer =
              (.ok ((succeeded s).map fun c => (calls c).received), peer') ∧
            peer'.pending = []) := by
  have h := Ordered.via run
  have wired := Wired.via run
  have placed := IoSerial.Placed.via (io_via run)
  have fifo := IoSerial.Fifo.via (io_via run)
  refine ⟨h.wire_prefix wired placed fifo, h.nodup.filter _, fun returned => ?_⟩
  have whole := h.wire_returned wired placed fifo returned
  refine ⟨whole, fun readOpts unmask accepts peer pending => ?_⟩
  have here : peer.pending = ((succeeded s).map calls).flatMap Call.frame ++ [] := by
    rw [pending, whole, List.append_nil, List.flatMap_map]
  have accepts' : ∀ c ∈ (succeeded s).map calls, Accepts readOpts c.op c.payload c.opts := by
    intro c mem
    obtain ⟨d, inList, rfl⟩ := List.mem_map.mp mem
    exact accepts d inList
  obtain ⟨peer', read, empty⟩ := readFrames_frames unmask accepts' here
  rw [List.length_map, List.map_map] at read
  exact ⟨peer', read, empty⟩

/-! ## Runs -/

instance (s : State C) (c : C) : Decidable (Returned calls s c) :=
  inferInstanceAs (Decidable (_ ∧ _))

instance (s : State C) (a : Action C) : Decidable (Alone calls s a) :=
  match a with
  | .sendFrame _ => inferInstanceAs (Decidable (∀ d ∈ s.begun, ¬ Mid calls s d))
  | .kernelStop a err => inferInstanceAs (Decidable (a.2 = .header ∧ err = true ∧ s.sent a = 0))
  | .sendBody _ => .isTrue trivial
  | .kernelSend _ _ => .isTrue trivial
  | .kernelAgain _ => .isTrue trivial
  | .sentAll _ => .isTrue trivial
  | .io _ => .isTrue trivial

/-- A connection on which nobody has written yet. -/
def start : State C where
  io := IoSerial.start
  wire := []
  sent := fun _ => 0
  err := fun _ => false
  begun := []

theorem start_init : (machine calls).init start :=
  ⟨IoSerial.start_init, rfl, fun _ => rfl, fun _ => rfl, rfl⟩

/-- Two coroutines that each send one letter, unmasked. -/
def letters (c : Bool) : Call where
  op := .text
  payload := [if c then 0x62 else 0x61]
  opts := { fin := true, mask := false }
  random := 0

/-- An operation is granted the slot, has its whole buffer sent and gives the slot on. -/
def carryOut (a : Bool × Part) : List (Action Bool) :=
  [.io .workOnce, .kernelSend a (buf letters a).length, .sentAll a, .io (.serialRelease a)]

/-- One call behind the other. -/
def takingTurns : List (Action Bool) :=
  ([.sendFrame false] : List (Action Bool)) ++ carryOut (false, .header) ++
    ([.io (.resume (false, .header)), .sendBody false] : List (Action Bool)) ++
    carryOut (false, .body) ++
    ([.sendFrame true, .io (.resume (false, .body))] : List (Action Bool)) ++
    carryOut (true, .header) ++
    ([.io (.resume (true, .header)), .sendBody true] : List (Action Bool)) ++
    carryOut (true, .body) ++ ([.io (.resume (true, .body))] : List (Action Bool))

/-- The same calls, with the second header asked for while the first one is sent. -/
def overlapping : List (Action Bool) :=
  ([.sendFrame false, .sendFrame true] : List (Action Bool)) ++ carryOut (false, .header) ++
    ([.io (.postNext (false, .header)), .io (.resume (false, .header)), .sendBody false] :
      List (Action Bool)) ++
    carryOut (true, .header) ++
    ([.io (.postNext (true, .header)), .io (.resume (true, .header)), .sendBody true] :
      List (Action Bool)) ++
    carryOut (false, .body) ++
    ([.io (.postNext (false, .body)), .io (.resume (false, .body))] : List (Action Bool)) ++
    carryOut (true, .body) ++ ([.io (.resume (true, .body))] : List (Action Bool))

theorem wire_of_alone_takingTurns : ∃ s : State Bool,
    (machine letters).execOk (Alone letters) start takingTurns = some s ∧
    s.wire = [0x81, 1, 0x61, 0x81, 1, 0x62] ∧
    s.wire = (succeeded s).flatMap fun c => (letters c).frame := by
  obtain ⟨s, run, wire, returned⟩ : ∃ s : State Bool,
      (machine letters).execOk (Alone letters) start takingTurns = some s ∧
      s.wire = [0x81, 1, 0x61, 0x81, 1, 0x62] ∧ ∀ c ∈ s.begun, Returned letters s c := by
    refine ⟨_, rfl, ?_, ?_⟩
    · rfl
    · decide
  obtain ⟨-, -, whole⟩ := wire_of_alone (Machine.Via.execOk (.init start_init) run)
  exact ⟨s, run, wire, (whole returned).1⟩

/-- Two calls that overlap put both headers in front of both payloads. -/
theorem torn_frames : ¬ ∀ s : State Bool, (machine letters).Reachable s →
    (∀ c ∈ s.begun, Returned letters s c) →
    ∃ cs : List Bool, s.wire = cs.flatMap fun c => (letters c).frame := by
  intro whole
  obtain ⟨s, run, wire, returned⟩ : ∃ s : State Bool,
      (machine letters).exec start overlapping = some s ∧
      s.wire = [0x81, 1, 0x81, 1, 0x61, 0x62] ∧ ∀ c ∈ s.begun, Returned letters s c := by
    refine ⟨_, rfl, ?_, ?_⟩
    · rfl
    · decide
  obtain ⟨cs, torn⟩ := whole s (Machine.Via.exec (.init start_init) run) returned
  rw [wire] at torn
  cases cs with
  | nil => cases torn
  | cons c cs =>
      -- the third byte is the payload of a frame, not the start of one
      have frame : (letters c).frame = [0x81, 1, if c then 0x62 else 0x61] := by
        cases c <;> rfl
      rw [List.flatMap_cons, frame] at torn
      cases c <;> simp at torn

end CoWq.WebSocket
