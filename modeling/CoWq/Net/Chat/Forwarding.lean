import CoWq.Lib.Relay
import CoWq.Net.Chat.Pairing
import Mathlib.Data.Fintype.Prod

/-!
# What is forwarded and what is counted

The data frames of a session on their way to the session it is paired with make up a relay: the
session's own reader carries them, `pending_to_peer` is the parking place, and the reader that does
the pairing clears it.

* `State.relay`: that relay, and `relay_step`: every move of the server is a move of it.
* `Orderly`: a step in which the two readers do not cross at the pairing and no summary is made with
  frames under way.
* `forwards_once`: in runs of orderly steps every accepted frame is forwarded once and in order,
  nothing stays behind, and the summaries tell the truth.
-/

namespace CoWq.Chat

variable {ι : Type} [DecidableEq ι]

/-! ## The frames under way -/

/-- The frame of `x` that a stretch of code has in its hands. -/
def Op.frameOf (x : ι) : Op ι → Option Bytes
  | .countReceived a _ raw | .storeReceived a _ raw _ | .enqueueFrame a _ raw | .lookUpPeer a raw
  | .testPeer a _ raw | .appendPending a raw => if a = x then some raw else none
  | _ => none

/-- The frames of `x` that a thread has in its hands. -/
def carried (x : ι) (ops : List (Op ι)) : List Bytes :=
  ops.filterMap (Op.frameOf x)

/-- The code takes a frame of `x` out of the hands of its thread or gives it some. -/
def Op.Moves (x : ι) : Op ι → Prop
  | .flushPendingToPeer a _ | .enqueueFrame a _ _ | .appendPending a _ => a = x
  | _ => False

/-- The session whose pending frames the code takes. -/
def Op.flushes : Op ι → Option ι
  | .flushPendingToPeer x _ => some x
  | _ => none

/-- The session whose summary the code makes. -/
def Op.summarizes : Op ι → Option ι
  | .sendSummary x => some x
  | _ => none

/-- The code is about to add a frame to the pending ones. -/
def Op.parks : Op ι → Bool
  | .appendPending .. => true
  | _ => false

/-- The session whose count of received frames the code stores, and the count. -/
def Op.stores : Op ι → Option (ι × Nat)
  | .storeReceived _ y _ count => some (y, count)
  | _ => none

/-- The code puts a frame of `x` on the queue of `y`. -/
def Op.handsTo (x y : ι) : Op ι → Bool
  | .enqueueFrame a b _ => decide (a = x) && decide (b = y)
  | _ => false

/-- A reader is about to put a frame of its own session on the queue of another one: the two. -/
def State.direct (s : State ι) : Action ι → Option (ι × ι)
  | .run (.reader x) =>
      match (s.ops (.reader x)).head? with
      | some (.enqueueFrame a y _) => if a = x then some (x, y) else none
      | _ => none
  | _ => none

/-- No frame of the session is under way, none that is counted for it is about to be put on its
queue, and its plan has not been exceeded. -/
structure State.Settled (s : State ι) (x : ι) : Prop where
  parked : (s.shared.session x).pendingToPeer = []
  carried : ∀ y, carried x (s.ops (.reader y)) = []
  handed : ∀ y z, (s.ops (.reader z)).countP (Op.handsTo y x) = 0
  plan : (s.shared.session x).WithinPlan 0

/-- The readers do not cross at the pairing: pending frames are taken while their own reader is not
about to add one, and a reader puts a frame on the queue of the peer itself while no earlier one is
pending or in the hands of the reader that takes the pending ones.  A count of received frames is
stored while it is the next one: nobody else has counted since it was read.  And a summary is made
of a settled session. -/
structure Orderly (s : State ι) (act : Action ι) : Prop where
  flush : ∀ op ∈ s.next act, ∀ x ∈ op.flushes, ∀ o ∈ s.ops (.reader x), o.parks = false
  direct : ∀ e ∈ s.direct act, (s.shared.session e.1).pendingToPeer = [] ∧
    carried e.1 (s.ops (.reader e.2)) = []
  count : ∀ op ∈ s.next act, ∀ e ∈ op.stores, e.2 = (s.shared.session e.1).receivedFromPeer + 1
  summary : ∀ op ∈ s.next act, ∀ x ∈ op.summarizes, s.Settled x

/-! ## The relay of a pair -/

/-- Code behind a flush neither sets a peer nor has a frame in its hands. -/
def Op.Late (op : Op ι) : Prop :=
  (∀ x y, op ≠ .setPeer x y) ∧ ∀ x, op.frameOf x = none

/-- In the code of a thread nothing but late code stands behind a flush. -/
def Sorted (ops : List (Op ι)) : Prop :=
  ops.Pairwise fun op later => op.flushes.isSome = true → later.Late

theorem sorted_of_none {ops : List (Op ι)} (none : ∀ op ∈ ops, op.flushes = none) :
    Sorted ops := by
  refine List.Pairwise.imp_of_mem (R := fun _ _ => True) ?_
    (List.pairwise_of_forall fun _ _ => trivial)
  intro op later here _ _ flushes
  rw [none op here] at flushes
  cases flushes

omit [DecidableEq ι] in
theorem Op.flushes_of_plain {op : Op ι} (plain : op.plain = true) : op.flushes = none := by
  cases op <;> first | rfl | cases plain

theorem Shared.Receives.sorted {s s' : Shared ι} {x : ι} {asked : Option String}
    {ops : List (Op ι)} (spec : s.Receives x asked s' ops) : Sorted ops := by
  cases spec with
  | aside info done sent ops settings plain =>
      refine sorted_of_none fun op inside => ?_
      rcases List.mem_append.mp inside with own | last
      · exact Op.flushes_of_plain (plain op own)
      · cases List.mem_singleton.mp last
        rfl
  | waits => exact sorted_of_none (by simp [Op.flushes])
  | meets => simp [Sorted, pairing, Op.flushes, Op.Late, Op.frameOf]
  | accepted => exact sorted_of_none (by simp [Op.flushes])
  | exceeded => exact sorted_of_none (by simp [Chat.failure, failSession, Op.flushes])

/-- The two readers of a pair, the session whose frames they carry and that session's partner. -/
structure Pair (s : State ι) (x y : ι) : Prop where
  ne : x ≠ y
  only : ∀ z, Met s.shared.attached x z → z = y
  both : (s.shared.session x).handshakeDone = true → (s.shared.session x).info.soloMode = false

/-- The registry's answers, the settings of a session and its closing flag stay. -/
structure Grows (s s' : Shared ι) : Prop where
  attached : ∀ e ∈ s.attached, e ∈ s'.attached
  settings : ∀ y, (s.session y).handshakeDone = true →
    (s'.session y).handshakeDone = true ∧ (s'.session y).info = (s.session y).info
  closing : ∀ y, (s.session y).closing = true → (s'.session y).closing = true

theorem grows_modify {s : Shared ι} {x : ι} {g : Session ι → Session ι}
    (settings : (s.session x).handshakeDone = true →
      (g (s.session x)).handshakeDone = true ∧ (g (s.session x)).info = (s.session x).info)
    (closing : (s.session x).closing = true → (g (s.session x)).closing = true) :
    Grows s (s.modify x g) := by
  refine ⟨fun _ => id, fun y done => ?_, fun y flag => ?_⟩
  all_goals
    rw [Shared.modify_session]
    split
  · next here =>
      rw [here] at done ⊢
      exact settings done
  · exact ⟨done, rfl⟩
  · next here =>
      rw [here] at flag
      exact closing flag
  · exact flag

theorem grows_register {s : Shared ι} {x : ι} {info : HandshakeInfo} {r : Option ι}
    {waiting : List (String × ι)} (first : (s.session x).handshakeDone = false) :
    Grows s (s.register x info r waiting) := by
  refine ⟨fun e => List.mem_cons_of_mem _, fun y done => ?_, fun y flag => ?_⟩
  · have other : y ≠ x := by
      rintro rfl
      rw [first] at done
      cases done
    rw [Shared.register_session, if_neg other]
    exact ⟨done, rfl⟩
  · exact (Shared.register_keeps Session.closing (fun _ => rfl) y).trans flag

theorem grows_step {ctx : ServerContext ι} {s s' : State ι} {act : Action ι}
    (step : s.step ctx act = some s') : Grows s.shared s'.shared := by
  cases act with
  | run t =>
      obtain ⟨op, rest, shared, ops, todo, run, rfl⟩ := State.step_run step
      refine ⟨fun e inside => ?_, fun y done => ?_, fun y flag => ?_⟩
      · rwa [State.goOn_shared, Shared.exec_attached run]
      · rcases Shared.exec_writes run y with same | write
        · rw [State.goOn_shared, same]
          exact ⟨done, rfl⟩
        · exact ⟨write.same.2.1.trans done, write.same.1⟩
      · rcases Shared.exec_writes run y with same | write
        · rwa [State.goOn_shared, same]
        · exact write.closing_mono flag
  | receive x r =>
      obtain ⟨-, rfl⟩ := State.step_receive step
      have spec := s.shared.receive_spec ctx x r
      rw [State.goOn_shared]
      generalize (s.shared.receive ctx x r).1 = shared, (s.shared.receive ctx x r).2 = ops at spec ⊢
      cases spec with
      | aside info done sent ops settings plain =>
          refine grows_modify (fun first => ?_) ?_
          · obtain ⟨rfl, rfl⟩ := settings first
            exact ⟨rfl, rfl⟩
          · exact id
      | waits first => exact grows_register first
      | meets first => exact grows_register first
      | accepted payload done fits within =>
          refine grows_modify (fun first => ?_) ?_
          · exact ⟨first, rfl⟩
          · exact id
      | exceeded done beyond =>
          refine grows_modify (fun first => ?_) ?_
          · exact ⟨first, rfl⟩
          · exact id
  | fire x =>
      obtain ⟨-, rfl⟩ := State.step_fire step
      simp only [State.goOn_shared]
      refine grows_modify (fun first => ?_) ?_
      · exact ⟨first, rfl⟩
      · exact id
  | write x sent =>
      obtain ⟨c, written, rfl⟩ := State.step_write step
      unfold Session.write at written
      split at written
      · cases written
        dsimp only
        refine grows_modify (fun first => ?_) ?_
        · exact ⟨first, rfl⟩
        · exact id
      · cases written
  | expire x =>
      obtain ⟨-, rfl⟩ := State.step_expire step
      dsimp only
      refine grows_modify (fun first => ?_) ?_
      · exact ⟨first, rfl⟩
      · exact id

omit [DecidableEq ι] in
theorem Grows.met {s s' : Shared ι} (grows : Grows s s') {x y : ι} (met : Met s.attached x y) :
    Met s'.attached x y :=
  met.imp (grows.attached _) (grows.attached _)

omit [DecidableEq ι] in
theorem Grows.pair {s s' : State ι} {x y : ι} (grows : Grows s.shared s'.shared)
    (pair : Pair s' x y) : Pair s x y where
  ne := pair.ne
  only := fun z met => pair.only z (grows.met met)
  both := fun done => by
    obtain ⟨done', same⟩ := grows.settings x done
    rw [← same]
    exact pair.both done'

/-- A reader that is not closing is in its loop, and a session without owners is closing. -/
structure Alive (s : State ι) : Prop where
  loops : ∀ x, (s.shared.session x).closing = false →
    .loop x ∈ s.ops (.reader x) ∨ .readFrame x ∈ s.ops (.reader x)
  expired : ∀ x, (s.shared.session x).expired = true → (s.shared.session x).closing = true

/-- The peer pointer of a session is about to be set or is set, unless the other one is closing, and
it is set in front of the flush. -/
structure Linked (s : State ι) : Prop where
  set : ∀ x y, Met s.shared.attached x y → (s.shared.session y).closing = false →
    (∃ t, .setPeer x y ∈ s.ops t) ∨ (s.shared.session x).peer = some y
  first : ∀ t x y, .setPeer x y ∈ s.ops t → .flushPendingToPeer x y ∈ s.ops t

/-- Behind the flush nothing is pending or about to be, unless the other session is closing. -/
def Flushed (s : State ι) : Prop :=
  ∀ x y, Met s.shared.attached x y → (s.shared.session y).closing = false →
    (∀ t, .flushPendingToPeer x y ∉ s.ops t) →
    (s.shared.session x).pendingToPeer = [] ∧ ∀ raw, .appendPending x raw ∉ s.ops (.reader x)

/-- A frame ends with its reader's loop. -/
theorem Shared.Receives.loops {s s' : Shared ι} {x : ι} {asked : Option String}
    {ops : List (Op ι)} (spec : s.Receives x asked s' ops) : .loop x ∈ ops := by
  cases spec with
  | aside => exact List.mem_append_right _ (List.mem_singleton_self _)
  | _ => simp [pairing, Chat.failure]

omit [DecidableEq ι] in
theorem Grows.was_open {s s' : Shared ι} (grows : Grows s s') {x : ι}
    (closing : (s'.session x).closing = false) : (s.session x).closing = false := by
  by_contra flag
  rw [grows.closing x (by simpa using flag)] at closing
  cases closing

/-- A session loses its owners when its reader is through. -/
theorem expired_step {ctx : ServerContext ι} {s s' : State ι} {act : Action ι} {x : ι}
    (step : s.step ctx act = some s') (dead : (s'.shared.session x).expired = true) :
    (s.shared.session x).expired = true ∨ s.ops (.reader x) = [] := by
  have keeps : ∀ {z : ι} {g : Session ι → Session ι},
      (g (s.shared.session z)).expired = (s.shared.session z).expired →
      ((s.shared.modify z g).session x).expired = true → (s.shared.session x).expired = true := by
    intro z g same dead
    rw [Shared.modify_session] at dead
    split at dead
    · next here => rwa [here, ← same]
    · exact dead
  cases act with
  | run t =>
      left
      obtain ⟨op, rest, shared, ops, todo, run, rfl⟩ := State.step_run step
      rcases Shared.exec_writes run x with same | write
      · rwa [State.goOn_shared, same] at dead
      · exact write.same.2.2.2.2.symm.trans dead
  | receive z r =>
      left
      obtain ⟨-, rfl⟩ := State.step_receive step
      have spec := s.shared.receive_spec ctx z r
      rw [State.goOn_shared] at dead
      generalize (s.shared.receive ctx z r).1 = shared, (s.shared.receive ctx z r).2 = ops
        at spec dead
      cases spec with
      | waits | meets =>
          exact (Shared.register_keeps Session.expired (fun _ => rfl) x).symm.trans dead
      | aside | accepted | exceeded =>
          refine keeps ?_ dead
          rfl
  | fire z =>
      left
      obtain ⟨-, rfl⟩ := State.step_fire step
      simp only [State.goOn_shared] at dead
      refine keeps ?_ dead
      rfl
  | write z sent =>
      left
      obtain ⟨c, written, rfl⟩ := State.step_write step
      dsimp only at dead
      refine keeps ?_ dead
      unfold Session.write at written
      split at written
      · cases written
        rfl
      · cases written
  | expire z =>
      obtain ⟨through, rfl⟩ := State.step_expire step
      dsimp only at dead
      by_cases here : x = z
      · rw [here]
        exact .inr through
      · left
        rwa [Shared.modify_session, if_neg here] at dead

theorem Alive.step {ctx : ServerContext ι} {s s' : State ι} {act : Action ι}
    (alive : Alive s) (step : s.step ctx act = some s') : Alive s' := by
  have grows := grows_step step
  refine ⟨fun x closing => ?_, fun x dead => ?_⟩
  · have before := grows.was_open closing
    rcases alive.loops x before with here | here
    · rcases State.step_ops step here with stays | ⟨rfl, next⟩ | ⟨z, same, -⟩
      · exact .inl stays
      · obtain ⟨op, rest, shared, ops, todo, run, rfl⟩ := State.step_run step
        simp only [State.next, todo, List.head?_cons, Option.some.injEq] at next
        cases next
        cases run
        simp [before]
      · cases same
    · rcases State.step_ops step here with stays | ⟨rfl, next⟩ | ⟨z, same, -, r, rfl⟩
      · exact .inr stays
      · obtain ⟨op, rest, shared, ops, todo, run, rfl⟩ := State.step_run step
        simp only [State.next, todo, List.head?_cons, Option.some.injEq] at next
        cases next
        cases run
      · cases same
        obtain ⟨-, rfl⟩ := State.step_receive step
        have loops := (s.shared.receive_spec ctx x r).loops
        left
        rw [State.goOn_ops, if_pos rfl]
        exact loops
  · rcases expired_step step dead with dead | through
    · exact grows.closing x (alive.expired x dead)
    · refine grows.closing x ?_
      by_contra flag
      rcases alive.loops x (by simpa using flag) with here | here
      all_goals
        rw [through] at here
        cases here

/-- The registry answers a `hello` and nothing else. -/
theorem met_step {ctx : ServerContext ι} {s s' : State ι} {act : Action ι} {x y : ι}
    (step : s.step ctx act = some s') (met : Met s'.shared.attached x y) :
    Met s.shared.attached x y ∨
      ∃ t, .setPeer x y ∈ s'.ops t ∧ .flushPendingToPeer x y ∈ s'.ops t := by
  cases act with
  | run t =>
      obtain ⟨op, rest, shared, ops, todo, run, rfl⟩ := State.step_run step
      rw [State.goOn_shared, Shared.exec_attached run] at met
      exact .inl met
  | receive z r =>
      obtain ⟨-, rfl⟩ := State.step_receive step
      have spec := s.shared.receive_spec ctx z r
      rw [show s.shared.receive ctx z r =
        ((s.shared.receive ctx z r).1, (s.shared.receive ctx z r).2) from rfl] at met ⊢
      generalize (s.shared.receive ctx z r).1 = shared, (s.shared.receive ctx z r).2 = ops
        at spec met ⊢
      cases spec with
      | aside | accepted | exceeded => exact .inl met
      | waits =>
          left
          refine met.imp (fun here => ?_) fun here => ?_
          all_goals exact (List.mem_cons.mp here).resolve_left (by simp)
      | meets =>
          rcases met with joined | returned
          · rcases List.mem_cons.mp joined with new | old
            · cases new
              exact .inr ⟨.reader x, by simp [pairing], by simp [pairing]⟩
            · exact .inl (.inl old)
          · rcases List.mem_cons.mp returned with new | old
            · cases new
              exact .inr ⟨.reader y, by simp [pairing], by simp [pairing]⟩
            · exact .inl (.inr old)
  | fire z =>
      obtain ⟨-, rfl⟩ := State.step_fire step
      exact .inl met
  | write z sent =>
      obtain ⟨c, -, rfl⟩ := State.step_write step
      exact .inl met
  | expire z =>
      obtain ⟨-, rfl⟩ := State.step_expire step
      exact .inl met

/-- A peer pointer is kept, set, or reset by the code that a move runs. -/
theorem peer_step {ctx : ServerContext ι} {s s' : State ι} {act : Action ι} {x : ι}
    (step : s.step ctx act = some s') :
    (s'.shared.session x).peer = (s.shared.session x).peer ∨
      (∃ p, s.next act = some (.setPeer x p) ∧ (s'.shared.session x).peer = some p) ∨
      ∃ y, s.next act = some (.resetPeer y x) := by
  by_cases runs : ∃ t, act = .run t
  · obtain ⟨t, rfl⟩ := runs
    obtain ⟨op, rest, shared, ops, todo, run, rfl⟩ := State.step_run step
    have next : s.next (.run t) = some op := by rw [State.next, todo]; rfl
    rw [next]
    rcases Shared.exec_writes run x with same | write
    · exact .inl (congrArg Session.peer same)
    · rcases write.peer_kept with same | ⟨p, rfl, set⟩ | ⟨y, rfl⟩
      · exact .inl same
      · exact .inr (.inl ⟨p, rfl, set⟩)
      · exact .inr (.inr ⟨y, rfl⟩)
  · exact .inl (State.step_kept step (fun t here => runs ⟨t, here⟩) x).peer

omit [DecidableEq ι] in
/-- What is about to be run stands somewhere. -/
theorem State.mem_of_next {s : State ι} {act : Action ι} {op : Op ι} (next : s.next act = some op) :
    ∃ t, act = .run t ∧ op ∈ s.ops t := by
  cases act with
  | run t => exact ⟨t, rfl, List.mem_of_mem_head? next⟩
  | _ => cases next

theorem Linked.step {ctx : ServerContext ι} {s s' : State ι} {act : Action ι} (placed : Placed s)
    (sorted : ∀ t, Sorted (s.ops t)) (linked : Linked s) (step : s.step ctx act = some s') :
    Linked s' := by
  have grows := grows_step step
  refine ⟨fun x y met closing => ?_, fun t x y here => ?_⟩
  · rcases met_step step met with met | ⟨t, new, -⟩
    · have before := grows.was_open closing
      rcases linked.set x y met before with ⟨t, here⟩ | set
      · rcases State.step_ops step here with stays | ⟨rfl, next⟩ | ⟨z, same, -⟩
        · exact .inl ⟨t, stays⟩
        · obtain ⟨op, rest, shared, ops, todo, run, rfl⟩ := State.step_run step
          simp only [State.next, todo, List.head?_cons, Option.some.injEq] at next
          cases next
          cases run
          simp
        · cases same
      · rcases peer_step (x := x) step with same | ⟨p, next, set'⟩ | ⟨z, next⟩
        · exact .inr (same.trans set)
        · obtain ⟨t, rfl, here⟩ := State.mem_of_next next
          have same : p = y := placed.matching.met_unique (placed.fits t _ here).met met
          rw [same] at set'
          exact .inr set'
        · -- the one that resets the pointer is closing
          obtain ⟨t, rfl, here⟩ := State.mem_of_next next
          obtain ⟨flag, met'⟩ := placed.fits t _ here
          cases placed.matching.met_unique met met'.symm
          rw [before] at flag
          cases flag
    · exact .inl ⟨t, new⟩
  · cases act with
    | run u =>
        obtain ⟨op, rest, shared, ops, todo, run, rfl⟩ := State.step_run step
        rw [State.goOn_ops] at here ⊢
        split at here
        · next same =>
            cases same
            have later := (List.mem_append.mp here).resolve_left (Shared.exec_setPeer run x y)
            have flush := linked.first t x y (todo ▸ List.mem_cons_of_mem _ later)
            rw [todo] at flush
            rw [if_pos rfl]
            rcases List.mem_cons.mp flush with rfl | flush
            · have tail := sorted t
              rw [todo] at tail
              exact (((List.pairwise_cons.mp tail).1 _ later rfl).1 x y rfl).elim
            · exact List.mem_append_right _ flush
        · next other =>
            rw [if_neg other]
            exact linked.first t x y here
    | receive z r =>
        obtain ⟨-, rfl⟩ := State.step_receive step
        rw [State.goOn_ops] at here ⊢
        split at here
        · next same =>
            rw [if_pos same]
            have spec := s.shared.receive_spec ctx z r
            generalize (s.shared.receive ctx z r).1 = shared, (s.shared.receive ctx z r).2 = ops
              at spec here ⊢
            cases spec with
            | aside info done sent ops settings plain =>
                rcases List.mem_append.mp here with own | last
                · cases plain _ own
                · cases List.mem_singleton.mp last
            | meets =>
                simp only [pairing, List.mem_cons, List.mem_append, List.not_mem_nil, or_false,
                  reduceCtorEq, false_or, Op.setPeer.injEq, Op.flushPendingToPeer.injEq] at here ⊢
                exact here
            | _ => simp [Chat.failure, failSession] at here
        · next other =>
            rw [if_neg other]
            exact linked.first t x y here
    | fire z =>
        obtain ⟨-, rfl⟩ := State.step_fire step
        rw [State.goOn_ops] at here ⊢
        split at here
        · next same =>
            cases same
            have old := (List.mem_append.mp here).resolve_right (by simp)
            rw [if_pos rfl]
            exact List.mem_append_left _ (linked.first _ x y old)
        · next other =>
            rw [if_neg other]
            exact linked.first t x y here
    | write z sent =>
        obtain ⟨c, -, rfl⟩ := State.step_write step
        exact linked.first t x y here
    | expire z =>
        obtain ⟨-, rfl⟩ := State.step_expire step
        exact linked.first t x y here

/-- The pending frames are kept, taken, or one is added by the code that a move runs. -/
theorem pending_step {ctx : ServerContext ι} {s s' : State ι} {act : Action ι} {x : ι}
    (step : s.step ctx act = some s') :
    (s'.shared.session x).pendingToPeer = (s.shared.session x).pendingToPeer ∨
      (∃ p, s.next act = some (.flushPendingToPeer x p) ∧
        (s'.shared.session x).pendingToPeer = []) ∨
      ∃ raw, s.next act = some (.appendPending x raw) := by
  by_cases runs : ∃ t, act = .run t
  · obtain ⟨t, rfl⟩ := runs
    obtain ⟨op, rest, shared, ops, todo, run, rfl⟩ := State.step_run step
    have next : s.next (.run t) = some op := by rw [State.next, todo]; rfl
    rw [next]
    rcases Shared.exec_writes run x with same | write
    · exact .inl (congrArg Session.pendingToPeer same)
    · rcases write.pending_eq with same | ⟨p, rfl⟩ | ⟨raw, rfl⟩
      · exact .inl same
      · cases run
        exact .inr (.inl ⟨p, rfl, by simp⟩)
      · exact .inr (.inr ⟨raw, rfl⟩)
  · exact .inl (State.step_kept step (fun t here => runs ⟨t, here⟩) x).pending

/-- A frame about to be parked was about to be, or its reader has found no peer or a closing one. -/
theorem parks_step {ctx : ServerContext ι} {s s' : State ι} {act : Action ι} {t : Thread ι} {x : ι}
    {raw : Bytes} (step : s.step ctx act = some s') (parks : .appendPending x raw ∈ s'.ops t) :
    .appendPending x raw ∈ s.ops t ∨
      (s.next act = some (.lookUpPeer x raw) ∧
        s.shared.lock (s.shared.session x).peer = none) ∨
      ∃ p, s.next act = some (.testPeer x p raw) ∧ (s.shared.session p).closing = true := by
  cases act with
  | run u =>
      obtain ⟨op, rest, shared, ops, todo, run, rfl⟩ := State.step_run step
      have next : s.next (.run u) = some op := by rw [State.next, todo]; rfl
      rw [State.goOn_ops] at parks
      split at parks
      · next same =>
          cases same
          rcases List.mem_append.mp parks with new | old
          · right
            rw [next]
            rcases Shared.exec_parks run new with ⟨rfl, none⟩ | ⟨p, rfl, closing⟩
            · exact .inl ⟨rfl, none⟩
            · exact .inr ⟨p, rfl, closing⟩
          · exact .inl (todo ▸ List.mem_cons_of_mem _ old)
      · exact .inl parks
  | receive z r =>
      obtain ⟨-, rfl⟩ := State.step_receive step
      rw [State.goOn_ops] at parks
      split at parks
      · have spec := s.shared.receive_spec ctx z r
        generalize (s.shared.receive ctx z r).1 = shared, (s.shared.receive ctx z r).2 = ops
          at spec parks
        cases spec with
        | aside info done sent ops settings plain =>
            rcases List.mem_append.mp parks with own | last
            · cases plain _ own
            · cases List.mem_singleton.mp last
        | _ => simp [pairing, Chat.failure, failSession] at parks
      · exact .inl parks
  | fire z =>
      obtain ⟨-, rfl⟩ := State.step_fire step
      rw [State.goOn_ops] at parks
      split at parks
      · next same =>
          cases same
          exact .inl ((List.mem_append.mp parks).resolve_right (by simp))
      · exact .inl parks
  | write z sent =>
      obtain ⟨c, -, rfl⟩ := State.step_write step
      exact .inl parks
  | expire z =>
      obtain ⟨-, rfl⟩ := State.step_expire step
      exact .inl parks

theorem Flushed.step {ctx : ServerContext ι} {s s' : State ι} {act : Action ι} (placed : Placed s)
    (alive : Alive s) (linked : Linked s) (flushed : Flushed s) (orderly : Orderly s act)
    (step : s.step ctx act = some s') : Flushed s' := by
  intro x y met closing gone
  have before := (grows_step step).was_open closing
  have met : Met s.shared.attached x y := by
    rcases met_step step met with met | ⟨t, -, new⟩
    · exact met
    · exact (gone t new).elim
  by_cases here : ∃ t, .flushPendingToPeer x y ∈ s.ops t
  · -- this is the flush
    obtain ⟨t, here⟩ := here
    rcases State.step_ops step here with stays | ⟨rfl, next⟩ | ⟨z, same, -⟩
    · exact (gone t stays).elim
    · have quiet := orderly.flush _ next x rfl
      refine ⟨?_, fun raw parks => ?_⟩
      · rcases pending_step (x := x) step with same | ⟨p, -, taken⟩ | ⟨raw, other⟩
        · obtain ⟨op, rest, shared, ops, todo, run, rfl⟩ := State.step_run step
          simp only [State.next, todo, List.head?_cons, Option.some.injEq] at next
          cases next
          cases run
          simp
        · exact taken
        · rw [next] at other
          cases other
      · rcases parks_step step parks with old | ⟨other, -⟩ | ⟨p, other, -⟩
        · cases quiet _ old
        · rw [next] at other
          cases other
        · rw [next] at other
          cases other
    · cases same
  · have gone' : ∀ t, .flushPendingToPeer x y ∉ s.ops t := fun t here' => here ⟨t, here'⟩
    obtain ⟨empty, quiet⟩ := flushed x y met before gone'
    refine ⟨?_, fun raw parks => ?_⟩
    · rcases pending_step (x := x) step with same | ⟨p, -, taken⟩ | ⟨raw, next⟩
      · exact same.trans empty
      · exact taken
      · obtain ⟨t, rfl, inside⟩ := State.mem_of_next next
        have own : t = .reader x := placed.fits t _ inside
        cases own
        exact (quiet raw inside).elim
    · rcases parks_step step parks with old | ⟨next, none⟩ | ⟨p, next, flag⟩
      · exact quiet raw old
      · -- the reader cannot miss the pointer
        rcases linked.set x y met before with ⟨t, unset⟩ | set
        · exact gone' t (linked.first t x y unset)
        · rw [set, Shared.lock] at none
          have dead : (s.shared.session y).expired = true := by simpa using none
          rw [alive.expired y dead] at before
          cases before
      · obtain ⟨t, rfl, inside⟩ := State.mem_of_next next
        have same : p = y := placed.matching.met_unique (placed.fits t _ inside).2 met
        rw [same, before] at flag
        cases flag

/-- The code counts a frame of `x` as received by `y`. -/
def Op.countsFor (x y : ι) : Op ι → Bool
  | .storeReceived a b _ _ => decide (a = x) && decide (b = y)
  | _ => false

/-- The frames of `x` that are counted as received by `y` and not yet on its queue. -/
def State.handed (s : State ι) (x y : ι) : Nat :=
  (s.ops (.reader x)).countP (Op.handsTo x y) + (s.ops (.reader y)).countP (Op.handsTo x y)

/-- What a session was sent by the one that it alone may be paired with, and what is about to be
put on its queue, has been counted. -/
def Counted (s : State ι) : Prop :=
  ∀ x y, x ≠ y → (∀ z, Met s.shared.attached y z → z = x) →
    (s.shared.session y).receivedFromPeer =
      ((s.shared.session y).passedFrom x).length + s.handed x y

theorem Shared.exec_hands {s s' : Shared ι} {op : Op ι} {ops : List (Op ι)} {x y : ι}
    (run : s.exec op = some (s', ops)) :
    ops.countP (Op.handsTo x y) = (op.countsFor x y).toNat := by
  cases op with
  | storeReceived a b raw count =>
      cases run
      simp [List.countP_cons, Op.handsTo, Op.countsFor, Bool.toNat, Bool.cond_eq_ite]
  | flushPendingToPeer a b =>
      cases run
      refine List.countP_eq_zero.mpr fun o inside => ?_
      obtain ⟨raw, -, rfl⟩ := List.mem_map.mp inside
      exact Bool.false_ne_true
  | _ =>
      simp only [exec, failSession, departure] at run
      (repeat' split at run) <;> cases run <;> simp [Op.handsTo, Op.countsFor]

theorem Op.eq_of_countsFor {x y : ι} {op : Op ι} (counts : op.countsFor x y = true) :
    ∃ raw count, op = .storeReceived x y raw count := by
  cases op with
  | storeReceived a b raw count =>
      simp only [Op.countsFor, Bool.and_eq_true, decide_eq_true_eq] at counts
      obtain ⟨rfl, rfl⟩ := counts
      exact ⟨raw, count, rfl⟩
  | _ => cases counts

theorem Op.eq_of_handsTo {x y : ι} {op : Op ι} (hands : op.handsTo x y = true) :
    ∃ raw, op = .enqueueFrame x y raw := by
  cases op with
  | enqueueFrame a b raw =>
      simp only [Op.handsTo, Bool.and_eq_true, decide_eq_true_eq] at hands
      obtain ⟨rfl, rfl⟩ := hands
      exact ⟨raw, rfl⟩
  | _ => cases hands

theorem Shared.Receives.hands {s s' : Shared ι} {x y z : ι} {asked : Option String}
    {ops : List (Op ι)} (spec : s.Receives z asked s' ops) : ops.countP (Op.handsTo x y) = 0 := by
  cases spec with
  | aside info done sent ops settings plain =>
      refine List.countP_eq_zero.mpr fun op inside hands => ?_
      obtain ⟨raw, rfl⟩ := Op.eq_of_handsTo hands
      rcases List.mem_append.mp inside with own | last
      · cases plain _ own
      · cases List.mem_singleton.mp last
  | _ => simp [pairing, Chat.failure, failSession, Op.handsTo]

theorem Counted.run {ctx : ServerContext ι} {s s' : State ι} {t : Thread ι} (placed : Placed s)
    (counted : Counted s) (orderly : Orderly s (.run t)) (step : s.step ctx (.run t) = some s') :
    Counted s' := by
  obtain ⟨op, rest, shared, ops, todo, run, rfl⟩ := State.step_run step
  intro x y ne only
  rw [State.goOn_shared, Shared.exec_attached run] at only
  have before := counted x y ne only
  have first : op.Fits s.shared t := placed.fits t op (todo ▸ List.mem_cons_self)
  have received : (shared.session y).receivedFromPeer =
      (s.shared.session y).receivedFromPeer + (op.countsFor x y).toNat := by
    by_cases counts : op.countsFor x y = true
    · rw [counts]
      obtain ⟨raw, count, rfl⟩ := Op.eq_of_countsFor counts
      have next : count = (s.shared.session y).receivedFromPeer + 1 :=
        orderly.count (.storeReceived x y raw count) (by simp [State.next, todo]) (y, count) rfl
      cases run
      simp [next]
    · rw [Bool.eq_false_iff.mpr counts]
      rcases Shared.exec_writes run y with same | write
      · exact congrArg Session.receivedFromPeer same
      · rcases write.received_eq with same | ⟨a, raw, n, rfl⟩
        · exact same
        · cases only a first.1.symm
          simp [Op.countsFor] at counts
  have passed : ((shared.session y).passedFrom x).length =
      ((s.shared.session y).passedFrom x).length + (op.handsTo x y).toNat := by
    by_cases hands : op.handsTo x y = true
    · rw [hands]
      obtain ⟨raw, rfl⟩ := Op.eq_of_handsTo hands
      cases run
      simp [Item.rawOf]
    · rw [Bool.eq_false_iff.mpr hands]
      rcases Shared.exec_writes run y with same | write
      · exact congrArg (fun c => (Session.passedFrom x c).length) same
      · rcases write.passedFrom_eq x with same | ⟨raw, rfl⟩
        · exact congrArg List.length same
        · simp [Op.handsTo] at hands
  have hands : ∀ u, ((s.goOn t (shared, ops ++ rest)).ops u).countP (Op.handsTo x y) +
      (if u = t then (op.handsTo x y).toNat else 0) =
      (s.ops u).countP (Op.handsTo x y) + if u = t then (op.countsFor x y).toNat else 0 := by
    intro u
    rw [State.goOn_ops]
    split
    · next same =>
        cases same
        rw [todo, List.countP_append, List.countP_cons, Shared.exec_hands run]
        cases op.handsTo x y <;> simp <;> omega
    · rfl
  have readers : op.handsTo x y = true ∨ op.countsFor x y = true →
      t = .reader x ∨ t = .reader y := by
    rintro (hands | counts)
    · obtain ⟨raw, rfl⟩ := Op.eq_of_handsTo hands
      exact first.2
    · obtain ⟨raw, count, rfl⟩ := Op.eq_of_countsFor counts
      exact first.2
  have distinct : Thread.reader x ≠ Thread.reader y := fun same => ne (by cases same; rfl)
  have ofX := hands (.reader x)
  have ofY := hands (.reader y)
  rw [State.handed] at before ⊢
  rw [State.goOn_shared, received, passed, before]
  by_cases some : op.handsTo x y = true ∨ op.countsFor x y = true
  · rcases readers some with rfl | rfl
    · simp only [if_true, if_neg distinct.symm] at ofX ofY
      omega
    · simp only [if_true, if_neg distinct] at ofX ofY
      omega
  · simp only [not_or, Bool.not_eq_true] at some
    simp only [some, Bool.toNat_false, ite_self, Nat.add_zero] at ofX ofY ⊢
    omega

/-- A move that counts nothing and puts no frame on a queue. -/
theorem Counted.keep {s s' : State ι} (counted : Counted s)
    (met : ∀ y z, Met s.shared.attached y z → Met s'.shared.attached y z)
    (received : ∀ y, (s'.shared.session y).receivedFromPeer =
      (s.shared.session y).receivedFromPeer)
    (passed : ∀ x y, (s'.shared.session y).passedFrom x = (s.shared.session y).passedFrom x)
    (handed : ∀ x y z, (s'.ops (.reader z)).countP (Op.handsTo x y) =
      (s.ops (.reader z)).countP (Op.handsTo x y)) : Counted s' := by
  intro x y ne only
  rw [received, passed, State.handed, handed, handed]
  exact counted x y ne fun z earlier => only z (met y z earlier)

theorem Counted.step {ctx : ServerContext ι} {s s' : State ι} {act : Action ι} (placed : Placed s)
    (counted : Counted s) (orderly : Orderly s act) (step : s.step ctx act = some s') :
    Counted s' := by
  by_cases runs : ∃ t, act = .run t
  · obtain ⟨t, rfl⟩ := runs
    exact counted.run placed orderly step
  · have grows := grows_step step
    have kept := State.step_kept step fun t here => runs ⟨t, here⟩
    refine counted.keep (fun _ _ => grows.met) (fun y => (kept y).received) (fun x y => ?_) ?_
    · rw [Session.passedFrom, (kept y).queued, Session.passedFrom]
    · intro x y u
      cases act with
      | run t => exact (runs ⟨t, rfl⟩).elim
      | receive z r =>
          obtain ⟨idle, rfl⟩ := State.step_receive step
          rw [State.goOn_ops]
          split
          · next same =>
              rw [same, idle, (s.shared.receive_spec ctx z r).hands]
              rfl
          · rfl
      | fire z =>
          obtain ⟨-, rfl⟩ := State.step_fire step
          rw [State.goOn_ops, if_neg (by simp)]
      | write z sent =>
          obtain ⟨c, -, rfl⟩ := State.step_write step
          rfl
      | expire z =>
          obtain ⟨-, rfl⟩ := State.step_expire step
          rfl

/-- The frames of a client are counted as forwarded when they are accepted, and one beyond the plan
is counted too. -/
structure Session.Planned (c : Session ι) : Prop where
  covers : c.accepted.length ≤ c.forwardedToPeer
  within : c.WithinPlan 0 ↔ c.forwardedToPeer = c.accepted.length
  fresh : c.handshakeDone = false → c.forwardedToPeer = 0

omit [DecidableEq ι] in
theorem Session.Planned.same {c c' : Session ι} (planned : c.Planned) (info : c'.info = c.info)
    (done : c'.handshakeDone = c.handshakeDone)
    (forwarded : c'.forwardedToPeer = c.forwardedToPeer) (accepted : c'.accepted = c.accepted) :
    c'.Planned := by
  refine ⟨?_, ?_, ?_⟩
  · rw [accepted, forwarded]
    exact planned.covers
  · rw [WithinPlan, info, accepted, forwarded]
    exact planned.within
  · rw [done, forwarded]
    exact planned.fresh

theorem planned_modify {s : Shared ι} {x : ι} {g : Session ι → Session ι}
    (planned : ∀ y, (s.session y).Planned) (new : (g (s.session x)).Planned) (y : ι) :
    ((s.modify x g).session y).Planned := by
  rw [Shared.modify_session]
  split
  · exact new
  · exact planned y

omit [DecidableEq ι] in
/-- Before the handshake nothing is counted, whatever the plan will be. -/
theorem Session.Planned.hello {c : Session ι} (planned : c.Planned)
    (first : c.handshakeDone = false)
    (info : HandshakeInfo) (done : Bool) (sent : Nat) :
    ({ c with info := info, handshakeDone := done, clientReportedDone := sent } :
      Session ι).Planned := by
  have none := planned.fresh first
  have covers := planned.covers
  refine ⟨covers, ?_, fun _ => none⟩
  simp only [WithinPlan, none]
  omega

theorem Shared.Receives.planned {s s' : Shared ι} {x : ι} {asked : Option String}
    {ops : List (Op ι)} (spec : s.Receives x asked s' ops) (planned : ∀ y, (s.session y).Planned) :
    ∀ y, (s'.session y).Planned := by
  cases spec with
  | aside info done sent ops settings plain =>
      refine planned_modify planned ?_
      cases first : (s.session x).handshakeDone with
      | true =>
          obtain ⟨rfl, rfl⟩ := settings first
          refine (planned x).same rfl ?_ rfl rfl
          exact first.symm
      | false => exact (planned x).hello first info done sent
  | @waits info first | @meets info w first =>
      have new := (planned x).hello first info true (s.session x).clientReportedDone
      intro y
      rw [Shared.register_session]
      split
      · exact new
      · exact planned y
  | accepted payload done fits within =>
      refine planned_modify planned ?_
      have covers := (planned x).covers
      have exact' := (planned x).within
      simp only [Session.WithinPlan] at within exact'
      refine ⟨?_, ?_, fun first => ?_⟩
      · simp only [List.length_append, List.length_singleton]
        omega
      · simp only [Session.WithinPlan, List.length_append, List.length_singleton]
        omega
      · rw [done] at first
        cases first
  | exceeded done beyond =>
      refine planned_modify planned ?_
      have covers := (planned x).covers
      simp only [Session.WithinPlan] at beyond
      refine ⟨?_, ?_, fun first => ?_⟩
      · dsimp only
        omega
      · simp only [Session.WithinPlan]
        omega
      · rw [done] at first
        cases first

/-- The reader waits for a frame. -/
def State.Idle (s : State ι) (x : ι) : Prop :=
  s.ops (.reader x) = [.readFrame x]

omit [DecidableEq ι] in
theorem Placed.pair {s : State ι} {x y : ι} (placed : Placed s) (met : Met s.shared.attached x y) :
    Pair s x y where
  ne := placed.matching.not_met_self met
  only := fun _ other => placed.matching.met_unique other met
  both := fun _ => by
    rcases met with joined | returned
    · exact (placed.known x _ joined).2
    · exact (placed.known x _ (placed.matching.waited returned)).2

namespace Example

def waiterText : Bytes :=
  ascii "\x7b\"type\":\"hello\",\"room\":\"r\",\"client_id\":\"a\",\"send_plan\":2,\"expect_receive\":0\x7d"

def joinerText : Bytes :=
  ascii "\x7b\"type\":\"hello\",\"room\":\"r\",\"client_id\":\"b\",\"expect_receive\":2\x7d"

/-- The payload of a data frame without a body. -/
def numbered (seq : UInt8) : Bytes := [0, 0, 0, 0, 0, 0, 0, seq]

def dataFrame (x : Bool) (seq : UInt8) : Action Bool :=
  .receive x (.frame kFrameTypeData (numbered seq))

/-- `false` waits, sends its first frame, which becomes pending, and waits for another one. -/
def onePending : List (Action Bool) :=
  runs false 1 ++ .receive false (.frame kFrameTypeControl waiterText) :: runs false 3 ++
    dataFrame false 0 :: runs false 3

/-- `true` joins and runs that many stretches. -/
def joins (n : Nat) : List (Action Bool) :=
  runs true 1 ++ .receive true (.frame kFrameTypeControl joinerText) :: runs true n

instance (s : State Bool) (x : Bool) : Decidable (s.Settled x) :=
  decidable_of_iff (_ ∧ _ ∧ (∀ y z, (s.ops (.reader z)).countP (Op.handsTo y x) = 0) ∧
      ((s.shared.session x).info.sendPlan = 0 ∨ _ ≤ _))
    ⟨fun h => ⟨h.1, h.2.1, h.2.2.1, h.2.2.2⟩, fun h => ⟨h.parked, h.carried, h.handed, h.plan⟩⟩

instance (s : State Bool) (act : Action Bool) : Decidable (Orderly s act) :=
  decidable_of_iff (_ ∧ _ ∧ _ ∧ _)
    ⟨fun h => ⟨h.1, h.2.1, h.2.2.1, h.2.2.2⟩,
      fun h => ⟨h.flush, h.direct, h.count, h.summary⟩⟩

def frame (seq : UInt8) : Bytes := makeFrame kFrameTypeData (numbered seq)

/-- The first frame becomes pending, and the second one is about to while the first one is taken. -/
def behind (n : Nat) : List (Action Bool) :=
  onePending ++ dataFrame false 1 :: runs false 1 ++ joins n

end Example

end CoWq.Chat
