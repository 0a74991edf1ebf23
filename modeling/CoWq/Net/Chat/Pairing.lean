import CoWq.Net.Chat.Steps

/-!
# Who is paired with whom

* `Op.Fits`: where a stretch of code may stand, given what `attach` has answered so far.
* `Placed`: the invariant of all runs, and `Exclusive`, what it says about the rooms.
* `Timely`: a step in which the wait timeout of a session and its pairing do not cross.
* `pairing_exclusive`: pairs are exclusive in every run, and in runs of timely steps no session is
  both paired and failed by its wait timeout.
-/

namespace CoWq.Chat

variable {ι : Type}

/-! ## Where the code stands -/

/-- The thread is the reader of the one of the two that joined the other. -/
def Joins (log : List (ι × Option ι)) (t : Thread ι) (x y : ι) : Prop :=
  t = .reader x ∧ (x, some y) ∈ log ∨ t = .reader y ∧ (y, some x) ∈ log

theorem Joins.met {log : List (ι × Option ι)} {t : Thread ι} {x y : ι}
    (joins : Joins log t x y) : Met log x y :=
  joins.imp And.right And.right

theorem Joins.either {log : List (ι × Option ι)} {t : Thread ι} {x y : ι}
    (joins : Joins log t x y) : t = .reader x ∨ t = .reader y :=
  joins.imp And.left And.left

/-- Whose code it is, and that those it is about are paired. -/
def Op.Fits (s : Shared ι) (t : Thread ι) : Op ι → Prop
  | .loop x | .readFrame x | .appendPending x _ => t = .reader x
  | .lookUpPeer x _ => t = .reader x ∧ (s.session x).handshakeDone = true
  | .sendReady x peer => Met s.attached x peer
  | .setPeer x peer | .flushPendingToPeer x peer => Joins s.attached t x peer
  | .countReceived x peer _ | .storeReceived x peer _ _ | .enqueueFrame x peer _ =>
      Met s.attached x peer ∧ (t = .reader x ∨ t = .reader peer)
  | .testPeer x peer _ => t = .reader x ∧ Met s.attached x peer
  | .notifyPeer x => (s.session x).closing = true
  | .resetPeer x peer => (s.session x).closing = true ∧ Met s.attached x peer
  | .armWaitTimeout x => (x, none) ∈ s.attached
  | .waitTimeout x | .timeoutClosing x | .timeoutPeer x | .timeoutFail x =>
      t = .callback x ∧ (x, none) ∈ s.attached
  | _ => True

theorem Op.Fits.later {s s' : Shared ι} {t : Thread ι} {op : Op ι} (fits : op.Fits s t)
    (grows : ∀ e ∈ s.attached, e ∈ s'.attached)
    (done : ∀ y, (s.session y).handshakeDone = true → (s'.session y).handshakeDone = true)
    (closing : ∀ y, (s.session y).closing = true → (s'.session y).closing = true) :
    op.Fits s' t := by
  have met : ∀ {x y : ι}, Met s.attached x y → Met s'.attached x y :=
    fun met => met.imp (grows _) (grows _)
  cases op with
  | sendReady x peer => exact met fits
  | lookUpPeer x raw => exact ⟨fits.1, done x fits.2⟩
  | setPeer x peer | flushPendingToPeer x peer =>
      exact Or.imp (.imp id (grows _)) (.imp id (grows _)) fits
  | countReceived x peer | storeReceived x peer | enqueueFrame x peer =>
      exact ⟨met fits.1, fits.2⟩
  | testPeer x peer _ => exact ⟨fits.1, met fits.2⟩
  | notifyPeer x => exact closing x fits
  | resetPeer x peer => exact ⟨closing x fits.1, met fits.2⟩
  | armWaitTimeout x => exact grows _ fits
  | waitTimeout x | timeoutClosing x | timeoutPeer x | timeoutFail x =>
      exact ⟨fits.1, grows _ fits.2⟩
  | _ => exact fits

theorem Op.Fits.of_plain {s : Shared ι} {t : Thread ι} {op : Op ι} (plain : op.plain = true) :
    op.Fits s t := by
  cases op <;> trivial

variable [DecidableEq ι]

/-- What a stretch goes on with stands where it stood. -/
theorem Shared.exec_fits {s s' : Shared ι} {op : Op ι} {ops : List (Op ι)} {t : Thread ι}
    (peers : ∀ x y, (s.session x).peer = some y → Met s.attached x y) (fits : op.Fits s t)
    (run : s.exec op = some (s', ops)) : ∀ next ∈ ops, next.Fits s t := by
  have locked : ∀ {x y : ι}, s.lock (s.session x).peer = some y → Met s.attached x y :=
    fun found => peers _ _ (Option.filter_eq_some_iff.mp found).1
  cases op with
  | loop x =>
      cases run
      split
      · next closing => simp [departure, Op.Fits, closing]
      · simpa [Op.Fits] using fits
  | flushPendingToPeer x peer =>
      cases run
      intro next inside
      obtain ⟨raw, -, rfl⟩ := List.mem_map.mp inside
      exact ⟨fits.met, fits.either⟩
  | countReceived x peer | storeReceived x peer =>
      cases run
      simpa [Op.Fits] using fits
  | lookUpPeer x raw =>
      simp only [exec] at run
      repeat' split at run
      · cases run
        simp [Op.Fits]
      · cases run
        simpa [Op.Fits] using fits.1
      · next found =>
          cases run
          simpa [Op.Fits] using And.intro fits.1 (locked found)
  | testPeer x peer raw =>
      cases run
      split
      · simpa [Op.Fits] using fits.1
      · simpa [Op.Fits] using And.intro fits.2 (Or.inl fits.1)
  | notifyPeer x =>
      cases run
      split
      · simp
      · next found => simpa [Op.Fits] using And.intro fits (locked found)
  | waitTimeout x =>
      simp only [exec] at run
      split at run <;> cases run
      · simpa [Op.Fits] using fits
      · simp
  | timeoutClosing x | timeoutPeer x =>
      cases run
      split
      · simp
      · simpa [Op.Fits] using fits
  | _ =>
      simp only [exec] at run
      (repeat' split at run) <;> cases run <;> simp [Op.Fits, failSession]

/-! ## The invariant -/

/-- The rooms are in order: the sessions in the waiting map wait and have not been returned, all
that is said about peers agrees with what `attach` answered, and only sessions that had to wait have
a wait timer. -/
structure Placed (s : State ι) : Prop where
  matching : Matching s.shared.attached
  rooms : (s.shared.waiting.map Prod.fst).Nodup
  waits : ∀ e ∈ s.shared.waiting, (e.2, none) ∈ s.shared.attached ∧
    (∀ j, (j, some e.2) ∉ s.shared.attached) ∧ (s.shared.session e.2).info.room = e.1
  known : ∀ x r, (x, r) ∈ s.shared.attached → (s.shared.session x).handshakeDone = true ∧
    (s.shared.session x).info.soloMode = false
  fits : ∀ t, ∀ op ∈ s.ops t, op.Fits s.shared t
  peers : ∀ x y, (s.shared.session x).peer = some y → Met s.shared.attached x y
  readied : ∀ x, (s.shared.session x).readied = true → ∃ y, Met s.shared.attached x y
  timers : ∀ x, (s.shared.session x).Timed → (x, none) ∈ s.shared.attached

theorem Placed.init {ctx : ServerContext ι} {s : State ι} (start : (chat ctx).init s) :
    Placed s := by
  cases start
  refine ⟨.nil, List.nodup_nil, by simp [State.start], by simp [State.start], ?_, by
    simp [State.start], by simp [State.start, Session.readied, Session.queued], by
    simp [State.start, Session.Timed]⟩
  rintro (x | x) op inside
  · cases List.mem_singleton.mp inside
    rfl
  · cases inside

omit [DecidableEq ι] in
/-- A move that leaves the registry's answers alone and each session as good as it was. -/
theorem Placed.keep {s s' : State ι} (placed : Placed s)
    (attached : s'.shared.attached = s.shared.attached)
    (waiting : List.Sublist s'.shared.waiting s.shared.waiting)
    (settings : ∀ y, (s.shared.session y).handshakeDone = true →
      (s'.shared.session y).handshakeDone = true ∧
        (s'.shared.session y).info = (s.shared.session y).info)
    (fits : ∀ t, ∀ op ∈ s'.ops t, op.Fits s'.shared t)
    (peers : ∀ x y, (s'.shared.session x).peer = some y → Met s.shared.attached x y)
    (readied : ∀ x, (s'.shared.session x).readied = true → ∃ y, Met s.shared.attached x y)
    (timers : ∀ x, (s'.shared.session x).Timed → (x, none) ∈ s.shared.attached) :
    Placed s' := by
  refine ⟨attached ▸ placed.matching, placed.rooms.sublist (waiting.map _), ?_, ?_, fits,
    attached ▸ peers, attached ▸ readied, attached ▸ timers⟩
  · intro e inside
    obtain ⟨waited, unmet, room⟩ := placed.waits e (waiting.subset inside)
    rw [attached, (settings e.2 (placed.known _ _ waited).1).2]
    exact ⟨waited, unmet, room⟩
  · intro x r inside
    rw [attached] at inside
    obtain ⟨done, pair⟩ := placed.known x r inside
    rw [(settings x done).2]
    exact ⟨(settings x done).1, pair⟩

theorem Placed.run {ctx : ServerContext ι} {s s' : State ι} {t : Thread ι} (placed : Placed s)
    (step : s.step ctx (.run t) = some s') : Placed s' := by
  obtain ⟨op, rest, shared, ops, todo, run, rfl⟩ := State.step_run step
  have fits : ∀ o ∈ op :: rest, o.Fits s.shared t := by
    rw [← todo]
    exact placed.fits t
  have later : ∀ {o : Op ι} {u : Thread ι}, o.Fits s.shared u → o.Fits shared u := by
    refine fun fits => fits.later (fun e inside => ?_) (fun y done => ?_) fun y closing => ?_
    · rwa [Shared.exec_attached run]
    · rcases Shared.exec_writes run y with same | write
      · rwa [same]
      · exact write.same.2.1.trans done
    · rcases Shared.exec_writes run y with same | write
      · rwa [same]
      · exact write.closing_mono closing
  refine placed.keep (Shared.exec_attached run) (Shared.exec_waiting run) ?_ ?_ ?_ ?_ ?_
  · intro y done
    rcases Shared.exec_writes run y with same | write
    · rw [State.goOn_shared, same]
      exact ⟨done, rfl⟩
    · obtain ⟨info, handshake, -⟩ := write.same
      exact ⟨handshake.trans done, info⟩
  · intro u o inside
    rw [State.goOn_ops] at inside
    split at inside
    · next same =>
        cases same
        rcases List.mem_append.mp inside with new | old
        · exact later (Shared.exec_fits placed.peers (fits op List.mem_cons_self) run o new)
        · exact later (fits o (List.mem_cons_of_mem _ old))
    · exact later (placed.fits u o inside)
  · intro x y set
    rcases Shared.exec_writes run x with same | write
    · exact placed.peers x y (by rwa [← same])
    · rcases write.peer_eq set with set | rfl
      · exact placed.peers x y set
      · exact (fits _ List.mem_cons_self).met
  · intro x told
    rcases Shared.exec_writes run x with same | write
    · exact placed.readied x (by rwa [← same])
    · rcases write.readied_of told with told | ⟨p, rfl⟩
      · exact placed.readied x told
      · exact ⟨p, fits _ List.mem_cons_self⟩
  · intro x timed
    rcases Shared.exec_writes run x with same | write
    · exact placed.timers x (by rwa [← same])
    · rcases write.timed_of timed with timed | rfl | rfl
      · exact placed.timers x timed
      · exact fits _ List.mem_cons_self
      · exact (fits _ List.mem_cons_self).2

/-- A session changed in what concerns neither its place, its peer nor its timer. -/
structure Session.Aside (c c' : Session ι) : Prop where
  settings : c.handshakeDone = true → c'.handshakeDone = true ∧ c'.info = c.info
  peer : c'.peer = c.peer
  readied : c'.readied = c.readied
  timed : c'.Timed → c.Timed
  closing : c.closing = true → c'.closing = true

theorem Placed.modify {s : State ι} {x : ι} {g : Session ι → Session ι}
    {ops : Thread ι → List (Op ι)} (placed : Placed s)
    (aside : (s.shared.session x).Aside (g (s.shared.session x)))
    (fits : ∀ t, ∀ op ∈ ops t, op.Fits s.shared t) : Placed ⟨s.shared.modify x g, ops⟩ := by
  refine placed.keep rfl (List.Sublist.refl _) ?_ ?_ ?_ ?_ ?_
  · intro y done
    rw [Shared.modify_session]
    split
    · next same =>
        cases same
        exact aside.settings done
    · exact ⟨done, rfl⟩
  · intro t op inside
    refine (fits t op inside).later (fun _ => id) (fun y flag => ?_) fun y flag => ?_
    all_goals
      rw [Shared.modify_session]
      split
    · next same =>
        cases same
        exact (aside.settings flag).1
    · exact flag
    · next same =>
        cases same
        exact aside.closing flag
    · exact flag
  · intro y z set
    rw [Shared.modify_session] at set
    split at set
    · next same =>
        cases same
        exact placed.peers _ _ (aside.peer ▸ set)
    · exact placed.peers _ _ set
  · intro y told
    rw [Shared.modify_session] at told
    split at told
    · next same =>
        cases same
        exact placed.readied _ (aside.readied ▸ told)
    · exact placed.readied _ told
  · intro y set
    rw [Shared.modify_session] at set
    split at set
    · next same =>
        cases same
        exact placed.timers _ (aside.timed set)
    · exact placed.timers _ set

/-- The same with the code of one thread replaced by code that fits. -/
theorem Placed.goOn {s : State ι} {t : Thread ι} {x : ι} {g : Session ι → Session ι}
    {ops : List (Op ι)} (placed : Placed s)
    (aside : (s.shared.session x).Aside (g (s.shared.session x)))
    (fits : ∀ op ∈ ops, op.Fits s.shared t) : Placed (s.goOn t (s.shared.modify x g, ops)) := by
  refine placed.modify aside fun u op inside => ?_
  rw [Function.update_apply] at inside
  split at inside
  · next same =>
      cases same
      exact fits op inside
  · exact placed.fits u op inside

theorem Placed.fire {ctx : ServerContext ι} {s s' : State ι} {x : ι} (placed : Placed s)
    (step : s.step ctx (.fire x) = some s') : Placed s' := by
  obtain ⟨posted, rfl⟩ := State.step_fire step
  refine placed.goOn ⟨fun done => ⟨done, rfl⟩, rfl, rfl, ?_, id⟩ ?_
  · rintro (armed | posted | failed)
    · exact .inl armed
    · cases posted
    · exact .inr (.inr failed)
  · intro op inside
    rcases List.mem_append.mp inside with old | new
    · exact placed.fits _ op old
    · cases List.mem_singleton.mp new
      exact ⟨rfl, placed.timers x (.inr (.inl posted))⟩

theorem Placed.write {ctx : ServerContext ι} {s s' : State ι} {x : ι} {sent : Bool}
    (placed : Placed s) (step : s.step ctx (.write x sent) = some s') : Placed s' := by
  obtain ⟨c, written, rfl⟩ := State.step_write step
  have queue := Session.write_queued written
  have readied : c.readied = (s.shared.session x).readied := by
    rw [Session.readied, queue, Session.readied]
  unfold Session.write at written
  split at written
  · cases written
    exact placed.modify ⟨fun done => ⟨done, rfl⟩, rfl, readied, id, id⟩ placed.fits
  · cases written

theorem Placed.expire {ctx : ServerContext ι} {s s' : State ι} {x : ι}
    (placed : Placed s) (step : s.step ctx (.expire x) = some s') : Placed s' := by
  obtain ⟨-, rfl⟩ := State.step_expire step
  exact placed.modify ⟨fun done => ⟨done, rfl⟩, rfl, rfl, id, id⟩ placed.fits

omit [DecidableEq ι] in
/-- A session that is about to attach has not attached. -/
theorem Placed.unattached {s : State ι} {x : ι} (placed : Placed s)
    (first : (s.shared.session x).handshakeDone = false) (r : Option ι) :
    (x, r) ∉ s.shared.attached := by
  intro inside
  rw [(placed.known x r inside).1] at first
  cases first

/-- `attach` puts the session into the waiting map, or takes the other one out. -/
theorem Placed.attach {s : State ι} {x : ι} {info : HandshakeInfo} {r : Option ι}
    {waiting : List (String × ι)} {ops : List (Op ι)} (placed : Placed s)
    (first : (s.shared.session x).handshakeDone = false) (pair : info.soloMode = false)
    (matching : Matching ((x, r) :: s.shared.attached)) (rooms : (waiting.map Prod.fst).Nodup)
    (waits : ∀ e ∈ waiting, e = (info.room, x) ∧ r = none ∨
      e ∈ s.shared.waiting ∧ r ≠ some e.2)
    (fits : ∀ shared : Shared ι, shared.attached = (x, r) :: s.shared.attached →
      ∀ op ∈ ops, op.Fits shared (.reader x)) :
    Placed (s.goOn (.reader x) (s.shared.register x info r waiting, ops)) := by
  have fresh := placed.unattached first
  have other : ∀ {y : ι} {r' : Option ι}, (y, r') ∈ s.shared.attached → y ≠ x := by
    rintro y r' inside rfl
    exact fresh r' inside
  have later : ∀ {y z : ι}, Met s.shared.attached y z → Met ((x, r) :: s.shared.attached) y z :=
    fun met => met.later _
  refine ⟨matching, rooms, ?_, ?_, ?_, ?_, ?_, ?_⟩
  · intro e inside
    rcases waits e inside with ⟨rfl, rfl⟩ | ⟨old, unmet⟩
    · refine ⟨List.mem_cons_self, fun j here => ?_, by simp⟩
      rcases List.mem_cons.mp here with same | old
      · cases same
      · exact fresh none (placed.matching.waited old)
    · obtain ⟨waited, free, room⟩ := placed.waits e old
      refine ⟨List.mem_cons_of_mem _ waited, fun j here => ?_, ?_⟩
      · rcases List.mem_cons.mp here with same | old
        · cases same
          exact unmet rfl
        · exact free j old
      · simpa [other waited] using room
  · intro y r' inside
    rcases List.mem_cons.mp inside with same | old
    · cases same
      simpa using pair
    · simpa [other old] using placed.known y r' old
  · intro u op inside
    rw [State.goOn_ops] at inside
    split at inside
    · next same =>
        cases same
        exact fits _ rfl op inside
    · refine (placed.fits u op inside).later (fun e => List.mem_cons_of_mem _) (fun y flag => ?_)
        fun y flag => (Shared.register_keeps Session.closing (fun _ => rfl) y).trans flag
      rw [State.goOn_shared, Shared.register_session]
      split
      · rfl
      · exact flag
  · intro y z set
    exact later (placed.peers y z ((Shared.register_keeps Session.peer (fun _ => rfl) y).symm.trans
      set))
  · intro y told
    obtain ⟨z, met⟩ := placed.readied y
      ((Shared.register_keeps Session.readied (fun _ => rfl) y).symm.trans told)
    exact ⟨z, later met⟩
  · intro y timed
    exact List.mem_cons_of_mem _ (placed.timers y
      ((Shared.register_keeps Session.Timed (fun _ => rfl) y).mp timed))

theorem Placed.receive {ctx : ServerContext ι} {s s' : State ι} {x : ι} {r : Received}
    (placed : Placed s) (step : s.step ctx (.receive x r) = some s') : Placed s' := by
  obtain ⟨-, rfl⟩ := State.step_receive step
  have spec := s.shared.receive_spec ctx x r
  rw [show s.shared.receive ctx x r = ((s.shared.receive ctx x r).1, (s.shared.receive ctx x r).2)
    from rfl]
  generalize (s.shared.receive ctx x r).1 = shared, (s.shared.receive ctx x r).2 = ops at spec ⊢
  cases spec with
  | aside info done sent ops settings plain =>
      refine placed.goOn ⟨?_, rfl, rfl, id, id⟩ ?_
      · intro handshake
        obtain ⟨rfl, rfl⟩ := settings handshake
        exact ⟨rfl, rfl⟩
      · intro op inside
        rcases List.mem_append.mp inside with own | last
        · exact .of_plain (plain op own)
        · cases List.mem_singleton.mp last
          rfl
  | @waits info first pair =>
      have fresh := placed.unattached first
      refine placed.attach first pair (.waits placed.matching fresh) ?_ ?_ ?_
      · refine List.nodup_cons.mpr
          ⟨fun again => ?_, placed.rooms.sublist (List.filter_sublist.map _)⟩
        obtain ⟨e, inside, same⟩ := List.mem_map.mp again
        exact (Shared.mem_eraseRoom.mp inside).2 same
      · intro e inside
        rcases List.mem_cons.mp inside with same | old
        · exact .inl ⟨same, rfl⟩
        · exact .inr ⟨(Shared.mem_eraseRoom.mp old).1, nofun⟩
      · intro shared attached op inside
        simp only [List.mem_cons, List.not_mem_nil, or_false] at inside
        rcases inside with rfl | rfl | rfl
        · trivial
        · simp [Op.Fits, attached]
        · rfl
  | @meets info w first pair asks waiting alive =>
      have fresh := placed.unattached first
      obtain ⟨waited, unmet, room⟩ := placed.waits _ waiting
      refine placed.attach first pair (.meets placed.matching fresh waited unmet)
        (placed.rooms.sublist (List.filter_sublist.map _)) ?_ ?_
      · intro e inside
        obtain ⟨old, elsewhere⟩ := Shared.mem_eraseRoom.mp inside
        refine .inr ⟨old, fun same => elsewhere ?_⟩
        cases same
        rw [← (placed.waits e old).2.2]
        exact room
      · intro shared attached op inside
        have joined : (x, some w) ∈ shared.attached := attached ▸ List.mem_cons_self
        simp only [pairing, List.mem_cons, List.mem_append, List.not_mem_nil, or_false] at inside
        rcases inside with rfl | (rfl | rfl | rfl | rfl | rfl | rfl | rfl | rfl | rfl | rfl | rfl |
          rfl) | rfl
        all_goals simp [Op.Fits, Met, Joins, joined]
  | accepted payload done fits within =>
      refine placed.goOn ⟨fun done => ⟨done, rfl⟩, rfl, rfl, id, id⟩ ?_
      simp [Op.Fits, done]
  | exceeded done beyond =>
      refine placed.goOn ⟨fun done => ⟨done, rfl⟩, rfl, rfl, id, id⟩ ?_
      simp [failure, failSession, Op.Fits]

theorem Placed.step {ctx : ServerContext ι} {s s' : State ι} {act : Action ι} (placed : Placed s)
    (step : s.step ctx act = some s') : Placed s' := by
  cases act with
  | run t => exact placed.run step
  | receive x r => exact placed.receive step
  | fire x => exact placed.fire step
  | write x sent => exact placed.write step
  | expire x => exact placed.expire step

theorem placed_of_via {ctx : ServerContext ι} {ok : State ι → Action ι → Prop} {s : State ι}
    (run : (chat ctx).Via ok s) : Placed s :=
  run.invariant (fun _ start => .init start) fun _ _ _ placed _ step => placed.step step

/-! ## Exclusive pairs -/

omit [DecidableEq ι] in
/-- Pairs are exclusive: a room has one place in the waiting map and whoever waits there is in that
room, nobody is returned as a partner twice or to itself, and two peer pointers that are set agree.
-/
structure Exclusive (s : Shared ι) : Prop where
  oneWaits : (s.waiting.map Prod.fst).Nodup
  ownRoom : ∀ e ∈ s.waiting, (s.session e.2).info.room = e.1
  returnedOnce : (s.attached.filterMap Prod.snd).Nodup
  notItself : ∀ x, (x, some x) ∉ s.attached
  symmetric : ∀ x y z, (s.session x).peer = some y → (s.session y).peer = some z → z = x

omit [DecidableEq ι] in
theorem Placed.exclusive {s : State ι} (placed : Placed s) : Exclusive s.shared where
  oneWaits := placed.rooms
  ownRoom := fun e inside => (placed.waits e inside).2.2
  returnedOnce := placed.matching.returned_once
  notItself := placed.matching.not_returned_self
  symmetric := fun x y z there back =>
    placed.matching.met_unique (placed.peers y z back) (placed.peers x y there).symm

/-! ## The wait timeout -/

/-- The callback of the wait timer of `x` has passed its tests. -/
def State.Decided (s : State ι) (x : ι) : Prop :=
  (s.shared.session x).timedOut = true ∨ .timeoutFail x ∈ s.ops (.callback x)

instance (s : State ι) (x : ι) : Decidable (s.Decided x) :=
  inferInstanceAs (Decidable (_ ∨ _))

/-- The session whose peer pointer a callback is about to test. -/
def State.tested (s : State ι) : Action ι → Option ι
  | .run t =>
      match (s.ops t).head? with
      | some (.timeoutPeer x) => some x
      | _ => none
  | _ => none

/-- The room that the registry is about to be asked for. -/
def State.asked (ctx : ServerContext ι) (s : State ι) : Action ι → Option String
  | .receive x r => s.shared.roomAsked ctx x r
  | _ => none

/-- The wait timeout does not cross the pairing: the callback tests no peer pointer between the
return of the session by `attach` and the store to that pointer, and nobody asks for a room under
which a session waits whose callback has passed its tests and has not yet marked it as closing. -/
structure Timely (ctx : ServerContext ι) (s : State ι) (act : Action ι) : Prop where
  test : ∀ x ∈ s.tested act, (s.shared.lock (s.shared.session x).peer).isSome = true ∨
    ∀ e ∈ s.shared.attached, e.2 ≠ some x
  join : ∀ room ∈ s.asked ctx act, ∀ e ∈ s.shared.waiting, e.1 = room →
    (s.shared.session e.2).closing = false → ¬ s.Decided e.2

instance (ctx : ServerContext ι) (s : State ι) (act : Action ι) : Decidable (Timely ctx s act) :=
  decidable_of_iff (_ ∧ _) ⟨fun h => ⟨h.1, h.2⟩, fun h => ⟨h.test, h.join⟩⟩

/-- A session whose callback has passed its tests has no partner. -/
def Unpaired (s : State ι) : Prop :=
  ∀ x, s.Decided x → ∀ y, ¬ Met s.shared.attached x y

omit [DecidableEq ι] in
theorem Placed.decided_waited {s : State ι} {x : ι} (placed : Placed s) (decided : s.Decided x) :
    (x, none) ∈ s.shared.attached := by
  rcases decided with failed | next
  · exact placed.timers x (.inr (.inr failed))
  · exact (placed.fits _ _ next).2

omit [DecidableEq ι] in
/-- A move after which nobody is decided or paired who was not before. -/
theorem Unpaired.keep {s s' : State ι} (unpaired : Unpaired s)
    (decided : ∀ x, s'.Decided x → s.Decided x)
    (met : ∀ x y, Met s'.shared.attached x y → Met s.shared.attached x y) : Unpaired s' :=
  fun x late y paired => unpaired x (decided x late) y (met x y paired)

theorem Unpaired.run {ctx : ServerContext ι} {s s' : State ι} {t : Thread ι} (placed : Placed s)
    (unpaired : Unpaired s) (timely : Timely ctx s (.run t))
    (step : s.step ctx (.run t) = some s') : Unpaired s' := by
  obtain ⟨op, rest, shared, ops, todo, run, rfl⟩ := State.step_run step
  have first : op ∈ s.ops t := todo ▸ List.mem_cons_self
  intro x decided y met
  rw [State.goOn_shared, Shared.exec_attached run] at met
  rcases decided with failed | next
  · rcases Shared.exec_writes run x with same | write
    · exact unpaired x (.inl (same ▸ failed)) y met
    · rcases write.timedOut_of failed with failed | rfl
      · exact unpaired x (.inl failed) y met
      · obtain ⟨rfl, -⟩ := placed.fits t _ first
        exact unpaired x (.inr first) y met
  · rw [State.goOn_ops] at next
    split at next
    · next same =>
        cases same
        rcases List.mem_append.mp next with new | old
        · -- the test of the peer pointer has just been passed
          obtain ⟨rfl, none⟩ := Shared.exec_timeoutFail run new
          have waited := (placed.fits _ _ first).2
          have tested : x ∈ s.tested (.run (.callback x)) := by simp [State.tested, todo]
          rcases timely.test x tested with some | unreturned
          · rw [none] at some
            cases some
          · rcases met with joined | returned
            · cases placed.matching.arrived_once waited joined
            · exact unreturned _ returned rfl
        · exact unpaired x (.inr (todo ▸ List.mem_cons_of_mem _ old)) y met
    · exact unpaired x (.inr next) y met

theorem Unpaired.receive {ctx : ServerContext ι} {s s' : State ι} {x : ι} {r : Received}
    (placed : Placed s) (unpaired : Unpaired s) (timely : Timely ctx s (.receive x r))
    (step : s.step ctx (.receive x r) = some s') : Unpaired s' := by
  obtain ⟨-, rfl⟩ := State.step_receive step
  have spec := s.shared.receive_spec ctx x r
  rw [show s.shared.receive ctx x r = ((s.shared.receive ctx x r).1, (s.shared.receive ctx x r).2)
    from rfl]
  have join := timely.join
  change ∀ room ∈ s.shared.roomAsked ctx x r, _ at join
  generalize (s.shared.receive ctx x r).1 = shared, (s.shared.receive ctx x r).2 = ops,
    s.shared.roomAsked ctx x r = asked at spec join ⊢
  have decided : ∀ {shared : Shared ι} {ops : List (Op ι)},
      (∀ y, (shared.session y).timedOut = (s.shared.session y).timedOut) →
      ∀ y, (s.goOn (.reader x) (shared, ops)).Decided y → s.Decided y := by
    intro shared ops same y late
    rcases late with failed | next
    · exact .inl ((same y).symm.trans failed)
    · exact .inr (by simpa using next)
  cases spec with
  | aside info done sent ops settings plain =>
      exact unpaired.keep (decided (Shared.modify_keeps Session.timedOut fun _ => rfl))
        fun _ _ => id
  | accepted payload done fits within =>
      exact unpaired.keep (decided (Shared.modify_keeps Session.timedOut fun _ => rfl))
        fun _ _ => id
  | exceeded done beyond =>
      exact unpaired.keep (decided (Shared.modify_keeps Session.timedOut fun _ => rfl))
        fun _ _ => id
  | waits first pair =>
      refine unpaired.keep (decided (Shared.register_keeps Session.timedOut fun _ => rfl)) ?_
      intro y z met
      refine met.imp (fun here => ?_) fun here => ?_ <;>
        exact (List.mem_cons.mp here).resolve_left (by simp)
  | @meets info w first pair asks waiting alive =>
      intro y late z met
      have late := decided (Shared.register_keeps Session.timedOut fun _ => rfl) y late
      rcases met with joined | returned
      · rcases List.mem_cons.mp joined with new | old
        · cases new
          exact placed.unattached first _ (placed.decided_waited late)
        · exact unpaired y late z (.inl old)
      · rcases List.mem_cons.mp returned with new | old
        · cases new
          exact join _ asks _ waiting rfl alive late
        · exact unpaired y late z (.inr old)

theorem Unpaired.step {ctx : ServerContext ι} {s s' : State ι} {act : Action ι}
    (placed : Placed s) (unpaired : Unpaired s) (timely : Timely ctx s act)
    (step : s.step ctx act = some s') : Unpaired s' := by
  have aside : ∀ {ops : Thread ι → List (Op ι)} {x : ι} {g : Session ι → Session ι},
      (∀ y, .timeoutFail y ∈ ops (.callback y) → .timeoutFail y ∈ s.ops (.callback y)) →
      (g (s.shared.session x)).timedOut = (s.shared.session x).timedOut →
      Unpaired ⟨s.shared.modify x g, ops⟩ := by
    intro ops x g todo same
    refine unpaired.keep (fun y late => late.imp (fun failed => ?_) (todo y)) fun _ _ => id
    rw [Shared.modify_session] at failed
    split at failed
    · next here =>
        rw [here, ← same]
        exact failed
    · exact failed
  cases act with
  | run t => exact unpaired.run placed timely step
  | receive x r => exact unpaired.receive placed timely step
  | fire x =>
      obtain ⟨-, rfl⟩ := State.step_fire step
      refine @aside _ x (fun c => { c with waitTimerPosted := false }) (fun y next => ?_) rfl
      rw [Function.update_apply] at next
      split at next
      · next same =>
          cases same
          simpa using next
      · exact next
  | write x sent =>
      obtain ⟨c, written, rfl⟩ := State.step_write step
      refine aside (fun _ => id) ?_
      unfold Session.write at written
      split at written
      · cases written
        rfl
      · cases written
  | expire x =>
      obtain ⟨-, rfl⟩ := State.step_expire step
      exact aside (fun _ => id) rfl

theorem unpaired_of_via {ctx : ServerContext ι} {s : State ι}
    (run : (chat ctx).Via (Timely ctx) s) : Unpaired s := by
  refine run.invariant_reach (fun s start => ?_) fun s act t before unpaired timely step =>
    unpaired.step (placed_of_via before) timely step
  cases start
  rintro x (failed | next)
  · cases failed
  · cases next

/-- **Pairing.**  In every run pairs are exclusive.  In a run whose steps are timely moreover no
session both receives `ready` with a peer and is failed by its wait timeout. -/
theorem pairing_exclusive {ctx : ServerContext ι} :
    (∀ s, (chat ctx).Reachable s → Exclusive s.shared) ∧
    ∀ s, (chat ctx).Via (Timely ctx) s → Exclusive s.shared ∧
      ∀ x, ¬ ((s.shared.session x).readied = true ∧ (s.shared.session x).timedOut = true) := by
  refine ⟨fun s run => (placed_of_via run).exclusive, fun s run => ?_⟩
  refine ⟨(placed_of_via run).exclusive, ?_⟩
  rintro x ⟨told, failed⟩
  obtain ⟨y, met⟩ := (placed_of_via run).readied x told
  exact unpaired_of_via run x (.inl failed) y met

/-! ## Two clients in one room -/

namespace Example

/-- The bytes of a text. -/
def ascii (text : String) : Bytes := text.toList.map fun c => UInt8.ofNat c.toNat

def helloText : Bytes :=
  ascii "\x7b\"type\":\"hello\",\"room\":\"r\",\"client_id\":\"c\"\x7d"

/-- A server whose clients send that text. -/
def oneRoom : ServerContext Bool where
  parse payload :=
    if payload = helloText then .hello { room := .holds "r", clientId := .holds "c" }
    else .invalid "parse error"
  address _ := 0

/-- The reader of `x` runs that many stretches. -/
def runs (x : Bool) (n : Nat) : List (Action Bool) := List.replicate n (.run (.reader x))

/-- `false` waits, and its callback has found the timer armed. -/
def entered : List (Action Bool) :=
  runs false 1 ++ .receive false (.frame kFrameTypeControl helloText) :: runs false 3 ++
    [.fire false, .run (.callback false)]

/-- `true` joins and runs that many stretches, and then the callback goes on. -/
def joinedAfter (n : Nat) : List (Action Bool) :=
  entered ++ runs true 1 ++ .receive true (.frame kFrameTypeControl helloText) :: runs true n ++
    [.run (.callback false), .run (.callback false)]

/-- The callback goes on behind the stores to the peer pointers. -/
theorem pairing_exclusive_paired : ∃ s, (chat oneRoom).Via (Timely oneRoom) s ∧
    (s.shared.session false).readied = true ∧ (s.shared.session false).timedOut = false := by
  obtain ⟨s, run, told⟩ : ∃ s, (chat oneRoom).execOk (Timely oneRoom) State.start
      (joinedAfter 7) = some s ∧ (s.shared.session false).readied = true :=
    ⟨_, rfl, rfl⟩
  have reach : (chat oneRoom).Via (Timely oneRoom) s := .execOk (.init rfl) run
  refine ⟨s, reach, told, Bool.eq_false_iff.mpr fun failed => ?_⟩
  exact (pairing_exclusive.2 s reach).2 false ⟨told, failed⟩

/-- **The callback goes on behind `ready`**, and fails a session that was told that it has a
peer. -/
theorem ready_and_failed : ¬ ∀ s, (chat oneRoom).Reachable s →
    ∀ x, ¬ ((s.shared.session x).readied = true ∧ (s.shared.session x).timedOut = true) := by
  intro never
  obtain ⟨s, run, told, failed⟩ : ∃ s, (chat oneRoom).exec State.start
      (joinedAfter 5 ++ [.run (.callback false)]) = some s ∧
      (s.shared.session false).readied = true ∧ (s.shared.session false).timedOut = true :=
    ⟨_, rfl, rfl, rfl⟩
  exact never s (Machine.Via.exec (.init rfl) run) false ⟨told, failed⟩

end Example

end CoWq.Chat
