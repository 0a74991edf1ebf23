import CoWq.Sync.TimedWait

/-!
# Which waits have a token

`acquire` takes a token without writing `req_sta`, and `on_timer` overwrites it when the
request is already granted: then a wait reports a failure and has a token.

* `total`: tokens are only moved.
* `Undecided`: a token is taken for a timed request only while its wait is undecided.
* `accounted_of_undecided`: then `await_resume` tells who has a token.
* `lost_token`: otherwise a timeout loses it.
-/

namespace CoWq.Semaphore

variable {A : Type*} [DecidableEq A] {kind : A → Kind} {v₀ : Int} {s t : State A}
  {act : Action A} {a : A}

/-! ## Tokens are conserved -/

/-- The tokens, those taken included, without those that `release` added. -/
def State.total (s : State A) : Int := s.curVal + s.taken.length - s.incs

omit [DecidableEq A] in
theorem total_tryAcquire : (tryAcquire s a).1.total = s.total := by
  unfold tryAcquire State.total
  split
  · simp only [List.length_append, List.length_singleton]
    omega
  · rfl

theorem total_acquire : (acquire s a).total = s.total := by
  unfold acquire State.total
  split
  · simp only [List.length_append, List.length_singleton]
    omega
  · rfl

omit [DecidableEq A] in
theorem total_release : (release s).total = s.total := by
  unfold release State.total
  split
  · simp only
    omega
  · rfl

theorem total_chkReq : (chkReq s a).total = s.total := by
  unfold chkReq State.total
  split
  · rfl
  · split
    · simp only [List.length_append, List.length_singleton]
      omega
    · rfl

theorem total_foldl {l : List A} : (l.foldl chkReq s).total = s.total := by
  induction l generalizing s with
  | nil => rfl
  | cons a l ih => exact ih.trans total_chkReq

theorem total_cancelTimeout {fuel : Nat} (run : cancelTimeout s a fuel = some t) :
    t.total = s.total := by
  obtain ⟨u, -, rfl⟩ := Option.map_eq_some_iff.mp run
  rfl

theorem total_dispatch {n : Node A} : (dispatch s n).total = s.total := by
  cases n <;> rfl

theorem total_step (run : step kind s act = some t) : t.total = s.total := by
  cases act <;> simp only [step] at run
  case release =>
    cases run
    exact total_release
  case tickUpdate =>
    cases run
    rfl
  case workOnce =>
    split at run <;> cases run
    exact total_dispatch
  case semChkCb =>
    obtain ⟨-, run⟩ := Option.ite_none_right_eq_some.mp run
    cases run
    exact total_foldl
  case timChkCb now fuel =>
    obtain ⟨-, run⟩ := Option.ite_none_right_eq_some.mp run
    obtain ⟨r, -, rfl⟩ := Option.map_eq_some_iff.mp run
    rfl
  case awaitReady a =>
    obtain ⟨-, run⟩ := Option.ite_none_right_eq_some.mp run
    have kept : (tryAcquire s a).1.total = s.total := total_tryAcquire
    split at run
    · cases run
      rfl
    · split at run <;> rename_i got <;> cases run <;> rw [got] at kept <;> exact kept
  case postDelayed a now =>
    obtain ⟨-, run⟩ := Option.ite_none_right_eq_some.mp run
    split at run
    · split at run <;> cases run <;> rfl
    · cases run
      rfl
  case acquire a =>
    obtain ⟨-, run⟩ := Option.ite_none_right_eq_some.mp run
    cases run
    exact total_acquire
  case reqExchange | tmoExchange =>
    obtain ⟨-, run⟩ := Option.ite_none_right_eq_some.mp run
    split at run <;> cases run <;> rfl
  case reqCancel a fuel =>
    obtain ⟨-, run⟩ := Option.ite_none_right_eq_some.mp run
    have kept := total_cancelTimeout run
    exact kept
  case awaitResume a =>
    obtain ⟨-, run⟩ := Option.ite_none_right_eq_some.mp run
    split at run <;> cases run
    · exact total_tryAcquire
    · rfl
  case destroy a fuel =>
    obtain ⟨-, run⟩ := Option.ite_none_right_eq_some.mp run
    split at run
    · have kept := total_cancelTimeout run
      exact kept
    · cases run
      rfl
  all_goals
    obtain ⟨-, run⟩ := Option.ite_none_right_eq_some.mp run
    cases run
    rfl

theorem total_of_via {ok : State A → Action A → Prop} (run : (semaphore kind v₀).Via ok s) :
    s.total = v₀ := by
  refine run.invariant (I := fun s => s.total = v₀) ?_ ?_
  · intro s start
    simp [State.total, start.curVal, start.taken, start.incs]
  · exact fun s act t before _ step => (total_step step).trans before

/-! ## Tokens and answers -/

/-- `sem_chk_cb` grants a timed request only while `armed`, the fast path of `acquire`
serves one only with `armed` set and `req_sta` at `REQ_OK`, and `on_timer` wins only over
a request that is not granted. -/
def Undecided (kind : A → Kind) (s : State A) : Action A → Prop
  | .semChkCb => ∀ a ∈ s.granted, (kind a).timed = true → (s.wait a).armed = true
  | .acquire a => 0 < s.curVal → (kind a).timed = true →
      (s.wait a).armed = true ∧ (s.wait a).reqSta = reqOk
  | .tmoExchange a => (s.wait a).armed = true → (view s a).reqOut = false
  | _ => True

theorem Accounted.init {k : Kind} {w : Wait} (fresh : w.Init) :
    Accounted k ⟨w, false, false, false, false, 0⟩ := by
  obtain ⟨suspend, reqPc, tmoPc, life, armed, -, immediate, result⟩ := fresh
  constructor <;> simp [View.granted, suspend, reqPc, tmoPc, life, armed, immediate, result]

theorem Undecided.view {e : Event} (undecided : Undecided kind s act)
    (cause : act.Causes s a e) : (view s a).Undecided (kind a) e := by
  cases e with
  | grant =>
      obtain ⟨rfl, granted⟩ := cause
      exact undecided a granted
  | acquired =>
      obtain ⟨rfl, token⟩ := cause
      exact undecided token
  | tmoExchange =>
      cases cause
      exact undecided
  | _ => exact trivial

theorem accounted (run : (semaphore kind v₀).Via (Undecided kind) s) (a : A) :
    Accounted (kind a) (view s a) :=
  via_views (I := Accounted) (fun fresh => .init fresh)
    (fun h loc guard step => h.step loc guard step)
    (fun {s act _ _} (guard : Undecided kind s act) cause => guard.view cause) run a

/-- A wait for which a token was taken has begun. -/
theorem begun_of_taken (run : (semaphore kind v₀).Via (Undecided kind) s) (mem : a ∈ s.taken) :
    (s.wait a).suspend ≠ .fresh ∨ (s.wait a).life ≠ .waiting := by
  have loc := (via_local run).2 a
  have some_token : (view s a).taken ≠ 0 := Nat.pos_iff_ne_zero.mp (List.count_pos_iff.mpr mem)
  by_cases try_ : kind a = .waitSemTry
  · obtain ⟨-, taken⟩ := loc.tried try_
    by_cases success : (view s a).result = some true
    · exact .inr ((accounted run a).result true success).1
    · rw [if_neg success] at taken
      exact (some_token taken).elim
  · have taken := loc.token try_
    by_cases had : ((view s a).suspend = .fresh ∧ (view s a).life ≠ .waiting) ∨
        (view s a).granted = true
    · rcases had with ⟨-, resumed⟩ | granted
      · exact .inr resumed
      · left
        have done : (view s a).suspend = .done := by
          simp only [View.granted, Bool.or_eq_true, bne_iff_ne] at granted
          rcases granted with queued | popped
          · exact (loc.queue queued).1
          · exact loc.req popped
        intro fresh
        exact absurd (done.symm.trans fresh) (by decide)
    · rw [if_neg had] at taken
      exact (some_token taken).elim

/-- **The answer of a wait tells whether a token was taken for it**, as long as tokens are
taken for timed requests only while their wait is undecided.  When every wait that has
begun has its answer, the tokens left and the waits that succeeded make up what there was
at the start and what `release` added. -/
theorem accounted_of_undecided (run : (semaphore kind v₀).Via (Undecided kind) s) :
    (∀ a b, (s.wait a).result = some b →
      (b = true ↔ s.taken.count a = 1) ∧ (b = false → s.taken.count a = 0)) ∧
    ((∀ a, (s.wait a).suspend ≠ .fresh ∨ (s.wait a).life ≠ .waiting →
        (s.wait a).result ≠ none) →
      s.curVal + {a | (s.wait a).result = some true}.ncard - s.incs = v₀) := by
  have tells : ∀ a b, (s.wait a).result = some b → s.taken.count a = b.toNat :=
    fun a b answer => ((accounted run a).result b answer).2
  refine ⟨fun a b answer => ?_, fun quiet => ?_⟩
  · rw [tells a b answer]
    cases b <;> decide
  · have nodup : s.taken.Nodup :=
      List.nodup_iff_count_le_one.mpr fun a => ((via_local run).2 a).taken_le_one
    have succeeded : {a | (s.wait a).result = some true} = ↑s.taken.toFinset := by
      ext a
      rw [Set.mem_ofPred_eq, Finset.mem_coe, List.mem_toFinset]
      constructor
      · intro answer
        rw [← List.one_le_count_iff, tells a true answer]
        exact le_refl 1
      · intro mem
        obtain ⟨b, answer⟩ := Option.ne_none_iff_exists'.mp (quiet a (begun_of_taken run mem))
        have one := List.one_le_count_iff.mpr mem
        rw [tells a b answer] at one
        cases b with
        | false => exact absurd one (by decide)
        | true => exact answer
    rw [succeeded, Set.ncard_coe_finset, List.toFinset_card_of_nodup nodup]
    exact total_of_via run

/-! ## Runs -/

instance (s : State A) (act : Action A) : Decidable (Undecided kind s act) :=
  match act with
  | .semChkCb => inferInstanceAs
      (Decidable (∀ a ∈ s.granted, (kind a).timed = true → (s.wait a).armed = true))
  | .acquire a => inferInstanceAs (Decidable (0 < s.curVal → (kind a).timed = true →
      (s.wait a).armed = true ∧ (s.wait a).reqSta = reqOk))
  | .tmoExchange a =>
      inferInstanceAs (Decidable ((s.wait a).armed = true → (view s a).reqOut = false))
  | .release => .isTrue trivial
  | .releasePost => .isTrue trivial
  | .tickUpdate => .isTrue trivial
  | .tickPost => .isTrue trivial
  | .workOnce => .isTrue trivial
  | .semEmpty => .isTrue trivial
  | .timChkCb _ _ => .isTrue trivial
  | .awaitReady _ => .isTrue trivial
  | .store _ => .isTrue trivial
  | .postDelayed _ _ => .isTrue trivial
  | .reqExchange _ => .isTrue trivial
  | .reqCancel _ _ => .isTrue trivial
  | .reqResume _ => .isTrue trivial
  | .cancelWaiter _ => .isTrue trivial
  | .tmoMark _ => .isTrue trivial
  | .tmoResume _ => .isTrue trivial
  | .awaitResume _ => .isTrue trivial
  | .destroy _ _ => .isTrue trivial

/-- A wait that is granted. -/
def grantedRun : List (Action Unit) :=
  suspended ++ ([.release, .releasePost, .workOnce, .semEmpty, .semChkCb, .workOnce,
    .reqExchange (), .reqCancel () 1, .reqResume (), .awaitResume ()] : List (Action Unit))

theorem accounted_of_undecided_granted : ∃ s,
    (semaphore (fun _ => .waitSemFor 5) 0).execOk (Undecided fun _ => .waitSemFor 5)
      (start reqTimeOut) grantedRun = some s ∧
    s.taken.count () = 1 ∧ s.curVal + {a | (s.wait a).result = some true}.ncard - s.incs = 0 := by
  obtain ⟨s, run, answer⟩ : ∃ s,
      (semaphore (fun _ => .waitSemFor 5) 0).execOk (Undecided fun _ => .waitSemFor 5)
        (start reqTimeOut) grantedRun = some s ∧ (s.wait ()).result = some true := ⟨_, rfl, rfl⟩
  obtain ⟨tells, total⟩ := accounted_of_undecided (.execOk (.init (start_init _ _)) run)
  refine ⟨s, run, (tells () true answer).1.mp rfl, total fun a _ => ?_⟩
  rw [answer]
  exact Option.some_ne_none true

/-- The `TimeoutNode` is queued before the request is granted and runs first: the wait
reports a timeout, and the token taken for it is gone.  With `req_sta` left at
`REQ_TIME_OUT`, the fast path of `acquire` does the same without any timeout. -/
theorem lost_token :
    (∃ s, (semaphore (fun _ => .waitSemFor 5) 0).Reachable s ∧
      (s.wait ()).result = some false ∧ s.taken.count () = 1 ∧ s.wsHead = [] ∧
      s.curVal = 0 ∧ s.incs = 1) ∧
    ∃ s, (semaphore (fun _ => .waitSemFor 5) 0).Reachable s ∧
      (s.wait ()).result = some false ∧ s.taken.count () = 1 ∧ (s.wait ()).tmoPc = .idle := by
  constructor
  · obtain ⟨s, run, facts⟩ : ∃ s, (semaphore (fun _ => .waitSemFor 5) 0).exec (start reqOk)
        (suspended ++ ([.tickUpdate, .tickPost, .release, .releasePost, .workOnce,
          .timChkCb 10000000 3, .workOnce, .semEmpty, .semChkCb, .workOnce, .tmoExchange (),
          .cancelWaiter (), .tmoMark (), .tmoResume (), .awaitResume (), .workOnce,
          .reqExchange ()] : List (Action Unit))) = some s ∧
        (s.wait ()).result = some false ∧ s.taken.count () = 1 ∧ s.wsHead = [] ∧
        s.curVal = 0 ∧ s.incs = 1 := ⟨_, rfl, rfl, rfl, rfl, rfl, rfl⟩
    exact ⟨s, .exec (.init (start_init _ _)) run, facts⟩
  · obtain ⟨s, run, facts⟩ : ∃ s, (semaphore (fun _ => .waitSemFor 5) 0).exec
        (start reqTimeOut) [.awaitReady (), .release, .store (), .postDelayed () 0,
          .acquire (), .workOnce, .reqExchange (), .reqCancel () 1, .reqResume (),
          .awaitResume ()] = some s ∧
        (s.wait ()).result = some false ∧ s.taken.count () = 1 ∧ (s.wait ()).tmoPc = .idle :=
      ⟨_, rfl, rfl, rfl, rfl⟩
    exact ⟨s, .exec (.init (start_init _ _)) run, facts⟩

end CoWq.Semaphore
