import CoWq.IO.UsbSlots

/-!
# Every bulk transfer is posted

The accounts of the transfer pool over whole runs.  A waiting awaiter goes up the line each time a
slot comes back, so in a fair run its turn comes.

* `charge`, `rank`: the awaiter whose calls are to go on next for `a`, and how far it is.
* `FairRun`: the calls on each awaiter go on, and libusb completes each transfer.
* `pool_accounted`: the accounts of every state, and every awaiter is posted and its slot released.
* `nowhere`: a slot on its way back is in none of the other places.
-/

namespace CoWq.UsbDevice

variable {A : Type*} [DecidableEq A] {n : Nat} {s t : State A n} {a b : A}

/-! ## How far an awaiter is -/

/-- The awaiter has begun, and its calls are not through. -/
def Due (a : A) (s : State A n) : Prop := s.pc a ≠ .fresh ∧ s.pc a ≠ .returned

/-- The awaiter itself, or while it waits the one with the slot `k`. -/
noncomputable def charge (k : Fin n) (a : A) (s : State A n) : A :=
  if s.pc a = .waiting then @Classical.epsilon A ⟨a⟩ fun b => (s.pc b).held = some k else a

/-- Seven steps for each place in the line, and those of the one in charge. -/
noncomputable def rank (k : Fin n) (a : A) (s : State A n) : Nat :=
  (if s.pc a = .waiting then 7 * (s.waiters.idxOf a + 1) else 0) + (s.pc (charge k a s)).left

omit [DecidableEq A] in
theorem Pc.left_le (p : Pc n) : p.left ≤ 6 := by
  cases p <;> simp [Pc.left]

omit [DecidableEq A] in
theorem charge_self {k : Fin n} (off : s.pc a ≠ .waiting) : charge k a s = a :=
  if_neg off

theorem Sound.charged (sound : Sound s) (k : Fin n) (due : Due a s) :
    (s.pc (charge k a s)).held ≠ none := by
  by_cases waits : s.pc a = .waiting
  · have listed := (sound.told a).listed.mpr waits
    have none : s.freeSlots = [] := sound.pool.busy (List.ne_nil_of_mem listed)
    have held : ∃ b, (s.pc b).held = some k := by
      rcases sound.pool.covered k with free | held
      · rw [show s.pool.free = [] from none] at free
        cases free
      · exact held
    have chosen : (s.pc (charge k a s)).held = some k := by
      unfold charge
      rw [if_pos waits]
      exact Classical.epsilon_spec held
    rw [chosen]
    exact Option.some_ne_none k
  · rw [charge_self waits]
    obtain ⟨begun, on⟩ := due
    cases here : s.pc a with
    | fresh => exact absurd here begun
    | waiting => exact absurd here waits
    | returned => exact absurd here on
    | _ => exact Option.some_ne_none _

omit [DecidableEq A] in
/-- The slots that are held and who waits decide who is in charge. -/
theorem charge_congr {k : Fin n} (hold : t.pool.hold = s.pool.hold)
    (waits : t.pc a = .waiting ↔ s.pc a = .waiting) : charge k a t = charge k a s := by
  by_cases here : s.pc a = .waiting
  · have held : (fun b => (t.pc b).held = some k) = fun b => (s.pc b).held = some k :=
      funext fun b => congrArg (· = some k) (congrFun hold b)
    unfold charge
    rw [if_pos here, if_pos (waits.mpr here), held]
  · rw [charge_self here, charge_self (waits.not.mpr here)]

omit [DecidableEq A] in
theorem agent_congr (pc : t.pc b = s.pc b) : agent t b = agent s b := by
  unfold agent
  rw [pc]

/-- What a step does to an awaiter that is due. -/
def Nearer (k : Fin n) (a : A) (x : Action A n) (s t : State A n) : Prop :=
  ¬ Due a t ∨ rank k a t < rank k a s ∨
    rank k a t ≤ rank k a s ∧ agent t (charge k a t) = agent s (charge k a s) ∧
      ¬ (agent s (charge k a s)).Takes x

/-- The one in charge stays where it is. -/
theorem nearer_of_same {k : Fin n} {x : Action A n} (same : charge k a t = charge k a s)
    (pc : t.pc (charge k a s) = s.pc (charge k a s)) (waits : t.pc a = .waiting ↔ s.pc a = .waiting)
    (line : s.pc a = .waiting → t.waiters.idxOf a = s.waiters.idxOf a)
    (idle : ¬ (agent s (charge k a s)).Takes x) : Nearer k a x s t := by
  right
  right
  refine ⟨le_of_eq ?_, ?_, idle⟩
  · unfold rank
    rw [same, pc]
    by_cases here : s.pc a = .waiting
    · rw [if_pos here, if_pos (waits.mpr here), line here]
    · rw [if_neg here, if_neg (waits.not.mpr here)]
  · rw [same]
    exact agent_congr pc

/-- The calls on `b` go on with their slot. -/
theorem Sound.nearer_of_goesOn (sound : Sound s) {k : Fin n} {x : Action A n} {p : Pc n}
    (due : Due a s) (held : (s.pc b).held ≠ none) (same : p.held = (s.pc b).held)
    (fewer : p.left < (s.pc b).left) (pc : t.pc = Function.update s.pc b p)
    (pool : t.pool = s.pool)
    (takes : ∀ c, (s.pc c).held ≠ none → (agent s c).Takes x → c = b) : Nearer k a x s t := by
  have waits : t.pc a = .waiting ↔ s.pc a = .waiting := by
    rcases eq_or_ne a b with rfl | away
    · rw [pc, Function.update_self]
      apply iff_of_false
      · rintro rfl
        exact held same.symm
      · intro here
        rw [here] at held
        exact held rfl
    · rw [pc, Function.update_of_ne away]
  have charged : charge k a t = charge k a s := charge_congr (congrArg Pool.hold pool) waits
  have line : t.waiters.idxOf a = s.waiters.idxOf a := congrArg (fun p => p.line.idxOf a) pool
  rcases eq_or_ne (charge k a s) b with mine | other
  · right
    left
    unfold rank
    rw [charged, mine, pc, Function.update_self, ← pc, line]
    by_cases here : s.pc a = .waiting
    · rw [if_pos here, if_pos (waits.mpr here)]
      omega
    · rw [if_neg here, if_neg (waits.not.mpr here)]
      omega
  · apply nearer_of_same charged _ waits (fun _ => line)
    · intro taken
      exact other (takes _ (sound.charged k due) taken)
    · rw [pc, Function.update_of_ne other]

/-- Another awaiter begins. -/
theorem Sound.nearer_of_acquire (sound : Sound s) {k : Fin n} (due : Due a s)
    (fresh : s.pc b = .fresh) (pool : t.pool = s.pool.acquire b)
    (pc : ∀ c, c ≠ b → t.pc c = s.pc c) : Nearer k a (.awaitSuspend b) s t := by
  have away : a ≠ b := by
    rintro rfl
    exact due.1 fresh
  have waits : t.pc a = .waiting ↔ s.pc a = .waiting := by rw [pc a away]
  have idle : ∀ c, ¬ (agent s c).Takes (.awaitSuspend b) := by
    intro c
    unfold agent
    split <;> exact id
  have apart : charge k a s ≠ b := by
    intro mine
    have held := sound.charged k due
    rw [mine, fresh] at held
    exact held rfl
  by_cases here : s.pc a = .waiting
  · obtain ⟨-, line, hold⟩ :=
      Pool.idxOf_acquire (b := b) sound.pool ((sound.told a).listed.mpr here)
    rw [← pool] at line hold
    exact nearer_of_same (charge_congr hold waits) (pc _ apart) waits (fun _ => line) (idle _)
  · have same : charge k a t = charge k a s := by
      rw [charge_self here, charge_self (waits.not.mpr here)]
    exact nearer_of_same same (pc _ apart) waits (fun waiting => absurd waiting here) (idle _)

/-- A slot comes back. -/
theorem Sound.nearer_of_release (sound : Sound s) (after : Sound t) {k slot : Fin n}
    (last : s.pc b = .releasing slot) (pool : t.pool = s.pool.release b)
    (finished : t.pc b = .returned) (pc : ∀ c, c ≠ b → c ∉ s.waiters → t.pc c = s.pc c) :
    Nearer k a (.release b) s t := by
  have holds : s.pool.hold b = some slot := by
    show (s.pc b).held = some slot
    rw [last]
    rfl
  by_cases here : s.pc a = .waiting
  · right
    left
    have steps := (t.pc (charge k a t)).left_le
    have before : rank k a s = 7 * (s.waiters.idxOf a + 1) + (s.pc (charge k a s)).left := by
      unfold rank
      rw [if_pos here]
    rcases Pool.idxOf_release holds ((sound.told a).listed.mpr here) with served | ⟨listed, up⟩
    · have off : t.pc a ≠ .waiting := by
        rw [← pool] at served
        intro waits
        have none : t.pool.hold a = none := by
          show (t.pc a).held = none
          rw [waits]
          rfl
        rw [none] at served
        cases served
      have now : rank k a t = (t.pc (charge k a t)).left := by
        unfold rank
        rw [if_neg off, Nat.zero_add]
      omega
    · rw [← pool] at listed up
      have waits : t.pc a = .waiting := (after.told a).listed.mp listed
      have up : t.waiters.idxOf a < s.waiters.idxOf a := up
      have now : rank k a t = 7 * (t.waiters.idxOf a + 1) + (t.pc (charge k a t)).left := by
        unfold rank
        rw [if_pos waits]
      omega
  · rcases eq_or_ne a b with rfl | away
    · exact .inl fun still => still.2 finished
    · have kept : t.pc a = s.pc a := pc a away ((sound.told a).listed.not.mpr here)
      have still : t.pc a ≠ .waiting := kept ▸ here
      apply nearer_of_same
      · rw [charge_self here, charge_self still]
      · rw [charge_self here]
        exact kept
      · exact iff_of_false still here
      · exact fun waits => absurd waits here
      · rw [charge_self here]
        exact fun taken => away (eq_of_takes (a := b) (x := .release b) rfl taken)

/-- The step lemma of the ranking. -/
theorem Sound.nearer (sound : Sound s) {k : Fin n} {x : Action A n} (due : Due a s)
    (lasting : Lasting s x) (run : UsbDevice.step s x = some t) : Nearer k a x s t := by
  obtain ⟨after, effect⟩ := sound.step lasting run
  cases effect with
  | none pc pool idle =>
      have waits : t.pc a = .waiting ↔ s.pc a = .waiting := by rw [pc]
      exact nearer_of_same (charge_congr (congrArg Pool.hold pool) waits) (congrFun pc _) waits
        (fun _ => congrArg (fun p => p.line.idxOf a) pool) (idle _ (sound.charged k due))
  | goesOn b p held same fewer pc pool takes =>
      exact sound.nearer_of_goesOn due held same fewer pc pool takes
  | acquire b fresh pool pc => exact sound.nearer_of_acquire due fresh pool pc
  | release b slot last pool finished pc =>
      exact sound.nearer_of_release after last pool finished pc

/-- The one in charge can go on, or libusb can complete its transfer. -/
theorem Sound.enabled (sound : Sound s) (held : (s.pc b).held ≠ none) :
    ∃ x t, (agent s b).Takes x ∧ Lasting s x ∧ UsbDevice.step s x = some t := by
  cases here : s.pc b with
  | fresh | waiting | returned =>
      rw [here] at held
      exact absurd rfl held
  | starting slot =>
      refine ⟨.start b, ?_⟩
      simp only [agent, here, UsbDevice.step]
      split <;> exact ⟨_, rfl, trivial, rfl⟩
  | submitting slot =>
      refine ⟨.submit b 0, ?_⟩
      simp only [agent, here, UsbDevice.step]
      exact ⟨_, rfl, trivial, rfl⟩
  | inFlight slot =>
      have given : s.transfer slot = some b := by
        have marked := sound.held b slot (by rw [here]; rfl)
        rw [marked.transfer, here]
        rfl
      refine ⟨.complete slot .error, ?_⟩
      simp only [agent, here, UsbDevice.step, given, (sound.inFlight given).2]
      exact ⟨_, rfl, trivial, rfl⟩
  | storing completed slot result =>
      refine ⟨.storeResult b, ?_⟩
      simp only [agent, here, UsbDevice.step]
      exact ⟨_, rfl, trivial, rfl⟩
  | posting slot =>
      refine ⟨.postCompletion b, ?_⟩
      simp only [agent, here, UsbDevice.step]
      split <;> exact ⟨_, rfl, trivial, rfl⟩
  | releasing slot =>
      refine ⟨.release b, ?_⟩
      simp only [agent, here, UsbDevice.step]
      exact ⟨_, rfl, trivial, rfl⟩

/-! ## Fair runs -/

variable (A n) in
/-- The pool with awaiters that are not destroyed before they are resumed. -/
abbrev lastingRuns : Machine (State A n) (Action A n) := (usbDevice A n).restrict Lasting

/-- The calls on each awaiter go on, and libusb completes each transfer. -/
def FairRun (E : (lastingRuns A n).Execution) : Prop :=
  ∀ agent : Agent A n, E.Fair agent.Takes

theorem slots_pos (reach : (usbDevice A n).Via Lasting s) : 0 < n := by
  induction reach with
  | init start => exact start.slots
  | step _ _ _ ih => exact ih

variable (E : (lastingRuns A n).Execution)

theorem soundAt (m : Nat) : Sound (E.state m) :=
  Sound.via (Machine.via_of_restrict (E.reachable m))

/-- In a fair run an awaiter that is due is through in the end. -/
theorem due_ends (fair : FairRun E) (a : A) (m : Nat) :
    ∃ later, m ≤ later ∧ ¬ Due a (E.state later) := by
  let k : Fin n := ⟨0, slots_pos (Machine.via_of_restrict (E.reachable 0))⟩
  have sound : ∀ {s}, (lastingRuns A n).Reachable s → Sound s :=
    fun reach => Sound.via (Machine.via_of_restrict reach)
  have nearer : ∀ s x t, (lastingRuns A n).Reachable s → Due a s →
      (lastingRuns A n).step s x = some t → Nearer k a x s t := by
    intro s x t reach due run
    obtain ⟨lasting, run⟩ := Option.ite_none_right_eq_some.mp run
    exact (sound reach).nearer due lasting run
  have enabled : ∀ s, (lastingRuns A n).Reachable s → Due a s →
      Machine.Execution.Enabled (lastingRuns A n) (agent s (charge k a s)).Takes s := by
    intro s reach due
    obtain ⟨x, t, takes, lasting, run⟩ := (sound reach).enabled ((sound reach).charged k due)
    exact ⟨x, t, takes, (if_pos lasting).trans run⟩
  have lowers : ∀ s x t, (lastingRuns A n).Reachable s → Due a s →
      (agent s (charge k a s)).Takes x → (lastingRuns A n).step s x = some t →
      ¬ Due a t ∨ rank k a t < rank k a s := by
    intro s x t reach due takes run
    rcases nearer s x t reach due run with ended | lower | ⟨-, -, idle⟩
    · exact .inl ended
    · exact .inr lower
    · exact absurd takes idle
  have keeps : ∀ s x t, (lastingRuns A n).Reachable s → Due a s →
      (lastingRuns A n).step s x = some t →
      ¬ Due a t ∨ rank k a t < rank k a s ∨
        (rank k a t ≤ rank k a s ∧ agent t (charge k a t) = agent s (charge k a s)) := by
    intro s x t reach due run
    rcases nearer s x t reach due run with ended | lower | ⟨below, same, -⟩
    · exact .inl ended
    · exact .inr (.inl lower)
    · exact .inr (.inr ⟨below, same⟩)
  exact Machine.Execution.leadsTo enabled lowers keeps fair m

/-- An awaiter that has begun does not begin again. -/
theorem Sound.begun (sound : Sound s) {x : Action A n} (begun : s.pc a ≠ .fresh)
    (lasting : Lasting s x) (run : UsbDevice.step s x = some t) : t.pc a ≠ .fresh := by
  obtain ⟨after, effect⟩ := sound.step lasting run
  cases effect with
  | none pc => rwa [pc]
  | goesOn b p held same fewer pc =>
      rcases eq_or_ne a b with rfl | away
      · rw [pc, Function.update_self]
        rintro rfl
        exact held same.symm
      · rwa [pc, Function.update_of_ne away]
  | acquire b fresh pool pc =>
      have away : a ≠ b := by
        rintro rfl
        exact begun fresh
      rwa [pc a away]
  | release b slot last pool finished pc =>
      rcases eq_or_ne a b with rfl | away
      · rw [finished]
        simp
      by_cases listed : a ∈ s.waiters
      · have holds : s.pool.hold b = some slot := by
          show (s.pc b).held = some slot
          rw [last]
          rfl
        intro fresh
        rcases Pool.idxOf_release holds listed with served | ⟨still, -⟩
        · rw [← pool] at served
          have served : (t.pc a).held = some slot := served
          rw [fresh] at served
          cases served
        · rw [← pool] at still
          have waits := (after.told a).listed.mp still
          rw [fresh] at waits
          cases waits
      · rwa [pc a away listed]

/-- The logs grow at their ends. -/
theorem logs_grow {x : Action A n} (run : step s x = some t) :
    s.posts <+: t.posts ∧ s.releases <+: t.releases := by
  have same : s.posts <+: s.posts ∧ s.releases <+: s.releases :=
    ⟨List.prefix_rfl, List.prefix_rfl⟩
  cases x with
  | awaitSuspend a =>
      obtain ⟨-, run⟩ := Option.ite_none_right_eq_some.mp run
      cases run
      unfold acquireOrEnqueue
      split <;> exact same
  | start a | submit a rc =>
      simp only [UsbDevice.step] at run
      split at run
      · split at run <;> cases run <;> exact same
      · cases run
  | complete slot status =>
      simp only [UsbDevice.step] at run
      split at run
      · split at run <;> cases run <;> exact same
      · cases run
  | storeResult a =>
      simp only [UsbDevice.step] at run
      split at run <;> cases run
      exact same
  | postCompletion a =>
      simp only [UsbDevice.step] at run
      split at run
      · split at run <;> cases run
        · exact same
        · exact ⟨List.prefix_append _ _, List.prefix_rfl⟩
      · cases run
  | release a =>
      simp only [UsbDevice.step] at run
      split at run <;> cases run
      unfold releaseSlot
      split <;> exact ⟨List.prefix_rfl, List.prefix_append _ _⟩
  | storeFlag a | resume a | cancel a =>
      obtain ⟨-, run⟩ := Option.ite_none_right_eq_some.mp run
      cases run
      exact same
  | destroy a =>
      obtain ⟨-, run⟩ := Option.ite_none_right_eq_some.mp run
      cases run
      unfold UsbDevice.destroy
      split <;> exact same
  | removeWaiter a =>
      obtain ⟨-, run⟩ := Option.ite_none_right_eq_some.mp run
      cases run
      unfold UsbDevice.removeWaiter
      split <;> exact same

theorem logs_grow_run {m k : Nat} (later : m ≤ k) :
    (E.state m).posts <+: (E.state k).posts ∧ (E.state m).releases <+: (E.state k).releases := by
  induction later with
  | refl => exact ⟨List.prefix_rfl, List.prefix_rfl⟩
  | @step k _ ih =>
      cases act : E.act k with
      | none =>
          have same := E.next k
          rw [act] at same
          rw [same]
          exact ih
      | some x =>
          obtain ⟨-, run⟩ := Option.ite_none_right_eq_some.mp (E.step_of_act act)
          have grown := logs_grow run
          exact ⟨ih.1.trans grown.1, ih.2.trans grown.2⟩

theorem begun_run {m k : Nat} (later : m ≤ k) (begun : (E.state m).pc a ≠ .fresh) :
    (E.state k).pc a ≠ .fresh := by
  induction later with
  | refl => exact begun
  | @step k _ ih =>
      cases act : E.act k with
      | none =>
          have same := E.next k
          rw [act] at same
          rw [same]
          exact ih
      | some x =>
          obtain ⟨lasting, run⟩ := Option.ite_none_right_eq_some.mp (E.step_of_act act)
          exact (soundAt E k).begun ih lasting run

/-- What is posted once is not posted again. -/
theorem entriesOf_once {B : Type*} {before after : List (A × B)} {entry : B}
    (grown : before <+: after) (one : entriesOf before a = [entry])
    (most : entriesOf after a = [] ∨ ∃ other, entriesOf after a = [other]) :
    entriesOf after a = [entry] := by
  obtain ⟨more, rfl⟩ := grown
  have split : entriesOf (before ++ more) a = entry :: entriesOf more a := by
    unfold entriesOf at one ⊢
    rw [List.filterMap_append, one, List.singleton_append]
  rw [split] at most ⊢
  rcases most with none | ⟨other, single⟩
  · cases none
  · rw [(List.cons.inj single).2]

/-- **The accounts of the transfer pool**, for any number of slots and of awaiters that are not
destroyed before they are resumed: in every state each slot is in one place, nobody waits while a
slot is free, the slots go to the waiters in order, and nobody is posted or released twice.  In a
fair run every awaiter that has begun is posted, once and with the answer of libusb to its own
transfer, and the slot it was granted is released, once. -/
theorem pool_accounted :
    (∀ s, (usbDevice A n).Via Lasting s → Accounted s) ∧
      ∀ E : (lastingRuns A n).Execution, FairRun E → ∀ a m, (E.state m).pc a ≠ .fresh →
        ∃ later result slot, ∀ k, later ≤ k →
          entriesOf (E.state k).posts a = [result] ∧ (E.state k).outcome a = some result ∧
            entriesOf (E.state k).releases a = [slot] ∧
            (E.state k).granted a = some slot := by
  refine ⟨fun s reach => (Sound.via reach).accounted, ?_⟩
  intro E fair a m begun
  obtain ⟨later, after, ended⟩ := due_ends E fair a m
  have finished : (E.state later).pc a = .returned := by
    by_contra on
    exact ended ⟨begun_run E after begun, on⟩
  have told := (soundAt E later).told a
  obtain ⟨slot, granted⟩ := told.ended finished
  refine ⟨later, (E.state later).result a, slot, ?_⟩
  intro k behind
  have accounts := (soundAt E k).accounted
  obtain ⟨posts, releases⟩ := logs_grow_run E behind
  have posted : entriesOf (E.state k).posts a = [(E.state later).result a] := by
    apply entriesOf_once posts (told.posts.trans (if_pos (by rw [finished]; trivial)))
    rcases accounts.posts a with none | ⟨result, one, -⟩
    · exact .inl none
    · exact .inr ⟨result, one⟩
  have released : entriesOf (E.state k).releases a = [slot] := by
    apply entriesOf_once releases
    · rw [told.releases, if_pos finished, granted]
      rfl
    · rcases accounts.releases a with none | ⟨slot, one, -⟩
      · exact .inl none
      · exact .inr ⟨slot, one⟩
  have outcome : (E.state k).outcome a = some ((E.state later).result a) := by
    rcases accounts.posts a with none | ⟨result, one, answer⟩
    · rw [posted] at none
      cases none
    · rw [posted] at one
      cases one
      exact answer
  have got : (E.state k).granted a = some slot := by
    rcases accounts.releases a with none | ⟨other, one, got, -⟩
    · rw [released] at none
      cases none
    · rw [released] at one
      cases one
      exact got
  exact ⟨posted, outcome, released, got⟩

/-! ## Concrete runs -/

/-- Where all calls are through, no agent has anything to do. -/
theorem quiet_of_through (through : ∀ a, s.pc a = .returned)
    (given : ∀ slot, s.transfer slot = none)
    (agent : Agent A n) : ¬ Machine.Execution.Enabled (lastingRuns A n) agent.Takes s := by
  rintro ⟨x, t, takes, run⟩
  obtain ⟨-, run⟩ := Option.ite_none_right_eq_some.mp run
  have run : UsbDevice.step s x = some t := run
  cases x with
  | start a | submit a rc | storeResult a | postCompletion a | release a =>
      simp only [UsbDevice.step, through a] at run
      cases run
  | complete slot status =>
      simp only [UsbDevice.step, given slot] at run
      cases run
  | awaitSuspend a | storeFlag a | resume a | cancel a | destroy a | removeWaiter a =>
      cases agent <;> exact takes

/-- Two transfers on one slot; the second is refused. -/
theorem pool_accounted_two :
    ∃ E : (lastingRuns Bool 1).Execution, FairRun E ∧ Accounted (E.state 4) ∧
      (E.state 4).waiters = [true] ∧
      ∃ later result slot, ∀ k, later ≤ k →
        entriesOf (E.state k).posts true = [result] ∧ (E.state k).outcome true = some result ∧
          entriesOf (E.state k).releases true = [slot] ∧
          (E.state k).granted true = some slot := by
  have run : (lastingRuns Bool 1).exec (constructed Bool 1)
      ([.awaitSuspend false, .start false, .submit false 0, .awaitSuspend true, .storeFlag false,
        .complete 0 (.completed 3), .storeResult false, .postCompletion false, .release false,
        .resume false, .cancel false, .destroy false, .start true, .submit true (-4),
        .storeResult true, .postCompletion true, .resume true, .release true] :
        List (Action Bool 1)) = some _ := rfl
  have start : (lastingRuns Bool 1).init (constructed Bool 1) := init_constructed Nat.one_pos
  have fair : FairRun (Machine.Execution.ofRun start run) := by
    intro agent
    apply Machine.Execution.fair_ofRun start run
    apply quiet_of_through
    · intro a
      cases a <;> rfl
    · exact fun slot => by rw [Subsingleton.elim slot 0]; rfl
  have begun : ((Machine.Execution.ofRun start run).state 4).pc true ≠ .fresh := by
    show Pc.waiting ≠ Pc.fresh
    simp
  have reach := Machine.via_of_restrict (Machine.Execution.reachable (.ofRun start run) 4)
  exact ⟨_, fair, pool_accounted.1 _ reach, rfl, pool_accounted.2 _ fair true 4 begun⟩

/-- Behind its completion, and behind a `submit` that fails, a slot is not free, not reserved and
not in flight before `release_slot`. -/
theorem nowhere :
    (∃ s, (usbDevice Unit 1).Via Lasting s ∧ s.status 0 = .completed ∧ s.freeSlots = []) ∧
      (∃ s, (usbDevice Unit 1).Via Lasting s ∧ s.status 0 = .idle ∧ s.freeSlots = []) ∧
      ¬ ∀ s, (usbDevice Unit 1).Via Lasting s → ∀ slot, At s slot .free ∨
        ∃ a, At s slot (.reserved a) ∨ At s slot (.inFlight a) := by
  have start := init_constructed (A := Unit) (n := 1) Nat.one_pos
  have done : (usbDevice Unit 1).execOk Lasting (constructed Unit 1)
      ([.awaitSuspend (), .start (), .submit () 0, .complete 0 (.completed 3)] :
        List (Action Unit 1)) = some _ := rfl
  have refused : (usbDevice Unit 1).execOk Lasting (constructed Unit 1)
      ([.awaitSuspend (), .start (), .submit () (-4)] : List (Action Unit 1)) = some _ := rfl
  have reach := Machine.Via.execOk (.init start) done
  refine ⟨⟨_, reach, rfl, rfl⟩, ⟨_, Machine.Via.execOk (.init start) refused, rfl, rfl⟩, ?_⟩
  intro claim
  rcases claim _ reach 0 with free | ⟨a, reserved | inFlight⟩
  · cases free
  · cases reserved.1
  · cases inFlight.1

end CoWq.UsbDevice
