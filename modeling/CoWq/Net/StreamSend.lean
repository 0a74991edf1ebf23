import CoWq.IO.SerialDrain

/-!
# Sending on a stream socket

`send_awaiter` in its two forms: a buffer with an offset, and a vector of buffers that is consumed
in place.  An `iovec` is the list of the bytes it points to.

* `advanceIov`, `SendAwaiter.attemptOnce`: the code.
* `life`: all rounds of an awaiter against the results of the kernel.  A wait is invisible here,
  `drive_cb` goes on with the next round.
* `Sent`: what the kernel has accepted and what is left make up the caller's bytes.
* `sendv_agrees`: the bytes on the wire, and the agreement of the two forms.
-/

namespace CoWq.StreamSocket

open IoSerial

/-! ## The awaiter -/

def EPIPE : Int := 32

def ECONNRESET : Int := 104

def ENOTCONN : Int := 107

/-- `_rx_eof` and `_tx_shutdown` -/
structure Flags where
  rxEof : Bool
  txShutdown : Bool
  deriving DecidableEq, Repr

structure SendAwaiter where
  full : Bool
  buf : List UInt8
  len : Nat
  vec : List (List UInt8)
  useVec : Bool
  sent : Nat
  err : Int
  deriving DecidableEq, Repr

def SendAwaiter.ofBuf (buf : List UInt8) (full : Bool) : SendAwaiter :=
  ⟨full, buf, buf.length, [], false, 0, 0⟩

def SendAwaiter.ofIov (iov : List (List UInt8)) (full : Bool) : SendAwaiter :=
  ⟨full, [], iov.foldl (fun len v => len + v.length) 0, iov, true, 0, 0⟩

/-- `advance_iov`, with the bytes that remain to be dropped. -/
def advanceIov : Nat → List (List UInt8) → List (List UInt8)
  | _, [] => []
  | remain, front :: vec =>
      if remain = 0 then front :: vec
      else if front.length ≤ remain then advanceIov (remain - front.length) vec
      else front.drop remain :: vec

/-- Behind a call that has accepted nothing. -/
def SendAwaiter.refused (o : Flags) (a : SendAwaiter) (r : Result) :
    (Flags × SendAwaiter) × Attempt :=
  if r.n = 0 then ((o, a), .done)
  else if r.again then ((o, a), if a.full then .wouldBlock else .done)
  else
    let o :=
      if r.errno = EPIPE || r.errno = ECONNRESET || r.errno = ENOTCONN then
        { o with txShutdown := true }
      else o
    ((o, { a with err := r.n }), .done)

/-- A round of `attempt_once`.  The calls are `send` and `writev`, with the bytes they offer. -/
def SendAwaiter.attemptOnce (o : Flags) (a : SendAwaiter) :
    Round (Flags × SendAwaiter) (List UInt8) Result Attempt :=
  if a.useVec then
    if a.vec = [] then .quit
    else .call a.vec.flatten fun r =>
      if 0 < r.n then
        let vec := advanceIov r.n.toNat a.vec
        ((o, { a with sent := a.sent + r.n.toNat, vec := vec }),
          if vec = [] then .done else .progress)
      else a.refused o r
  else if a.sent < a.len then
    .call ((a.buf.drop a.sent).take (a.len - a.sent)) fun r =>
      if 0 < r.n then
        ((o, { a with sent := a.sent + r.n.toNat }),
          if a.sent + r.n.toNat = a.len then .done else .progress)
      else a.refused o r
  else .quit

/-- `await_resume` -/
def SendAwaiter.awaitResume (a : SendAwaiter) : Int :=
  if a.err < 0 ∧ a.sent = 0 then a.err else ssize a.sent

/-- The kernel accepts no more than it is offered. -/
def allowed (req : List UInt8) (r : Result) : Bool := r.n ≤ req.length

/-- The next result, for a call that offers something; a `writev` of empty buffers returns 0. -/
def kernel (req : List UInt8) : List Result → Option (Result × List Result)
  | [] => if req = [] then some (⟨0, 0⟩, []) else none
  | r :: rest =>
      if req = [] then some (⟨0, 0⟩, r :: rest)
      else if allowed req r then some (r, rest) else none

/-- The life of an awaiter that has got the slot, as far as the results reach. -/
def life (o : Flags) (a : SendAwaiter) (results : List Result) :
    Round.Outcome (Flags × SendAwaiter) (List UInt8) Result :=
  Round.play (fun s => s.2.attemptOnce s.1) kernel (· = .done) (results.length + 1) (o, a) results

/-- The bytes that calls have accepted. -/
def accepted (log : List (List UInt8 × Result)) : List UInt8 :=
  log.flatMap fun call => call.1.take call.2.n.toNat

/-! ## The bytes that are left -/

/-- `advance_iov` drops bytes of the concatenation, however the buffers cut it. -/
theorem flatten_advanceIov {n : Nat} {vec : List (List UInt8)} (within : n ≤ vec.flatten.length) :
    (advanceIov n vec).flatten = vec.flatten.drop n := by
  induction vec generalizing n with
  | nil => simp [advanceIov]
  | cons front vec ih =>
      rw [advanceIov]
      by_cases nothing : n = 0
      · rw [if_pos nothing, nothing, List.drop_zero]
      · rw [if_neg nothing]
        by_cases whole : front.length ≤ n
        · rw [List.flatten_cons, List.length_append] at within
          rw [if_pos whole, ih (by omega), List.flatten_cons, List.drop_append,
            List.drop_eq_nil_of_le whole, List.nil_append]
        · rw [if_neg whole, List.flatten_cons, List.flatten_cons,
            List.drop_append_of_le_length (by omega)]

/-- What the awaiter still has to send. -/
def SendAwaiter.left (a : SendAwaiter) : List UInt8 :=
  if a.useVec then a.vec.flatten else a.buf.drop a.sent

/-- The kernel has accepted the bytes up to `sent`, and those behind it are left. -/
structure Sent (bytes : List UInt8) (a : SendAwaiter) (log : List (List UInt8 × Result)) :
    Prop where
  within : a.sent ≤ bytes.length
  wire : accepted log = bytes.take a.sent
  left : a.left = bytes.drop a.sent
  len : a.len = bytes.length
  flat : a.useVec = false → a.buf = bytes

theorem Sent.ofBuf (buf : List UInt8) (full : Bool) : Sent buf (.ofBuf buf full) [] :=
  ⟨Nat.zero_le _, rfl, rfl, rfl, fun _ => rfl⟩

theorem foldl_length (iov : List (List UInt8)) :
    iov.foldl (fun len v => len + v.length) 0 = iov.flatten.length := by
  have from' : ∀ (iov : List (List UInt8)) (n : Nat),
      iov.foldl (fun len v => len + v.length) n = n + iov.flatten.length := by
    intro iov
    induction iov with
    | nil => exact fun _ => rfl
    | cons v iov ih =>
        intro n
        rw [List.foldl_cons, ih, List.flatten_cons, List.length_append, Nat.add_assoc]
  rw [from', Nat.zero_add]

theorem Sent.ofIov (iov : List (List UInt8)) (full : Bool) :
    Sent iov.flatten (.ofIov iov full) [] :=
  ⟨Nat.zero_le _, rfl, rfl, foldl_length iov, fun flat => by cases flat⟩

theorem accepted_append {log : List (List UInt8 × Result)} {req : List UInt8} {r : Result} :
    accepted (log ++ [(req, r)]) = accepted log ++ req.take r.n.toNat := by
  rw [accepted, List.flatMap_append, List.flatMap_singleton, accepted]

variable {bytes : List UInt8} {a : SendAwaiter} {o : Flags} {log : List (List UInt8 × Result)}
  {req : List UInt8} {answer : Result → (Flags × SendAwaiter) × Attempt} {r : Result}

/-- Each form offers what is left. -/
theorem Sent.offers (sent : Sent bytes a log) (calls : a.attemptOnce o = .call req answer) :
    req = bytes.drop a.sent := by
  rw [← sent.left, SendAwaiter.left]
  rw [SendAwaiter.attemptOnce] at calls
  by_cases form : a.useVec = true
  · rw [if_pos form] at calls ⊢
    by_cases none' : a.vec = []
    · rw [if_pos none'] at calls
      cases calls
    · rw [if_neg none'] at calls
      cases calls
      rfl
  · have buf := sent.flat (by simpa using form)
    rw [if_neg form] at calls ⊢
    by_cases more : a.sent < a.len
    · rw [if_pos more] at calls
      cases calls
      rw [List.take_of_length_le]
      rw [List.length_drop, buf, sent.len]
    · rw [if_neg more] at calls
      cases calls

/-- What a call does that accepts something: `sent` grows, and what is left shrinks. -/
theorem SendAwaiter.accepts (calls : a.attemptOnce o = .call req answer) (some' : 0 < r.n) :
    (answer r).1.1 = o ∧ (answer r).1.2 =
      { a with
        sent := a.sent + r.n.toNat
        vec := if a.useVec then advanceIov r.n.toNat a.vec else a.vec } := by
  rw [SendAwaiter.attemptOnce] at calls
  by_cases form : a.useVec = true
  · rw [if_pos form] at calls
    by_cases none' : a.vec = []
    · rw [if_pos none'] at calls
      cases calls
    · rw [if_neg none'] at calls
      cases calls
      simp [some', form]
  · rw [if_neg form] at calls
    by_cases more : a.sent < a.len
    · rw [if_pos more] at calls
      cases calls
      simp [some', form]
    · rw [if_neg more] at calls
      cases calls

/-- A call that accepts nothing changes the error at most. -/
theorem SendAwaiter.refuses (calls : a.attemptOnce o = .call req answer) (none' : ¬ 0 < r.n) :
    answer r = a.refused o r := by
  rw [SendAwaiter.attemptOnce] at calls
  by_cases form : a.useVec = true
  · rw [if_pos form] at calls
    by_cases empty : a.vec = []
    · rw [if_pos empty] at calls
      cases calls
    · rw [if_neg empty] at calls
      cases calls
      exact if_neg none'
  · rw [if_neg form] at calls
    by_cases more : a.sent < a.len
    · rw [if_pos more] at calls
      cases calls
      exact if_neg none'
    · rw [if_neg more] at calls
      cases calls

theorem SendAwaiter.refused_data : ∃ err, (a.refused o r).1.2 = { a with err := err } := by
  rw [SendAwaiter.refused]
  split
  · exact ⟨a.err, rfl⟩
  · split
    · exact ⟨a.err, rfl⟩
    · exact ⟨r.n, rfl⟩

/-- **Every call keeps the bytes in order.** -/
theorem Sent.call (sent : Sent bytes a log) (calls : a.attemptOnce o = .call req answer)
    (may : allowed req r = true) : Sent bytes (answer r).1.2 (log ++ [(req, r)]) := by
  have offer := sent.offers calls
  by_cases some' : 0 < r.n
  · have bound : r.n.toNat ≤ bytes.length - a.sent := by
      rw [allowed, decide_eq_true_eq, offer, List.length_drop] at may
      omega
    have within := sent.within
    rw [(SendAwaiter.accepts calls some').2]
    refine ⟨?_, ?_, ?_, sent.len, sent.flat⟩
    · show a.sent + r.n.toNat ≤ bytes.length
      omega
    · rw [accepted_append, sent.wire, offer, List.take_add]
    · have left := sent.left
      rw [SendAwaiter.left] at left ⊢
      by_cases form : a.useVec = true
      · simp only [form, if_true] at left ⊢
        have size := congrArg List.length left
        rw [List.length_drop] at size
        rw [flatten_advanceIov (by omega), left, List.drop_drop]
      · simp only [form, if_false, Bool.false_eq_true] at left ⊢
        rw [← List.drop_drop, left, List.drop_drop]
  · obtain ⟨err, data⟩ := SendAwaiter.refused_data (a := a) (o := o) (r := r)
    have nothing : r.n.toNat = 0 := by omega
    rw [SendAwaiter.refuses calls some', data]
    refine ⟨sent.within, ?_, sent.left, sent.len, sent.flat⟩
    rw [accepted_append, nothing, List.take_zero, List.append_nil]
    exact sent.wire

/-! ## The two forms -/

theorem kernel_cases {results rest : List Result}
    (answered : kernel req results = some (r, rest)) :
    allowed req r = true ∧
      (req = [] ∧ r = ⟨0, 0⟩ ∧ rest = results ∨ req ≠ [] ∧ results = r :: rest) := by
  by_cases empty : req = []
  · have zero : kernel req results = some (⟨0, 0⟩, results) := by
      cases results <;> exact if_pos empty
    obtain ⟨rfl, rfl⟩ := Prod.mk.inj (Option.some.inj (zero.symm.trans answered))
    exact ⟨by simp [allowed], .inl ⟨empty, rfl, rfl⟩⟩
  · cases results with
    | nil =>
        rw [kernel, if_neg empty] at answered
        cases answered
    | cons r' rest' =>
        rw [kernel, if_neg empty] at answered
        obtain ⟨may, both⟩ := Option.ite_none_right_eq_some.mp answered
        cases both
        exact ⟨may, .inr ⟨empty, rfl⟩⟩

/-- A `writev` of empty buffers alone ends the loop, every other call uses up a result. -/
theorem uses : Round.Uses (fun s : Flags × SendAwaiter => s.2.attemptOnce s.1) kernel
    (· = Attempt.done) := by
  intro s req answer r results rest calls answered more
  rcases kernel_cases answered with ⟨-, ⟨-, zero, -⟩ | ⟨-, rfl⟩⟩
  · have ends : answer r = ((s.1, s.2), .done) := by
      rw [SendAwaiter.refuses calls (by simp [zero]), SendAwaiter.refused, zero]
      rfl
    rw [ends] at more
    cases more
  · exact Nat.lt_succ_self _

/-- The awaiter over a vector and the one over the concatenation, with the same bytes left. -/
structure Agree (s t : Flags × SendAwaiter) : Prop where
  flags : s.1 = t.1
  full : s.2.full = t.2.full
  sent : s.2.sent = t.2.sent
  err : s.2.err = t.2.err
  vec : s.2.useVec = true
  flat : t.2.useVec = false
  left : s.2.vec.flatten = t.2.buf.drop t.2.sent
  len : t.2.len = t.2.buf.length
  within : t.2.sent ≤ t.2.buf.length

theorem Agree.start (o : Flags) (iov : List (List UInt8)) (full : Bool) :
    Agree (o, .ofIov iov full) (o, .ofBuf iov.flatten full) := by
  refine ⟨rfl, rfl, rfl, rfl, rfl, rfl, rfl, rfl, Nat.zero_le _⟩

variable {s t : Flags × SendAwaiter}

theorem Agree.awaitResume (agree : Agree s t) : s.2.awaitResume = t.2.awaitResume := by
  rw [SendAwaiter.awaitResume, SendAwaiter.awaitResume, agree.err, agree.sent]

/-- A call that accepts nothing goes the same way in both forms. -/
theorem Agree.refused (agree : Agree s t) :
    Agree (s.2.refused s.1 r).1 (t.2.refused t.1 r).1 ∧
      (s.2.refused s.1 r).2 = (t.2.refused t.1 r).2 := by
  obtain ⟨flags, full, sent, err, vec, flat, left, len, within⟩ := agree
  rw [SendAwaiter.refused, SendAwaiter.refused, flags, full]
  by_cases zero : r.n = 0
  · rw [if_pos zero, if_pos zero]
    exact ⟨⟨rfl, full, sent, err, vec, flat, left, len, within⟩, rfl⟩
  · rw [if_neg zero, if_neg zero]
    by_cases again : r.again = true
    · rw [if_pos again, if_pos again]
      exact ⟨⟨rfl, full, sent, err, vec, flat, left, len, within⟩, rfl⟩
    · rw [if_neg again, if_neg again]
      exact ⟨⟨rfl, rfl, sent, rfl, vec, flat, left, len, within⟩, rfl⟩

/-- With all bytes sent, both forms are over with the next turn and need no result for it. -/
theorem Agree.spent (agree : Agree s t) (spent : s.2.vec.flatten = []) (results : List Result) :
    Round.turn (fun s => s.2.attemptOnce s.1) kernel (· = Attempt.done) t results =
        some ⟨true, t, [], results⟩ ∧
      ∃ log, Round.turn (fun s => s.2.attemptOnce s.1) kernel (· = Attempt.done) s results =
        some ⟨true, s, log, results⟩ := by
  have past : ¬ t.2.sent < t.2.len := by
    have size := congrArg List.length (agree.left.symm.trans spent)
    rw [List.length_drop, List.length_nil] at size
    have len := agree.len
    omega
  refine ⟨Round.turn_quit ?_, ?_⟩
  · rw [SendAwaiter.attemptOnce, if_neg (by simp [agree.flat]), if_neg past]
  · by_cases empty : s.2.vec = []
    · refine ⟨[], Round.turn_quit ?_⟩
      rw [SendAwaiter.attemptOnce, if_pos agree.vec, if_pos empty]
    · refine ⟨[([], ⟨0, 0⟩)], ?_⟩
      have answered : kernel s.2.vec.flatten results = some (⟨0, 0⟩, results) := by
        rw [spent]
        cases results <;> rfl
      rw [Round.turn_call (by rw [SendAwaiter.attemptOnce, if_pos agree.vec, if_neg empty])
        answered, spent]
      rfl

theorem Agree.close (agree : Agree s t) (results : List Result) :
    Option.Rel (Round.Outcome.Close (fun s => s.2.attemptOnce s.1) kernel (· = Attempt.done) Agree)
      (Round.turn (fun s => s.2.attemptOnce s.1) kernel (· = Attempt.done) s results)
      (Round.turn (fun s => s.2.attemptOnce s.1) kernel (· = Attempt.done) t results) := by
  by_cases spent : s.2.vec.flatten = []
  · obtain ⟨flat, log, vec⟩ := agree.spent spent results
    rw [flat, vec]
    exact .some ⟨rfl, agree, .inl rfl⟩
  · have some' : s.2.vec ≠ [] := fun none' => spent (by rw [none', List.flatten_nil])
    have more : t.2.sent < t.2.len := by
      have size : 0 < s.2.vec.flatten.length := List.length_pos_iff.mpr spent
      rw [agree.left, List.length_drop] at size
      have len := agree.len
      omega
    -- both forms offer the bytes that are left
    have offer : (t.2.buf.drop t.2.sent).take (t.2.len - t.2.sent) = s.2.vec.flatten := by
      rw [agree.left, List.take_of_length_le]
      rw [List.length_drop, agree.len]
    obtain ⟨answer, callS, vec⟩ : ∃ answer,
        s.2.attemptOnce s.1 = .call s.2.vec.flatten answer ∧ ∀ r, 0 < r.n →
          (answer r).2 =
            if advanceIov r.n.toNat s.2.vec = [] then Attempt.done else .progress := by
      refine ⟨_, by rw [SendAwaiter.attemptOnce, if_pos agree.vec, if_neg some'], ?_⟩
      intro r accepts
      simp only [if_pos accepts]
    obtain ⟨answer', callT, flat⟩ : ∃ answer',
        t.2.attemptOnce t.1 = .call s.2.vec.flatten answer' ∧ ∀ r, 0 < r.n →
          (answer' r).2 =
            if t.2.sent + r.n.toNat = t.2.len then Attempt.done else .progress := by
      refine ⟨_, by
        rw [SendAwaiter.attemptOnce, if_neg (by simp [agree.flat]), if_pos more, offer], ?_⟩
      intro r accepts
      simp only [if_pos accepts]
    cases answered : kernel s.2.vec.flatten results with
    | none =>
        rw [Round.turn_unanswered callS answered, Round.turn_unanswered callT answered]
        exact .none
    | some both =>
        obtain ⟨r, rest⟩ := both
        rw [Round.turn_call callS answered, Round.turn_call callT answered]
        refine .some ?_
        have bound : r.n ≤ s.2.vec.flatten.length := by
          simpa [allowed] using (kernel_cases answered).1
        by_cases accepts : 0 < r.n
        · obtain ⟨flagsS, dataS⟩ := SendAwaiter.accepts callS accepts
          obtain ⟨flagsT, dataT⟩ := SendAwaiter.accepts callT accepts
          have size := congrArg List.length agree.left
          rw [List.length_drop] at size
          have within := agree.within
          have len := agree.len
          have left : (advanceIov r.n.toNat s.2.vec).flatten =
              t.2.buf.drop (t.2.sent + r.n.toNat) := by
            rw [flatten_advanceIov (by omega), agree.left, List.drop_drop]
          have next : Agree (answer r).1 (answer' r).1 := by
            refine ⟨?_, ?_, ?_, ?_, ?_, ?_, ?_, ?_, ?_⟩
            · rw [flagsS, flagsT, agree.flags]
            · rw [dataS, dataT]
              exact agree.full
            · rw [dataS, dataT]
              exact congrArg (· + r.n.toNat) agree.sent
            · rw [dataS, dataT]
              exact agree.err
            · rw [dataS]
              exact agree.vec
            · rw [dataT]
              exact agree.flat
            · rw [dataS, dataT]
              simpa [agree.vec] using left
            · rw [dataT]
              exact agree.len
            · rw [dataT]
              show t.2.sent + r.n.toNat ≤ t.2.buf.length
              omega
          refine ⟨rfl, next, ?_⟩
          rw [vec r accepts, flat r accepts]
          by_cases last : t.2.sent + r.n.toNat = t.2.len
          · -- only empty buffers can be left
            have nothing : (answer r).1.2.vec.flatten = [] := by
              rw [dataS]
              simp only [agree.vec, if_true, left]
              exact List.drop_eq_nil_of_le (by omega)
            by_cases empty : advanceIov r.n.toNat s.2.vec = []
            · exact .inl (by rw [if_pos empty, if_pos last])
            · obtain ⟨-, log, step⟩ := next.spent nothing rest
              refine .inr ⟨?_, ?_, _, step, ?_, rfl, next⟩
              · rw [if_neg empty]
                rfl
              · rw [if_pos last]
                rfl
              · rw [if_pos last]
                rfl
          · have some'' : advanceIov r.n.toNat s.2.vec ≠ [] := by
              intro none'
              have none'' := congrArg List.length left
              rw [none', List.flatten_nil, List.length_nil, List.length_drop] at none''
              omega
            exact .inl (by rw [if_neg some'', if_neg last])
        · rw [SendAwaiter.refuses callS accepts, SendAwaiter.refuses callT accepts]
          obtain ⟨next, verdict⟩ := agree.refused (r := r)
          exact ⟨rfl, next, .inl (by rw [verdict])⟩

/-- **A send puts a prefix of the caller's bytes on the wire, and both forms agree.**  Whatever
the kernel answers and however the buffers cut the bytes, the bytes accepted so far are the first
`sent` ones; `advance_iov` drops exactly the bytes it is told to; and the vector and its
concatenation use up the same results, return the same value and leave the same flags. -/
theorem sendv_agrees (o : Flags) (iov : List (List UInt8)) (full : Bool)
    (results : List Result) :
    let v := life o (.ofIov iov full) results
    let f := life o (.ofBuf iov.flatten full) results
    (accepted v.log = iov.flatten.take v.state.2.sent ∧ v.state.2.sent ≤ iov.flatten.length) ∧
      (accepted f.log = iov.flatten.take f.state.2.sent ∧
        f.state.2.sent ≤ iov.flatten.length) ∧
      (∀ n vec, n ≤ (List.flatten vec).length →
        (advanceIov n vec).flatten = (List.flatten vec).drop n) ∧
      v.finished = f.finished ∧ v.unused = f.unused ∧
      v.state.2.awaitResume = f.state.2.awaitResume ∧ v.state.1 = f.state.1 := by
  intro v f
  have wire : ∀ a, Sent iov.flatten a [] →
      Sent iov.flatten (life o a results).state.2 (life o a results).log := by
    intro a start
    have kept := @Round.play_invariant _ _ _ _
      (fun s : Flags × SendAwaiter => s.2.attemptOnce s.1) kernel (· = Attempt.done)
      (fun s => Sent iov.flatten s.2) (fun s => Sent iov.flatten s.2) (fun sent _ => sent)
      (fun sent calls answered => ?_) (results.length + 1) (o, a) [] results start
    · rw [ite_self] at kept
      exact kept
    · rw [ite_self]
      exact sent.call calls (kernel_cases answered).1
  have sentV := wire _ (Sent.ofIov iov full)
  have sentF := wire _ (Sent.ofBuf iov.flatten full)
  obtain ⟨finished, unused, state⟩ := Round.play_alike uses
    (fun results agree => Agree.close agree results) (Agree.start o iov full)
    (Nat.lt_succ_self results.length)
  exact ⟨⟨sentV.wire, sentV.within⟩, ⟨sentF.wire, sentF.within⟩,
    fun n vec within => flatten_advanceIov within, finished, unused, state.awaitResume,
    state.flags⟩

end CoWq.StreamSocket
