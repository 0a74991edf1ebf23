import Mathlib.Algebra.Group.Nat.Defs
import Mathlib.Algebra.GroupWithZero.Nat
import CoWq.Lib.Rounds
import CoWq.IO.IoSerial
import CoWq.Net.TlsSocket

/-!
# The lengths of TLS transfers

`recv_awaiter` and `send_awaiter` of `basic_tls_socket` count in `size_t`, and hand the length
that is left to OpenSSL as an `int`.

* `toInt`: the cast.
* `Transfer.attemptOnce`: the code of both awaiters.
* `life`: all rounds of an awaiter against the results of OpenSSL.
* `Within`: the calls stay inside the buffer, and a transfer that is to be full is.
* `within_iff`: they do for every sequence of results exactly if the length survives the cast.
-/

namespace CoWq.TlsSocket

open IoSerial

/-! ## The awaiters -/

/-- `static_cast<int>` of a `size_t` -/
def toInt (n : Nat) : Int :=
  if n % 2 ^ 32 < 2 ^ 31 then (n % 2 ^ 32 : Nat) else (n % 2 ^ 32 : Nat) - (2 ^ 32 : Nat)

/-- The value of `SSL_read` or `SSL_write`, and of `SSL_get_error` behind a negative one. -/
structure SslResult where
  rc : Int
  error : SslError
  deriving DecidableEq, Repr

/-- `_rx_eof` and `_tx_shutdown` -/
structure Flags where
  rxEof : Bool
  txShutdown : Bool
  deriving DecidableEq, Repr

def Flags.atEnd (o : Flags) : Dir → Flags
  | .recv => { o with rxEof := true }
  | .send => { o with txShutdown := true }

def EPOLLIN : Nat := 1

def EPOLLOUT : Nat := 4

/-- `recv_awaiter` and `send_awaiter`, with `recvd` or `sent` as `count`. -/
structure Transfer where
  dir : Dir
  len : Nat
  count : Nat
  err : Int
  full : Bool
  waitMask : Nat
  deriving DecidableEq, Repr

def Transfer.make (dir : Dir) (len : Nat) (full : Bool) : Transfer := ⟨dir, len, 0, 0, full, 0⟩

/-- `attempt_once` behind its call. -/
def Transfer.answered (o : Flags) (a : Transfer) (r : SslResult) :
    (Flags × Transfer) × Attempt :=
  if 0 < r.rc then
    ((o, { a with count := a.count + r.rc.toNat }),
      if !a.full then .done else if a.count + r.rc.toNat = a.len then .done else .progress)
  else if r.rc = 0 then ((o.atEnd a.dir, a), .done)
  else
    match r.error with
    | .wantRead => ((o, { a with waitMask := EPOLLIN }), .wouldBlock)
    | .wantWrite => ((o, { a with waitMask := EPOLLOUT }), .wouldBlock)
    | .zeroReturn => ((o.atEnd a.dir, a), .done)
    | e => ((o, { a with err := translateFailure e }), .done)

/-- `attempt_once`: a call with the offset in the buffer and the length it is given. -/
def Transfer.attemptOnce (o : Flags) (a : Transfer) :
    Round (Flags × Transfer) (Nat × Int) SslResult Attempt :=
  if a.len ≤ a.count then .quit else .call (a.count, toInt (a.len - a.count)) (a.answered o)

/-- OpenSSL transfers no more than it is asked for. -/
def openssl (req : Nat × Int) : List SslResult → Option (SslResult × List SslResult)
  | [] => none
  | r :: rest => if r.rc ≤ 0 ∨ r.rc ≤ req.2 then some (r, rest) else none

/-- The life of an awaiter that has got the slot, as far as the results reach. -/
def life (o : Flags) (a : Transfer) (results : List SslResult) :
    Round.Outcome (Flags × Transfer) (Nat × Int) SslResult :=
  Round.play (fun s => s.2.attemptOnce s.1) openssl (· = .done) (results.length + 1) (o, a)
    results

/-! ## What is asked of them -/

/-- The bytes that calls have transferred. -/
def moved (log : List ((Nat × Int) × SslResult)) : Nat :=
  log.foldl (fun n call => n + call.2.rc.toNat) 0

/-- Neither an error nor an end of the stream. -/
def SslResult.Plain (r : SslResult) : Prop :=
  0 < r.rc ∨ r.rc < 0 ∧ (r.error = .wantRead ∨ r.error = .wantWrite)

/-- The calls cover consecutive parts of the buffer, each with a length from 1 to what is left. -/
def Covers (len : Nat) : List ((Nat × Int) × SslResult) → Prop :=
  Round.Each fun before call =>
    call.1.1 = moved before ∧ 1 ≤ call.1.2 ∧ call.1.2 ≤ ((len - moved before : Nat) : Int)

/-- The calls stay inside the buffer, the count does not pass its length, and a full transfer that
ends without an error or an end of the stream has it all. -/
structure Within (len : Nat) (full : Bool)
    (life : Round.Outcome (Flags × Transfer) (Nat × Int) SslResult) : Prop where
  covers : Covers len life.log
  count : life.state.2.count = moved life.log ∧ life.state.2.count ≤ len
  all : full = true → life.finished = true → (∀ call ∈ life.log, call.2.Plain) →
    life.state.2.count = len

/-- The lengths for which every call of an awaiter is given a positive length. -/
def Fits (len : Nat) (full : Bool) : Prop :=
  if full then len < 2 ^ 31 else len = 0 ∨ 0 < len % 2 ^ 32 ∧ len % 2 ^ 32 < 2 ^ 31

/-! ## The cast -/

theorem toInt_pos_iff {n : Nat} : 1 ≤ toInt n ↔ 0 < n % 2 ^ 32 ∧ n % 2 ^ 32 < 2 ^ 31 := by
  rw [toInt]
  by_cases small : n % 2 ^ 32 < 2 ^ 31
  · rw [if_pos small]
    omega
  · rw [if_neg small]
    omega

/-- A length is never rounded up. -/
theorem toInt_le (n : Nat) : toInt n ≤ n := by
  rw [toInt]
  by_cases small : n % 2 ^ 32 < 2 ^ 31
  · rw [if_pos small]
    omega
  · rw [if_neg small]
    omega

/-! ## The rounds -/

variable {o : Flags} {a : Transfer} {len : Nat} {full : Bool} {dir : Dir} {r : SslResult}
  {log : List ((Nat × Int) × SslResult)} {req : Nat × Int}
  {answer : SslResult → (Flags × Transfer) × Attempt} {results rest : List SslResult}

theorem Transfer.calls (calls : a.attemptOnce o = .call req answer) :
    a.count < a.len ∧ req = (a.count, toInt (a.len - a.count)) ∧ answer = a.answered o := by
  rw [Transfer.attemptOnce] at calls
  by_cases all : a.len ≤ a.count
  · rw [if_pos all] at calls
    cases calls
  · rw [if_neg all] at calls
    cases calls
    exact ⟨by omega, rfl, rfl⟩

/-- The kinds of answers: the length and the mode stay, and the count grows by the result; a
round that is not the last in an awaiter without `full` has transferred nothing. -/
theorem Transfer.answered_cases :
    (a.answered o r).1.2.len = a.len ∧ (a.answered o r).1.2.full = a.full ∧
      (a.answered o r).1.2.count = a.count + r.rc.toNat ∧
      ((a.answered o r).2 = .done → r.Plain → a.full = true →
        (a.answered o r).1.2.count = a.len) ∧
      ((a.answered o r).2 ≠ .done → a.full = false → r.rc.toNat = 0) := by
  rw [Transfer.answered]
  by_cases some' : 0 < r.rc
  · rw [if_pos some']
    refine ⟨rfl, rfl, rfl, fun last _ isFull => ?_, fun more notFull => ?_⟩
    · by_cases all : a.count + r.rc.toNat = a.len
      · exact all
      · simp [isFull, all] at last
    · simp [notFull] at more
  · rw [if_neg some']
    have nothing : r.rc.toNat = 0 := by omega
    by_cases zero : r.rc = 0
    · rw [if_pos zero]
      refine ⟨rfl, rfl, by simp [nothing], fun _ plain => ?_, fun _ _ => nothing⟩
      rcases plain with accepts | ⟨fails, -⟩ <;> omega
    · rw [if_neg zero]
      cases error : r.error <;>
        refine ⟨rfl, rfl, by simp [nothing], fun last plain => ?_, fun _ _ => nothing⟩ <;>
        simp [SslResult.Plain, some', error] at last plain

theorem openssl_cases (answered : openssl req results = some (r, rest)) :
    results = r :: rest ∧ (r.rc ≤ 0 ∨ r.rc ≤ req.2) := by
  cases results with
  | nil => cases answered
  | cons r' rest' =>
      obtain ⟨may, both⟩ := Option.ite_none_right_eq_some.mp answered
      cases both
      exact ⟨rfl, may⟩

theorem moved_append : moved (log ++ [(req, r)]) = moved log + r.rc.toNat := by
  rw [moved, List.foldl_append, List.foldl_cons, List.foldl_nil, moved]

/-- What holds whatever the length is: the count is that of the log, and it stays inside. -/
structure Counted (len : Nat) (full : Bool) (a : Transfer)
    (log : List ((Nat × Int) × SslResult)) : Prop where
  sameLen : a.len = len
  sameFull : a.full = full
  count : a.count = moved log
  within : a.count ≤ len

theorem Counted.call (counted : Counted len full a log)
    (calls : a.attemptOnce o = .call req answer)
    (answered : openssl req results = some (r, rest)) :
    Counted len full (answer r).1.2 (log ++ [(req, r)]) := by
  obtain ⟨more, rfl, rfl⟩ := Transfer.calls calls
  obtain ⟨sameLen, sameFull, count, -⟩ := Transfer.answered_cases (o := o) (a := a) (r := r)
  obtain ⟨-, may⟩ := openssl_cases answered
  have cast := toInt_le (a.len - a.count)
  have within := counted.within
  have here := counted.sameLen
  refine ⟨sameLen.trans counted.sameLen, sameFull.trans counted.sameFull, ?_, ?_⟩
  · rw [count, moved_append, counted.count]
  · rw [count]
    rcases may with nothing | fits
    · omega
    · dsimp only at fits
      omega

/-- In its rounds, with a length that fits: nothing is transferred yet unless in full mode. -/
structure Going (len : Nat) (full : Bool) (a : Transfer) (log : List ((Nat × Int) × SslResult)) :
    Prop where
  counted : Counted len full a log
  covers : Covers len log
  first : full = false → a.count = 0

structure Done (len : Nat) (full : Bool) (a : Transfer) (log : List ((Nat × Int) × SslResult)) :
    Prop where
  counted : Counted len full a log
  covers : Covers len log
  all : full = true → (∀ call ∈ log, call.2.Plain) → a.count = len

/-- What is left survives the cast. -/
theorem Going.toInt_pos (fits : Fits len full) (going : Going len full a log)
    (more : a.count < len) : 1 ≤ toInt (len - a.count) := by
  rw [toInt_pos_iff]
  rw [Fits] at fits
  cases full with
  | true =>
      rw [if_pos rfl] at fits
      omega
  | false =>
      rw [if_neg (by simp)] at fits
      rw [going.first rfl] at more ⊢
      rw [Nat.sub_zero]
      rcases fits with none' | fits
      · omega
      · exact fits

theorem Going.start : Going len full (.make dir len full) [] := by
  exact ⟨⟨rfl, rfl, rfl, Nat.zero_le _⟩, .nil, fun _ => rfl⟩

theorem Going.leave (going : Going len full a log) (quit : a.attemptOnce o = .quit) :
    Done len full a log := by
  refine ⟨going.counted, going.covers, fun _ _ => ?_⟩
  have within := going.counted.within
  have sameLen := going.counted.sameLen
  rw [Transfer.attemptOnce] at quit
  by_cases all : a.len ≤ a.count
  · omega
  · rw [if_neg all] at quit
    cases quit

theorem Going.call (fits : Fits len full) (going : Going len full a log)
    (calls : a.attemptOnce o = .call req answer)
    (answered : openssl req results = some (r, rest)) :
    if (answer r).2 = .done then Done len full (answer r).1.2 (log ++ [(req, r)])
    else Going len full (answer r).1.2 (log ++ [(req, r)]) := by
  have counted := going.counted.call calls answered
  obtain ⟨more, rfl, rfl⟩ := Transfer.calls calls
  obtain ⟨-, -, count, all, first⟩ := Transfer.answered_cases (o := o) (a := a) (r := r)
  obtain ⟨sameLen, sameFull, here, -⟩ := going.counted
  rw [sameLen] at more counted all ⊢
  have covers : Covers len (log ++ [((a.count, toInt (len - a.count)), r)]) := by
    refine going.covers.append ⟨here, going.toInt_pos fits more, ?_⟩
    rw [← here]
    exact toInt_le _
  by_cases last : (a.answered o r).2 = .done
  · rw [if_pos last]
    refine ⟨counted, covers, fun isFull plain => all last ?_ (sameFull.trans isFull)⟩
    exact plain ((a.count, toInt (len - a.count)), r) (by simp)
  · rw [if_neg last]
    refine ⟨counted, covers, fun notFull => ?_⟩
    rw [count, going.first notFull, first last (sameFull.trans notFull)]

/-! ## All lengths -/

theorem Within.of_fits (fits : Fits len full) (results : List SslResult) :
    Within len full (life o (.make dir len full) results) := by
  have kept := @Round.play_invariant _ _ _ _ (fun s : Flags × Transfer => s.2.attemptOnce s.1)
    openssl (· = Attempt.done) (fun s => Going len full s.2) (fun s => Done len full s.2)
    Going.leave (fun going calls answered => by
      simpa only [decide_eq_true_eq] using going.call fits calls answered)
    (results.length + 1) (o, .make dir len full) [] results Going.start
  show Within len full (Round.play _ _ _ _ _ _)
  simp only [List.nil_append] at kept
  by_cases finished : (Round.play (fun s : Flags × Transfer => s.2.attemptOnce s.1) openssl
      (· = Attempt.done) (results.length + 1) (o, .make dir len full) results).finished = true
  · rw [if_pos finished] at kept
    obtain ⟨counted, covers, all⟩ := kept
    exact ⟨covers, ⟨counted.count, counted.within⟩, fun isFull _ => all isFull⟩
  · rw [if_neg finished] at kept
    obtain ⟨counted, covers, -⟩ := kept
    exact ⟨covers, ⟨counted.count, counted.within⟩, fun _ quit => (finished quit).elim⟩

/-- A result after which the awaiter waits. -/
def again : SslResult := ⟨-1, .wantRead⟩

/-- The log of a life in which the calls so far have not ended the loop. -/
abbrev callsOf (fuel : Nat) (o : Flags) (a : Transfer) (results : List SslResult) :
    List ((Nat × Int) × SslResult) :=
  (Round.play (fun s : Flags × Transfer => s.2.attemptOnce s.1) openssl (· = Attempt.done) fuel
    (o, a) results).log

theorem calls_again {fuel : Nat} (more : a.count < a.len) :
    ((a.count, toInt (a.len - a.count)), again) ∈ callsOf (fuel + 1) o a [again] := by
  have round : a.attemptOnce o = .call (a.count, toInt (a.len - a.count)) (a.answered o) := by
    rw [Transfer.attemptOnce, if_neg (by omega)]
  rw [callsOf, Round.play_call round rfl rfl]
  exact List.mem_cons_self

/-- One byte at a time, until what is left does not survive the cast. -/
theorem exists_bad_call : ∀ (left : Nat) {a : Transfer}, a.full = true → a.count ≤ a.len →
    a.len - a.count = 2 ^ 31 + left →
    ∃ results : List SslResult, ∀ fuel, results.length < fuel →
      ∃ call ∈ callsOf fuel o a results, call.1.2 < 1 := by
  intro left
  induction left with
  | zero =>
      intro a _ _ size
      refine ⟨[again], fun fuel enough => ?_⟩
      obtain ⟨k, rfl⟩ : ∃ k, fuel = k + 1 := ⟨fuel - 1, by omega⟩
      refine ⟨_, calls_again (by omega), ?_⟩
      show toInt (a.len - a.count) < 1
      have bad := (toInt_pos_iff (n := a.len - a.count)).not
      omega
  | succ left ih =>
      intro a full within size
      by_cases good : 1 ≤ toInt (a.len - a.count)
      · have size' : a.len - (a.count + 1) = 2 ^ 31 + left := by omega
        obtain ⟨results, bad⟩ := ih (a := { a with count := a.count + 1 }) full
          (by dsimp only; omega) size'
        refine ⟨⟨1, .wantRead⟩ :: results, fun fuel enough => ?_⟩
        obtain ⟨k, rfl⟩ : ∃ k, fuel = k + 1 := ⟨fuel - 1, by omega⟩
        have round : a.attemptOnce o =
            .call (a.count, toInt (a.len - a.count)) (a.answered o) := by
          rw [Transfer.attemptOnce, if_neg (by omega)]
        have answered : openssl (a.count, toInt (a.len - a.count)) (⟨1, .wantRead⟩ :: results) =
            some (⟨1, .wantRead⟩, results) := if_pos (.inr good)
        have next : a.answered o ⟨1, .wantRead⟩ =
            ((o, { a with count := a.count + 1 }), .progress) := by
          have short : a.count + 1 ≠ a.len := by omega
          simp [Transfer.answered, full, short]
        obtain ⟨call, mem, low⟩ := bad k (by simpa using enough)
        refine ⟨call, ?_, low⟩
        rw [callsOf, Round.play_call round answered (by rw [next]; rfl), next]
        exact List.mem_cons_of_mem _ mem
      · refine ⟨[again], fun fuel enough => ?_⟩
        obtain ⟨k, rfl⟩ : ∃ k, fuel = k + 1 := ⟨fuel - 1, by omega⟩
        refine ⟨_, calls_again (by omega), ?_⟩
        show toInt (a.len - a.count) < 1
        omega

theorem Covers.pos (covers : Covers len log) {call : (Nat × Int) × SslResult}
    (mem : call ∈ log) : 1 ≤ call.1.2 := by
  obtain ⟨before, after, split⟩ := List.append_of_mem mem
  exact (covers before call after split).2.1

/-- **TLS transfers stay inside the buffer for every sequence of results exactly if the length
survives the cast**: in full mode a length below 2^31, otherwise one whose low 32 bits are a
positive `int`. -/
theorem within_iff (o : Flags) (dir : Dir) (len : Nat) (full : Bool) :
    (∀ results, Within len full (life o (.make dir len full) results)) ↔ Fits len full := by
  constructor
  · intro within
    have covers := fun results => (within results).covers
    cases full with
    | true =>
        rw [Fits, if_pos rfl]
        by_contra large
        obtain ⟨results, bad⟩ := exists_bad_call (o := o) (len - 2 ^ 31)
          (a := .make dir len true) rfl (Nat.zero_le _) (by simp only [Transfer.make]; omega)
        obtain ⟨call, mem, low⟩ := bad _ (Nat.lt_succ_self _)
        have pos := (covers results).pos mem
        omega
    | false =>
        rw [Fits, if_neg (by simp)]
        by_cases none' : len = 0
        · exact .inl none'
        · refine .inr (toInt_pos_iff.mp ?_)
          have more : (Transfer.make dir len false).count < (Transfer.make dir len false).len :=
            Nat.pos_of_ne_zero none'
          exact (covers [again]).pos (calls_again more)
  · exact fun fits results => .of_fits fits results

/-- Lengths of 2^31 and 2^32 bytes: the first call is made with a negative length, or with 0. -/
theorem bad_lengths :
    (life ⟨false, false⟩ (.make .recv (2 ^ 31) true) [again]).log =
        [((0, -2147483648), again)] ∧
      ¬ Within (2 ^ 31) true (life ⟨false, false⟩ (.make .recv (2 ^ 31) true) [again]) ∧
      (life ⟨false, false⟩ (.make .send (2 ^ 32) false) [again]).log = [((0, 0), again)] ∧
      ¬ Within (2 ^ 32) false (life ⟨false, false⟩ (.make .send (2 ^ 32) false) [again]) := by
  have negative : (life ⟨false, false⟩ (.make .recv (2 ^ 31) true) [again]).log =
      [((0, -2147483648), again)] := rfl
  have zero : (life ⟨false, false⟩ (.make .send (2 ^ 32) false) [again]).log =
      [((0, 0), again)] := rfl
  refine ⟨negative, fun within => ?_, zero, fun within => ?_⟩
  · have pos := within.covers.pos (by rw [negative]; exact List.mem_cons_self)
    exact absurd pos (by decide)
  · have pos := within.covers.pos (by rw [zero]; exact List.mem_cons_self)
    exact absurd pos (by decide)

end CoWq.TlsSocket
