import CoWq.Net.WebSocket.Message

/-!
# What a message reader lets through

The protocol forbids some frames altogether: reserved opcodes, fragmented or long control
frames, lengths in a longer form than necessary, and close frames of one byte.  The reader
checks none of this, but other checks may stop such a frame.

* `WireFrame.Offends`: the forbidden frames.
* `Head`: the rounds of `read_message` on a stream.
* `Strict`: it stops with an error at each forbidden frame it comes to, and delivers texts and
  binaries only.
* `Onward`, `Caught`: the frames of the stream it comes to, and the forbidden ones that fail
  another check.
* `strict_iff_caught`: the first holds exactly if the second does.
* `reserved_delivered`: a reserved opcode that is delivered.
-/

namespace CoWq.WebSocket

def Opcode.IsControl (op : Opcode) : Prop := op = .close ∨ op = .ping ∨ op = .pong

/-- The form in which a length is to be written. -/
def LengthForm.shortest (len : Nat) : LengthForm :=
  if len ≤ 125 then seven else if len ≤ 0xFFFF then sixteen else sixtyFour

namespace WireFrame

inductive Offends (f : WireFrame) : Prop
  | reserved (code : UInt8) : f.op = .reserved code → Offends f
  | fragmented : f.op.IsControl → f.fin = false → Offends f
  | long : f.op.IsControl → 125 < f.body.length → Offends f
  | overlong : f.form ≠ .shortest f.body.length → Offends f
  | oneByte : f.op = .close → f.body.length = 1 → Offends f

/-- A data frame that starts a message inside another one, or continues none. -/
def Misplaced (started : Bool) (f : WireFrame) : Prop :=
  ¬ f.op.IsControl ∧ ¬ (f.op = .continuation ↔ started = true)

/-- Another check of the reader stops the frame. -/
def Refused (opts : FrameReadOptions) (started : Bool) (f : WireFrame) : Prop :=
  ¬ f.Admitted opts ∨ f.Misplaced started

end WireFrame

/-! ## The rounds and the frames -/

section Rounds

variable {σ : Type} (opts : MessageReadOptions) (sendAll : List UInt8 → StateM σ Int)
  (s₀ : Inbound UInt8) (w₀ : σ)

/-- The rounds that `read_message` begins. -/
inductive Head : Reassembly → Inbound UInt8 → σ → Prop
  | start : Head {} s₀ w₀
  | again {r r' : Reassembly} {s s' : Inbound UInt8} {w w' : σ} :
    Head r s w → turn opts sendAll r s w = .again r' s' w' → Head r' s' w'

/-- `read_message` accepts nothing forbidden: what it delivers is a text or binary message,
and a round that comes to a forbidden frame ends it with an error and answers nothing. -/
structure Strict : Prop where
  op : ∀ m s w, readMessage opts sendAll s₀ w₀ = (.ok m, s, w) → m.closed = false →
    m.op = .text ∨ m.op = .binary
  error : ∀ r s w (f : WireFrame) rest, Head opts sendAll s₀ w₀ r s w →
    s.pending = f.bytes ++ rest → f.Offends →
    ∃ e s', turn opts sendAll r s w = .stop (.error e) s' w

end Rounds

/-- The frames behind which the reader goes on, and whether a message is then started: pings
and pongs, and fragments that are not the last. -/
inductive Onward (opts : FrameReadOptions) : List WireFrame → Bool → Prop
  | start : Onward opts [] false
  | control {fs : List WireFrame} {started : Bool} {f : WireFrame} :
    Onward opts fs started → f.Admitted opts → f.op = .ping ∨ f.op = .pong →
    Onward opts (fs ++ [f]) started
  | fragment {fs : List WireFrame} {started : Bool} {f : WireFrame} :
    Onward opts fs started → f.Admitted opts → ¬ f.op.IsControl →
    (f.op = .continuation ↔ started = true) → f.fin = false → Onward opts (fs ++ [f]) true

/-- Every forbidden frame of the stream that the reader comes to fails another check. -/
def Caught (opts : FrameReadOptions) (bytes : List UInt8) : Prop :=
  ∀ fs started (f : WireFrame) rest, Onward opts fs started →
    bytes = fs.flatMap WireFrame.bytes ++ (f.bytes ++ rest) → f.Offends → f.Refused opts started

/-! ## What a round does -/

variable {σ : Type} {opts : MessageReadOptions} {sendAll : List UInt8 → StateM σ Int}
  {s₀ s s' : Inbound UInt8} {w₀ w w' : σ} {r r' : Reassembly} {f : WireFrame} {rest : List UInt8}

theorem take_cases (r : Reassembly) (respondToPing : Bool) (fr : Frame) :
    (fr.op = .ping ∨ fr.op = .pong) ∧
        (r.take respondToPing fr = .again r ∨ r.take respondToPing fr = .pong fr.payload r) ∨
      fr.op = .close ∧ r.take respondToPing fr = .stop (.ok (closeMessage fr.payload)) ∨
      ¬ fr.op.IsControl ∧ (fr.op = .continuation ↔ r.started = true) ∧
        (∃ buffer, r.take respondToPing fr = Reassembly.finish
          ⟨buffer, if r.started then r.currentOpcode else fr.op, true⟩ fr.fin) ∨
      ¬ fr.op.IsControl ∧ ¬ (fr.op = .continuation ↔ r.started = true) ∧
        r.take respondToPing fr = .stop (.error protoError) := by
  obtain ⟨buffer, currentOpcode, started⟩ := r
  unfold Reassembly.take Opcode.IsControl
  by_cases ping : fr.op = .ping
  · cases respondToPing <;> simp [ping]
  · by_cases pong : fr.op = .pong
    · simp [pong]
    · by_cases close : fr.op = .close
      · simp [close]
      · by_cases cont : fr.op = .continuation
        · cases started with
          | true => exact .inr (.inr (.inl ⟨by simp [cont], by simp [cont],
              buffer ++ fr.payload, by simp [cont]⟩))
          | false => simp [cont]
        · cases started with
          | true => simp [ping, pong, close, cont]
          | false =>
              exact .inr (.inr (.inl ⟨by simp [ping, pong, close], by simp [cont], fr.payload,
                by simp [ping, pong, close, cont]⟩))

theorem finish_again {fin : Bool} (go : r.finish fin = .again r') : fin = false ∧ r' = r := by
  unfold Reassembly.finish at go
  cases fin with
  | true => cases go
  | false =>
      cases go
      exact ⟨rfl, rfl⟩

/-- What the frame of a round that goes on is, and what becomes of the variables. -/
theorem turn_again_cases (round : turn opts sendAll r s w = .again r' s' w') :
    ∃ f : WireFrame, f.Admitted opts.toFrameReadOptions ∧ s.pending = f.bytes ++ s'.pending ∧
      ((f.op = .ping ∨ f.op = .pong) ∧ r' = r ∨
        ¬ f.op.IsControl ∧ (f.op = .continuation ↔ r.started = true) ∧ f.fin = false ∧
          ∃ buffer, r' = ⟨buffer, if r.started then r.currentOpcode else f.op, true⟩) := by
  obtain ⟨f, admitted, here, taken⟩ := turn_again round
  refine ⟨f, admitted, here, ?_⟩
  rcases take_cases r opts.respondToPing (f.frame opts.toFrameReadOptions) with
    ⟨control, took⟩ | ⟨-, took⟩ | ⟨data, fits, buffer, took⟩ | ⟨-, -, took⟩
  · refine .inl ⟨control, ?_⟩
    rcases taken with ⟨go, -⟩ | ⟨payload, go, -⟩ <;> rcases took with took | took
    · exact (Taken.again.inj (took.symm.trans go)).symm
    · cases took.symm.trans go
    · cases took.symm.trans go
    · exact (Taken.pong.inj (took.symm.trans go)).2.symm
  · rcases taken with ⟨go, -⟩ | ⟨payload, go, -⟩ <;> cases took.symm.trans go
  · rcases taken with ⟨go, -⟩ | ⟨payload, go, -⟩
    · obtain ⟨more, rfl⟩ := finish_again (took.symm.trans go)
      exact .inr ⟨data, fits, more, buffer, rfl⟩
    · have go' := took.symm.trans go
      unfold Reassembly.finish at go'
      split at go' <;> cases go'
  · rcases taken with ⟨go, -⟩ | ⟨payload, go, -⟩ <;> cases took.symm.trans go

/-- The frames taken so far lead from the beginning of the stream to the round. -/
theorem Head.onward (head : Head opts sendAll s₀ w₀ r s w) :
    ∃ fs, Onward opts.toFrameReadOptions fs r.started ∧
      s₀.pending = fs.flatMap WireFrame.bytes ++ s.pending := by
  induction head with
  | start => exact ⟨[], .start, rfl⟩
  | again _ round ih =>
      obtain ⟨fs, onward, split⟩ := ih
      obtain ⟨f, admitted, here, ⟨control, rfl⟩ | ⟨data, fits, more, buffer, rfl⟩⟩ :=
        turn_again_cases round
      · exact ⟨fs ++ [f], .control onward admitted control, by simp [split, here]⟩
      · exact ⟨fs ++ [f], .fragment onward admitted data fits more, by simp [split, here]⟩

/-- A round on an admitted frame. -/
theorem turn_wire (opts : MessageReadOptions) (r : Reassembly)
    (sendAll : List UInt8 → StateM σ Int) (w : σ) (admitted : f.Admitted opts.toFrameReadOptions)
    (here : s.pending = f.bytes ++ rest) :
    ∃ s', s'.pending = rest ∧ turn opts sendAll r s w =
      match r.take opts.respondToPing (f.frame opts.toFrameReadOptions) with
      | .again r => .again r s' w
      | .pong payload r => .again r s' (answerPing sendAll payload w)
      | .stop res => .stop res s' w := by
  obtain ⟨s', read, rest'⟩ := (f.readFrame_wire here).1 admitted
  refine ⟨s', rest', ?_⟩
  unfold turn
  rewrite [read]
  rfl

/-- Every frame behind which the reader goes on brings it to another round. -/
theorem Onward.head {fs : List WireFrame} {started : Bool}
    (onward : Onward opts.toFrameReadOptions fs started) (sendAll : List UInt8 → StateM σ Int)
    (w₀ : σ) {bytes : List UInt8}
    (split : s₀.pending = fs.flatMap WireFrame.bytes ++ bytes) :
    ∃ r s w, Head opts sendAll s₀ w₀ r s w ∧ r.started = started ∧ s.pending = bytes := by
  induction onward generalizing bytes with
  | start => exact ⟨{}, s₀, w₀, .start, rfl, split⟩
  | @control fs started f _ admitted control ih =>
      obtain ⟨r, s, w, head, level, here⟩ := @ih (f.bytes ++ bytes) (by simp [split])
      obtain ⟨s', rest', round⟩ := turn_wire opts r sendAll w admitted here
      rcases take_cases r opts.respondToPing (f.frame opts.toFrameReadOptions) with
        ⟨-, took⟩ | ⟨close, -⟩ | ⟨data, -⟩ | ⟨data, -⟩
      · rcases took with took | took <;> rw [took] at round
        · exact ⟨r, s', w, .again head round, level, rest'⟩
        · exact ⟨r, s', _, .again head round, level, rest'⟩
      · rcases control with ping | pong
        · cases ping.symm.trans close
        · cases pong.symm.trans close
      · exact (data (.inr control)).elim
      · exact (data (.inr control)).elim
  | @fragment fs started f _ admitted data fits open' ih =>
      obtain ⟨r, s, w, head, level, here⟩ := @ih (f.bytes ++ bytes) (by simp [split])
      obtain ⟨s', rest', round⟩ := turn_wire opts r sendAll w admitted here
      rw [← level] at fits
      rcases take_cases r opts.respondToPing (f.frame opts.toFrameReadOptions) with
        ⟨control, -⟩ | ⟨close, -⟩ | ⟨-, -, buffer, took⟩ | ⟨-, misfit, -⟩
      · exact (data (.inr control)).elim
      · exact (data (.inl close)).elim
      · have fin : (f.frame opts.toFrameReadOptions).fin = false := open'
        rw [took, fin] at round
        exact ⟨_, s', w, .again head round, rfl, rest'⟩
      · exact (misfit fits).elim

/-- **A round stops with an error on a refused frame only.** -/
theorem turn_error_iff (here : s.pending = f.bytes ++ rest) :
    (∃ e s', turn opts sendAll r s w = .stop (.error e) s' w) ↔
      f.Refused opts.toFrameReadOptions r.started := by
  by_cases admitted : f.Admitted opts.toFrameReadOptions
  · obtain ⟨s', -, round⟩ := turn_wire opts r sendAll w admitted here
    have refused : f.Refused opts.toFrameReadOptions r.started ↔ f.Misplaced r.started :=
      or_iff_right (not_not.mpr admitted)
    rw [refused, round]
    rcases take_cases r opts.respondToPing (f.frame opts.toFrameReadOptions) with
      ⟨control, took⟩ | ⟨close, took⟩ | ⟨data, fits, buffer, took⟩ | ⟨data, misfit, took⟩
    · refine ⟨fun stopped => ?_, fun misplaced => (misplaced.1 (.inr control)).elim⟩
      rcases took with took | took <;> rw [took] at stopped <;>
        obtain ⟨e, s', stopped⟩ := stopped <;> cases stopped
    · refine ⟨fun stopped => ?_, fun misplaced => (misplaced.1 (.inl close)).elim⟩
      rw [took] at stopped
      obtain ⟨e, s', stopped⟩ := stopped
      cases stopped
    · refine ⟨fun stopped => ?_, fun misplaced => (misplaced.2 fits).elim⟩
      rw [took] at stopped
      cases fin : (f.frame opts.toFrameReadOptions).fin <;> rw [fin] at stopped <;>
        obtain ⟨e, s', stopped⟩ := stopped <;> cases stopped
    · rw [took]
      exact ⟨fun _ => ⟨data, misfit⟩, fun _ => ⟨_, _, rfl⟩⟩
  · refine ⟨fun _ => .inl admitted, fun _ => ?_⟩
    obtain ⟨e, s', read⟩ := (f.readFrame_wire here).2 admitted
    refine ⟨e, s', ?_⟩
    unfold turn
    rw [read]

/-! ## What is delivered -/

theorem Opcode.data_of_named {op : Opcode} (data : ¬ op.IsControl) (first : op ≠ .continuation)
    (named : ∀ code, op ≠ .reserved code) : op = .text ∨ op = .binary := by
  cases op with
  | continuation => exact (first rfl).elim
  | text => exact .inl rfl
  | binary => exact .inr rfl
  | close => exact (data (.inl rfl)).elim
  | ping => exact (data (.inr (.inl rfl))).elim
  | pong => exact (data (.inr (.inr rfl))).elim
  | reserved code => exact (named code rfl).elim

/-- The first fragment of a message that goes through is a text or binary frame. -/
theorem Caught.first (caught : Caught opts.toFrameReadOptions s₀.pending)
    (head : Head opts sendAll s₀ w₀ r s w) (idle : r.started = false)
    (here : s.pending = f.bytes ++ rest) (admitted : f.Admitted opts.toFrameReadOptions)
    (data : ¬ f.op.IsControl) (fits : f.op = .continuation ↔ r.started = true) :
    f.op = .text ∨ f.op = .binary := by
  rw [idle] at fits
  refine Opcode.data_of_named data (by simpa using fits) fun code reserved => ?_
  obtain ⟨fs, onward, split⟩ := head.onward
  rw [idle] at onward
  rcases caught fs false f rest onward (by rw [split, here]) (.reserved code reserved) with
    refused | misplaced
  · exact refused admitted
  · exact misplaced.2 fits

theorem Caught.current (caught : Caught opts.toFrameReadOptions s₀.pending)
    (head : Head opts sendAll s₀ w₀ r s w) (started : r.started = true) :
    r.currentOpcode = .text ∨ r.currentOpcode = .binary := by
  induction head with
  | start => cases started
  | @again r r' s s' w w' head round ih =>
      obtain ⟨f, admitted, here, ⟨-, rfl⟩ | ⟨data, fits, -, buffer, rfl⟩⟩ := turn_again_cases round
      · exact ih started
      · cases level : r.started with
        | true => simpa [level] using ih level
        | false => simpa [level] using caught.first head level here admitted data fits

/-- The result is that of the last round. -/
theorem Head.result {res : Except Int Message} (head : Head opts sendAll s₀ w₀ r s w)
    (run : readMessageLoop opts sendAll r s w = (res, s', w')) :
    ∃ r₁ s₁ w₁, Head opts sendAll s₀ w₀ r₁ s₁ w₁ ∧
      turn opts sendAll r₁ s₁ w₁ = .stop res s' w' := by
  induction size : s.pending.length using Nat.strongRecOn generalizing r s w with
  | ind n ih =>
      subst size
      cases round : turn opts sendAll r s w with
      | stop res₁ s₁ w₁ =>
          rw [readMessageLoop_stop round] at run
          cases run
          exact ⟨r, s, w, head, round⟩
      | again r₁ s₁ w₁ =>
          rw [readMessageLoop_again round] at run
          obtain ⟨f, -, here, -⟩ := turn_again round
          have taken := f.bytes_pos
          exact ih s₁.pending.length (by rw [here, List.length_append]; omega)
            (.again head round) run rfl

/-- Whatever ends a message is the frame of the last round. -/
theorem turn_stop_ok {m : Message} (round : turn opts sendAll r s w = .stop (.ok m) s' w')
    (message : m.closed = false) :
    ∃ f : WireFrame, f.Admitted opts.toFrameReadOptions ∧ s.pending = f.bytes ++ s'.pending ∧
      ¬ f.op.IsControl ∧ (f.op = .continuation ↔ r.started = true) ∧
      m.op = if r.started then r.currentOpcode else f.op := by
  unfold turn at round
  split at round
  · cases round
  · rename_i fr t read
    obtain ⟨f, admitted, here, rfl⟩ := readFrame_ok read
    split at round <;> cases round
    rename_i stopped
    refine ⟨f, admitted, here, ?_⟩
    rcases take_cases r opts.respondToPing (f.frame opts.toFrameReadOptions) with
      ⟨-, took⟩ | ⟨-, took⟩ | ⟨data, fits, buffer, took⟩ | ⟨-, -, took⟩
    · rcases took with took | took <;> cases took.symm.trans stopped
    · cases took.symm.trans stopped
      unfold closeMessage at message
      split at message <;> cases message
    · have last := took.symm.trans stopped
      unfold Reassembly.finish at last
      split at last <;> cases last
      exact ⟨data, fits, rfl⟩
    · cases took.symm.trans stopped

/-- **`read_message` accepts nothing forbidden exactly on the streams in which every
forbidden frame it comes to fails another check.** -/
theorem strict_iff_caught (opts : MessageReadOptions) (sendAll : List UInt8 → StateM σ Int)
    (s₀ : Inbound UInt8) (w₀ : σ) :
    Strict opts sendAll s₀ w₀ ↔ Caught opts.toFrameReadOptions s₀.pending := by
  constructor
  · intro strict fs started f rest onward split offends
    obtain ⟨r, s, w, head, rfl, here⟩ := onward.head sendAll w₀ split
    obtain ⟨e, s', stopped⟩ := strict.error r s w f rest head here offends
    exact (turn_error_iff here).mp ⟨e, s', stopped⟩
  · intro caught
    constructor
    · intro m s w run message
      obtain ⟨r₁, s₁, w₁, head, round⟩ := Head.result .start run
      obtain ⟨f, admitted, here, data, fits, op⟩ := turn_stop_ok round message
      rw [op]
      cases level : r₁.started with
      | true => simpa [level] using caught.current head level
      | false => simpa [level] using caught.first head level here admitted data fits
    · intro r s w f rest head here offends
      obtain ⟨fs, onward, split⟩ := head.onward
      exact (turn_error_iff here).mpr
        (caught fs r.started f rest onward (by rw [split, here]) offends)

/-! ## A run -/

/-- A single frame with the reserved opcode 3, masked with zeros. -/
def reservedFrame : WireFrame where
  byte0 := 0x83
  form := .seven
  mask := some (0, 0, 0, 0)
  body := [0x48]
  fits := by decide

theorem reservedStream_positive :
    ∀ c ∈ [([0x83, 0x81, 0, 0, 0, 0, 0x48] : List UInt8)], c ≠ [] := by
  simp

def reservedStream : Inbound UInt8 where
  chunks := [[0x83, 0x81, 0, 0, 0, 0, 0x48]]
  ending := 0
  positive := reservedStream_positive
  stops := Inbound.orderly_stops

/-- The frame is delivered as a message, with an opcode that has no name. -/
theorem reserved_delivered :
    (∃ s, readMessage {} writeAll reservedStream [] =
      (.ok { op := .reserved 3, payload := [0x48] }, s, [])) ∧
      ¬ Strict {} writeAll reservedStream [] := by
  have admitted : reservedFrame.Admitted {} := ⟨by decide, by decide, fun _ => rfl⟩
  have here : reservedStream.pending = reservedFrame.bytes ++ [] := by decide
  obtain ⟨s, -, round⟩ := turn_wire {} {} writeAll [] admitted here
  have run : readMessage {} writeAll reservedStream [] =
      (.ok { op := .reserved 3, payload := [0x48] }, s, []) :=
    readMessageLoop_stop (round.trans rfl)
  refine ⟨⟨s, run⟩, fun strict => ?_⟩
  rcases strict.op _ s [] run rfl with text | binary
  · cases text
  · cases binary

end CoWq.WebSocket
