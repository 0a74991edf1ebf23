import CoWq.Net.WebSocket.Message

/-!
# Messages do not depend on how they are fragmented

* `Sent`, `Fragments`: what a peer sends for one message.
* `readMessageLoop_controls`: pings and pongs in front of whatever comes.
* `readMessageLoop_fragments`: the loop over what is left of it.
* `readMessage_sendClose`: a close frame.
* `readMessage_fragments`: the message, its pongs and the close frame.
-/

namespace CoWq.WebSocket

open BigEndian

/-- A call of `send_frame` by the peer. -/
structure Sent where
  op : Opcode
  payload : List UInt8
  opts : SendOptions
  random : UInt32

/-- What the call writes. -/
def Sent.bytes (p : Sent) : List UInt8 :=
  ((sendFrame writeAll p.op p.payload p.opts p.random).run []).2

/-- The reader takes the payload as it was sent. -/
structure Sent.Admissible (opts : FrameReadOptions) (p : Sent) : Prop where
  size : p.payload.length ≤ opts.maxFrameSize.toNat
  masking : opts.requireMaskedClient → p.opts.mask
  unmask : p.opts.mask → opts.autoUnmask

/-- The frames of a message, or of what is left of it when some fragments are `started`: the
first fragment has the opcode of the message and the others continue it, the last one alone has
`fin` set, and pings and pongs may stand before each. -/
inductive Fragments (op : Opcode) : Bool → List UInt8 → List Sent → Prop
  | control {started : Bool} {payload : List UInt8} {p : Sent} {ps : List Sent} :
    p.op = .ping ∨ p.op = .pong → Fragments op started payload ps →
    Fragments op started payload (p :: ps)
  | more {started : Bool} {payload : List UInt8} {p : Sent} {ps : List Sent} :
    p.op = (if started then .continuation else op) → p.opts.fin = false →
    Fragments op true payload ps → Fragments op started (p.payload ++ payload) (p :: ps)
  | last {started : Bool} {p : Sent} :
    p.op = (if started then .continuation else op) → p.opts.fin = true →
    Fragments op started p.payload [p]

/-- The payloads of the pings, in order. -/
def pings (ps : List Sent) : List (List UInt8) :=
  (ps.filter fun p => p.op = .ping).map Sent.payload

variable {σ : Type} {opts : MessageReadOptions} {sendAll : List UInt8 → StateM σ Int}
  {r : Reassembly} {s : Inbound UInt8} {w : σ} {rest : List UInt8}

/-- One pong for each ping, in order, or none. -/
def answerPings (respondToPing : Bool) (sendAll : List UInt8 → StateM σ Int)
    (payloads : List (List UInt8)) (w : σ) : σ :=
  if respondToPing then payloads.foldl (fun w payload => answerPing sendAll payload w) w else w

/-- A round on a frame of the peer. -/
theorem turn_sent (r : Reassembly) (sendAll : List UInt8 → StateM σ Int) (w : σ) {p : Sent}
    (named : p.op.Defined)
    (admissible : p.Admissible opts.toFrameReadOptions) (here : s.pending = p.bytes ++ rest) :
    ∃ s', s'.pending = rest ∧ turn opts sendAll r s w =
      match r.take opts.respondToPing (sentFrame p.op p.payload p.opts p.random) with
      | .again r => .again r s' w
      | .pong payload r => .again r s' (answerPing sendAll payload w)
      | .stop res => .stop res s' w := by
  obtain ⟨size, masking, unmask⟩ := admissible
  rw [Sent.bytes, sendFrame_writeAll, List.nil_append] at here
  obtain ⟨s', read, rest'⟩ := readFrame_frameBytes p.random ⟨named, size, masking⟩ unmask here
  refine ⟨s', rest', ?_⟩
  unfold turn
  rewrite [read]
  rfl

theorem take_control (r : Reassembly) (respondToPing : Bool) (fr : Frame)
    (control : fr.op = .ping ∨ fr.op = .pong) :
    (fr.op = .ping ∧ respondToPing = true → r.take respondToPing fr = .pong fr.payload r) ∧
      (¬ (fr.op = .ping ∧ respondToPing = true) → r.take respondToPing fr = .again r) := by
  unfold Reassembly.take
  rcases control with ping | pong
  · cases respondToPing <;> simp [ping]
  · simp [pong]

/-- A fragment that fits. -/
theorem take_fragment {respondToPing : Bool} {fr : Frame} {op : Opcode}
    (data : op = .text ∨ op = .binary) (current : r.started = true → r.currentOpcode = op)
    (code : fr.op = if r.started then .continuation else op) :
    r.take respondToPing fr =
      Reassembly.finish ⟨(if r.started then r.buffer else []) ++ fr.payload, op, true⟩ fr.fin := by
  unfold Reassembly.take
  cases started : r.started with
  | true =>
      simp only [started, if_true] at code
      obtain ⟨buffer, currentOpcode, _⟩ := r
      cases started
      simp [code, ← current rfl]
  | false =>
      simp only [started, Bool.false_eq_true, if_false] at code
      rcases data with rfl | rfl <;> simp [code]

theorem data_defined {op : Opcode} (data : op = .text ∨ op = .binary) {started : Bool} :
    (if started then .continuation else op).Defined := by
  rintro code reserved
  cases started with
  | true => cases reserved
  | false => rcases data with rfl | rfl <;> cases reserved

theorem data_ne_ping {op : Opcode} (data : op = .text ∨ op = .binary) {started : Bool} :
    (if started then .continuation else op) ≠ Opcode.ping := by
  cases started with
  | true => exact Opcode.noConfusion
  | false => rcases data with rfl | rfl <;> exact Opcode.noConfusion

/-- The loop over a ping or a pong. -/
theorem readMessageLoop_control (r : Reassembly) (sendAll : List UInt8 → StateM σ Int) (w : σ)
    {p : Sent} (control : p.op = .ping ∨ p.op = .pong)
    (admissible : p.Admissible opts.toFrameReadOptions) (here : s.pending = p.bytes ++ rest) :
    ∃ s', s'.pending = rest ∧ readMessageLoop opts sendAll r s w =
      readMessageLoop opts sendAll r s'
        (answerPings opts.respondToPing sendAll (pings [p]) w) := by
  have named : p.op.Defined := by
    rintro code reserved
    rcases control with ping | pong
    · cases ping.symm.trans reserved
    · cases pong.symm.trans reserved
  obtain ⟨s', rest', round⟩ := turn_sent r sendAll w named admissible here
  obtain ⟨answer, ignore⟩ := take_control r opts.respondToPing
    (sentFrame p.op p.payload p.opts p.random) control
  refine ⟨s', rest', ?_⟩
  by_cases answered : p.op = .ping ∧ opts.respondToPing = true
  · rw [answer answered] at round
    rw [readMessageLoop_again round]
    simp [answerPings, pings, answered, sentFrame]
  · rw [ignore answered] at round
    rw [readMessageLoop_again round]
    by_cases ping : p.op = .ping
    · have quiet : opts.respondToPing = false := by simpa [ping] using answered
      simp [answerPings, quiet]
    · simp [answerPings, pings, ping]

/-- The pongs are sent one after the other. -/
theorem answerPings_append {respondToPing : Bool} {payloads payloads' : List (List UInt8)} {w : σ} :
    answerPings respondToPing sendAll (payloads ++ payloads') w =
      answerPings respondToPing sendAll payloads'
        (answerPings respondToPing sendAll payloads w) := by
  unfold answerPings
  cases respondToPing with
  | false => rfl
  | true => exact List.foldl_append

theorem pings_cons (p : Sent) (ps : List Sent) : pings (p :: ps) = pings [p] ++ pings ps := by
  rw [pings, pings, pings, ← List.map_append, ← List.filter_append]
  rfl

/-- **The loop over what is left of a message.** -/
theorem readMessageLoop_fragments {op : Opcode} (data : op = .text ∨ op = .binary) {started : Bool}
    {payload : List UInt8} {ps : List Sent} (fragments : Fragments op started payload ps)
    (admissible : ∀ p ∈ ps, p.Admissible opts.toFrameReadOptions) (level : r.started = started)
    (current : r.started = true → r.currentOpcode = op)
    (here : s.pending = ps.flatMap Sent.bytes ++ rest) :
    ∃ s', readMessageLoop opts sendAll r s w =
        (.ok { op := op, payload := (if started then r.buffer else []) ++ payload }, s',
          answerPings opts.respondToPing sendAll (pings ps) w) ∧ s'.pending = rest := by
  induction fragments generalizing r s w with
  | @control started payload p ps control _ ih =>
      rw [List.flatMap_cons, List.append_assoc] at here
      obtain ⟨s₁, rest₁, first⟩ :=
        readMessageLoop_control r sendAll w control (admissible p List.mem_cons_self) here
      obtain ⟨s', run, rest'⟩ := ih (fun p mem => admissible p (List.mem_cons_of_mem _ mem)) level
        current rest₁ (w := answerPings opts.respondToPing sendAll (pings [p]) w)
      refine ⟨s', ?_, rest'⟩
      rw [first, run, pings_cons p ps, answerPings_append]
  | @more started payload p ps code fin _ ih =>
      rw [List.flatMap_cons, List.append_assoc] at here
      obtain ⟨s₁, rest₁, round⟩ := turn_sent r sendAll w
        (code ▸ data_defined data) (admissible p List.mem_cons_self) here
      rw [take_fragment data current (by rw [level]; exact code)] at round
      simp only [sentFrame, Reassembly.finish, fin, Bool.false_eq_true, if_false] at round
      obtain ⟨s', run, rest'⟩ := ih (fun p mem => admissible p (List.mem_cons_of_mem _ mem))
        (r := ⟨(if r.started then r.buffer else []) ++ p.payload, op, true⟩) rfl (fun _ => rfl)
        rest₁ (w := w)
      refine ⟨s', ?_, rest'⟩
      have other : p.op ≠ .ping := code ▸ data_ne_ping data
      rw [readMessageLoop_again round, run]
      simp [pings, other, level]
  | @last started p code fin =>
      rw [List.flatMap_cons, List.flatMap_nil, List.append_nil] at here
      obtain ⟨s₁, rest₁, round⟩ := turn_sent r sendAll w
        (code ▸ data_defined data) (admissible p List.mem_cons_self) here
      rw [take_fragment data current (by rw [level]; exact code)] at round
      simp only [sentFrame, Reassembly.finish, fin, if_true] at round
      refine ⟨s₁, ?_, rest₁⟩
      have other : p.op ≠ .ping := code ▸ data_ne_ping data
      rw [readMessageLoop_stop round]
      simp [pings, other, level, answerPings]

theorem answerPings_writeAll {respondToPing : Bool} {payloads : List (List UInt8)}
    {wire : List UInt8} : answerPings respondToPing writeAll payloads wire =
      wire ++ if respondToPing then payloads.flatMap fun payload =>
        frameBytes .pong payload { fin := true, mask := false } 0 else [] := by
  unfold answerPings
  cases respondToPing with
  | false => exact (List.append_nil wire).symm
  | true =>
      simp only [if_true]
      induction payloads generalizing wire with
      | nil => exact (List.append_nil wire).symm
      | cons payload payloads ih =>
          have first : answerPing writeAll payload wire =
              wire ++ frameBytes .pong payload { fin := true, mask := false } 0 := by
            unfold answerPing
            rw [sendFrame_writeAll]
            rfl
          rw [List.foldl_cons, ih, first, List.flatMap_cons, List.append_assoc]

/-- The two bytes of a close code. -/
theorem closeMessage_code (code : UInt16) (reason : List UInt8) :
    closeMessage ([((code >>> 8) &&& 0xFF).toUInt8, (code &&& 0xFF).toUInt8] ++ reason) =
      { closed := true, closeCode := code, closeReason := reason } := by
  have two : 2 ≤ ([((code >>> 8) &&& 0xFF).toUInt8, (code &&& 0xFF).toUInt8] ++ reason).length := by
    rw [List.length_append]
    exact Nat.le_add_right 2 _
  unfold closeMessage
  rw [if_pos two]
  simp only [List.cons_append, List.getD_cons_zero, List.getD_cons_succ, word16_of_two]
  rfl

theorem readMessage_sendClose {code : UInt16} {reason : List UInt8} {sendOpts : SendOptions}
    {random : UInt32} (size : 2 + reason.length ≤ opts.maxFrameSize.toNat)
    (masking : opts.requireMaskedClient → sendOpts.mask) (unmask : sendOpts.mask → opts.autoUnmask)
    (here : s.pending = ((sendClose writeAll code reason sendOpts random).run []).2 ++ rest) :
    ∃ s', readMessage opts sendAll s w =
        (.ok { closed := true, closeCode := code, closeReason := reason }, s', w) ∧
      s'.pending = rest := by
  let p : Sent := ⟨.close, [((code >>> 8) &&& 0xFF).toUInt8, (code &&& 0xFF).toUInt8] ++ reason,
    sendOpts, random⟩
  have admissible : p.Admissible opts.toFrameReadOptions := by
    refine ⟨?_, masking, unmask⟩
    simp only [p, List.length_append, List.length_cons, List.length_nil]
    omega
  obtain ⟨s', rest', round⟩ := turn_sent {} sendAll w (p := p)
    (fun _ reserved => Opcode.noConfusion reserved) admissible here
  refine ⟨s', ?_, rest'⟩
  have taken : Reassembly.take {} opts.respondToPing
      (sentFrame p.op p.payload p.opts p.random) = .stop (.ok (closeMessage p.payload)) := rfl
  rw [taken] at round
  rw [readMessage, readMessageLoop_stop round, closeMessage_code]

/-- **Reassembly does not depend on fragmentation.**  However a text or binary message is cut
into fragments, and wherever pings and pongs stand between them, `read_message` returns its
opcode and payload and sends one pong for each ping, in order and with its payload, if it is
to respond; on the wire these are whole frames.  What `send_close` sends comes out as a close
with its code and reason. -/
theorem readMessage_fragments (opts : MessageReadOptions) :
    (∀ {op : Opcode} {payload : List UInt8} {ps : List Sent}, op = .text ∨ op = .binary →
      Fragments op false payload ps → (∀ p ∈ ps, p.Admissible opts.toFrameReadOptions) →
      ∀ {σ : Type} (sendAll : List UInt8 → StateM σ Int) (w : σ) (s : Inbound UInt8)
        (rest : List UInt8), s.pending = ps.flatMap Sent.bytes ++ rest →
      ∃ s', readMessage opts sendAll s w = (.ok { op := op, payload := payload }, s',
          answerPings opts.respondToPing sendAll (pings ps) w) ∧ s'.pending = rest) ∧
    (∀ payloads wire, answerPings opts.respondToPing writeAll payloads wire =
      wire ++ if opts.respondToPing then payloads.flatMap fun payload =>
        frameBytes .pong payload { fin := true, mask := false } 0 else []) ∧
    ∀ (code : UInt16) (reason : List UInt8) (sendOpts : SendOptions) (random : UInt32),
      2 + reason.length ≤ opts.maxFrameSize.toNat → (opts.requireMaskedClient → sendOpts.mask) →
      (sendOpts.mask → opts.autoUnmask) →
      ∀ {σ : Type} (sendAll : List UInt8 → StateM σ Int) (w : σ) (s : Inbound UInt8)
        (rest : List UInt8),
        s.pending = ((sendClose writeAll code reason sendOpts random).run []).2 ++ rest →
      ∃ s', readMessage opts sendAll s w =
          (.ok { closed := true, closeCode := code, closeReason := reason }, s', w) ∧
        s'.pending = rest := by
  refine ⟨?_, fun payloads wire => answerPings_writeAll, ?_⟩
  · intro op payload ps data fragments admissible σ sendAll w s rest here
    have begun : ({} : Reassembly).started = true → ({} : Reassembly).currentOpcode = op :=
      fun started => by cases started
    exact readMessageLoop_fragments data fragments admissible rfl begun here
  · intro code reason sendOpts random size masking unmask σ sendAll w s rest here
    exact readMessage_sendClose size masking unmask here

/-- A text message in two masked fragments, with a ping between them. -/
def hi : List Sent :=
  [⟨.text, [0x48], { fin := false, mask := true }, 0x01020304⟩,
    ⟨.ping, [0x37], { mask := true }, 0x01020304⟩,
    ⟨.continuation, [0x69], { mask := true }, 0x01020304⟩]

/-- The message and a close frame behind it, in two chunks. -/
def hiThenCloseChunks : List (List UInt8) :=
  [[1, 129, 1, 2, 3, 4, 73, 137, 129, 1, 2, 3, 4, 54, 128, 129, 1, 2, 3],
    [4, 104, 136, 131, 1, 2, 3, 4, 2, 235, 97]]

theorem hiThenCloseChunks_positive : ∀ c ∈ hiThenCloseChunks, c ≠ [] := by
  simp [hiThenCloseChunks]

def hiThenClose : Inbound UInt8 where
  chunks := hiThenCloseChunks
  ending := 0
  positive := hiThenCloseChunks_positive
  stops := Inbound.orderly_stops

theorem readMessage_fragments_hi : ∃ s' s'',
    readMessage {} writeAll hiThenClose [] =
      (.ok { op := .text, payload := [0x48, 0x69] }, s', [138, 1, 55]) ∧
    readMessage {} writeAll s' [138, 1, 55] =
      (.ok { closed := true, closeCode := 1001, closeReason := [0x62] }, s'', [138, 1, 55]) := by
  obtain ⟨message, pongs, close⟩ := readMessage_fragments {}
  have fragments : Fragments .text false ([0x48] ++ [0x69]) hi :=
    .more (p := ⟨.text, [0x48], { fin := false, mask := true }, 0x01020304⟩) rfl rfl
      (.control (.inl rfl) (.last
        (p := ⟨.continuation, [0x69], { mask := true }, 0x01020304⟩) rfl rfl))
  have admissible : ∀ p ∈ hi, p.Admissible {} := by
    intro p mem
    have facts : p.payload.length ≤ 1 ∧ p.opts.mask = true := by
      revert p
      decide
    exact ⟨facts.1.trans (by decide), fun _ => facts.2, fun _ => rfl⟩
  obtain ⟨s', run, rest⟩ := message (.inl rfl) fragments admissible writeAll [] hiThenClose
    [136, 131, 1, 2, 3, 4, 2, 235, 97] (by decide)
  obtain ⟨s'', run', -⟩ := close 1001 [0x62] { mask := true } 0x01020304 (by decide)
    (fun _ => rfl) (fun _ => rfl) writeAll [138, 1, 55] s' [] (rest.trans (by decide))
  rw [pongs] at run
  exact ⟨s', s'', run, run'⟩

end CoWq.WebSocket
