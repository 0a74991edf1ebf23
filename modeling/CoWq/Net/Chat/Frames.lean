import CoWq.Lib.BigEndian
import CoWq.Lib.Inbound
import CoWq.Net.Chat.Server

/-!
# Frames on the wire

`read_frame` over `recv_all`, which reports a short count when the stream ends or fails behind its
first byte.

* `recvAll`, `readFrame`: the code.
* `recvAll_spec`: what `recv_all` returns depends on the bytes of the stream and not on where it is
  cut.
* `Incomplete`, `Noticed`: the streams that end inside of a frame, and those among them whose end
  `read_frame` reports.
* `reads_whole_frames`: whole frames come back as they were made, and where an incomplete one is
  noticed.
-/

namespace CoWq.Chat

/-! ## The code -/

/-- The rounds of `recv_all` behind `buf`.  A wait for the socket is invisible here, and an error
behind the first byte is not kept. -/
def recvAllFrom (len : Nat) (buf : Bytes) (s : Inbound UInt8) : Int × Bytes × Inbound UInt8 :=
  if buf.length < len then
    if 0 < (s.recv (len - buf.length)).1 then
      recvAllFrom len (buf ++ (s.recv (len - buf.length)).2.1) (s.recv (len - buf.length)).2.2
    else
      (if (s.recv (len - buf.length)).1 < 0 ∧ buf = [] then (s.recv (len - buf.length)).1
        else buf.length, buf, (s.recv (len - buf.length)).2.2)
  else (buf.length, buf, s)
termination_by len - buf.length
decreasing_by
  rename_i room progress
  have amount := Inbound.recv_answer progress
  rw [List.length_append]
  omega

/-- `co_await socket.recv_all(buf, len)`: its value, the bytes in the buffer, and the stream
behind. -/
def recvAll (len : Nat) (s : Inbound UInt8) : Int × Bytes × Inbound UInt8 :=
  recvAllFrom len [] s

structure Frame where
  type : UInt8 := 0
  payload : Bytes := []
  raw : Bytes := []
  deriving DecidableEq, Repr

/-- The length that a header holds. -/
def frameLength (header : Bytes) : UInt32 :=
  ((header.getD 1 0).toUInt32 <<< 24) ||| ((header.getD 2 0).toUInt32 <<< 16) |||
    ((header.getD 3 0).toUInt32 <<< 8) ||| (header.getD 4 0).toUInt32

/-- `read_frame`.  The array `header` is not initialised: bytes that do not arrive are those of
`memory`. -/
def readFrame (maxPayload : UInt32) (memory : Vector UInt8 5) (s : Inbound UInt8) :
    Frame × Inbound UInt8 :=
  let (hdr, received, s) := recvAll 5 s
  if hdr ≤ 0 then
    ({ type := 0xFF }, s)
  else
    let header := received ++ memory.toList.drop received.length
    let len := frameLength header
    if maxPayload < len then
      ({ type := 0xFE }, s)
    else if 0 < len then
      let (body, received, s) := recvAll len.toNat s
      let payload := received ++ List.replicate (len.toNat - received.length) 0
      if body ≤ 0 then
        ({ type := 0xFF, payload, raw := header }, s)
      else
        ({ type := header.getD 0 0, payload, raw := header ++ payload }, s)
    else
      ({ type := header.getD 0 0, payload := [], raw := header }, s)

/-! ## What `recv_all` returns -/

theorem recvAllFrom_spec (len : Nat) (buf : Bytes) (s : Inbound UInt8) (room : buf.length ≤ len) :
    ∃ s', recvAllFrom len buf s =
        (if buf.length < len ∧ buf ++ s.pending = [] then s.ending
          else ((buf ++ s.pending).take len).length, (buf ++ s.pending).take len, s') ∧
      s'.pending = s.pending.drop (len - buf.length) ∧ s'.ending = s.ending := by
  induction steps : len - buf.length using Nat.strongRecOn generalizing buf s with
  | ind n ih =>
      subst steps
      rw [recvAllFrom]
      by_cases more : buf.length < len
      · rw [if_pos more]
        by_cases progress : 0 < (s.recv (len - buf.length)).1
        · rw [if_pos progress]
          have amount := Inbound.recv_answer progress
          have taken := Inbound.recv_taken progress
          have most : (s.recv (len - buf.length)).2.1.length ≤ len - buf.length := Inbound.recv_le
          have ending := s.recv_ending (len - buf.length)
          generalize s.recv (len - buf.length) = answer at progress amount taken most ending ⊢
          obtain ⟨n, data, later⟩ := answer
          dsimp only at progress amount taken most ending ⊢
          have grown : (buf ++ data).length = buf.length + data.length := List.length_append
          obtain ⟨s', run, rest, ending'⟩ := ih _ (by omega) (buf ++ data) later (by omega) rfl
          have some' : buf ++ s.pending ≠ [] := by
            intro nothing
            have size := congrArg List.length nothing
            rw [taken, List.length_append, List.length_append, List.length_nil] at size
            omega
          rw [List.append_assoc, ← taken, if_neg fun both => some' both.2] at run
          rw [if_neg fun both => some' both.2]
          refine ⟨s', run, ?_, ending'.trans ending⟩
          have gone : data.drop (len - buf.length) = [] := List.drop_eq_nil_of_le most
          rw [rest, taken, List.drop_append, gone, List.nil_append, grown, Nat.sub_sub]
        · rw [if_neg progress]
          obtain ⟨nothing, answer⟩ := Inbound.recv_ended (by omega) (not_lt.mp progress)
          have stops := s.stops
          rw [answer, nothing, List.append_nil, List.take_of_length_le room]
          refine ⟨s, ?_, by rw [nothing, List.drop_nil], rfl⟩
          by_cases empty : buf = []
          · subst empty
            by_cases fails : s.ending < 0
            · rw [if_pos ⟨fails, rfl⟩, if_pos ⟨more, rfl⟩]
            · have zero : s.ending = 0 := by omega
              rw [if_neg fun both => fails both.1, if_pos ⟨more, rfl⟩, zero, List.length_nil]
              rfl
          · rw [if_neg (fun both => empty both.2), if_neg (fun both => empty both.2)]
      · have full : buf.length = len := by omega
        rw [if_neg more, if_neg (fun both => more both.1)]
        refine ⟨s, ?_, by rw [full, Nat.sub_self, List.drop_zero], rfl⟩
        rw [← full, List.take_left]

/-- **The value of `recv_all` does not depend on where the stream is cut.** -/
theorem recvAll_spec (len : Nat) (s : Inbound UInt8) (some' : 0 < len) :
    ∃ s', recvAll len s = (if s.pending = [] then s.ending else (s.pending.take len).length,
        s.pending.take len, s') ∧
      s'.pending = s.pending.drop len ∧ s'.ending = s.ending := by
  obtain ⟨s', run, rest, ending⟩ := recvAllFrom_spec len [] s (Nat.zero_le _)
  simp only [List.length_nil, List.nil_append, some', true_and, Nat.sub_zero] at run rest
  exact ⟨s', run, rest, ending⟩

/-! ## What `read_frame` makes of it -/

/-- The length of a header whose five bytes have arrived. -/
theorem frameLength_take (bytes : Bytes) : frameLength (bytes.take 5) = frameLength bytes := by
  unfold frameLength
  simp only [List.getD_eq_getElem?_getD]
  rw [List.getElem?_take_of_lt (by decide), List.getElem?_take_of_lt (by decide),
    List.getElem?_take_of_lt (by decide), List.getElem?_take_of_lt (by decide)]

theorem frameLength_makeFrame {type : UInt8} {payload : Bytes} (fits : payload.length < 2 ^ 32)
    (rest : Bytes) : (frameLength (makeFrame type payload ++ rest)).toNat = payload.length := by
  have four := BigEndian.four_toNat (UInt8.ofNat (payload.length / 256 ^ 3))
    (UInt8.ofNat (payload.length / 256 ^ 2)) (UInt8.ofNat (payload.length / 256 ^ 1))
    (UInt8.ofNat (payload.length / 256 ^ 0))
  exact four.trans (BigEndian.decode_encode (w := 4) fits)

/-- The header as `read_frame` sees it: what has arrived, and the memory behind it. -/
def headerSeen (memory : Vector UInt8 5) (bytes : Bytes) : Bytes :=
  bytes.take 5 ++ memory.toList.drop bytes.length

/-- Behind a header that has arrived in part or whole. -/
theorem readFrame_header (maxPayload : UInt32) (memory : Vector UInt8 5) {s : Inbound UInt8}
    (some' : s.pending ≠ []) :
    ∃ s', s'.pending = s.pending.drop 5 ∧
      readFrame maxPayload memory s =
        if maxPayload < frameLength (headerSeen memory s.pending) then ({ type := 0xFE }, s')
        else if 0 < frameLength (headerSeen memory s.pending) then
          let (body, received, s'') := recvAll (frameLength (headerSeen memory s.pending)).toNat s'
          let payload := received ++
            List.replicate ((frameLength (headerSeen memory s.pending)).toNat - received.length) 0
          if body ≤ 0 then
            ({ type := 0xFF, payload, raw := headerSeen memory s.pending }, s'')
          else
            ({ type := (headerSeen memory s.pending).getD 0 0, payload
               raw := headerSeen memory s.pending ++ payload }, s'')
        else
          ({ type := (headerSeen memory s.pending).getD 0 0, payload := []
             raw := headerSeen memory s.pending }, s') := by
  obtain ⟨s', run, rest, -⟩ := recvAll_spec 5 s (by decide)
  have size := List.length_pos_of_ne_nil some'
  have seen : s.pending.take 5 ++ memory.toList.drop (s.pending.take 5).length =
      headerSeen memory s.pending := by
    rw [headerSeen, List.length_take]
    by_cases long : s.pending.length ≤ 5
    · rw [Nat.min_eq_right long]
    · rw [Nat.min_eq_left (by omega), List.drop_eq_nil_of_le (by simp),
        List.drop_eq_nil_of_le (by simp only [Vector.length_toList]; omega)]
  refine ⟨s', rest, ?_⟩
  rw [readFrame, run]
  dsimp only
  rw [if_neg some', if_neg (by rw [List.length_take]; omega), seen]

/-- **Whole frames.**  A frame comes back as it was made, and what is behind it is left. -/
theorem readFrame_makeFrame {maxPayload : UInt32} {memory : Vector UInt8 5} {type : UInt8}
    {payload rest : Bytes} {s : Inbound UInt8} (fits : payload.length ≤ maxPayload.toNat)
    (here : s.pending = makeFrame type payload ++ rest) :
    ∃ s', readFrame maxPayload memory s = (⟨type, payload, makeFrame type payload⟩, s') ∧
      s'.pending = rest := by
  have bound := maxPayload.toNat_lt
  have five : (makeFrame type payload ++ rest).take 5 =
      type :: BigEndian.encode 4 payload.length := by
    rfl
  have behind : (makeFrame type payload ++ rest).drop 5 = payload ++ rest := by
    rfl
  have size : 5 ≤ (makeFrame type payload ++ rest).length := by
    simp only [makeFrame, List.length_append, List.length_cons, BigEndian.encode_length]
    omega
  obtain ⟨s', left, run⟩ := readFrame_header maxPayload memory
    (s := s) (by rw [here]; exact List.cons_ne_nil _ _)
  have seen : headerSeen memory s.pending = type :: BigEndian.encode 4 payload.length := by
    rw [headerSeen, here, five, List.drop_eq_nil_of_le (by rw [Vector.length_toList]; exact size),
      List.append_nil]
  have length : (frameLength (headerSeen memory s.pending)).toNat = payload.length := by
    rw [seen, ← five, frameLength_take, frameLength_makeFrame (by omega)]
  rw [here, behind] at left
  rw [run, if_neg (by rw [UInt32.lt_iff_toNat_lt, length]; omega)]
  by_cases empty : payload = []
  · subst empty
    rw [if_neg (by rw [UInt32.lt_iff_toNat_lt, length]; simp), seen]
    exact ⟨s', rfl, left⟩
  · have some' := List.length_pos_of_ne_nil empty
    rw [if_pos (by rw [UInt32.lt_iff_toNat_lt, length]; simpa using some'), length]
    obtain ⟨s'', run', rest', -⟩ := recvAll_spec _ s' some'
    rw [left, List.take_left, if_neg fun none' => empty (List.append_eq_nil_iff.mp none').1] at run'
    rw [run', seen]
    dsimp only
    rw [if_neg (by omega), Nat.sub_self, List.replicate_zero, List.append_nil]
    exact ⟨s'', rfl, by rw [rest', left, List.drop_left]⟩

/-- The stream ends inside of its first frame. -/
def Incomplete (bytes : Bytes) : Prop :=
  bytes.length < 5 ∨ bytes.length < 5 + (frameLength bytes).toNat

/-- Nothing has arrived; or the length that is seen is admitted, and the end comes in or right
behind the header of a frame with a body, or the frame has the type of the end marker itself. -/
def Noticed (maxPayload : UInt32) (memory : Vector UInt8 5) (bytes : Bytes) : Prop :=
  bytes = [] ∨
    frameLength (headerSeen memory bytes) ≤ maxPayload ∧
      (bytes.length ≤ 5 ∧ 0 < frameLength (headerSeen memory bytes) ∨ bytes.head? = some 0xFF)

/-- Where the end of the stream is reported. -/
theorem readFrame_marker {maxPayload : UInt32} {memory : Vector UInt8 5} {s : Inbound UInt8} :
    (readFrame maxPayload memory s).1.type = 0xFF ↔ Noticed maxPayload memory s.pending := by
  by_cases empty : s.pending = []
  · obtain ⟨s', run, -, -⟩ := recvAll_spec 5 s (by decide)
    have stops := s.stops
    rw [if_pos empty] at run
    refine ⟨fun _ => .inl empty, fun _ => ?_⟩
    rw [readFrame, run]
    dsimp only
    rw [if_pos stops]
  · obtain ⟨s', left, run⟩ := readFrame_header maxPayload memory empty
    have first : (headerSeen memory s.pending).getD 0 0 = 0xFF ↔
        s.pending.head? = some 0xFF := by
      cases bytes : s.pending with
      | nil => exact (empty bytes).elim
      | cons b rest => simp [headerSeen]
    have atLength : 5 ≤ s.pending.length →
        frameLength (headerSeen memory s.pending) = frameLength s.pending := by
      intro whole
      rw [headerSeen, List.drop_eq_nil_of_le (by rw [Vector.length_toList]; exact whole),
        List.append_nil, frameLength_take]
    rw [run, Noticed]
    generalize frameLength (headerSeen memory s.pending) = len at atLength ⊢
    by_cases large : maxPayload < len
    · rw [if_pos large]
      constructor
      · intro marker
        cases marker
      · rintro (none' | ⟨admitted, -⟩)
        · exact (empty none').elim
        · exact absurd large (UInt32.not_lt.mpr admitted)
    · rw [if_neg large]
      have admitted : len ≤ maxPayload := UInt32.not_lt.mp large
      by_cases body : 0 < len
      · rw [if_pos body]
        obtain ⟨s'', run', -, -⟩ := recvAll_spec len.toNat s'
          (by simpa [UInt32.lt_iff_toNat_lt] using body)
        rw [run', left]
        dsimp only
        by_cases behind : s.pending.length ≤ 5
        · have none' : s.pending.drop 5 = [] := List.drop_eq_nil_of_le behind
          have stops := s'.stops
          rw [if_pos none', if_pos stops]
          exact ⟨fun _ => .inr ⟨admitted, .inl ⟨behind, body⟩⟩, fun _ => rfl⟩
        · have some' : s.pending.drop 5 ≠ [] := by
            simpa using behind
          have size : 0 < ((s.pending.drop 5).take len.toNat).length := by
            have positive : 0 < len.toNat := by simpa [UInt32.lt_iff_toNat_lt] using body
            rw [List.length_take, List.length_drop]
            omega
          rw [if_neg some', if_neg (by omega)]
          dsimp only
          rw [first]
          simp [empty, admitted, behind]
      · rw [if_neg body]
        dsimp only
        rw [first]
        simp [empty, admitted, body]

/-- **Frames.**  Whole frames come back as they were made, and the end of the stream inside of one
is reported where it is noticed. -/
theorem reads_whole_frames (maxPayload : UInt32) (memory : Vector UInt8 5) :
    (∀ type payload rest (s : Inbound UInt8), payload.length ≤ maxPayload.toNat →
      s.pending = makeFrame type payload ++ rest →
      ∃ s', readFrame maxPayload memory s = (⟨type, payload, makeFrame type payload⟩, s') ∧
        s'.pending = rest) ∧
    ∀ s : Inbound UInt8, Incomplete s.pending →
      ((readFrame maxPayload memory s).1.type = 0xFF ↔ Noticed maxPayload memory s.pending) :=
  ⟨fun _ _ _ _ fits here => readFrame_makeFrame fits here, fun _ _ => readFrame_marker⟩

namespace Example

/-- A stream that comes in one piece and ends. -/
def arrives (first : UInt8) (bytes : Bytes) : Inbound UInt8 where
  chunks := [first :: bytes]
  ending := 0
  positive := by simp
  stops := Inbound.orderly_stops

instance (bytes : Bytes) : Decidable (Incomplete bytes) := inferInstanceAs (Decidable (_ ∨ _))

instance (maxPayload : UInt32) (memory : Vector UInt8 5) (bytes : Bytes) :
    Decidable (Noticed maxPayload memory bytes) :=
  inferInstanceAs (Decidable (_ ∨ _))

/-- A data frame of two bytes comes back, and an empty stream is the end. -/
theorem reads_whole_frames_two :
    (∃ s', readFrame 16 (.replicate 5 0) (arrives 2 [0, 0, 0, 2, 7, 8]) =
      (⟨2, [7, 8], [2, 0, 0, 0, 2, 7, 8]⟩, s') ∧ s'.pending = []) ∧
    (readFrame 16 (.replicate 5 0) .nothing).1.type = 0xFF :=
  ⟨(reads_whole_frames 16 (.replicate 5 0)).1 2 [7, 8] [] _ (by decide) rfl,
    ((reads_whole_frames 16 (.replicate 5 0)).2 .nothing (.inl (by decide))).mpr (.inl rfl)⟩

/-- **Half a frame is taken for a whole one**: a data frame whose header ends behind its third byte,
and a control frame of which one byte of the text has arrived. -/
theorem half_frame_read :
    ¬ (∀ s : Inbound UInt8, Incomplete s.pending →
      (readFrame 16 (.replicate 5 0) s).1.type = 0xFF) ∧
    (readFrame 16 (.replicate 5 0) (arrives 2 [0, 0])).1.type ≠ 0xFF ∧
    (readFrame 16 (.replicate 5 0) (arrives 1 [0, 0, 0, 2, 123])).1.type ≠ 0xFF := by
  have inHeader : (readFrame 16 (.replicate 5 0) (arrives 2 [0, 0])).1.type ≠ 0xFF := fun marker =>
    absurd (readFrame_marker.mp marker) (by decide)
  refine ⟨fun always => inHeader (always _ (.inl (by decide))), inHeader, fun marker => ?_⟩
  exact absurd (readFrame_marker.mp marker) (by decide)

end Example

end CoWq.Chat
