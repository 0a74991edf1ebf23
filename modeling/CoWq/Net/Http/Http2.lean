import CoWq.Lib.Mealy
import CoWq.Net.WebSocket.Accept

/-!
# HTTP/2 by the callbacks of nghttp2

Both ends of HTTP/2 leave the frames to nghttp2, which is not part of the repository, and are
callbacks of it: they collect what it has received and hand out what it is to send.

* `Callback`: the calls of a session; `Callback.concerns`: those that matter to one stream.
* `BodySource.read`: a body handed out piece by piece, the same code at both ends.
* `Carried`: the calls by which one end receives what the other one has submitted.
* `pump`: the loop in which both ends run nghttp2 between a receive and a send.
* `BodySource.pieces_whole`, `pump_calls`: what has been handed out when the body ends; the calls
  that a session has seen.
-/

namespace CoWq.Http2

open WebSocket.Accept (Bytes)

/-- `nghttp2_headers_category` -/
inductive HeadersCategory
  | request | response | pushResponse | headers
  deriving DecidableEq, Repr

inductive FrameType
  | headers (cat : HeadersCategory)
  | data
  | other
  deriving DecidableEq, Repr

/-- `nghttp2_frame`; `endStream` is its `NGHTTP2_FLAG_END_STREAM`. -/
structure Frame where
  type : FrameType
  streamId : Int
  endStream : Bool
  deriving DecidableEq, Repr

/-- The calls of a session that concern streams. -/
inductive Callback
  | beginHeaders (frame : Frame)
  | header (frame : Frame) (name value : Bytes)
  | frameRecv (frame : Frame)
  | dataChunk (streamId : Int) (data : Bytes)
  /-- the read callback of a body, for this many bytes at most -/
  | dataRead (streamId : Int) (length : Nat)
  | streamClose (streamId : Int) (errorCode : Nat)
  deriving DecidableEq, Repr

def Callback.streamId : Callback → Int
  | .beginHeaders frame | .header frame _ _ | .frameRecv frame => frame.streamId
  | .dataChunk id _ | .dataRead id _ | .streamClose id _ => id

/-- A frame that neither end looks at, such as a window update. -/
def Callback.quiet : Callback → Bool
  | .frameRecv frame => frame.type = .other
  | _ => false

/-- The call is for this stream, and is not quiet. -/
def Callback.concerns (sid : Int) (call : Callback) : Bool :=
  decide (call.streamId = sid) && !call.quiet

/-! ## Bodies -/

/-- A body, and how much of it has been handed out. -/
structure BodySource where
  body : Bytes
  offset : Nat := 0
  deriving DecidableEq, Repr

/-- `h2_server_data_read` and `request_body_read_callback`: the piece, with
`NGHTTP2_DATA_FLAG_EOF`. -/
def BodySource.read (payload : BodySource) (length : Nat) : (Bytes × Bool) × BodySource :=
  let remaining := payload.body.length - payload.offset
  let toCopy := min length remaining
  let offset := payload.offset + toCopy
  (((payload.body.drop payload.offset).take toCopy, decide (payload.body.length ≤ offset)),
    { payload with offset })

/-- One read after the other. -/
def BodySource.pieces (payload : BodySource) : List Nat → List (Bytes × Bool)
  | [] => []
  | length :: rest => (payload.read length).1 :: (payload.read length).2.pieces rest

/-- nghttp2 reads up to the piece with the flag. -/
def Ended (pieces : List (Bytes × Bool)) : Prop :=
  ∃ front last, pieces = front ++ [(last, true)] ∧ ∀ piece ∈ front, piece.2 = false

/-- All of the pieces. -/
def joined (pieces : List (Bytes × Bool)) : Bytes := (pieces.map Prod.fst).flatten

/-- What has been read when the body ends is the rest of the body. -/
theorem BodySource.pieces_whole {payload : BodySource} {lengths : List Nat}
    (ended : Ended (payload.pieces lengths)) :
    joined (payload.pieces lengths) = payload.body.drop payload.offset := by
  obtain ⟨front, last, whole, -⟩ := ended
  induction lengths generalizing payload front with
  | nil => simp [pieces] at whole
  | cons length rest ih =>
      rw [pieces] at whole ⊢
      cases front with
      | nil =>
          rw [List.nil_append] at whole
          obtain ⟨piece, none'⟩ := List.cons.inj whole
          have all : payload.body.length ≤
              payload.offset + min length (payload.body.length - payload.offset) :=
            of_decide_eq_true (congrArg Prod.snd piece)
          rw [none', joined, List.map_singleton, List.flatten_singleton]
          exact List.take_of_length_le (by rw [List.length_drop]; omega)
      | cons first front =>
          obtain ⟨-, later⟩ := List.cons.inj whole
          have more := ih front later
          rw [joined, List.map_cons, List.flatten_cons]
          rw [joined] at more
          rw [more]
          simp only [read]
          rw [← List.drop_drop, List.take_append_drop]

/-! ## Messages -/

/-- A header block. -/
def headerBlock (cat : HeadersCategory) (sid : Int) (fields : List (Bytes × Bytes))
    (endStream : Bool) : List Callback :=
  .beginHeaders ⟨.headers cat, sid, endStream⟩ ::
    fields.map (fun field => .header ⟨.headers cat, sid, endStream⟩ field.1 field.2) ++
    [.frameRecv ⟨.headers cat, sid, endStream⟩]

/-- DATA frames, each in the chunks in which it has come; the last one ends the stream. -/
def dataFrames (sid : Int) : List (List Bytes) → List Callback
  | [] => []
  | chunks :: rest =>
      chunks.map (.dataChunk sid) ++ .frameRecv ⟨.data, sid, rest.isEmpty⟩ :: dataFrames sid rest

/-- The calls for a message that the other end has submitted: the fields in their order, and as
data what has been read of its body, in any frames and chunks. -/
inductive Carried (cat : HeadersCategory) (sid : Int) (fields : List (Bytes × Bytes)) :
    Option (List (Bytes × Bool)) → List Callback → Prop
  | headersOnly : Carried cat sid fields none (headerBlock cat sid fields true)
  | withBody {pieces : List (Bytes × Bool)} {frames : List (List Bytes)} :
    Ended pieces → frames ≠ [] → frames.flatten.flatten = joined pieces →
    Carried cat sid fields (some pieces) (headerBlock cat sid fields false ++ dataFrames sid frames)

/-! ## The loop of a session -/

/-- `nghttp2_session_send`, the calls in it, and what is done with the bytes that it has put into
`send_buffer`. -/
structure Flush where
  rv : Int
  calls : List Callback
  sendBuffer : Bytes
  sent : Int
  deriving DecidableEq, Repr

/-- Neither fails. -/
def Flush.ok (flush : Flush) : Bool := flush.rv = 0 ∧ (flush.sendBuffer = [] ∨ 0 < flush.sent)

/-- A receive, `nghttp2_session_mem_recv` with the calls in it, and the flush behind it. -/
structure Turn where
  received : Int
  consumed : Int
  calls : List Callback
  flush : Flush
  deriving DecidableEq, Repr

/-- All calls of a turn. -/
def Turn.all (turn : Turn) : List Callback := turn.calls ++ turn.flush.calls

/-- Nothing in the turn fails. -/
structure Turn.Fine (turn : Turn) : Prop where
  received : 0 < turn.received
  consumed : 0 ≤ turn.consumed
  flushed : turn.flush.ok = true

section Loop

variable {S O : Type*}

/-- One turn of the loop, and whether it goes on. -/
def takeTurn (m : Mealy S Callback O) (s : S) (turn : Turn) : (List O × S) × Bool :=
  if turn.received ≤ 0 then (([], s), false)
  else if turn.consumed < 0 then (m.run s turn.calls, false)
  else (m.run s turn.all, turn.flush.ok)

/-- The loop, as long as `wanted`; `false` if it has been left by a failure. -/
def pump (m : Mealy S Callback O) (wanted : S → Bool) (s : S) : List Turn → (List O × S) × Bool
  | [] => (([], s), true)
  | turn :: rest =>
      if wanted s then
        match takeTurn m s turn with
        | ((out, s), true) =>
            ((out ++ (pump m wanted s rest).1.1, (pump m wanted s rest).1.2),
              (pump m wanted s rest).2)
        | (last, false) => (last, false)
      else (([], s), true)

variable {m : Mealy S Callback O}

theorem takeTurn_fine {s : S} {turn : Turn} (fine : turn.Fine) :
    takeTurn m s turn = (m.run s turn.all, true) := by
  rw [takeTurn, if_neg (Int.not_le.mpr fine.received), if_neg (Int.not_lt.mpr fine.consumed),
    fine.flushed]

/-- Rounds in which nothing fails are taken up to the one behind which no more is wanted. -/
theorem pump_calls (wanted : S → Bool) {turns : List Turn}
    (fine : ∀ turn ∈ turns, turn.Fine) (s : S) :
    ∃ taken left, turns.flatMap Turn.all = taken ++ left ∧
      pump m wanted s turns = (m.run s taken, true) ∧
      (left = [] ∨ wanted (m.run s taken).2 = false) := by
  induction turns generalizing s with
  | nil => exact ⟨[], [], rfl, rfl, .inl rfl⟩
  | cons turn turns ih =>
      rw [pump]
      cases want : wanted s with
      | false => exact ⟨[], _, rfl, rfl, .inr want⟩
      | true =>
          obtain ⟨taken, left, whole, run, ends⟩ :=
            ih (fun other mem => fine other (List.mem_cons_of_mem _ mem)) (m.run s turn.all).2
          refine ⟨turn.all ++ taken, left, ?_, ?_, ?_⟩
          · rw [List.flatMap_cons, whole, List.append_assoc]
          · rw [if_pos rfl, takeTurn_fine (fine turn List.mem_cons_self)]
            dsimp only
            rw [run, Mealy.run_append]
          · rw [Mealy.run_append]
            exact ends

end Loop

end CoWq.Http2
