import Mathlib.Data.List.TakeWhile
import CoWq.Net.Curl.Request
import CoWq.Net.Http.Http2Server

/-!
# HTTP/2 of co_curl

`perform_request` submits one request and collects its response from the callbacks of nghttp2.

* `SessionState`, `client`: the callbacks; `performRequest`: the whole.
* `performRequest_spec`: a response that is carried over is the one that has been submitted.
* `request_answered`: co_curl at a server of this repository.
-/

namespace CoWq.CoCurl

open Http2
open HttpServer (Json AppResponse makeAppResponse)
open WebSocket.Accept (ascii ascii_literal toLower toLowerChar isSpace)

/-! ## The code -/

/-- `std::stoi`; `none` if it throws. -/
def stoi (text : Bytes) : Option Int :=
  let begun := text.dropWhile isSpace
  let negative := begun.head? = some 0x2D
  let digits := (if negative ∨ begun.head? = some 0x2B then begun.tail else begun).takeWhile
    fun c => 0x30 ≤ c ∧ c ≤ 0x39
  (readNumeral 10 digits).bind fun n =>
    let value : Int := if negative then -n else n
    if -2147483648 ≤ value ∧ value ≤ 2147483647 then some value else none

/-- `std::to_string` -/
def intText (n : Int) : Bytes :=
  if n < 0 then 0x2D :: numeral 10 n.natAbs else numeral 10 n.natAbs

/-- `http2_client::ResponseState`; `output` is what the file holds, if there is one. -/
structure ResponseState where
  statusCode : Int := 0
  statusText : Bytes := []
  headers : List HeaderEntry := []
  headerLookup : Bytes → Option Bytes := fun _ => none
  headersComplete : Bool := false
  messageComplete : Bool := false
  includeHeaders : Bool := false
  bufferBody : Bool := false
  headerBlock : Bytes := []
  bodyBuffer : Bytes := []
  output : Option Bytes := none

namespace ResponseState

/-- `header` -/
def header (response : ResponseState) (name : Bytes) : Option Bytes :=
  response.headerLookup (toLower name)

/-- `append_header` -/
def appendHeader (response : ResponseState) (name value : Bytes) : ResponseState :=
  { response with
    headerLookup := Function.update response.headerLookup (toLower name) (some value)
    headers := response.headers ++ [⟨name, value⟩] }

/-- `std::fwrite` to `output`, if there is one -/
def write (response : ResponseState) (data : Bytes) : ResponseState :=
  { response with output := response.output.map (· ++ data) }

/-- The header block as it is printed. -/
def printed (response : ResponseState) : Bytes :=
  ascii "HTTP/2 " ++
    (if response.statusText ≠ [] then response.statusText else intText response.statusCode) ++
    ascii "\r\n" ++
    response.headers.flatMap (fun header =>
      header.name ++ ascii ": " ++ header.value ++ ascii "\r\n") ++
    ascii "\r\n"

/-- `emit_headers` -/
def emitHeaders (response : ResponseState) : ResponseState :=
  if response.output = none ∨ response.includeHeaders = false then response
  else
    let headerBlock := if response.headerBlock = [] then response.printed else response.headerBlock
    { response with headerBlock }.write headerBlock

/-- `flush_body` -/
def flushBody (response : ResponseState) : ResponseState := response.write response.bodyBuffer

/-- A field of the header block, in `on_header_callback`. -/
def field (response : ResponseState) (key val : Bytes) : ResponseState :=
  if key = ascii ":status" then
    { response with statusText := val, statusCode := (stoi val).getD 0 }
  else response.appendHeader key val

/-- The data of a chunk, in `on_data_chunk_recv_callback`. -/
def data (response : ResponseState) (chunk : Bytes) : ResponseState :=
  if response.bufferBody then { response with bodyBuffer := response.bodyBuffer ++ chunk }
  else response.write chunk

end ResponseState

/-- `SessionState`; `send_buffer` is part of the flushes, and `stream_id` a parameter of the
callbacks. -/
structure SessionState where
  response : ResponseState
  requestBody : Option BodySource := none
  completed : Bool := false
  failed : Bool := false

/-- The end of the stream, in `on_frame_recv_callback`. -/
def SessionState.endStream (state : SessionState) : SessionState :=
  { state with
    response := { state.response with messageComplete := true }.flushBody
    completed := true }

section Callbacks

variable (streamId : Int)

/-- `on_header_callback` -/
def onHeaderCallback (state : SessionState) (frame : Frame) (key val : Bytes) : SessionState :=
  if frame.streamId ≠ streamId then state
  else if frame.type ≠ .headers .response then state
  else { state with response := state.response.field key val }

/-- `on_frame_recv_callback` -/
def onFrameRecvCallback (state : SessionState) (frame : Frame) : SessionState :=
  if frame.streamId ≠ streamId then state
  else if frame.type = .headers .response then
    let state := { state with
      response := { state.response with headersComplete := true }.emitHeaders }
    if frame.endStream then state.endStream else state
  else if frame.type = .data then
    if frame.endStream then state.endStream else state
  else state

/-- `on_stream_close_callback` -/
def onStreamCloseCallback (state : SessionState) (sid : Int) (errorCode : Nat) : SessionState :=
  if sid = streamId then
    { state with
      completed := true
      failed := state.failed || decide (errorCode ≠ 0)
      response := { state.response with messageComplete := true } }
  else state

/-- `on_data_chunk_recv_callback` -/
def onDataChunkRecvCallback (state : SessionState) (sid : Int) (chunk : Bytes) : SessionState :=
  if sid ≠ streamId then state else { state with response := state.response.data chunk }

/-- `request_body_read_callback` -/
def requestBodyReadCallback (state : SessionState) (length : Nat) :
    List (Bytes × Bool) × SessionState :=
  match state.requestBody with
  | none => ([([], false)], state)
  | some body =>
      ([(body.read length).1], { state with requestBody := some (body.read length).2 })

/-- The callbacks of `perform_request`. -/
def client : Mealy SessionState Callback (Bytes × Bool) where
  step state
    | .beginHeaders _ => ([], state)
    | .header frame name value => ([], onHeaderCallback streamId state frame name value)
    | .frameRecv frame => ([], onFrameRecvCallback streamId state frame)
    | .dataChunk sid chunk => ([], onDataChunkRecvCallback streamId state sid chunk)
    | .dataRead _ length => requestBodyReadCallback state length
    | .streamClose sid errorCode => ([], onStreamCloseCallback streamId state sid errorCode)

end Callbacks

/-- What nghttp2 does for one request: the session is made or not, the settings are sent, the
request is given a stream, or none below zero, and is sent, and then the loop is gone through. -/
structure Exchange where
  created : Bool
  settings : Flush
  streamId : Int
  request : Flush
  turns : List Turn

/-- The session as it is made. -/
def SessionState.start (state : RequestState) (response : ResponseState) : SessionState where
  response
  requestBody := if state.body ≠ [] then some { body := state.body } else none

/-- `perform_request`, with the pieces of the body that it has handed out; `none` as long as it
waits for another turn. -/
def performRequest (exchange : Exchange) (state : RequestState) (response : ResponseState) :
    List (Bytes × Bool) × Option Int × ResponseState :=
  let start := SessionState.start state response
  if exchange.created = false then ([], some (-1), response)
  else
    let opened := (client (-1)).run start exchange.settings.calls
    if exchange.settings.ok = false ∨ exchange.streamId < 0 then
      (opened.1, some (-1), opened.2.response)
    else
      let asked := (client exchange.streamId).run opened.2 exchange.request.calls
      if exchange.request.ok = false then (opened.1 ++ asked.1, some (-1), asked.2.response)
      else
        let last := pump (client exchange.streamId) (fun session => !session.completed) asked.2
          exchange.turns
        let pieces := opened.1 ++ (asked.1 ++ last.1.1)
        let session := last.1.2
        if last.2 ∧ session.completed = false then (pieces, none, session.response)
        else
          let response :=
            if session.response.bufferBody then session.response.flushBody else session.response
          if session.failed ∨ last.2 = false then (pieces, some (-1), response)
          else (pieces, some 0, response)

/-! ## The response -/

namespace ResponseState

/-- The response behind these fields. -/
def fields (response : ResponseState) (fields : List (Bytes × Bytes)) : ResponseState :=
  fields.foldl (fun response field => response.field field.1 field.2) response

/-- What `perform_request` makes of a complete response. -/
def received (response : ResponseState) (fields : List (Bytes × Bytes)) (body : Bytes) :
    ResponseState :=
  let response := { (({ response.fields fields with headersComplete := true }).emitHeaders.data
    body) with messageComplete := true }.flushBody
  if response.bufferBody then response.flushBody else response

theorem write_nil (response : ResponseState) : response.write [] = response := by
  cases same : response.output with
  | none => simp only [write, same, Option.map_none]; rw [← same]
  | some text => simp only [write, same, Option.map_some, List.append_nil]; rw [← same]

theorem write_write (response : ResponseState) (a b : Bytes) :
    (response.write a).write b = response.write (a ++ b) := by
  simp only [write, Option.map_map]
  congr 2
  exact funext fun text => List.append_assoc text a b

theorem data_nil (response : ResponseState) : response.data [] = response := by
  cases buffered : response.bufferBody with
  | true => simp only [data, buffered, if_true, List.append_nil]; rw [← buffered]
  | false =>
      simp only [data, buffered, Bool.false_eq_true, if_false]
      exact response.write_nil

theorem data_data (response : ResponseState) (a b : Bytes) :
    (response.data a).data b = response.data (a ++ b) := by
  cases buffered : response.bufferBody with
  | true => simp only [data, buffered, if_true, List.append_assoc]
  | false =>
      simp only [data, buffered, Bool.false_eq_true, if_false, write_write]
      rw [if_neg]
      simp only [write, buffered, Bool.false_eq_true, not_false_eq_true]

end ResponseState

/-! ## The calls of the stream -/

section Stream

variable {sid : Int}

theorem run_fields (state : SessionState) (fields : List (Bytes × Bytes)) (endStream : Bool) :
    (client sid).run state
        (fields.map fun field => .header ⟨.headers .response, sid, endStream⟩ field.1 field.2) =
      ([], { state with response := state.response.fields fields }) := by
  induction fields generalizing state with
  | nil => rfl
  | cons field fields ih =>
      have step : (client sid).step state
          (.header ⟨.headers .response, sid, endStream⟩ field.1 field.2) =
          ([], { state with response := state.response.field field.1 field.2 }) := by
        simp only [client, onHeaderCallback, ne_eq, not_true_eq_false, if_false]
      rw [List.map_cons, Mealy.run_cons, step, ih]
      rfl

theorem run_chunks (state : SessionState) (chunks : List Bytes) :
    (client sid).run state (chunks.map (.dataChunk sid)) =
      ([], { state with response := state.response.data chunks.flatten }) := by
  induction chunks generalizing state with
  | nil => rw [List.map_nil, Mealy.run_nil, List.flatten_nil, ResponseState.data_nil]
  | cons chunk chunks ih =>
      have step : (client sid).step state (.dataChunk sid chunk) =
          ([], { state with response := state.response.data chunk }) := by
        simp only [client, onDataChunkRecvCallback, ne_eq, not_true_eq_false, if_false]
      rw [List.map_cons, Mealy.run_cons, step, ih, List.flatten_cons]
      dsimp only
      rw [ResponseState.data_data]
      rfl

/-- The last DATA frame completes the response. -/
theorem run_frames (state : SessionState) {frames : List (List Bytes)} (some' : frames ≠ []) :
    (client sid).run state (dataFrames sid frames) =
      ([], SessionState.endStream
        { state with response := state.response.data frames.flatten.flatten }) := by
  induction frames generalizing state with
  | nil => exact absurd rfl some'
  | cons chunks rest ih =>
      rw [dataFrames, Mealy.run_append, run_chunks, Mealy.run_cons]
      cases rest with
      | nil =>
          simp only [client, onFrameRecvCallback, dataFrames, Mealy.run_nil, List.flatten_cons,
            List.flatten_nil, List.append_nil, List.isEmpty_nil, ne_eq, not_true_eq_false,
            if_false, if_true]
          rfl
      | cons next rest =>
          have step (state : SessionState) : (client sid).step state
              (.frameRecv ⟨.data, sid, (next :: rest).isEmpty⟩) = ([], state) := by
            simp only [client, onFrameRecvCallback, List.isEmpty_cons, ne_eq, not_true_eq_false,
              if_false, Bool.false_eq_true, ite_self]
            rfl
          rw [step, ih _ (List.cons_ne_nil next rest), List.flatten_cons (l := chunks),
            List.flatten_append]
          dsimp only
          rw [ResponseState.data_data]
          rfl

/-- The headers have been received. -/
def SessionState.begun (state : SessionState) (fields : List (Bytes × Bytes)) : SessionState :=
  { state with
    response := { state.response.fields fields with headersComplete := true }.emitHeaders }

theorem run_block (state : SessionState) (fields : List (Bytes × Bytes)) (endStream : Bool) :
    (client sid).run state (headerBlock .response sid fields endStream) =
      ([], if endStream then (state.begun fields).endStream else state.begun fields) := by
  rw [headerBlock, List.cons_append, Mealy.run_cons, Mealy.run_append]
  have begin' : (client sid).step state (.beginHeaders ⟨.headers .response, sid, endStream⟩) =
      ([], state) := rfl
  rw [begin', run_fields, Mealy.run_cons]
  simp only [client, onFrameRecvCallback, ne_eq, not_true_eq_false, if_false, if_true,
    Mealy.run_nil]
  rfl

/-- The response is complete. -/
def SessionState.answered (state : SessionState) (fields : List (Bytes × Bytes)) (body : Bytes) :
    SessionState :=
  SessionState.endStream
    { state.begun fields with response := (state.begun fields).response.data body }

/-- **The response of the stream**, in any frames and chunks. -/
theorem run_answer (state : SessionState) {fields : List (Bytes × Bytes)}
    {pieces : Option (List (Bytes × Bool))} {own : List Callback}
    (carried : Carried .response sid fields pieces own) :
    (client sid).run state own = ([], state.answered fields (joined (pieces.getD []))) := by
  unfold SessionState.answered
  cases carried with
  | headersOnly =>
      rw [run_block, if_pos rfl]
      have none' : joined (Option.getD none []) = [] := rfl
      rw [none', ResponseState.data_nil]
  | @withBody pieces frames _ some' same =>
      rw [Mealy.run_append, run_block, if_neg Bool.false_ne_true, run_frames _ some', same]
      rfl

/-- The reads hand the body of the request out. -/
theorem run_reads (state : SessionState) (payload : BodySource)
    (here : state.requestBody = some payload) (lengths : List Nat) :
    ∃ later, (client sid).run state (lengths.map (.dataRead sid)) =
      (payload.pieces lengths, { state with requestBody := later }) := by
  induction lengths generalizing state payload with
  | nil => exact ⟨state.requestBody, rfl⟩
  | cons length lengths ih =>
      have step : (client sid).step state (.dataRead sid length) =
          ([(payload.read length).1],
            { state with requestBody := some (payload.read length).2 }) := by
        simp only [client, requestBodyReadCallback, here]
      obtain ⟨later, run⟩ := ih { state with requestBody := some (payload.read length).2 }
        (payload.read length).2 rfl
      rw [List.map_cons, Mealy.run_cons, step, run]
      exact ⟨later, rfl⟩

/-! ## When the response is complete -/

/-- The call completes the stream. -/
def completes (sid : Int) : Callback → Bool
  | .frameRecv frame => decide (frame.streamId = sid) && frame.endStream &&
      (decide (frame.type = .headers .response) || decide (frame.type = .data))
  | .streamClose id _ => decide (id = sid)
  | _ => false

theorem step_completed (state : SessionState) (call : Callback) :
    ((client sid).step state call).2.completed = (state.completed || completes sid call) := by
  cases call with
  | beginHeaders frame => simp [client, completes]
  | header frame name value =>
      simp only [client, onHeaderCallback, completes, Bool.or_false]
      repeat' split
      all_goals rfl
  | dataChunk id chunk =>
      simp only [client, onDataChunkRecvCallback, completes, Bool.or_false]
      split
      all_goals rfl
  | dataRead id length =>
      simp only [client, requestBodyReadCallback, completes, Bool.or_false]
      split
      all_goals rfl
  | streamClose id code =>
      by_cases mine : id = sid
      · simp [client, onStreamCloseCallback, completes, mine]
      · simp [client, onStreamCloseCallback, completes, mine]
  | frameRecv frame =>
      simp only [client, onFrameRecvCallback, completes]
      by_cases mine : frame.streamId = sid
      · simp only [mine, ne_eq, not_true_eq_false, if_false, decide_true, Bool.true_and]
        cases ends : frame.endStream with
        | false =>
            simp only [Bool.false_eq_true, if_false, Bool.false_and, Bool.or_false]
            repeat' split
            all_goals rfl
        | true =>
            by_cases headers : frame.type = .headers .response
            · simp [headers, SessionState.endStream]
            · by_cases data : frame.type = .data
              · simp [data, SessionState.endStream]
              · simp [headers, data]
      · simp [mine]

theorem run_completed (state : SessionState) (calls : List Callback) :
    ((client sid).run state calls).2.completed =
      (state.completed || calls.any (completes sid)) := by
  induction calls generalizing state with
  | nil => simp
  | cons call calls ih =>
      rw [Mealy.run_cons, ih, step_completed, List.any_cons, Bool.or_assoc]

theorem frames_end (sid : Int) {frames : List (List Bytes)} (some' : frames ≠ []) :
    ∃ front last, dataFrames sid frames = front ++ [last] ∧
      front.any (completes sid) = false := by
  induction frames with
  | nil => exact absurd rfl some'
  | cons chunks rest ih =>
      have quiet : (chunks.map (Callback.dataChunk sid)).any (completes sid) = false := by
        simp [completes]
      cases rest with
      | nil => exact ⟨_, _, rfl, quiet⟩
      | cons next rest =>
          obtain ⟨front, last, whole, before⟩ := ih (List.cons_ne_nil next rest)
          refine ⟨chunks.map (.dataChunk sid) ++ .frameRecv ⟨.data, sid, false⟩ :: front, last,
            ?_, ?_⟩
          · rw [dataFrames, whole, List.append_assoc, List.cons_append]
            rfl
          · rw [List.any_append, quiet, List.any_cons, before]
            simp [completes]

/-- No call of a response but the last one completes it. -/
theorem carried_ends {fields : List (Bytes × Bytes)} {pieces : Option (List (Bytes × Bool))}
    {own : List Callback} (carried : Carried .response sid fields pieces own) :
    ∃ front last, own = front ++ [last] ∧ front.any (completes sid) = false := by
  have block (endStream : Bool) : (.beginHeaders ⟨.headers .response, sid, endStream⟩ ::
      fields.map fun field => .header ⟨.headers .response, sid, endStream⟩ field.1 field.2).any
        (completes sid) = false := by
    simp [completes]
  cases carried with
  | headersOnly => exact ⟨_, _, rfl, block true⟩
  | @withBody pieces frames _ some' _ =>
      obtain ⟨front, last, whole, before⟩ := frames_end sid some'
      refine ⟨headerBlock .response sid fields false ++ front, last, ?_, ?_⟩
      · rw [whole, List.append_assoc]
      · rw [List.any_append, before, headerBlock, List.any_append, block]
        simp [completes]

/-! ## All calls of an exchange -/

def isRead : Callback → Bool
  | .dataRead _ _ => true
  | _ => false

theorem unconcerned {call : Callback} (loud : call.quiet = false)
    (other : call.concerns sid = false) : call.streamId ≠ sid := by
  rw [Callback.concerns, loud] at other
  simpa using other

/-- A call for another stream, or a quiet one, does nothing; but a read is always for the body. -/
theorem unheard_idle (state : SessionState) (call : Callback)
    (unheard : (call.concerns sid || isRead call) = false) :
    (client sid).step state call = ([], state) := by
  obtain ⟨other, unread⟩ := Bool.or_eq_false_iff.mp unheard
  cases call with
  | beginHeaders frame => rfl
  | header frame name value =>
      have other : frame.streamId ≠ sid := unconcerned rfl other
      simp only [client, onHeaderCallback, if_pos other]
  | dataChunk id chunk =>
      have other : id ≠ sid := unconcerned rfl other
      simp only [client, onDataChunkRecvCallback, if_pos other]
  | streamClose id code =>
      have other : id ≠ sid := unconcerned rfl other
      simp only [client, onStreamCloseCallback, if_neg other]
  | dataRead id length => cases unread
  | frameRecv frame =>
      by_cases mine : frame.streamId = sid
      · have quiet : frame.type = .other := by
          simpa [Callback.concerns, Callback.quiet, Callback.streamId, mine] using other
        simp only [client, onFrameRecvCallback, quiet, ne_eq, mine, not_true_eq_false, if_false]
        rfl
      · simp only [client, onFrameRecvCallback, ne_eq, mine, not_false_eq_true, if_true]

/-- Where all reads are for the stream, the session hears its calls alone. -/
theorem run_concerns (sid : Int) {calls : List Callback}
    (reads : ∀ id length, .dataRead id length ∈ calls → id = sid) (state : SessionState) :
    (client sid).run state (calls.filter (Callback.concerns sid)) =
      (client sid).run state calls := by
  have same : calls.filter (Callback.concerns sid) =
      calls.filter fun call => call.concerns sid || isRead call := by
    refine List.filter_congr fun call mem => ?_
    cases call with
    | dataRead id length =>
        rw [reads id length mem]
        simp [Callback.concerns, Callback.quiet, Callback.streamId]
    | beginHeaders frame | header frame name value | frameRecv frame | dataChunk id chunk
    | streamClose id code => exact (Bool.or_false _).symm
  rw [same, Mealy.run_filter unheard_idle]

/-- The stream may be closed in the end, without an error. -/
def Closed (sid : Int) (closing : List Callback) : Prop :=
  closing = [] ∨ closing = [.streamClose sid 0]

theorem run_closed {closing : List Callback} (ends : Closed sid closing) (state : SessionState)
    (fields : List (Bytes × Bytes)) (body : Bytes) :
    (client sid).run (state.answered fields body) closing = ([], state.answered fields body) := by
  rcases ends with rfl | rfl
  · rfl
  · simp only [Mealy.run_cons, Mealy.run_nil, client, onStreamCloseCallback, if_true,
      SessionState.answered, SessionState.endStream, ne_eq, not_true_eq_false, decide_false,
      Bool.or_false,
      ResponseState.flushBody, ResponseState.write]
    rfl

end Stream

/-- Nothing fails in the exchange, and nothing happens on a stream before there is one. -/
structure Exchange.Fine (exchange : Exchange) : Prop where
  created : exchange.created = true
  settings : exchange.settings.ok = true
  noStream : exchange.settings.calls = []
  streamId : 0 ≤ exchange.streamId
  request : exchange.request.ok = true
  turns : ∀ turn ∈ exchange.turns, turn.Fine

/-- All calls once there is a stream. -/
def Exchange.calls (exchange : Exchange) : List Callback :=
  exchange.request.calls ++ exchange.turns.flatMap Turn.all

/-- Where a loop that stops at the end of a response has got to. -/
theorem taken_whole {sid : Int} {asked own closing front left : List Callback}
    {fields : List (Bytes × Bytes)} {pieces : Option (List (Bytes × Bool))}
    (reads : asked.any (completes sid) = false) (carried : Carried .response sid fields pieces own)
    (ends : Closed sid closing) (whole : front ++ left = asked ++ (own ++ closing))
    (stops : left = [] ∨ front.any (completes sid) = true) :
    ∃ closing', Closed sid closing' ∧ front = asked ++ (own ++ closing') := by
  rcases stops with rfl | done
  · exact ⟨closing, ends, by rw [← whole, List.append_nil]⟩
  · obtain ⟨before, last, rfl, quiet⟩ := carried_ends carried
    have cut : front ++ left = (asked ++ before) ++ (last :: closing) := by
      rw [whole]
      simp only [List.append_assoc, List.cons_append, List.nil_append]
    rcases List.append_eq_append_iff.mp cut with ⟨more, inside, -⟩ | ⟨more, rfl, rest⟩
    · -- nothing has completed the response so far
      have none' : (asked ++ before).any (completes sid) = false := by
        rw [List.any_append, reads, quiet]
        rfl
      rw [inside, List.any_append, done] at none'
      cases none'
    · cases more with
      | nil =>
          rw [List.append_nil, List.any_append, reads, quiet] at done
          cases done
      | cons first more =>
          obtain ⟨rfl, tail⟩ := List.cons.inj rest
          refine ⟨more, ?_, ?_⟩
          · rcases ends with rfl | rfl
            · exact .inl (List.append_eq_nil_iff.mp tail.symm).1
            · cases more with
              | nil => exact .inl rfl
              | cons call more =>
                  obtain ⟨rfl, none'⟩ := List.cons.inj tail
                  rw [(List.append_eq_nil_iff.mp none'.symm).1]
                  exact .inr rfl
          · simp only [List.append_assoc, List.cons_append, List.nil_append]

/-- The calls that are made until the loop ends. -/
theorem loop_seen (sid : Int) {turns : List Turn} (fine : ∀ turn ∈ turns, turn.Fine)
    (start : SessionState) (first : List Callback) :
    let asked := (client sid).run start first
    let last := pump (client sid) (fun session => !session.completed) asked.2 turns
    ∃ seen left, first ++ turns.flatMap Turn.all = seen ++ left ∧
      (client sid).run start seen = (asked.1 ++ last.1.1, last.1.2) ∧ last.2 = true ∧
      (left = [] ∨ ((client sid).run start seen).2.completed = true) := by
  intro asked last
  obtain ⟨taken, left, whole, run, stops⟩ := pump_calls (m := client sid)
    (fun session => !session.completed) fine asked.2
  have same : (client sid).run start (first ++ taken) = (asked.1 ++ last.1.1, last.1.2) := by
    rw [Mealy.run_append, show last = _ from run]
  refine ⟨first ++ taken, left, by rw [whole, List.append_assoc], same, ?_, ?_⟩
  · rw [show last = _ from run]
  · rw [Mealy.run_append]
    exact stops.imp id fun done => by simpa using done

/-- **`perform_request`** hands out the body of the request as it is read, and returns with the
response that is carried over, whatever turns it comes in and whatever comes with it. -/
theorem performRequest_spec {exchange : Exchange} (fine : exchange.Fine) (state : RequestState)
    (response : ResponseState) {lengths : List Nat} {fields : List (Bytes × Bytes)}
    {pieces : Option (List (Bytes × Bool))} {own closing : List Callback}
    (asked : state.body = [] → lengths = [])
    (carried : Carried .response exchange.streamId fields pieces own)
    (ends : Closed exchange.streamId closing)
    (reads : ∀ id length, .dataRead id length ∈ exchange.calls → id = exchange.streamId)
    (mine : exchange.calls.filter (Callback.concerns exchange.streamId) =
      lengths.map (.dataRead exchange.streamId) ++ (own ++ closing)) :
    performRequest exchange state response =
      (BodySource.pieces { body := state.body } lengths, some 0,
        response.received fields (joined (pieces.getD []))) := by
  have fresh : (SessionState.start state response).completed = false := rfl
  have unread : (lengths.map (Callback.dataRead exchange.streamId)).any
      (completes exchange.streamId) = false := by
    simp [completes]
  obtain ⟨seen, left, whole, run, going, stops⟩ := loop_seen exchange.streamId
    fine.turns (SessionState.start state response) exchange.request.calls
  have all : exchange.calls = seen ++ left := whole
  have heard := run_concerns exchange.streamId
    (fun id length (mem : _ ∈ seen) => reads id length (all ▸ List.mem_append_left left mem))
    (SessionState.start state response)
  obtain ⟨closing', ends', seen'⟩ : ∃ closing', Closed exchange.streamId closing' ∧
      seen.filter (Callback.concerns exchange.streamId) =
        lengths.map (.dataRead exchange.streamId) ++ (own ++ closing') := by
    rw [all, List.filter_append] at mine
    refine taken_whole unread carried ends mine (stops.imp (fun none' => ?_) fun done => ?_)
    · rw [none', List.filter_nil]
    · rw [← heard, run_completed, fresh, Bool.false_or] at done
      exact done
  obtain ⟨later, handed⟩ : ∃ later, (client exchange.streamId).run
      (SessionState.start state response) (lengths.map (.dataRead exchange.streamId)) =
        (BodySource.pieces { body := state.body } lengths,
          { SessionState.start state response with requestBody := later }) := by
    by_cases empty : state.body = []
    · rw [asked empty]
      exact ⟨_, rfl⟩
    · exact run_reads _ { body := state.body } (if_pos empty) lengths
  have last : (client exchange.streamId).run (SessionState.start state response) seen =
      (BodySource.pieces { body := state.body } lengths,
        SessionState.answered { SessionState.start state response with requestBody := later } fields
          (joined (pieces.getD []))) := by
    rw [← heard, seen', Mealy.run_append, handed, Mealy.run_append, run_answer _ carried,
      run_closed ends', List.append_nil, List.append_nil]
  obtain ⟨handed', ended⟩ := Prod.mk.inj (run.symm.trans last)
  have stream : ¬ (exchange.settings.ok = false ∨ exchange.streamId < 0) := by
    rw [fine.settings]
    simpa using fine.streamId
  unfold performRequest
  dsimp only
  rw [if_neg (by rw [fine.created]; decide), fine.noStream, Mealy.run_nil, if_neg stream,
    if_neg (by rw [fine.request]; decide)]
  dsimp only
  rw [going, ended, List.nil_append, handed',
    if_neg fun waits => Bool.noConfusion (show true = false from waits.2)]
  rfl

/-! ## What the response says -/

theorem stoi_numeral {n : Nat} (small : n ≤ 2147483647) : stoi (numeral 10 n) = some (n : Int) := by
  have digit (c : UInt8) (mem : c ∈ numeral 10 n) : decide (0x30 ≤ c ∧ c ≤ 0x39) = true :=
    decide_eq_true (numeral_decimal mem)
  obtain ⟨first, rest, cut⟩ := List.exists_cons_of_ne_nil (numeral_ne_nil n)
  have head := numeral_decimal (n := n) (c := first) (by rw [cut]; exact List.mem_cons_self)
  have begins : (numeral 10 n).dropWhile isSpace = numeral 10 n := by
    rw [cut, List.dropWhile_cons_of_neg]
    simp only [isSpace, decide_eq_true_eq]
    rintro (rfl | ⟨-, high⟩)
    · exact absurd head.1 (by decide)
    · exact absurd (UInt8.le_trans head.1 high) (by decide)
  have unsigned (c : UInt8) (below : c < 0x30) : (numeral 10 n).head? ≠ some c := by
    rw [cut, List.head?_cons]
    rintro ⟨⟩
    exact absurd head.1 (UInt8.not_le.mpr below)
  have whole : (numeral 10 n).takeWhile (fun c => decide (0x30 ≤ c ∧ c ≤ 0x39)) = numeral 10 n :=
    List.takeWhile_eq_self_iff.mpr digit
  unfold stoi
  simp only [begins, unsigned 0x2D (by decide), unsigned 0x2B (by decide), or_self, if_false, whole,
    readNumeral_numeral (by decide : 1 < 10) (by decide) n, Option.bind_some]
  rw [if_pos (by omega)]

/-- The statuses of the server. -/
theorem makeAppResponse_status {json : Json} {method url body : Bytes}
    {headers : Bytes → Option Bytes} {app : AppResponse}
    (made : makeAppResponse json method url headers body = some app) :
    app.statusCode = 200 ∨ app.statusCode = 400 ∨ app.statusCode = 404 := by
  unfold makeAppResponse at made
  repeat' split at made
  all_goals cases made
  all_goals simp

/-- The fields as they are printed. -/
def printedResponse (app : AppResponse) : Bytes :=
  ascii "HTTP/2 " ++ numeral 10 app.statusCode ++ ascii "\r\n" ++ ascii "content-type" ++
    ascii ": " ++ app.contentType ++ ascii "\r\n" ++ ascii "content-length" ++ ascii ": " ++
    numeral 10 app.body.length ++ ascii "\r\n" ++ ascii "\r\n"

/-- The response state with which `run_client` begins. -/
def ResponseState.initial (options : CommandLineOptions) (file : Bytes) : ResponseState where
  includeHeaders := options.includeHeaders
  bufferBody := options.followRedirects
  output := some file

/-- What co_curl knows and has written of a response.  While it follows redirects it keeps the
body back, and then writes it twice: at the end of the stream, and behind the loop. -/
structure Reports (options : CommandLineOptions) (file : Bytes) (app : AppResponse)
    (response : ResponseState) : Prop where
  statusCode : response.statusCode = app.statusCode
  contentType : response.header (ascii "Content-Type") = some app.contentType
  contentLength : response.header (ascii "Content-Length") = some (numeral 10 app.body.length)
  complete : response.messageComplete = true
  output : response.output = some (file ++
    (if options.includeHeaders then printedResponse app else []) ++
    if options.followRedirects then app.body ++ app.body else app.body)

theorem received_reports (options : CommandLineOptions) (file : Bytes) {app : AppResponse}
    (small : app.statusCode ≤ 2147483647) :
    Reports options file app ((ResponseState.initial options file).received
      (Http2Server.responseFields app) app.body) := by
  have other : ascii "content-type" ≠ ascii ":status" ∧ ascii "content-length" ≠ ascii ":status" ∧
      toLower (ascii "content-type") = ascii "content-type" ∧
      toLower (ascii "content-length") = ascii "content-length" ∧
      toLower (ascii "Content-Type") = ascii "content-type" ∧
      toLower (ascii "Content-Length") = ascii "content-length" ∧
      ascii "content-type" ≠ ascii "content-length" := by decide
  have collected : (ResponseState.initial options file).fields (Http2Server.responseFields app) =
      { ResponseState.initial options file with
        statusText := numeral 10 app.statusCode
        statusCode := app.statusCode
        headerLookup := Function.update
          (Function.update (fun _ => none) (ascii "content-type") (some app.contentType))
          (ascii "content-length") (some (numeral 10 app.body.length))
        headers := [⟨ascii "content-type", app.contentType⟩,
          ⟨ascii "content-length", numeral 10 app.body.length⟩] } := by
    simp only [ResponseState.fields, Http2Server.responseFields, List.foldl_cons, List.foldl_nil,
      ResponseState.field, if_true, if_neg other.1, if_neg other.2.1, ResponseState.appendHeader,
      other.2.2.1, other.2.2.2.1, stoi_numeral small, Option.getD_some]
    rfl
  have printed (response : ResponseState)
      (status : response.statusText = numeral 10 app.statusCode)
      (headers : response.headers = [⟨ascii "content-type", app.contentType⟩,
        ⟨ascii "content-length", numeral 10 app.body.length⟩]) :
      response.printed = printedResponse app := by
    simp only [ResponseState.printed, printedResponse, status, headers, numeral_ne_nil, ne_eq,
      not_false_eq_true, if_true, List.flatMap_cons, List.flatMap_nil, List.append_nil,
      List.append_assoc]
  obtain ⟨-, -, -, -, content, length', apart⟩ := other
  unfold ResponseState.received
  rw [collected]
  cases including : options.includeHeaders
  all_goals cases buffered : options.followRedirects
  all_goals constructor
  all_goals simp [ResponseState.initial, ResponseState.emitHeaders, ResponseState.data,
    ResponseState.flushBody, ResponseState.write, ResponseState.header, including, buffered,
    content, length', Function.update, apart, printed]

/-! ## What the server makes of the request -/

/-- The last value of a field. -/
def lastValue (fields : List (Bytes × Bytes)) (key : Bytes) : Option Bytes :=
  (fields.reverse.find? fun field => field.1 = key).map Prod.snd

theorem toLowerChar_eq_colon {c : UInt8} (same : toLowerChar c = 58) : c = 58 := by
  unfold toLowerChar at same
  split at same
  · next upper =>
      obtain ⟨low, high⟩ := upper
      rw [UInt8.le_iff_toNat_le] at low high
      have sum := congrArg UInt8.toNat same
      rw [UInt8.toNat_add] at sum
      have values : (0x41 : UInt8).toNat = 65 ∧ (0x5A : UInt8).toNat = 90 ∧
        (0x20 : UInt8).toNat = 32 ∧ (58 : UInt8).toNat = 58 := by decide
      omega
  · exact same

/-- A header that co_curl sends is no field of the request line. -/
theorem keptHeaders_plain {headers : List HeaderEntry}
    (proper : ∀ header ∈ headers, header.Proper) :
    ∀ field ∈ keptHeaders headers, 58 ∉ field.1 ∧ toLower field.1 = field.1 := by
  intro field mem
  obtain ⟨header, kept, rfl⟩ := List.mem_map.mp mem
  have absent := (proper header (List.mem_of_mem_filter kept)).2
  refine ⟨fun inside => ?_, toLower_twice header.name⟩
  obtain ⟨c, here, colon⟩ := List.mem_map.mp inside
  exact absent (toLowerChar_eq_colon colon ▸ here)

/-- The fields behind the request line are kept as headers, the last value for each name. -/
theorem fields_plain {fields : List (Bytes × Bytes)}
    (plain : ∀ field ∈ fields, 58 ∉ field.1 ∧ toLower field.1 = field.1)
    (stream : Http2Server.Http2ServerStream) :
    stream.fields fields = { stream with
      headers := fun key => (lastValue fields key).or (stream.headers key) } := by
  induction fields generalizing stream with
  | nil => rfl
  | cons field fields ih =>
      obtain ⟨absent, lower⟩ := plain field List.mem_cons_self
      have other (key : Bytes) (colon : 58 ∈ key) : field.1 ≠ key := fun same =>
        absent (same ▸ colon)
      have step : stream.field field.1 field.2 = { stream with
          headers := Function.update stream.headers field.1 (some field.2) } := by
        rw [Http2Server.Http2ServerStream.field, if_neg (other _ (by decide)),
          if_neg (other _ (by decide)), if_neg, lower]
        rintro (same | same)
        · exact other _ (by decide) same
        · exact other _ (by decide) same
      have later := ih (fun other mem => plain other (List.mem_cons_of_mem _ mem))
        (stream.field field.1 field.2)
      have whole : stream.fields (field :: fields) =
          (stream.field field.1 field.2).fields fields := rfl
      rw [whole, later, step]
      congr 1
      funext key
      rw [lastValue, lastValue, List.reverse_cons, List.find?_append]
      cases fields.reverse.find? fun field => field.1 = key with
      | some found => rfl
      | none =>
          by_cases same : field.1 = key
          · subst same
            simp
          · simp [same, Function.update_of_ne (Ne.symm same)]

/-- The request as the server has collected it. -/
theorem requestOf_fields (url : ParsedUrl) (state : RequestState) (built : BuiltRequest)
    (proper : ∀ header ∈ built.headers, header.Proper) (body : Bytes) :
    Http2Server.requestOf (requestFields url state built) body =
      { method := state.method
        path := if url.path = [] then ascii "/" else url.path
        headers := lastValue (keptHeaders built.headers)
        body } := by
  have other : ascii ":path" ≠ ascii ":method" ∧ ascii ":scheme" ≠ ascii ":method" ∧
      ascii ":scheme" ≠ ascii ":path" ∧ ascii ":authority" ≠ ascii ":method" ∧
      ascii ":authority" ≠ ascii ":path" := by decide
  have line : Http2Server.Http2ServerStream.fields {} (requestFields url state built) =
      Http2Server.Http2ServerStream.fields
        { method := state.method, path := if url.path = [] then ascii "/" else url.path }
        (keptHeaders built.headers) := by
    simp only [Http2Server.Http2ServerStream.fields, requestFields, pseudoFields, List.cons_append,
      List.nil_append, List.foldl_cons, Http2Server.Http2ServerStream.field, if_true,
      if_neg other.1, if_neg other.2.1, if_neg other.2.2.1, if_neg other.2.2.2.1,
      if_neg other.2.2.2.2, true_or, or_true]
  rw [Http2Server.requestOf, line, fields_plain (keptHeaders_plain proper)]
  simp only [Option.or_none]

/-! ## co_curl at the server -/

/-- What nghttp2 does at both ends for one stream: to the server it carries the request with what
it has read of its body, and to the client what the server has submitted, with what it has read of
that.  A body is read up to its end, and only if there is one.  Any calls for other streams, and
quiet ones, come between. -/
structure Carriage (sid : Int) (body : Bytes) (fields : List (Bytes × Bytes))
    (clientCalls serverCalls : List Callback) (answers : List (Int × Http2Server.Answer)) where
  requestReads : List Nat
  request : List Callback
  answerReads : List Nat
  answer : List Callback
  clientClosing : List Callback
  serverClosing : List Callback
  client : clientCalls.filter (Callback.concerns sid) =
    requestReads.map (.dataRead sid) ++ (answer ++ clientClosing)
  server : serverCalls.filter (Callback.concerns sid) =
    request ++ (answerReads.map (.dataRead sid) ++ serverClosing)
  oneBody : ∀ id length, .dataRead id length ∈ clientCalls → id = sid
  clientClosed : Closed sid clientClosing
  serverClosed : Http2Server.Closing sid serverClosing
  unasked : body = [] → requestReads = []
  requestCarried : Carried .request sid fields
    (if body ≠ [] then some (BodySource.pieces { body } requestReads) else none) request
  unread : ∀ fields, (sid, .submitted fields false) ∈ answers → answerReads = []
  answerCarried : ∀ fields provider pieces,
    answers.filter (fun answer => answer.1 = sid) =
      (sid, .submitted fields provider) ::
        pieces.map (fun piece => (sid, .piece piece.1 piece.2)) →
    Carried .response sid fields (if provider then some pieces else none) answer

/-- What has been carried of a body is the body. -/
theorem carried_body {cat : HeadersCategory} {sid : Int} {fields : List (Bytes × Bytes)}
    {body : Bytes} {lengths : List Nat} {own : List Callback}
    (carried : Carried cat sid fields
      (if body ≠ [] then some (BodySource.pieces { body } lengths) else none) own) :
    joined ((if body ≠ [] then some (BodySource.pieces { body } lengths) else none).getD []) =
      body := by
  by_cases empty : body = []
  · rw [empty]
    rfl
  · rw [if_pos empty] at carried ⊢
    cases carried with
    | withBody ended _ _ => exact BodySource.pieces_whole ended

/-- **co_curl at the server of this repository**, for a request that nghttp2 accepts and carries as
it is.  However nghttp2 cuts both bodies, whatever else it does at both ends, and whatever other
streams the server has at the same time, the request is answered once, as the server answers any
request with that method, path, headers and body, and co_curl returns 0 with that answer. -/
theorem request_answered {json : Json} (submitResponse : Int → Int) (options : CommandLineOptions)
    (state : RequestState) (url : ParsedUrl) (file : Bytes)
    (lines : ∀ header ∈ options.headers, ∃ line, parseHeaderLine line = some header)
    {exchange : Exchange} (fine : exchange.Fine) {connection : Http2Server.Connection}
    (served : connection.Fine) (initialData : Bytes)
    (accepted : submitResponse exchange.streamId = 0)
    (carriage : Carriage exchange.streamId state.body
      (requestFields url state (buildHttpRequest options state url)) exchange.calls
      (connection.calls initialData)
      (Http2Server.handleHttp2Connection json submitResponse connection initialData).1)
    {app : AppResponse}
    (answer : makeAppResponse json state.method (if url.path = [] then ascii "/" else url.path)
      (lastValue (keptHeaders (requestHeaders options state url))) state.body = some app) :
    (Http2Server.handleHttp2Connection json submitResponse connection initialData).1.filter
        (fun answer => answer.1 = exchange.streamId) =
      (exchange.streamId, .submitted (Http2Server.responseFields app) (decide (app.body ≠ []))) ::
        (BodySource.pieces { body := app.body } carriage.answerReads).map
          (fun piece => (exchange.streamId, .piece piece.1 piece.2)) ∧
    ∃ response, performRequest exchange state (ResponseState.initial options file) =
        (BodySource.pieces { body := state.body } carriage.requestReads, some 0, response) ∧
      Reports options file app response := by
  have proper : ∀ header ∈ requestHeaders options state url, header.Proper :=
    requestHeaders_proper state url fun header mem =>
      have ⟨_, parsed⟩ := lines header mem
      parseHeaderLine_proper parsed
  have request := requestOf_fields url state (buildHttpRequest options state url) proper
    state.body
  have collected : Http2Server.answerOf json (Http2Server.requestOf
      (requestFields url state (buildHttpRequest options state url))
      (joined ((if state.body ≠ [] then
        some (BodySource.pieces { body := state.body } carriage.requestReads) else none).getD
          []))) = some app := by
    rw [carried_body carriage.requestCarried, request]
    exact answer
  have unread : app.body = [] → carriage.answerReads = [] := fun empty => by
    have submitted := Http2Server.stream_submitted accepted carriage.requestCarried collected
      carriage.server
    rw [← Http2Server.handleHttp2Connection_calls served, empty] at submitted
    exact carriage.unread _ submitted
  have outputs := Http2Server.stream_answered accepted carriage.requestCarried collected unread
    carriage.serverClosed carriage.server
  rw [← Http2Server.handleHttp2Connection_calls served] at outputs
  have carried := carriage.answerCarried _ _ _ outputs
  have provider : (if decide (app.body ≠ []) = true then
      some (BodySource.pieces { body := app.body } carriage.answerReads) else none) =
      if app.body ≠ [] then
        some (BodySource.pieces { body := app.body } carriage.answerReads) else none := by
    simp only [decide_eq_true_eq]
  rw [provider] at carried
  have small : app.statusCode ≤ 2147483647 := by
    have := makeAppResponse_status answer
    omega
  refine ⟨outputs, _, performRequest_spec fine state (ResponseState.initial options file)
    carriage.unasked carried carriage.clientClosed carriage.oneBody carriage.client, ?_⟩
  rw [carried_body carried]
  exact received_reports options file small

/-! ## A request for the health of the server -/

/-- `co_curl -i -L -H "X-Trace: 7" --http2 https://a/health` -/
def healthOptions : CommandLineOptions where
  url := ascii "https://a/health"
  headers := [⟨ascii "X-Trace", ascii "7"⟩]
  includeHeaders := true
  followRedirects := true
  preferHttp2 := true

def healthUrl : ParsedUrl where
  scheme := ascii "https"
  host := ascii "a"
  port := 443
  path := ascii "/health"

def healthState : RequestState where
  method := ascii "GET"
  body := []
  dropContentHeaders := false

def healthApp : AppResponse where
  statusCode := 200
  reason := ascii "OK"
  body := ascii "OK\n"

def healthFields : List (Bytes × Bytes) :=
  requestFields healthUrl healthState (buildHttpRequest healthOptions healthState healthUrl)

/-- A flush in which something is sent. -/
def flushed (calls : List Callback) : Flush := { rv := 0, calls, sendBuffer := [0], sent := 1 }

/-- A turn in which something is received, and sent. -/
def inTurn (calls later : List Callback) : Turn :=
  { received := 9, consumed := 9, calls, flush := flushed later }

/-- The calls for the answer, its body in two frames. -/
def healthAnswer : List Callback :=
  headerBlock .response 1 (Http2Server.responseFields healthApp) false ++
    dataFrames 1 [[ascii "O"], [ascii "K", ascii "\n"]]

def healthExchange : Exchange where
  created := true
  settings := flushed []
  streamId := 1
  request := flushed []
  turns := [inTurn [.frameRecv ⟨.other, 0, false⟩] [],
    inTurn (healthAnswer ++ [.streamClose 1 0]) []]

/-- Another stream is opened before, and gets data afterwards. -/
def healthConnection : Http2Server.Connection where
  created := true
  settings := flushed []
  initial := inTurn [] []
  turns := [inTurn (headerBlock .request 3 [(ascii ":method", ascii "POST")] false) [],
    inTurn (headerBlock .request 1 healthFields true) [.dataRead 1 2, .dataRead 1 9],
    inTurn [.dataChunk 3 (ascii "x"), .streamClose 1 0] []]

theorem headerBlock_concerns (cat : HeadersCategory) (sid : Int) (fields : List (Bytes × Bytes))
    (endStream : Bool) : (headerBlock cat sid fields endStream).filter (Callback.concerns sid) =
      headerBlock cat sid fields endStream := by
  refine List.filter_eq_self.mpr fun call mem => ?_
  simp only [headerBlock, List.cons_append, List.mem_cons, List.mem_append, List.mem_map,
    List.not_mem_nil, or_false] at mem
  rcases mem with rfl | ⟨field, -, rfl⟩ | rfl
  all_goals simp [Callback.concerns, Callback.streamId, Callback.quiet]

theorem headerBlock_unconcerned {sid other : Int} (apart : other ≠ sid) (cat : HeadersCategory)
    (fields : List (Bytes × Bytes)) (endStream : Bool) :
    (headerBlock cat other fields endStream).filter (Callback.concerns sid) = [] := by
  refine List.filter_eq_nil_iff.mpr fun call mem => ?_
  simp only [headerBlock, List.cons_append, List.mem_cons, List.mem_append, List.mem_map,
    List.not_mem_nil, or_false] at mem
  rcases mem with rfl | ⟨field, -, rfl⟩ | rfl
  all_goals simp [Callback.concerns, Callback.streamId, apart]

theorem healthExchange_all : healthExchange.calls = .frameRecv ⟨.other, 0, false⟩ ::
    (healthAnswer ++ [.streamClose 1 0]) := by
  simp [Exchange.calls, healthExchange, inTurn, flushed, Turn.all]

theorem healthExchange_calls : healthExchange.calls.filter (Callback.concerns 1) =
    [].map (.dataRead 1) ++ (healthAnswer ++ [.streamClose 1 0]) := by
  have answer : healthAnswer.filter (Callback.concerns 1) = healthAnswer := by
    rw [healthAnswer, List.filter_append, headerBlock_concerns]
    rfl
  rw [healthExchange_all, List.filter_cons_of_neg (by decide), List.filter_append, answer]
  rfl

theorem healthConnection_calls :
    (healthConnection.calls []).filter (Callback.concerns 1) =
      headerBlock .request 1 healthFields true ++
        ([2, 9].map (.dataRead 1) ++ [.streamClose 1 0]) := by
  simp only [Http2Server.Connection.calls, healthConnection, inTurn, flushed, Turn.all,
    if_true, List.flatMap_cons, List.flatMap_nil, List.nil_append, List.append_nil,
    List.filter_append, headerBlock_concerns, headerBlock_unconcerned (by decide : (3 : Int) ≠ 1)]
  rfl

theorem healthApp_made : makeAppResponse HttpServer.emptyObjects healthState.method
    (if healthUrl.path = [] then ascii "/" else healthUrl.path)
    (lastValue (keptHeaders (requestHeaders healthOptions healthState healthUrl)))
    healthState.body = some healthApp := by
  have path : healthUrl.path ≠ [] := by decide
  have index : ascii "/health" ≠ ascii "/" ∧ ascii "/health" ≠ ascii "/index" ∧
      ascii "/health" ≠ ascii "/index.html" := by decide
  rw [if_neg path]
  simp only [makeAppResponse, healthState, healthUrl, index, or_self, and_false, if_false,
    and_self, if_true]
  rfl

theorem inTurn_fine (calls later : List Callback) : (inTurn calls later).Fine :=
  ⟨(by decide : (0 : Int) < 9), (by decide : (0 : Int) ≤ 9), rfl⟩

theorem healthConnection_fine : healthConnection.Fine where
  created := rfl
  settings _ := Int.one_pos
  consumed := by decide
  flushed := rfl
  turns turn mem := by
    simp only [healthConnection, List.mem_cons, List.not_mem_nil, or_false] at mem
    rcases mem with rfl | rfl | rfl
    all_goals exact inTurn_fine _ _

theorem healthExchange_fine : healthExchange.Fine where
  created := rfl
  settings := rfl
  noStream := rfl
  streamId := by decide
  request := rfl
  turns turn mem := by
    simp only [healthExchange, List.mem_cons, List.not_mem_nil, or_false] at mem
    rcases mem with rfl | rfl
    all_goals exact inTurn_fine _ _

theorem healthOptions_lines :
    ∀ header ∈ healthOptions.headers, ∃ line, parseHeaderLine line = some header := by
  intro header mem
  rw [List.mem_singleton.mp mem]
  exact ⟨ascii "X-Trace: 7", by decide⟩

/-- What the server has answered. -/
theorem healthConnection_answers :
    (Http2Server.handleHttp2Connection HttpServer.emptyObjects (fun _ => 0) healthConnection
        []).1.filter (fun answer => answer.1 = 1) =
      (1, .submitted (Http2Server.responseFields healthApp) true) ::
        (BodySource.pieces { body := healthApp.body } [2, 9]).map fun piece =>
          (1, .piece piece.1 piece.2) := by
  have proper : ∀ header ∈ (buildHttpRequest healthOptions healthState healthUrl).headers,
      header.Proper :=
    requestHeaders_proper healthState healthUrl fun header mem =>
      have ⟨_, parsed⟩ := healthOptions_lines header mem
      parseHeaderLine_proper parsed
  have collected : Http2Server.answerOf HttpServer.emptyObjects
      (Http2Server.requestOf healthFields (joined (Option.getD none []))) = some healthApp := by
    rw [healthFields, requestOf_fields healthUrl healthState _ proper]
    exact healthApp_made
  rw [Http2Server.handleHttp2Connection_calls healthConnection_fine]
  exact Http2Server.stream_answered rfl Carried.headersOnly collected
    (fun empty => absurd empty (by decide)) (.inr ⟨0, rfl⟩) healthConnection_calls

def healthCarriage : Carriage 1 healthState.body healthFields healthExchange.calls
    (healthConnection.calls [])
    (Http2Server.handleHttp2Connection HttpServer.emptyObjects (fun _ => 0) healthConnection
      []).1 where
  requestReads := []
  request := headerBlock .request 1 healthFields true
  answerReads := [2, 9]
  answer := healthAnswer
  clientClosing := [.streamClose 1 0]
  serverClosing := [.streamClose 1 0]
  client := healthExchange_calls
  server := healthConnection_calls
  oneBody id length mem := by
    rw [healthExchange_all] at mem
    simp [healthAnswer, headerBlock, dataFrames] at mem
  clientClosed := .inr rfl
  serverClosed := .inr ⟨0, rfl⟩
  unasked _ := rfl
  requestCarried := .headersOnly
  unread fields mem := by
    have inside : (1, .submitted fields false) ∈ List.filter (fun answer => answer.1 = 1)
        (Http2Server.handleHttp2Connection HttpServer.emptyObjects (fun _ => 0) healthConnection
          []).1 := List.mem_filter.mpr ⟨mem, by simp⟩
    rw [healthConnection_answers] at inside
    simp at inside
  answerCarried fields provider pieces same := by
    have one : Function.Injective fun piece : Bytes × Bool =>
        ((1 : Int), Http2Server.Answer.piece piece.1 piece.2) := by
      rintro ⟨data, eof⟩ ⟨data', eof'⟩ both
      cases both
      rfl
    rw [healthConnection_answers] at same
    obtain ⟨first, rest⟩ := List.cons.inj same
    cases first
    rw [if_pos rfl, ← List.map_injective_iff.mpr one rest]
    exact .withBody ⟨[(ascii "OK", false)], ascii "\n", by decide, by decide⟩
      (List.cons_ne_nil _ _) (by decide)

theorem request_answered_health : ∃ response,
    performRequest healthExchange healthState (ResponseState.initial healthOptions []) =
        ([], some 0, response) ∧
      response.statusCode = 200 ∧
      response.output = some (printedResponse healthApp ++ ascii "OK\nOK\n") := by
  obtain ⟨-, response, run, reports⟩ := request_answered (fun _ => 0) healthOptions
    healthState healthUrl [] healthOptions_lines healthExchange_fine healthConnection_fine [] rfl
    healthCarriage healthApp_made
  refine ⟨response, run, reports.statusCode, reports.output.trans ?_⟩
  have body : healthApp.body ++ healthApp.body = ascii "OK\nOK\n" := by decide
  rw [← body]
  rfl

end CoWq.CoCurl
