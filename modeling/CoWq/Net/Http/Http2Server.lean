import Mathlib.Logic.Function.Basic
import CoWq.Net.Http.Http2
import CoWq.Net.Http.Server

/-!
# The HTTP/2 sessions of the server

The callbacks collect the requests of all streams side by side, and answer each when it is complete.

* `Http2ServerSession`, `session`: the callbacks; `handleHttp2Connection`: the loop.
* `only`: a stream without the others; `session_keyed`: it is served as if it were alone.
* `answerOf`: what a request is answered.
* `stream_answered`: one complete request, among any others.
* `connection_answers`: the same for a connection.
-/

namespace CoWq.Http2Server

open Http2
open HttpServer (Json AppResponse makeAppResponse)
open WebSocket.Accept (Bytes ascii ascii_literal toLower)

/-! ## The code -/

structure Http2ServerStream where
  method : Bytes := []
  path : Bytes := []
  headers : Bytes → Option Bytes := fun _ => none
  body : Bytes := []
  responded : Bool := false

/-- `Http2ServerSession`; `send_buffer` is part of the flushes. -/
structure Http2ServerSession where
  streams : Int → Option Http2ServerStream := fun _ => none
  responses : Int → Option BodySource := fun _ => none

/-- What the callbacks give to nghttp2. -/
inductive Answer
  | submitted (fields : List (Bytes × Bytes)) (provider : Bool)
  /-- `nghttp2_submit_response` has failed -/
  | refused (rv : Int)
  | piece (data : Bytes) (eof : Bool)
  /-- the read callback with a payload that has been erased -/
  | dangling
  /-- an exception leaves the callback -/
  | threw
  deriving DecidableEq, Repr

/-- The new value of a field. -/
def Http2ServerStream.field (stream : Http2ServerStream) (key val : Bytes) : Http2ServerStream :=
  if key = ascii ":method" then { stream with method := val }
  else if key = ascii ":path" then { stream with path := val }
  else if key = ascii ":scheme" ∨ key = ascii ":authority" then stream
  else { stream with headers := Function.update stream.headers (toLower key) (some val) }

/-- The fields of a response. -/
def responseFields (app : AppResponse) : List (Bytes × Bytes) :=
  [(ascii ":status", numeral 10 app.statusCode), (ascii "content-type", app.contentType),
    (ascii "content-length", numeral 10 app.body.length)]

/-- `h2_server_on_begin_headers` -/
def onBeginHeaders (state : Http2ServerSession) (frame : Frame) : Http2ServerSession :=
  if frame.type = .headers .request then
    { state with
      streams := Function.update state.streams frame.streamId
        (some ((state.streams frame.streamId).getD {})) }
  else state

/-- `h2_server_on_header` -/
def onHeader (state : Http2ServerSession) (frame : Frame) (key val : Bytes) :
    Http2ServerSession :=
  if frame.type = .headers .request then
    { state with
      streams := Function.update state.streams frame.streamId
        ((state.streams frame.streamId).map fun stream => stream.field key val) }
  else state

/-- `h2_server_on_data_chunk` -/
def onDataChunk (state : Http2ServerSession) (sid : Int) (data : Bytes) : Http2ServerSession :=
  { state with
    streams := Function.update state.streams sid
      ((state.streams sid).map fun stream => { stream with body := stream.body ++ data }) }

/-- `h2_server_data_read` -/
def dataRead (state : Http2ServerSession) (sid : Int) (length : Nat) :
    List (Int × Answer) × Http2ServerSession :=
  match state.responses sid with
  | none => ([(sid, .dangling)], state)
  | some payload =>
      ([(sid, .piece (payload.read length).1.1 (payload.read length).1.2)],
        { state with responses := Function.update state.responses sid (payload.read length).2 })

section Code

variable (json : Json) (submitResponse : Int → Int)

/-- `h2_server_submit_response`; `submitResponse` is `nghttp2_submit_response`. -/
def h2ServerSubmitResponse (state : Http2ServerSession) (sid : Int) :
    List (Int × Answer) × Http2ServerSession :=
  match state.streams sid with
  | none => ([], state)
  | some stream =>
      if stream.responded then ([], state)
      else
        match makeAppResponse json stream.method stream.path stream.headers stream.body with
        | none => ([(sid, .threw)], state)
        | some app =>
            let responses :=
              if app.body ≠ [] then
                Function.update state.responses sid (some { body := app.body })
              else state.responses
            if submitResponse sid ≠ 0 then
              ([(sid, .refused (submitResponse sid))], { state with responses })
            else
              ([(sid, .submitted (responseFields app) (decide (app.body ≠ [])))],
                { streams := Function.update state.streams sid
                    (some { stream with responded := true })
                  responses })

/-- `h2_server_on_frame_recv` -/
def onFrameRecv (state : Http2ServerSession) (frame : Frame) :
    List (Int × Answer) × Http2ServerSession :=
  if frame.type = .headers .request then
    if frame.endStream then h2ServerSubmitResponse json submitResponse state frame.streamId
    else ([], state)
  else if frame.type = .data then
    if frame.endStream then h2ServerSubmitResponse json submitResponse state frame.streamId
    else ([], state)
  else ([], state)

/-- `h2_server_on_stream_close` -/
def onStreamClose (state : Http2ServerSession) (sid : Int) : Http2ServerSession :=
  { streams := Function.update state.streams sid none
    responses := Function.update state.responses sid none }

/-- The callbacks of `handle_http2_connection`. -/
def session : Mealy Http2ServerSession Callback (Int × Answer) where
  step state
    | .beginHeaders frame => ([], onBeginHeaders state frame)
    | .header frame name value => ([], onHeader state frame name value)
    | .frameRecv frame => onFrameRecv json submitResponse state frame
    | .dataChunk sid data => ([], onDataChunk state sid data)
    | .dataRead sid length => dataRead state sid length
    | .streamClose sid _ => ([], onStreamClose state sid)

/-- What nghttp2 does in a connection: the session is made or not, the settings are sent, the bytes
that came before are taken in a turn without a receive, and the loop is gone through as long as
nghttp2 wants to read or write, which is as many turns as there are. -/
structure Connection where
  created : Bool
  settings : Flush
  initial : Turn
  turns : List Turn

/-- `handle_http2_connection` -/
def handleHttp2Connection (connection : Connection) (initialData : Bytes) :
    List (Int × Answer) × Http2ServerSession :=
  if connection.created then
    let settings := connection.settings
    let begun := (session json submitResponse).run {} settings.calls
    if settings.rv = 0 ∧ settings.sendBuffer ≠ [] ∧ settings.sent ≤ 0 then begun
    else
      let first :=
        if initialData = [] then (([], begun.2), true)
        else takeTurn (session json submitResponse) begun.2 { connection.initial with received := 1 }
      if first.2 then
        let last := pump (session json submitResponse) (fun _ => true) first.1.2 connection.turns
        (begun.1 ++ (first.1.1 ++ last.1.1), last.1.2)
      else (begun.1 ++ first.1.1, first.1.2)
  else ([], {})

end Code

/-! ## One stream alone -/

/-- A session with one stream at most. -/
def alone (sid : Int) (stream : Option Http2ServerStream) (response : Option BodySource) :
    Http2ServerSession where
  streams := Function.update (fun _ => none) sid stream
  responses := Function.update (fun _ => none) sid response

/-- The stream without the others. -/
def only (state : Http2ServerSession) (sid : Int) : Http2ServerSession :=
  alone sid (state.streams sid) (state.responses sid)

section Alone

variable {sid : Int} {stream : Option Http2ServerStream} {response : Option BodySource}

@[simp] theorem alone_streams : (alone sid stream response).streams sid = stream := by
  simp only [alone, Function.update_self]

@[simp] theorem alone_responses : (alone sid stream response).responses sid = response := by
  simp only [alone, Function.update_self]

@[simp] theorem update_alone_streams (later : Option Http2ServerStream) :
    Function.update (alone sid stream response).streams sid later =
      (alone sid later response).streams := by
  simp only [alone, Function.update_idem]

@[simp] theorem update_alone_responses (later : Option BodySource) :
    Function.update (alone sid stream response).responses sid later =
      (alone sid stream later).responses := by
  simp only [alone, Function.update_idem]

theorem only_empty : only {} sid = {} := by
  simp only [only, alone, Function.update_eq_self_iff.mpr]

end Alone

/-- The state with new entries for one stream. -/
def Http2ServerSession.assign (state : Http2ServerSession) (sid : Int)
    (entries : Option Http2ServerStream × Option BodySource) : Http2ServerSession where
  streams := Function.update state.streams sid entries.1
  responses := Function.update state.responses sid entries.2

theorem assign_self (state : Http2ServerSession) (sid : Int) :
    state.assign sid (state.streams sid, state.responses sid) = state := by
  simp only [Http2ServerSession.assign, Function.update_eq_self]

/-- What a step answers, and the entries that it leaves, come from the entries of one stream. -/
def Local (sid : Int) (step : Http2ServerSession → List (Int × Answer) × Http2ServerSession) :
    Prop :=
  ∃ f : Option Http2ServerStream → Option BodySource →
      List Answer × Option Http2ServerStream × Option BodySource,
    ∀ state, step state = ((f (state.streams sid) (state.responses sid)).1.map (Prod.mk sid),
      state.assign sid (f (state.streams sid) (state.responses sid)).2)

section Keyed

variable {json : Json} {submitResponse : Int → Int}

theorem local_idle (sid : Int) : Local sid fun state => ([], state) :=
  ⟨fun stream response => ([], stream, response),
    fun state => by rw [assign_self, List.map_nil]⟩

theorem local_submit (sid : Int) :
    Local sid fun state => h2ServerSubmitResponse json submitResponse state sid := by
  refine ⟨fun stream response =>
    match stream with
    | none => ([], none, response)
    | some stream =>
        if stream.responded then ([], some stream, response)
        else
          match makeAppResponse json stream.method stream.path stream.headers stream.body with
          | none => ([.threw], some stream, response)
          | some app =>
              let response := if app.body ≠ [] then some { body := app.body } else response
              if submitResponse sid ≠ 0 then
                ([.refused (submitResponse sid)], some stream, response)
              else
                ([.submitted (responseFields app) (decide (app.body ≠ []))],
                  some { stream with responded := true }, response), fun state => ?_⟩
  simp only [h2ServerSubmitResponse]
  cases here : state.streams sid with
  | none => simp only [Http2ServerSession.assign, ← here, Function.update_eq_self, List.map_nil]
  | some stream =>
      dsimp only
      by_cases responded : stream.responded = true
      · simp only [if_pos responded, Http2ServerSession.assign, ← here, Function.update_eq_self,
          List.map_nil]
      · simp only [if_neg responded]
        cases makeAppResponse json stream.method stream.path stream.headers stream.body with
        | none =>
            simp only [Http2ServerSession.assign, ← here, Function.update_eq_self,
              List.map_singleton]
        | some app =>
            have entry : (if app.body ≠ [] then
                Function.update state.responses sid (some { body := app.body })
              else state.responses) = Function.update state.responses sid
                (if app.body ≠ [] then some { body := app.body } else state.responses sid) := by
              split
              · rfl
              · rw [Function.update_eq_self]
            dsimp only
            rw [entry]
            split
            · simp only [Http2ServerSession.assign, ← here, Function.update_eq_self,
                List.map_singleton]
            · rfl

theorem step_local (json : Json) (submitResponse : Int → Int) (call : Callback) :
    Local call.streamId fun state => (session json submitResponse).step state call := by
  cases call with
  | beginHeaders frame =>
      by_cases request : frame.type = .headers .request
      · refine ⟨fun stream response => ([], some (stream.getD {}), response), fun state => ?_⟩
        simp only [session, onBeginHeaders, if_pos request, Callback.streamId,
          Http2ServerSession.assign, Function.update_eq_self, List.map_nil]
      · simp only [session, onBeginHeaders, if_neg request]
        exact local_idle _
  | header frame name value =>
      by_cases request : frame.type = .headers .request
      · refine ⟨fun stream response => ([], stream.map fun stream => stream.field name value,
          response), fun state => ?_⟩
        simp only [session, onHeader, if_pos request, Callback.streamId,
          Http2ServerSession.assign, Function.update_eq_self, List.map_nil]
      · simp only [session, onHeader, if_neg request]
        exact local_idle _
  | dataChunk sid data =>
      refine ⟨fun stream response => ([], stream.map fun stream =>
        { stream with body := stream.body ++ data }, response), fun state => ?_⟩
      simp only [session, onDataChunk, Callback.streamId, Http2ServerSession.assign,
        Function.update_eq_self, List.map_nil]
  | streamClose sid code => exact ⟨fun _ _ => ([], none, none), fun state => rfl⟩
  | dataRead sid length =>
      refine ⟨fun stream response =>
        match response with
        | none => ([.dangling], stream, none)
        | some payload => ([.piece (payload.read length).1.1 (payload.read length).1.2], stream,
            some (payload.read length).2), fun state => ?_⟩
      simp only [session, dataRead, Callback.streamId]
      cases here : state.responses sid with
      | none =>
          simp only [Http2ServerSession.assign, ← here, Function.update_eq_self, List.map_singleton]
      | some payload =>
          simp only [Http2ServerSession.assign, Function.update_eq_self, List.map_singleton]
  | frameRecv frame =>
      simp only [session, onFrameRecv, Callback.streamId]
      repeat' split
      all_goals first | exact local_submit _ | exact local_idle _

/-- **A stream is served as if it were alone.** -/
theorem session_keyed : (session json submitResponse).Keyed (session json submitResponse) only
    Callback.streamId Prod.fst where
  outputs state call := by
    obtain ⟨f, steps⟩ := step_local json submitResponse call
    beta_reduce at steps
    rw [steps, steps]
    simp only [only, alone_streams, alone_responses]
  own state call := by
    obtain ⟨f, steps⟩ := step_local json submitResponse call
    beta_reduce at steps
    rw [steps, steps]
    simp only [only, Http2ServerSession.assign, alone_streams, alone_responses,
      update_alone_streams, update_alone_responses, Function.update_self]
    rfl
  others state call sid other := by
    obtain ⟨f, steps⟩ := step_local json submitResponse call
    beta_reduce at steps
    rw [steps]
    simp only [only, Http2ServerSession.assign, Function.update_of_ne other]
  signed state call output mem := by
    obtain ⟨f, steps⟩ := step_local json submitResponse call
    beta_reduce at steps
    rw [steps] at mem
    obtain ⟨answer, -, rfl⟩ := List.mem_map.mp mem
    rfl

end Keyed

/-! ## One request -/

/-- The stream behind these fields. -/
def Http2ServerStream.fields (stream : Http2ServerStream) (fields : List (Bytes × Bytes)) :
    Http2ServerStream :=
  fields.foldl (fun stream field => stream.field field.1 field.2) stream

/-- What a complete request has been collected to. -/
def requestOf (fields : List (Bytes × Bytes)) (body : Bytes) : Http2ServerStream :=
  { Http2ServerStream.fields {} fields with body }

/-- What a request is answered. -/
def answerOf (json : Json) (request : Http2ServerStream) : Option AppResponse :=
  makeAppResponse json request.method request.path request.headers request.body

section Request

variable {json : Json} {submitResponse : Int → Int} {sid : Int}
variable {stream : Http2ServerStream} {response : Option BodySource}

theorem run_fields (fields : List (Bytes × Bytes)) (endStream : Bool) :
    (session json submitResponse).run (alone sid (some stream) response)
        (fields.map fun field => .header ⟨.headers .request, sid, endStream⟩ field.1 field.2) =
      ([], alone sid (some (stream.fields fields)) response) := by
  induction fields generalizing stream with
  | nil => rfl
  | cons field fields ih =>
      have step : (session json submitResponse).step (alone sid (some stream) response)
          (.header ⟨.headers .request, sid, endStream⟩ field.1 field.2) =
          ([], alone sid (some (stream.field field.1 field.2)) response) := by
        simp only [session, onHeader, if_true, alone_streams, update_alone_streams, Option.map_some]
        rfl
      rw [List.map_cons, Mealy.run_cons, step, ih, List.nil_append]
      rfl

theorem run_chunks (chunks : List Bytes) :
    (session json submitResponse).run (alone sid (some stream) response)
        (chunks.map (.dataChunk sid)) =
      ([], alone sid (some { stream with body := stream.body ++ chunks.flatten }) response) := by
  induction chunks generalizing stream with
  | nil => rw [List.map_nil, Mealy.run_nil, List.flatten_nil, List.append_nil]
  | cons data chunks ih =>
      have step : (session json submitResponse).step (alone sid (some stream) response)
          (.dataChunk sid data) =
          ([], alone sid (some { stream with body := stream.body ++ data }) response) := by
        simp only [session, onDataChunk, alone_streams, update_alone_streams, Option.map_some]
        rfl
      rw [List.map_cons, Mealy.run_cons, step, ih, List.flatten_cons, List.append_assoc,
        List.nil_append]

/-- The last DATA frame has the request answered. -/
theorem run_frames {frames : List (List Bytes)} (some' : frames ≠ []) :
    (session json submitResponse).run (alone sid (some stream) response) (dataFrames sid frames) =
      h2ServerSubmitResponse json submitResponse
        (alone sid (some { stream with body := stream.body ++ frames.flatten.flatten }) response)
        sid := by
  induction frames generalizing stream with
  | nil => exact absurd rfl some'
  | cons chunks rest ih =>
      rw [dataFrames, Mealy.run_append, run_chunks, Mealy.run_cons]
      cases rest with
      | nil =>
          simp only [session, onFrameRecv, dataFrames, Mealy.run_nil, List.flatten_cons,
            List.flatten_nil, List.append_nil, List.nil_append]
          rfl
      | cons next rest =>
          have step : (session json submitResponse).step (alone sid
              (some { stream with body := stream.body ++ chunks.flatten }) response)
              (.frameRecv ⟨.data, sid, (next :: rest).isEmpty⟩) =
              ([], alone sid (some { stream with body := stream.body ++ chunks.flatten })
                response) := rfl
          rw [step, ih (List.cons_ne_nil next rest), List.flatten_cons (l := chunks),
            List.flatten_append, List.append_assoc]
          rfl

/-- The reads hand the body out. -/
theorem run_reads (stream : Option Http2ServerStream) (payload : BodySource)
    (lengths : List Nat) :
    ((session json submitResponse).run (alone sid stream (some payload))
        (lengths.map (.dataRead sid))).1 =
      (payload.pieces lengths).map fun piece => (sid, .piece piece.1 piece.2) := by
  induction lengths generalizing payload with
  | nil => rfl
  | cons length lengths ih =>
      have step : (session json submitResponse).step (alone sid stream (some payload))
          (.dataRead sid length) =
          ([(sid, .piece (payload.read length).1.1 (payload.read length).1.2)],
            alone sid stream (some (payload.read length).2)) := by
        simp only [session, dataRead, alone_responses, update_alone_responses]
        rfl
      rw [List.map_cons, Mealy.run_cons, step, ih]
      rfl

theorem submit_alone {app : AppResponse} (accepted : submitResponse sid = 0)
    (fresh : stream.responded = false) (answer : answerOf json stream = some app) :
    h2ServerSubmitResponse json submitResponse (alone sid (some stream) none) sid =
      ([(sid, .submitted (responseFields app) (decide (app.body ≠ [])))],
        alone sid (some { stream with responded := true })
          (if app.body ≠ [] then some { body := app.body } else none)) := by
  rw [answerOf] at answer
  simp only [h2ServerSubmitResponse, alone_streams, fresh, Bool.false_eq_true, if_false, answer,
    accepted, ne_eq, not_true_eq_false, update_alone_streams, update_alone_responses]
  split
  · rfl
  · rfl

theorem field_kept (stream : Http2ServerStream) (key val : Bytes) :
    (stream.field key val).body = stream.body ∧
      (stream.field key val).responded = stream.responded := by
  unfold Http2ServerStream.field
  repeat' split
  all_goals exact ⟨rfl, rfl⟩

theorem fields_kept (stream : Http2ServerStream) (fields : List (Bytes × Bytes)) :
    (stream.fields fields).body = stream.body ∧
      (stream.fields fields).responded = stream.responded := by
  induction fields generalizing stream with
  | nil => exact ⟨rfl, rfl⟩
  | cons field fields ih =>
      obtain ⟨body, responded⟩ := ih (stream.field field.1 field.2)
      obtain ⟨body', responded'⟩ := field_kept stream field.1 field.2
      exact ⟨body.trans body', responded.trans responded'⟩

theorem run_block (fields : List (Bytes × Bytes)) (endStream : Bool) :
    (session json submitResponse).run {} (headerBlock .request sid fields endStream) =
      if endStream then
        h2ServerSubmitResponse json submitResponse (alone sid (some (requestOf fields [])) none) sid
      else ([], alone sid (some (requestOf fields [])) none) := by
  have begun : (session json submitResponse).step {}
      (.beginHeaders ⟨.headers .request, sid, endStream⟩) = ([], alone sid (some {}) none) := by
    simp only [session, onBeginHeaders, if_true, alone, Function.update_eq_self, Option.getD_none]
  have collected : Http2ServerStream.fields {} fields = requestOf fields [] :=
    congrArg (fun body => { Http2ServerStream.fields {} fields with body })
      (fields_kept {} fields).1
  rw [headerBlock, List.cons_append, Mealy.run_cons, begun, Mealy.run_append, run_fields,
    collected]
  cases endStream with
  | true =>
      simp only [Mealy.run_cons, session, onFrameRecv, if_true, Mealy.run_nil, List.append_nil,
        List.nil_append]
  | false => rfl

/-- **A complete request** is answered once, as the server answers any request. -/
theorem request_run {fields : List (Bytes × Bytes)} {pieces : Option (List (Bytes × Bool))}
    {own : List Callback} {app : AppResponse} (accepted : submitResponse sid = 0)
    (carried : Carried .request sid fields pieces own)
    (answer : answerOf json (requestOf fields (joined (pieces.getD []))) = some app) :
    (session json submitResponse).run {} own =
      ([(sid, .submitted (responseFields app) (decide (app.body ≠ [])))],
        alone sid (some { requestOf fields (joined (pieces.getD [])) with responded := true })
          (if app.body ≠ [] then some { body := app.body } else none)) := by
  have fresh (body : Bytes) : (requestOf fields body).responded = false :=
    (fields_kept {} fields).2
  cases carried with
  | headersOnly =>
      rw [run_block, if_pos rfl]
      exact submit_alone accepted (fresh []) answer
  | @withBody pieces frames _ some' same =>
      rw [Mealy.run_append, run_block, if_neg Bool.false_ne_true, run_frames some', same]
      exact submit_alone accepted (fresh (joined pieces)) answer

theorem quiet_idle (state : Http2ServerSession) (call : Callback) (quiet : (!call.quiet) = false) :
    (session json submitResponse).step state call = ([], state) := by
  cases call with
  | frameRecv frame =>
      have other : frame.type = .other := by simpa [Callback.quiet] using quiet
      simp only [session, onFrameRecv, other]
      rfl
  | beginHeaders frame | header frame name value | dataChunk sid data | dataRead sid length
  | streamClose sid code => cases quiet

/-- What comes from a stream in any run is what it would alone. -/
theorem outputs_alone (json : Json) (submitResponse : Int → Int) (sid : Int)
    (calls : List Callback) :
    ((session json submitResponse).run {} calls).1.filter (fun output => output.1 = sid) =
      ((session json submitResponse).run {} (calls.filter (Callback.concerns sid))).1 := by
  have mine := session_keyed.run_outputs (m := session json submitResponse) sid {} calls
  have split : calls.filter (Callback.concerns sid) =
      (calls.filter fun call => call.streamId = sid).filter fun call => !call.quiet := by
    rw [List.filter_filter]
    exact List.filter_congr fun call _ => Bool.and_comm _ _
  rw [mine, only_empty, split, Mealy.run_filter quiet_idle]

/-- How the calls for a stream may end. -/
def Closing (sid : Int) (closing : List Callback) : Prop :=
  closing = [] ∨ ∃ code, closing = [.streamClose sid code]

theorem run_closing {closing : List Callback} (ends : Closing sid closing)
    (state : Http2ServerSession) : ((session json submitResponse).run state closing).1 = [] := by
  rcases ends with rfl | ⟨code, rfl⟩
  · rfl
  · rfl

/-- A complete request has been answered, whatever comes behind it. -/
theorem stream_submitted {fields : List (Bytes × Bytes)} {pieces : Option (List (Bytes × Bool))}
    {own later calls : List Callback} {app : AppResponse} (accepted : submitResponse sid = 0)
    (carried : Carried .request sid fields pieces own)
    (answer : answerOf json (requestOf fields (joined (pieces.getD []))) = some app)
    (mine : calls.filter (Callback.concerns sid) = own ++ later) :
    (sid, .submitted (responseFields app) (decide (app.body ≠ []))) ∈
      ((session json submitResponse).run {} calls).1 := by
  have outputs := outputs_alone json submitResponse sid calls
  rw [mine, Mealy.run_append, request_run accepted carried answer] at outputs
  refine List.mem_of_mem_filter (p := fun output => output.1 = sid) ?_
  rw [outputs]
  exact List.mem_cons_self

/-- **A complete request among any others**: one response, and behind it the body, in the pieces
in which nghttp2 has asked for it. -/
theorem stream_answered {fields : List (Bytes × Bytes)} {pieces : Option (List (Bytes × Bool))}
    {own calls closing : List Callback} {lengths : List Nat} {app : AppResponse}
    (accepted : submitResponse sid = 0) (carried : Carried .request sid fields pieces own)
    (answer : answerOf json (requestOf fields (joined (pieces.getD []))) = some app)
    (asked : app.body = [] → lengths = []) (ends : Closing sid closing)
    (mine : calls.filter (Callback.concerns sid) =
      own ++ (lengths.map (.dataRead sid) ++ closing)) :
    ((session json submitResponse).run {} calls).1.filter (fun output => output.1 = sid) =
      (sid, .submitted (responseFields app) (decide (app.body ≠ []))) ::
        (BodySource.pieces { body := app.body } lengths).map fun piece =>
          (sid, .piece piece.1 piece.2) := by
  rw [outputs_alone, mine, Mealy.run_append, request_run accepted carried answer,
    Mealy.run_append, run_closing ends, List.append_nil]
  by_cases empty : app.body = []
  · rw [asked empty]
    rfl
  · rw [if_pos empty, run_reads]
    rfl

end Request

/-! ## A connection -/

/-- All calls that nghttp2 makes in a connection. -/
def Connection.calls (connection : Connection) (initialData : Bytes) : List Callback :=
  connection.settings.calls ++ ((if initialData = [] then [] else connection.initial.all) ++
    connection.turns.flatMap Turn.all)

/-- Nothing fails in the connection. -/
structure Connection.Fine (connection : Connection) : Prop where
  created : connection.created = true
  settings : connection.settings.sendBuffer ≠ [] → 0 < connection.settings.sent
  consumed : 0 ≤ connection.initial.consumed
  flushed : connection.initial.flush.ok = true
  turns : ∀ turn ∈ connection.turns, turn.Fine

theorem handleHttp2Connection_calls {json : Json} {submitResponse : Int → Int}
    {connection : Connection} (fine : connection.Fine) (initialData : Bytes) :
    handleHttp2Connection json submitResponse connection initialData =
      (session json submitResponse).run {} (connection.calls initialData) := by
  have settled : ¬ (connection.settings.rv = 0 ∧ connection.settings.sendBuffer ≠ [] ∧
      connection.settings.sent ≤ 0) := fun ⟨_, some', failed⟩ => by
    have := fine.settings some'
    omega
  unfold handleHttp2Connection
  rw [if_pos fine.created]
  dsimp only
  rw [if_neg settled, Connection.calls, Mealy.run_append, Mealy.run_append]
  have begun : Turn.Fine { connection.initial with received := 1 } :=
    ⟨Int.one_pos, fine.consumed, fine.flushed⟩
  obtain ⟨taken, left, whole, run, ends⟩ := pump_calls (m := session json submitResponse)
    (fun _ => true) fine.turns
    (if initialData = [] then ((session json submitResponse).run {} connection.settings.calls).2
      else ((session json submitResponse).run
        ((session json submitResponse).run {} connection.settings.calls).2
        connection.initial.all).2)
  have all : connection.turns.flatMap Turn.all = taken := by
    rw [whole, ends.resolve_right Bool.noConfusion, List.append_nil]
  rw [all]
  by_cases fresh : initialData = []
  · simp only [if_pos fresh] at run ⊢
    rw [run]
    rfl
  · simp only [if_neg fresh] at run ⊢
    have same : ({ connection.initial with received := 1 } : Turn).all =
        connection.initial.all := rfl
    rw [takeTurn_fine begun, same]
    dsimp only
    rw [if_pos rfl, run]

end CoWq.Http2Server
