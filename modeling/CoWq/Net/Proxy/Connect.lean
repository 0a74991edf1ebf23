import CoWq.Net.Proxy.Tunnel
import CoWq.Net.WebSocket.Accept

/-!
# CONNECT through the proxy

`handle_proxy_connection` receives a request into a buffer of 4096 bytes and hands every chunk to
llhttp.  Behind a `CONNECT` request it connects to the target, answers, and runs the tunnel over the
two sockets.

* `receiveHead`: the receive loop; `handleProxyConnection`: from there to the tunnel.
* `ConnectHead`: a `CONNECT` request at whose end llhttp pauses.
* `Transparent`: each end has received what the other one sent.
* `transparent_iff`: exactly when a tunnel is; `tunnel_loses` has the two cases in which it is not.
-/

namespace CoWq.HttpProxy

open WebSocket.Accept (Llhttp Callback Errno ascii)

/-! ## The request -/

/-- What the `CONNECT` branch uses of `HttpProxyContext`. -/
structure HttpProxyContext where
  method : Bytes := []
  url : Bytes := []
  messageComplete : Bool := false

/-- The callbacks `on_message_begin`, `on_method`, `on_url` and `on_message_complete`. -/
def HttpProxyContext.on (ctx : HttpProxyContext) : Callback → HttpProxyContext
  | .messageBegin => {}
  | .method data => { ctx with method := ctx.method ++ data }
  | .url data => { ctx with url := ctx.url ++ data }
  | .messageComplete => { ctx with messageComplete := true }
  | .headerField _ | .headerValue _ | .headerValueComplete | .headersComplete | .body _ => ctx

/-- How the receive loop ends. -/
inductive HeadEnd
  | complete
  | clientClosed
  | parseError (reason : Bytes)
  deriving DecidableEq, Repr

/-- `buffer.size()` of the receive loop -/
def headBufferSize : Nat := 4096

section Code

-- the parser, and the error of `llhttp_finish`
variable (p : Llhttp) (finish : p.State → Option Bytes)

/-- The receive loop. -/
def receiveHead (state : p.State) (ctx : HttpProxyContext) (receivedAnyData : Bool)
    (s : Inbound UInt8) : HeadEnd × HttpProxyContext × Inbound UInt8 :=
  if ctx.messageComplete then (.complete, ctx, s)
  else if (s.recv headBufferSize).1 < 0 then
    (.parseError (ascii "socket read error"), ctx, (s.recv headBufferSize).2.2)
  else if (s.recv headBufferSize).1 = 0 then
    if !receivedAnyData then (.clientClosed, ctx, (s.recv headBufferSize).2.2)
    else
      (.parseError ((finish state).getD (ascii "incomplete request")), ctx,
        (s.recv headBufferSize).2.2)
  else
    match p.execute state (s.recv headBufferSize).2.1 with
    | (calls, none, state) =>
        receiveHead state (calls.foldl HttpProxyContext.on ctx) true (s.recv headBufferSize).2.2
    | (calls, some .pausedUpgrade, _) =>
        (.complete, { calls.foldl HttpProxyContext.on ctx with messageComplete := true },
          (s.recv headBufferSize).2.2)
    | (calls, some (.other name), _) =>
        if name = ascii "HPE_PAUSED" then
          (.complete, { calls.foldl HttpProxyContext.on ctx with messageComplete := true },
            (s.recv headBufferSize).2.2)
        else
          (.parseError name, calls.foldl HttpProxyContext.on ctx, (s.recv headBufferSize).2.2)
termination_by s.pending.length
decreasing_by
  rename_i _ closed _
  have progress : 0 < (s.recv headBufferSize).1 := by omega
  have taken := congrArg List.length (Inbound.recv_taken progress)
  have answer := Inbound.recv_answer progress
  rw [List.length_append] at taken
  omega

/-- `handle_proxy_connection` and `handle_connect` up to the tunnel.  `connects` says of a target
whether it can be parsed, resolved and connected to, and the response sent. -/
def handleProxyConnection (connects : Bytes → Bool) (client upstream : Inbound UInt8) :
    Option Tunnel :=
  match receiveHead p finish p.init {} false client with
  | (.complete, ctx, rest) =>
      if ctx.method = ascii "CONNECT" ∧ connects ctx.url then some (Tunnel.start rest upstream)
      else none
  | _ => none

/-- The connection from its first byte. -/
def proxy (connects : Bytes → Bool) (client upstream : Inbound UInt8) : Machine Tunnel Action where
  init s := handleProxyConnection p finish connects client upstream = some s
  step := Tunnel.step

end Code

/-- What the callbacks make of these bytes. -/
def contextOf (p : Llhttp) (bytes : Bytes) : HttpProxyContext :=
  (p.execute p.init bytes).1.foldl HttpProxyContext.on {}

/-- A `CONNECT` request to a target that can be reached: llhttp goes through it and pauses exactly
at its end. -/
structure ConnectHead (p : Llhttp) (connects : Bytes → Bool) where
  bytes : Bytes
  paused : (p.execute p.init bytes).2.1 = some .pausedUpgrade
  incremental : ∀ bs rest, bytes = bs ++ rest → rest ≠ [] →
    (p.execute p.init bs).2.1 = none ∧ .messageComplete ∉ (p.execute p.init bs).1
  method : (contextOf p bytes).method = ascii "CONNECT"
  target : connects (contextOf p bytes).url = true

/-! ## What the receive loop takes -/

theorem on_incomplete {ctx : HttpProxyContext} {call : Callback}
    (running : ctx.messageComplete = false) (other : call ≠ .messageComplete) :
    (ctx.on call).messageComplete = false := by
  cases call with
  | messageComplete => exact absurd rfl other
  | messageBegin => rfl
  | method | url | headerField | headerValue | headerValueComplete | headersComplete | body =>
      exact running

theorem foldl_incomplete {calls : List Callback} (other : .messageComplete ∉ calls)
    {ctx : HttpProxyContext} (running : ctx.messageComplete = false) :
    (calls.foldl HttpProxyContext.on ctx).messageComplete = false := by
  induction calls generalizing ctx with
  | nil => exact running
  | cons call calls ih =>
      rw [List.mem_cons, not_or] at other
      exact ih other.2 (on_incomplete running (Ne.symm other.1))

section Head

variable {p : Llhttp} {finish : p.State → Option Bytes} {connects : Bytes → Bool}

/-- **The loop takes the chunks up to the one with the end of the request, and what that one holds
behind it.** -/
theorem receiveHead_spec (head : ConnectHead p connects) (received : Bool)
    {before todo tail : Bytes} {s : Inbound UInt8} (whole : head.bytes = before ++ todo)
    (left : todo ≠ []) (here : s.pending = todo ++ tail) :
    ∃ rest extra, receiveHead p finish (p.execute p.init before).2.2 (contextOf p before)
        received s =
          (.complete, { contextOf p head.bytes with messageComplete := true }, rest) ∧
      tail = extra ++ rest.pending ∧ rest.ending = s.ending ∧
      (extra = [] ↔ s.Breaks headBufferSize todo.length) := by
  induction size : todo.length using Nat.strongRecOn generalizing before todo received s with
  | ind n ih =>
      subst size
      have some' := List.length_pos_of_ne_nil left
      have going := (head.incremental before todo whole left).1
      have running : (contextOf p before).messageComplete = false :=
        foldl_incomplete (head.incremental before todo whole left).2 rfl
      have progress : 0 < (s.recv headBufferSize).1 :=
        Inbound.recv_pos (by rw [here]; simp [left]) (by decide)
      have taken := Inbound.recv_taken progress
      have answer := Inbound.recv_answer progress
      have ending := Inbound.recv_ending s headBufferSize
      rw [Inbound.breaks_iff some' progress, receiveHead, running, if_neg Bool.false_ne_true,
        if_neg (by omega), if_neg (by omega)]
      generalize (s.recv headBufferSize).1 = n at progress answer
      generalize (s.recv headBufferSize).2.1 = data at taken answer ⊢
      generalize (s.recv headBufferSize).2.2 = rest at taken ending ⊢
      by_cases last : todo.length ≤ data.length
      · -- the chunk with the end of the request
        obtain ⟨extra, rfl⟩ : todo <+: data :=
          List.prefix_of_prefix_length_le (here ▸ List.prefix_append todo tail)
            (taken ▸ List.prefix_append data rest.pending) last
        have paused : (p.execute (p.execute p.init before).2.2 todo).2.1 = some .pausedUpgrade := by
          have whole' := head.paused
          rw [whole, Llhttp.execute_append going] at whole'
          exact whole'
        have calls : (contextOf p head.bytes) =
            (p.execute (p.execute p.init before).2.2 todo).1.foldl HttpProxyContext.on
              (contextOf p before) := by
          rw [whole, contextOf, contextOf, Llhttp.execute_append going, List.foldl_append]
        rw [Llhttp.execute_stopped paused, calls]
        refine ⟨rest, extra, ?_, ?_, ending, ?_⟩
        · rcases run : p.execute (p.execute p.init before).2.2 todo with ⟨later, err, state⟩
          rw [run] at paused
          simp only at paused
          subst paused
          rfl
        · rw [taken, List.append_assoc] at here
          exact (List.append_cancel_left here).symm
        · rw [List.length_append]
          constructor
          · rintro rfl
            rw [List.length_nil, Nat.add_zero, Nat.sub_self]
            exact ⟨le_refl _, .here⟩
          · rintro ⟨within, -⟩
            exact List.length_eq_zero_iff.mp (by omega)
      · -- a chunk within the request
        obtain ⟨todo, rfl⟩ : data <+: todo :=
          List.prefix_of_prefix_length_le (taken ▸ List.prefix_append data rest.pending)
            (here ▸ List.prefix_append todo tail) (Nat.le_of_not_ge last)
        rw [List.length_append] at last
        have left' : todo ≠ [] := by
          rintro rfl
          simp at last
        have whole' : head.bytes = (before ++ data) ++ todo := by rw [whole, List.append_assoc]
        have onward := (head.incremental (before ++ data) todo whole' left').1
        have both := Llhttp.execute_append going data
        have calls : contextOf p (before ++ data) =
            (p.execute (p.execute p.init before).2.2 data).1.foldl HttpProxyContext.on
              (contextOf p before) := by
          rw [contextOf, contextOf, both, List.foldl_append]
        have here' : rest.pending = todo ++ tail := by
          rw [taken, List.append_assoc] at here
          exact List.append_cancel_left here
        have shorter : todo.length < (data ++ todo).length := by
          rw [List.length_append]
          omega
        obtain ⟨rest', extra, run', cut, ending', breaks⟩ :=
          ih todo.length shorter true whole' left' here' rfl
        refine ⟨rest', extra, ?_, cut, ending'.trans ending, ?_⟩
        · rw [calls, both] at run'
          rw [both] at onward
          rcases run : p.execute (p.execute p.init before).2.2 data with ⟨later, err, state⟩
          rw [run] at onward run'
          simp only at onward run'
          subst onward
          exact run'
        · rw [List.length_append, Nat.add_sub_cancel_left]
          exact ⟨fun none' => ⟨Nat.le_add_right _ _, breaks.mp none'⟩,
            fun within => breaks.mpr within.2⟩

/-- Behind the request the proxy is the tunnel over what the loop has left. -/
theorem proxy_eq (head : ConnectHead p connects) {client : Inbound UInt8} {tail : Bytes}
    (upstream : Inbound UInt8) (here : client.pending = head.bytes ++ tail) :
    ∃ rest extra, proxy p finish connects client upstream = tunnel rest upstream ∧
      tail = extra ++ rest.pending ∧ rest.ending = client.ending ∧
      (extra = [] ↔ client.Breaks headBufferSize head.bytes.length) := by
  have some' : head.bytes ≠ [] := by
    intro none'
    have paused := head.paused
    rw [none'] at paused
    cases paused
  obtain ⟨rest, extra, run, cut, ending, breaks⟩ :=
    @receiveHead_spec p finish connects head false [] _ _ _ rfl some' here
  have opens : handleProxyConnection p finish connects client upstream =
      some (Tunnel.start rest upstream) := by
    rw [handleProxyConnection, show receiveHead p finish p.init {} false client = _ from run]
    exact if_pos ⟨head.method, head.target⟩
  refine ⟨rest, extra, ?_, cut, ending, breaks⟩
  rw [proxy, tunnel, opens]
  congr 1
  funext s
  exact propext ⟨fun same => (Option.some.inj same).symm, fun same => congrArg some same.symm⟩

end Head

/-! ## Transparency -/

/-- The upstream has received what the client sent behind its request, and the client, behind the
response, what the upstream sent. -/
def Transparent (tail up : Bytes) (s : Tunnel) : Prop :=
  (s.sockets .upstream).sent = tail ∧ (s.sockets .client).sent = established ++ up

section Streams

variable {p : Llhttp} {finish : p.State → Option Bytes} {connects : Bytes → Bool}
  {client upstream : Inbound UInt8} {tail : Bytes}

/-- **When the tunnel is transparent.**  A receive ends at the end of the request, and the client's
end of stream, which closes the upstream socket, is looked at when nothing is left to receive from
the upstream.  Every run can be carried to its end. -/
theorem transparent_iff (head : ConnectHead p connects)
    (here : client.pending = head.bytes ++ tail) (orderly : client.ending = 0)
    (orderly' : upstream.ending = 0) {s : Tunnel}
    (run : (proxy p finish connects client upstream).Via Calm s) :
    (s.Done → (Transparent tail upstream.pending s ↔
      client.Breaks headBufferSize head.bytes.length ∧
        (proxy p finish connects client upstream).Via (fun s act => Calm s act ∧ Clean s act) s)) ∧
      ∃ t, (proxy p finish connects client upstream).Leads Calm s t ∧ t.Done := by
  obtain ⟨rest, extra, same, cut, ending, breaks⟩ :=
    @proxy_eq p finish connects head client tail upstream here
  rw [same] at run ⊢
  have restOrderly := ending.trans orderly
  refine ⟨fun done => ?_, leads_done (inv_of_calm restOrderly orderly' run)⟩
  obtain ⟨toUpstream, toClient⟩ := sent_of_done restOrderly orderly' run done
  rw [Transparent, via_clean_iff restOrderly orderly' run done, ← breaks, toUpstream, cut]
  constructor
  · rintro ⟨all, whole⟩
    refine ⟨?_, ?_⟩
    · exact List.append_left_eq_self.mp all.symm
    · rw [whole] at toClient
      exact List.append_right_eq_self.mp toClient
  · rintro ⟨rfl, last⟩
    rw [last, List.append_nil] at toClient
    exact ⟨rfl, toClient⟩

/-- What comes with the end of the request is lost in every run. -/
theorem early_bytes_lost (head : ConnectHead p connects)
    (here : client.pending = head.bytes ++ tail) (orderly : client.ending = 0)
    (orderly' : upstream.ending = 0)
    (early : ¬ client.Breaks headBufferSize head.bytes.length) :
    ∃ s, (proxy p finish connects client upstream).Via Calm s ∧ s.Done ∧
      (s.sockets .upstream).sent ≠ tail := by
  obtain ⟨rest, extra, same, cut, ending, breaks⟩ :=
    @proxy_eq p finish connects head client tail upstream here
  rw [same]
  have start : (tunnel rest upstream).Via Calm (Tunnel.start rest upstream) := .init rfl
  have restOrderly := ending.trans orderly
  obtain ⟨s, later, done⟩ := leads_done (inv_of_calm restOrderly orderly' start)
  have run := start.leads later
  refine ⟨s, run, done, fun all => early (breaks.mp ?_)⟩
  rw [(sent_of_done restOrderly orderly' run done).1, cut] at all
  exact List.append_left_eq_self.mp all.symm

end Streams

/-! ## A request without headers -/

section Example

open WebSocket.Accept (requestLines incremental_of_dropLast)

/-- A request to port 1 of the host `a`. -/
def connectBytes : Bytes := ascii "CONNECT a:1 HTTP/1.1\r\n\r\n"

/-- The parser on the request and on all but its last byte. -/
theorem connect_execute :
    let whole := requestLines.execute requestLines.init connectBytes
    let inside := requestLines.execute requestLines.init connectBytes.dropLast
    whole.2.1 = some .pausedUpgrade ∧ inside.2.1 = none ∧ .messageComplete ∉ inside.1 ∧
      (contextOf requestLines connectBytes).method = ascii "CONNECT" := by
  simp only [connectBytes, WebSocket.Accept.ascii_literal rfl]
  decide +kernel

def connectHead : ConnectHead requestLines fun _ => true where
  bytes := connectBytes
  paused := connect_execute.1
  incremental := incremental_of_dropLast connect_execute.2.1 connect_execute.2.2.1
  method := connect_execute.2.2.2
  target := rfl

/-- A stream in one chunk. -/
def oneChunk (b : UInt8) (more : Bytes) : Inbound UInt8 where
  chunks := [b :: more]
  ending := 0
  positive := by
    intro c mem
    rw [List.mem_singleton.mp mem]
    exact List.cons_ne_nil _ _
  stops := Inbound.orderly_stops

/-- The request alone, and with a byte behind it. -/
def requestOnly : Inbound UInt8 := oneChunk 0x43 connectBytes.tail

def requestAndByte : Inbound UInt8 := oneChunk 0x43 (connectBytes.tail ++ [0x16])

theorem requestAndByte_breaks : ¬ requestAndByte.Breaks headBufferSize connectBytes.length := by
  intro breaks
  exact absurd ((Inbound.breaks_iff (by decide) (by decide)).mp breaks).1 (by decide)

/-- The connection of a client that sends its request and nothing else. -/
def requestOnlyProxy (upstream : Inbound UInt8) : Machine Tunnel Action :=
  proxy requestLines (fun _ => none) (fun _ => true) requestOnly upstream

theorem requestOnlyProxy_init (upstream : Inbound UInt8) :
    (requestOnlyProxy upstream).init (Tunnel.start Inbound.nothing upstream) := by
  show handleProxyConnection _ _ _ _ _ = _
  rw [handleProxyConnection, receiveHead]
  rfl

instance : ∀ (s : Tunnel) (act : Action), Decidable (Calm s act)
  | _, .send _ answer => inferInstanceAs (Decidable (0 < answer))
  | _, .forceShutdown => .isFalse id
  | _, .check _ | _, .recv _ | _, .resume _ | _, .close => .isTrue trivial

/-- The client's end of stream is looked at before the upstream has sent its byte. -/
def endOfClientFirst : List Action :=
  [.check .client, .recv .client, .resume .client, .check .upstream, .recv .upstream,
    .resume .upstream]

/-- The upstream's stream is forwarded first. -/
def upstreamFirst : List Action :=
  [.check .upstream, .recv .upstream, .resume .upstream, .send .upstream 1, .check .upstream,
    .recv .upstream, .resume .upstream, .check .client, .recv .client, .resume .client]

def runFrom (acts : List Action) : Option Tunnel :=
  (requestOnlyProxy (oneChunk 0x78 [])).execOk Calm
    (Tunnel.start Inbound.nothing (oneChunk 0x78 [])) acts

theorem endOfClientFirst_run : ∃ s, (requestOnlyProxy (oneChunk 0x78 [])).Via Calm s ∧ s.Done ∧
    (s.sockets .client).sent = established := by
  obtain ⟨s, run, done, sent⟩ : ∃ s, runFrom endOfClientFirst = some s ∧
      ((s.pipes .client).phase = .finished ∧ (s.pipes .upstream).phase = .finished) ∧
      (s.sockets .client).sent = established := ⟨_, rfl, ⟨rfl, rfl⟩, rfl⟩
  refine ⟨s, .execOk (.init (requestOnlyProxy_init _)) run, fun a => ?_, sent⟩
  cases a with
  | client => exact done.1
  | upstream => exact done.2

theorem upstreamFirst_run : ∃ s, (requestOnlyProxy (oneChunk 0x78 [])).Via Calm s ∧ s.Done ∧
    Transparent [] [0x78] s := by
  obtain ⟨s, run, done, sent⟩ : ∃ s, runFrom upstreamFirst = some s ∧
      ((s.pipes .client).phase = .finished ∧ (s.pipes .upstream).phase = .finished) ∧
      Transparent [] [0x78] s := ⟨_, rfl, ⟨rfl, rfl⟩, rfl, rfl⟩
  refine ⟨s, .execOk (.init (requestOnlyProxy_init _)) run, fun a => ?_, sent⟩
  cases a with
  | client => exact done.1
  | upstream => exact done.2

/-- Of that run the theorem says that its steps were clean. -/
theorem transparent_iff_upstreamFirst :
    ∃ s, (requestOnlyProxy (oneChunk 0x78 [])).Via Calm s ∧ s.Done ∧ Transparent [] [0x78] s ∧
      (requestOnlyProxy (oneChunk 0x78 [])).Via (fun s act => Calm s act ∧ Clean s act) s := by
  obtain ⟨s, run, done, same⟩ := upstreamFirst_run
  exact ⟨s, run, done, same, (((transparent_iff connectHead rfl rfl rfl run).1 done).mp same).2⟩

/-- **A byte in the chunk of the request is lost, and so is what the upstream has not yet sent when
the client half-closes.** -/
theorem tunnel_loses :
    (∃ s, (proxy requestLines (fun _ => none) (fun _ => true) requestAndByte
        Inbound.nothing).Via Calm s ∧ s.Done ∧ ¬ Transparent [0x16] [] s) ∧
      ∃ s, (requestOnlyProxy (oneChunk 0x78 [])).Via Calm s ∧ s.Done ∧
        ¬ Transparent [] [0x78] s := by
  constructor
  · obtain ⟨s, run, done, lost⟩ := @early_bytes_lost requestLines (fun _ => none) _ requestAndByte
      Inbound.nothing [0x16] connectHead rfl rfl rfl requestAndByte_breaks
    exact ⟨s, run, done, fun same => lost same.1⟩
  · obtain ⟨s, run, done, sent⟩ := endOfClientFirst_run
    refine ⟨s, run, done, fun same => ?_⟩
    have both := sent.symm.trans same.2
    exact absurd (List.append_right_eq_self.mp both.symm) (List.cons_ne_nil _ _)

end Example

end CoWq.HttpProxy
