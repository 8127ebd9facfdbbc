import SocksProxy.CliClient
import SocksProxy.OneResponse
import SocksProxy.ResponseFrames

/-!
The command line client and the monitor server, joined by two reliable byte
channels: what one end has received is always the first part of what the other
end has sent.
-/
namespace SocksProxy.ClientServer

open ByteBuffer Runs Auth UserTable Kernel MonProtocol MonFormat AccessReport MonServer MonLoop
  ResponseFrames OneResponse
open CliClient hiding monRead monWrite

/-- Both ends of the connection; `aborted` when the client called abort(). -/
structure Exchange where
  key : ClientKey
  session : MonSession
  aborted : Bool

def exchangeInit (s : Server) (args : ClientArgs) : Exchange where
  key := { client := monClientInit args, interest := .opWrite, sent := [], received := [] }
  session := monPassiveAccept s
  aborted := false

/-- connect() has completed, the client's send or recv returns, or something
happens at the server. -/
inductive ExchangeEvent
  | connected
  | clientSend (w : WriteResult)
  | clientRecv (r : ReadResult)
  | server (e : MonEvent)

/-- The client calls its handler for `i`. -/
def Exchange.Waits (x : Exchange) (i : MonInterest) : Prop :=
  x.aborted = false ∧ x.key.client.finished = false ∧ x.key.interest = i

instance (x : Exchange) (i : MonInterest) : Decidable (x.Waits i) := instDecidableAnd

/-- The handler that runs first looks at the socket's error. -/
def Exchange.isConnecting (x : Exchange) : Prop :=
  x.key.client.current.getD .connecting = .connecting

instance (x : Exchange) : Decidable x.isConnecting := instDecidableEqClientState _ _

/-- The answers to send() that are no error. -/
def MaySend : WriteResult → Prop
  | .accept n => 0 < n
  | .again => True
  | .fail => False

instance : DecidablePred MaySend
  | .accept n => inferInstanceAs (Decidable (0 < n))
  | .again => inferInstanceAs (Decidable True)
  | .fail => inferInstanceAs (Decidable False)

/-- The answers to the client's recv(): what the server has sent, and the end of
file when it has closed and all of that was received. -/
def Exchange.MayRecv (x : Exchange) : ReadResult → Prop
  | .data b rest => x.key.received ++ b :: rest <+: x.session.sent
  | .eof => x.session.closed = true ∧ x.key.received = x.session.sent
  | .again => True
  | .fail => False

instance (x : Exchange) : DecidablePred x.MayRecv
  | .data b rest => inferInstanceAs (Decidable (x.key.received ++ b :: rest <+: x.session.sent))
  | .eof => instDecidableAnd
  | .again => inferInstanceAs (Decidable True)
  | .fail => inferInstanceAs (Decidable False)

/-- What may happen at the server, the same way. -/
def Exchange.MayServe (x : Exchange) : MonEvent → Prop
  | .recv bytes => x.session.received ++ bytes <+: x.key.sent
  | .recvFails => x.key.client.finished = true ∧ x.session.received = x.key.sent
  | .send _ => True
  | .sendFails => False
  | .elsewhere _ => True

instance (x : Exchange) : DecidablePred x.MayServe
  | .recv bytes => inferInstanceAs (Decidable (x.session.received ++ bytes <+: x.key.sent))
  | .recvFails => instDecidableAnd
  | .send _ => inferInstanceAs (Decidable True)
  | .sendFails => inferInstanceAs (Decidable False)
  | .elsewhere _ => inferInstanceAs (Decidable True)

def Exchange.turn (x : Exchange) (sys : ClientSys) : Exchange :=
  match dispatch sys x.key with
  | some k => { x with key := k }
  | none => { x with aborted := true }

/-- `none` when the event cannot happen. -/
def exchangeStep (x : Exchange) : ExchangeEvent → Option Exchange
  | .connected =>
    if x.Waits .opWrite ∧ x.isConnecting then some (x.turn ⟨false, .again, .again⟩) else none
  | .clientSend w =>
    if x.Waits .opWrite ∧ ¬ x.isConnecting ∧ MaySend w then some (x.turn ⟨false, w, .again⟩)
    else none
  | .clientRecv r =>
    if x.Waits .opRead ∧ x.MayRecv r then some (x.turn ⟨false, .again, r⟩) else none
  | .server e =>
    if x.MayServe e then (monStep x.session e).map fun m => { x with session := m } else none

def ExchangeStep (x : Exchange) (e : ExchangeEvent) (x' : Exchange) : Prop :=
  exchangeStep x e = some x'

section Served

/-- Whether the connection is authenticated after these requests. -/
def authenticatedAfter (l : List Served) : Bool :=
  match l.getLast? with
  | some r => r.answer.authenticated
  | none => false

/-- Each request is executed as the one before has left the connection. -/
structure Genuine (m : MonSession) : Prop where
  server_sound : m.server.Sound
  sound : ∀ r ∈ m.served, r.server.Sound
  fits : ∀ r ∈ m.served, r.frame.length ≤ MON_IO_BUF_SIZE
  chained : ∀ i r, m.served[i]? = some r → r.authenticated = authenticatedAfter (m.served.take i)
  authenticated_eq : m.conn.authenticated = authenticatedAfter m.served

theorem genuine_accept {s : Server} (hs : s.Sound) : Genuine (monPassiveAccept s) where
  server_sound := hs
  sound := fun _ h => absurd h List.not_mem_nil
  fits := fun _ h => absurd h List.not_mem_nil
  chained := fun _ _ h => absurd h (by simp [monPassiveAccept])
  authenticated_eq := rfl

theorem genuine_turn {m m' : MonSession} {e : MonEvent} (hg : Genuine m) (h : MonTurn m e m') :
    Genuine m' := by
  obtain ⟨hserver, hsound, hfits, hchained, hauth⟩ := hg
  cases h with
  | more _ _ hauth' _ => exact ⟨hserver, hsound, hfits, hchained, hauth'.trans hauth⟩
  | rejected _ _ hauth' _ _ => exact ⟨hserver, hsound, hfits, hchained, hauth'.trans hauth⟩
  | @answered seen bytes left _ r args hopen hread hcount hargs hdata hsplit ha =>
    have hmem : ∀ q ∈ m'.served, q ∈ m.served ∨ q = r := by
      intro q hq
      rw [ha.served_eq, List.mem_append, List.mem_singleton] at hq
      exact hq
    have hr : r.server.Sound := by
      rw [ha.server_eq]
      exact hserver
    refine ⟨?_, ?_, ?_, ?_, ?_⟩
    · rw [ha.server']
      exact hr.answer _ _ _
    · intro q hq
      rcases hmem q hq with hold | rfl
      · exact hsound q hold
      · exact hr
    · intro q hq
      rcases hmem q hq with hold | rfl
      · exact hfits q hold
      · have hle := bufferReadPtr_length_add_le m'.conn.writeBuffer
        rw [ha.pending_eq, ha.writing.write_limit] at hle
        omega
    · intro i q hq
      rw [ha.served_eq] at hq ⊢
      by_cases hi : i < m.served.length
      · rw [List.getElem?_append_left hi] at hq
        rw [List.take_append_of_le_length (Nat.le_of_lt hi)]
        exact hchained i q hq
      · have hlt := (List.getElem?_eq_some_iff.mp hq).1
        rw [List.length_append, List.length_singleton] at hlt
        have hend : i = m.served.length := by omega
        subst hend
        rw [List.getElem?_append_right (Nat.le_refl _), Nat.sub_self] at hq
        obtain rfl := Option.some.inj hq
        rw [List.take_left, ha.authenticated_eq, hauth]
    · rw [ha.authenticated', ha.served_eq, authenticatedAfter, List.getLast?_concat]
  | wrote _ _ _ _ hw =>
    refine ⟨?_, ?_, ?_, ?_, ?_⟩
    · rw [hw.server_eq]
      exact hserver
    · rw [hw.served_eq]
      exact hsound
    · rw [hw.served_eq]
      exact hfits
    · rw [hw.served_eq]
      exact hchained
    · rw [hw.authenticated_eq, hw.served_eq]
      exact hauth
  | recvFailed => exact ⟨hserver, hsound, hfits, hchained, hauth⟩
  | sendFailed => exact ⟨hserver, hsound, hfits, hchained, hauth⟩
  | elsewhere call => exact ⟨hserver.run call, hsound, hfits, hchained, hauth⟩

end Served

section Answers

variable {args : ClientArgs} {r : Served}

/-- AUTH succeeds just when the user is in the table. -/
theorem auth_answer (hplain : args.Plain) (hcmd : r.request.cmd = MON_CMD_AUTH)
    (hdata : r.request.data = [args.username, args.password]) :
    (r.answer.status = MON_STATUS_OK ↔
      userTableLookup r.server.users args.username args.password = true) ∧
      (r.answer.status = MON_STATUS_OK → r.answer.authenticated = true) := by
  have hname := cString_eq_self (hplain args.username (by simp)).2
  have hpass := cString_eq_self (hplain args.password (by simp)).2
  have hanswer : r.answer =
      if userTableLookup r.server.users args.username args.password then
        ⟨r.server, true, MON_STATUS_OK, []⟩
      else ⟨r.server, r.authenticated, MON_STATUS_AUTH_FAIL, []⟩ := by
    simp only [Served.answer, MonServer.answer, hcmd, hdata, ne_eq, not_true_eq_false, and_false,
      if_false, if_true, hname, hpass]
  cases hlookup : userTableLookup r.server.users args.username args.password with
  | true =>
    rw [hlookup, if_pos rfl] at hanswer
    rw [hanswer]
    simp
  | false =>
    rw [hlookup, if_neg Bool.false_ne_true] at hanswer
    rw [hanswer]
    simp [MON_STATUS_AUTH_FAIL, MON_STATUS_OK]

/-- The payload that answers a command is well formed for the client. -/
theorem command_format (hs : r.server.Sound) (hauth : r.authenticated = true)
    (hcmd : args.command = some (r.request.cmd, r.request.data)) {resp : MonResponse}
    (hbytes : resp.bytes = r.answer.payload) : (formatPayload args resp).2 = true := by
  unfold ClientArgs.command at hcmd
  unfold formatPayload
  unfold Served.answer at hbytes
  rw [hauth] at hbytes
  cases hsel : args.cmd with
  | none => simp [hsel] at hcmd
  | metrics =>
    simp only [hsel, Option.some.injEq, Prod.mk.injEq] at hcmd
    rw [← hcmd.1, answer_metrics] at hbytes
    have hslice := @MonResponse.slice_eq resp (by
      rw [hbytes]
      simp [metricsPayload, BigEndian.putBe])
    dsimp only
    rw [hslice, hbytes]
    simp only [metricsPayload, monFormatMetrics_counters]
  | listUsers =>
    simp only [hsel, Option.some.injEq, Prod.mk.injEq] at hcmd
    rw [← hcmd.1, answer_list] at hbytes
    have hslice := @MonResponse.slice_eq resp (by rw [hbytes]; simp [usersPayload])
    dsimp only
    rw [hslice, hbytes]
    simp only [usersPayload_format hs]
  | accessLog =>
    simp only [hsel, Option.some.injEq, Prod.mk.injEq] at hcmd
    rw [← hcmd.1, answer_log] at hbytes
    obtain ⟨hne, rows, hrows⟩ := logPayload_format hs
    have hslice := @MonResponse.slice_eq resp (by rw [hbytes]; exact hne)
    dsimp only
    rw [hslice, hbytes]
    simp only [hrows]
  | addUser => rfl
  | delUser => rfl

end Answers

section Stages

variable {args : ClientArgs} {reqs : List WireRequest} {x : Exchange} {n : ℕ} {got : List UInt8}
  {e : MonEvent} {m m' : MonSession}

/-- How many responses the client has had in full. -/
def before (isAuth : Bool) : ℕ := if isAuth then 0 else 1

/-- The client is at its request number `n`, and has received `got` of the response. -/
inductive Stage (args : ClientArgs) (reqs : List WireRequest) : ℕ → List UInt8 → ClientKey → Prop
  | connecting {k : ClientKey} (h : Connecting args k) : Stage args reqs 0 [] k
  | sending {k : ClientKey} (isAuth : Bool)
      (h : Sending args isAuth (stream (reqs.take (before isAuth + 1))) k) :
      Stage args reqs (before isAuth) [] k
  | waiting {k : ClientKey} {got : List UInt8} (isAuth : Bool) (h : Waiting args isAuth got k)
      (hsent : k.sent = stream (reqs.take (before isAuth + 1))) :
      Stage args reqs (before isAuth) got k

/-- Of what the server executed, the client has had the first `n` responses, all
of them OK, and `got` of the next. -/
structure Expects (n : ℕ) (got : List UInt8) (x : Exchange) : Prop where
  received_eq : x.key.received = (x.session.served.take n).flatMap Served.frame ++ got
  count_le : n ≤ x.session.served.length
  short : ∀ r, x.session.served[n]? = some r → got ≠ r.frame
  accepted : ∀ i r, i < n → x.session.served[i]? = some r → r.answer.status = MON_STATUS_OK

/-- The client has not finished. -/
structure Running (args : ClientArgs) (reqs : List WireRequest) (x : Exchange) : Prop where
  not_aborted : x.aborted = false
  to_server : x.session.received <+: x.key.sent
  to_client : x.key.received <+: x.session.sent
  order : InOrder reqs x.session
  genuine : Genuine x.session
  stage : ∃ n got, Stage args reqs n got x.key ∧ Expects n got x

theorem Stage.alive (h : Stage args reqs n got x.key) : Alive args x.key := by
  cases h with
  | connecting h => exact h.alive
  | sending _ h => exact h.alive
  | waiting _ h _ => exact h.alive

theorem Stage.sent (h : Stage args reqs n got x.key) :
    x.key.sent <+: stream (reqs.take (n + 1)) := by
  cases h with
  | connecting h =>
    rw [h.sent_eq]
    exact List.nil_prefix
  | sending _ h => exact ⟨_, h.output⟩
  | waiting _ _ hsent => exact ⟨[], (List.append_nil _).trans hsent⟩

theorem stream_prefix_take (reqs : List WireRequest) (k : ℕ) :
    stream (reqs.take k) <+: stream reqs := ⟨_, (stream_split reqs k).symm⟩

theorem stream_take_lt {k : ℕ} (h : k < reqs.length) :
    (stream (reqs.take k)).length < (stream (reqs.take (k + 1))).length := by
  have hpos : 0 < (reqs[k]).bytes.length := by simp [WireRequest.bytes, monMessage]
  rw [take_succ_of_getElem? (List.getElem?_eq_getElem h), stream, stream, List.flatMap_append,
    List.flatMap_singleton, List.length_append]
  omega

theorem InOrder.upTo (h : InOrder reqs m) : ∃ seen, UpTo reqs m seen := by
  rcases h.phase with ⟨seen, -, hup⟩ | ⟨-, hup⟩
  · exact ⟨seen, hup⟩
  · exact ⟨[], hup⟩

/-- The server is at most one request ahead of what the client has had. -/
theorem Running.served_le (h : Running args reqs x) (hstage : Stage args reqs n got x.key) :
    x.session.served.length ≤ n + 1 := by
  obtain ⟨seen, hup⟩ := InOrder.upTo h.order
  by_contra hlt
  have hcount := hup.count_le
  have hstrict := @stream_take_lt reqs (n + 1) (by omega)
  have hmono := stream_take_mono reqs (show n + 1 + 1 ≤ x.session.served.length by omega)
  have hreceived := congrArg List.length hup.received_eq
  rw [List.length_append] at hreceived
  have hto := h.to_server.length_le
  have hsent := hstage.sent.length_le
  omega

theorem frame_ne_nil (r : Served) : r.frame ≠ [] := by simp [Served.frame, monFrame]

/-- What the client receives next belongs to the response it waits for. -/
theorem Running.response (h : Running args reqs x) (hstage : Stage args reqs n got x.key)
    (hexpects : Expects n got x) {bytes : List UInt8}
    (hpre : x.key.received ++ bytes <+: x.session.sent) :
    (x.session.served.length = n ∧ got ++ bytes = []) ∨
      ∃ r, x.session.served = x.session.served.take n ++ [r] ∧ x.session.served.length = n + 1 ∧
        x.session.served[n]? = some r ∧ got ++ bytes <+: r.frame := by
  have hle := h.served_le hstage
  have hcount := hexpects.count_le
  have hall : x.key.received ++ bytes <+: x.session.served.flatMap Served.frame := by
    rw [← h.order.output]
    exact hpre.trans (List.prefix_append _ _)
  rw [hexpects.received_eq, List.append_assoc] at hall
  by_cases hlast : x.session.served.length = n
  · left
    rw [List.take_of_length_le (Nat.le_of_eq hlast)] at hall
    have hlen := hall.length_le
    rw [List.length_append] at hlen
    exact ⟨hlast, List.length_eq_zero_iff.mp (by omega)⟩
  · right
    have hlt : n < x.session.served.length := by omega
    have hget := List.getElem?_eq_getElem hlt
    have hsplit : x.session.served = x.session.served.take n ++ [x.session.served[n]] := by
      rw [List.take_concat_get' _ _ hlt]
      exact (List.take_of_length_le (by omega)).symm
    refine ⟨_, hsplit, by omega, hget, ?_⟩
    have hframes : x.session.served.flatMap Served.frame =
        (x.session.served.take n).flatMap Served.frame ++ (x.session.served[n]).frame := by
      conv_lhs => rw [hsplit]
      rw [List.flatMap_append, List.flatMap_singleton]
    rw [hframes] at hall
    exact (List.prefix_append_right_inj _).mp hall

theorem Running.got_length (h : Running args reqs x) (hstage : Stage args reqs n got x.key)
    (hexpects : Expects n got x) : got.length ≤ MON_IO_BUF_SIZE := by
  rcases h.response hstage hexpects (by rw [List.append_nil]; exact h.to_client) with
    ⟨-, hnil⟩ | ⟨r, -, -, hget, hpre⟩
  · rw [List.append_nil] at hnil
    rw [hnil]
    exact Nat.zero_le _
  · rw [List.append_nil] at hpre
    exact hpre.length_le.trans (h.genuine.fits r (List.mem_of_getElem? hget))

/-- What a step of the server adds to its input, its output and its requests. -/
structure Adds (m : MonSession) (e : MonEvent) (m' : MonSession) : Prop where
  received : m'.received = m.received ∧ (∀ bytes, e ≠ .recv bytes) ∨
    ∃ bytes, e = .recv bytes ∧ m'.received = m.received ++ bytes
  sent : m.sent <+: m'.sent
  sent_grows : ∀ k, e = .send k → m.sent.length < m'.sent.length
  served : m'.served = m.served ∨
    ∃ r, m'.served = m.served ++ [r] ∧ m.sent = m.served.flatMap Served.frame

theorem adds_turn (hout : Output m) (h : MonTurn m e m') : Adds m e m' := by
  cases h with
  | more => exact ⟨Or.inr ⟨_, rfl, rfl⟩, List.prefix_refl _, fun _ he => by simp at he, Or.inl rfl⟩
  | rejected =>
    exact ⟨Or.inr ⟨_, rfl, rfl⟩, List.prefix_refl _, fun _ he => by simp at he, Or.inl rfl⟩
  | answered _ hread _ _ _ _ ha =>
    refine ⟨Or.inr ⟨_, rfl, ha.received_eq⟩, ?_, fun _ he => by simp at he,
      Or.inr ⟨_, ha.served_eq, ?_⟩⟩
    · exact ⟨[], (List.append_nil _).trans ha.sent_eq.symm⟩
    · rw [Output, hread.ready.1, List.append_nil] at hout
      exact hout
  | wrote _ _ hpos hn hw =>
    refine ⟨Or.inl ⟨hw.received_eq, fun _ he => by simp at he⟩, ?_, ?_, Or.inl hw.served_eq⟩
    · rw [hw.sent_eq]
      exact List.prefix_append _ _
    · intro k _
      rw [hw.sent_eq, List.length_append, List.length_take]
      omega
  | recvFailed =>
    exact ⟨Or.inl ⟨rfl, fun _ he => by simp at he⟩, List.prefix_refl _, fun _ he => by simp at he,
      Or.inl rfl⟩
  | sendFailed =>
    exact ⟨Or.inl ⟨rfl, fun _ he => by simp at he⟩, List.prefix_refl _, fun _ he => by simp at he,
      Or.inl rfl⟩
  | elsewhere =>
    exact ⟨Or.inl ⟨rfl, fun _ he => by simp at he⟩, List.prefix_refl _, fun _ he => by simp at he,
      Or.inl rfl⟩

/-- The client never runs ahead of its request, so a read of the server ends with
it at the latest. -/
theorem Running.endsWithRequest (h : Running args reqs x) (hmay : x.MayServe e) :
    EndsWithRequest reqs x.session e := by
  cases e with
  | recv bytes =>
    obtain ⟨n, got, hstage, hexpects⟩ := h.stage
    obtain ⟨seen, hup⟩ := InOrder.upTo h.order
    intro k _
    have hreceived := congrArg List.length hup.received_eq
    rw [List.length_append] at hreceived
    by_cases hk : k ≤ n
    · left
      have hmono := stream_take_mono reqs (hk.trans hexpects.count_le)
      omega
    · right
      have hmono := stream_take_mono reqs (show n + 1 ≤ k by omega)
      have hlen := (List.IsPrefix.trans hmay hstage.sent).length_le
      rw [List.length_append] at hlen
      omega
  | recvFails => trivial
  | send => trivial
  | sendFails => trivial
  | elsewhere => trivial

theorem Running.noIOError (h : Running args reqs x) (hmay : x.MayServe e) : NoIOError e := by
  obtain ⟨n, got, hstage, -⟩ := h.stage
  have hfinished := hstage.alive.finished
  constructor
  · rintro rfl
    exact absurd (hfinished.symm.trans hmay.1) (by simp)
  · rintro rfl
    exact hmay

/-- The responses that the client waits for are not changed by a new request. -/
theorem Expects.served (h : Expects n got x) (hto : x.key.received <+: x.session.sent)
    {m' : MonSession} (hserved : m'.served = x.session.served ∨
      ∃ r, m'.served = x.session.served ++ [r] ∧
        x.session.sent = x.session.served.flatMap Served.frame) :
    Expects n got { x with session := m' } := by
  rcases hserved with hsame | ⟨r, hmore, hsent⟩
  · refine ⟨?_, ?_, ?_, ?_⟩
    · rw [hsame]
      exact h.received_eq
    · rw [hsame]
      exact h.count_le
    · rw [hsame]
      exact h.short
    · rw [hsame]
      exact h.accepted
  · have hcount := h.count_le
    refine ⟨?_, ?_, ?_, ?_⟩
    · rw [hmore, List.take_append_of_le_length hcount]
      exact h.received_eq
    · rw [hmore, List.length_append]
      omega
    · intro q hq
      rw [hmore] at hq
      by_cases hlt : n < x.session.served.length
      · rw [List.getElem?_append_left hlt] at hq
        exact h.short q hq
      · -- nothing of the new response has been sent
        rw [h.received_eq, hsent, List.take_of_length_le (by omega)] at hto
        have hlen := hto.length_le
        rw [List.length_append] at hlen
        rw [List.length_eq_zero_iff.mp (show got.length = 0 by omega)]
        exact (frame_ne_nil q).symm
    · intro i q hi hq
      rw [hmore, List.getElem?_append_left (by omega)] at hq
      exact h.accepted i q hi hq

/-- A step of the server. -/
theorem Running.server (h : Running args reqs x) (hmay : x.MayServe e)
    (hstep : monStep x.session e = some m') : Running args reqs { x with session := m' } := by
  obtain ⟨n, got, hstage, hexpects⟩ := h.stage
  have hturn := monStep_cases h.order.inPhase (fun _ => h.order.sound) hstep
  have hadds := adds_turn h.order.output hturn
  have hto : m'.received <+: x.key.sent := by
    rcases hadds.received with ⟨hsame, -⟩ | ⟨bytes, rfl, hmore⟩
    · rw [hsame]
      exact h.to_server
    · rw [hmore]
      exact hmay
  have hpre := (hto.trans hstage.sent).trans (stream_prefix_take reqs _)
  exact ⟨h.not_aborted, hto, h.to_client.trans hadds.sent,
    inOrder_turn h.order hturn (h.noIOError hmay) (h.endsWithRequest hmay) hpre,
    genuine_turn h.genuine hturn, n, got, hstage, hexpects.served h.to_client hadds.served⟩

end Stages

section Steps

variable {args : ClientArgs} {x : Exchange}

/-- The two requests of a command line. -/
def authRequest (h : args.Plain) : WireRequest where
  cmd := MON_CMD_AUTH
  args := [args.username, args.password]
  args_count := Nat.le_refl 2
  args_length := by
    intro a ha
    simp only [List.mem_cons, List.not_mem_nil, or_false] at ha
    rcases ha with rfl | rfl
    · exact (h _ (by simp)).1
    · exact (h _ (by simp)).1

def commandRequest (h : args.Plain) {command : UInt8 × List (List UInt8)}
    (hcommand : args.command = some command) : WireRequest where
  cmd := command.1
  args := command.2
  args_count := (h.command_length hcommand).1
  args_length := (h.command_length hcommand).2

/-- How the exchange has ended: what the server executed and the exit code. -/
inductive Outcome (args : ClientArgs) : List Served → ℕ → Prop
  | refused {a : Served}
      (ha : userTableLookup a.server.users args.username args.password = false) :
      Outcome args [a] MON_EXIT_AUTH
  | failed {a c : Served}
      (ha : userTableLookup a.server.users args.username args.password = true)
      (hauth : c.authenticated = true) (hc : c.answer.status ≠ MON_STATUS_OK) :
      Outcome args [a, c] MON_EXIT_CMD
  | succeeded {a c : Served}
      (ha : userTableLookup a.server.users args.username args.password = true)
      (hauth : c.authenticated = true) (hc : c.answer.status = MON_STATUS_OK) :
      Outcome args [a, c] MON_EXIT_OK

/-- The client has finished. -/
structure Over (args : ClientArgs) (reqs : List WireRequest) (x : Exchange) : Prop where
  not_aborted : x.aborted = false
  finished : x.key.client.finished = true
  connectFailed : x.key.client.connectFailed = false
  outcome : Outcome args x.session.served x.key.client.result
  sent_part : x.key.sent <+: stream reqs
  to_client : x.key.received <+: x.session.sent
  drained : x.session.received = x.key.sent
  quiet : x.session.closed = false → ∃ seen, Reading x.session seen
  executed : x.session.served.map Served.wire =
    (reqs.take x.session.served.length).map WireRequest.wire
  output : Output x.session
  genuine : Genuine x.session

/-- The response that ends the exchange was the last thing the server had to send. -/
theorem Running.over {reqs : List WireRequest} {n : ℕ} {got bytes : List UInt8} {k' : ClientKey}
    (h : Running args reqs x) (hstage : Stage args reqs n got x.key) (hexpects : Expects n got x)
    {r : Served} (hserved : x.session.served = x.session.served.take n ++ [r])
    (hcount : x.session.served.length = n + 1) (hpre : x.key.received ++ bytes <+: x.session.sent)
    (heq : got ++ bytes = r.frame) {result : ℕ}
    (hexit : Exited { x.key with received := x.key.received ++ bytes } k' result)
    (houtcome : Outcome args x.session.served result) :
    Over args reqs { x with key := k' } := by
  have hframes : x.key.received ++ bytes = x.session.served.flatMap Served.frame := by
    conv_rhs => rw [hserved]
    rw [hexpects.received_eq, List.append_assoc, heq, List.flatMap_append, List.flatMap_singleton]
  have hpending : bufferReadPtr x.session.conn.writeBuffer = [] := by
    have hout := congrArg List.length h.order.output
    have hlen := hpre.length_le
    rw [hframes] at hlen
    rw [List.length_append] at hout
    exact List.length_eq_zero_iff.mp (by omega)
  obtain ⟨seen, hread, hup⟩ : ∃ seen, Reading x.session seen ∧ UpTo reqs x.session seen := by
    rcases h.order.phase with hread | ⟨hwrite, -⟩
    · exact hread
    · exact absurd hpending hwrite.pending
  refine ⟨h.not_aborted, hexit.finished, hexit.connectFailed.trans hstage.alive.connectFailed, ?_, ?_,
    ?_, ?_, fun _ => ⟨seen, hread⟩, hup.executed, h.order.output, h.genuine⟩
  · rw [hexit.result_eq]
    exact houtcome
  · rw [hexit.sent_eq]
    exact hstage.sent.trans (stream_prefix_take reqs _)
  · rw [hexit.received_eq]
    exact hpre
  · rw [hexit.sent_eq]
    have hreceived := hup.received_eq
    rw [hcount] at hreceived
    apply List.IsPrefix.eq_of_length h.to_server
    have hto := h.to_server.length_le
    have hsent := hstage.sent.length_le
    rw [hreceived, List.length_append] at hto ⊢
    exact Nat.le_antisymm hto (hsent.trans (Nat.le_add_right _ _))

/-- Both, in order. -/
def requests (h : args.Plain) {command : UInt8 × List (List UInt8)}
    (hcommand : args.command = some command) : List WireRequest :=
  [authRequest h, commandRequest h hcommand]

section Client

variable (hplain : args.Plain) {command : UInt8 × List (List UInt8)}
  (hcommand : args.command = some command) {x' : Exchange}

theorem stream_auth : stream ((requests hplain hcommand).take (before true + 1)) =
    monMessage MON_CMD_AUTH [args.username, args.password] := by
  change stream [authRequest hplain] = _
  rw [stream, List.flatMap_singleton]
  rfl

theorem stream_command : stream ((requests hplain hcommand).take (before false + 1)) =
    stream ((requests hplain hcommand).take (before true + 1)) ++ monMessage command.1 command.2 := by
  rw [stream_auth]
  change stream [authRequest hplain, commandRequest hplain hcommand] = _
  rw [stream, List.flatMap_cons, List.flatMap_singleton]
  rfl

theorem turn_eq {sys : ClientSys} {k' : ClientKey} (h : dispatch sys x.key = some k') :
    x.turn sys = { x with key := k' } := by
  rw [Exchange.turn, h]

theorem turn_self {sys : ClientSys} (h : dispatch sys x.key = some x.key) : x.turn sys = x :=
  turn_eq h

theorem Running.connected (h : Running args (requests hplain hcommand) x)
    (hwaits : x.Waits .opWrite) (hconnecting : x.isConnecting) :
    Running args (requests hplain hcommand) (x.turn ⟨false, .again, .again⟩) ∧
      x.key.client.current = none ∧ (x.turn ⟨false, .again, .again⟩).key.sent = x.key.sent ∧
      (x.turn ⟨false, .again, .again⟩).key.received = x.key.received := by
  obtain ⟨n, got, hstage, hexpects⟩ := h.stage
  cases hstage with
  | connecting hc =>
    obtain ⟨k', hdispatch, hsending, hsent, hreceived⟩ :=
      @connecting_dispatch args x.key ⟨false, .again, .again⟩ hc hplain rfl
    have hto := h.to_server
    rw [hc.sent_eq] at hto
    rw [← stream_auth hplain hcommand] at hsending
    rw [turn_eq hdispatch]
    refine ⟨⟨h.not_aborted, ?_, ?_, h.order, h.genuine, _, [], .sending true hsending, ?_, ?_, ?_,
      ?_⟩, hc.current_eq, hsent.trans hc.sent_eq.symm, hreceived.trans hc.received_eq.symm⟩
    · change x.session.received <+: k'.sent
      rw [hsent]
      exact hto
    · change k'.received <+: _
      rw [hreceived]
      exact List.nil_prefix
    · exact hreceived.trans (hc.received_eq.symm.trans hexpects.received_eq)
    · exact hexpects.count_le
    · exact hexpects.short
    · exact hexpects.accepted
  | sending isAuth hs =>
    rw [Exchange.isConnecting, hs.current_eq] at hconnecting
    cases isAuth <;> exact absurd hconnecting (by decide)
  | waiting isAuth hw _ => exact absurd (hw.interest_eq.symm.trans hwaits.2.2) (by simp)

theorem Running.clientSend (h : Running args (requests hplain hcommand) x)
    (hwaits : x.Waits .opWrite) (hnot : ¬ x.isConnecting) {w : WriteResult} (hmay : MaySend w) :
    Running args (requests hplain hcommand) (x.turn ⟨false, w, .again⟩) ∧
      ((∃ n, w = .accept n) → x.key.sent.length < (x.turn ⟨false, w, .again⟩).key.sent.length) ∧
      x.key.sent <+: (x.turn ⟨false, w, .again⟩).key.sent ∧
      (x.turn ⟨false, w, .again⟩).key.received = x.key.received := by
  obtain ⟨n, got, hstage, hexpects⟩ := h.stage
  cases hstage with
  | connecting hc =>
    rw [Exchange.isConnecting, hc.current_eq] at hnot
    exact absurd rfl hnot
  | sending isAuth hs =>
    cases w with
    | accept k =>
      obtain ⟨k', hdispatch, hgrow, hpre, hreceived, hnext⟩ :=
        @sending_accept args x.key ⟨false, .accept k, .again⟩ isAuth _ hs k hmay rfl
      have hsent : x.key.sent <+: k'.sent :=
        List.prefix_of_prefix_length_le ⟨_, hs.output⟩ hpre (Nat.le_of_lt hgrow)
      have hexpects' : Expects (before isAuth) [] { x with key := k' } :=
        ⟨hreceived.trans hexpects.received_eq, hexpects.count_le, hexpects.short, hexpects.accepted⟩
      rw [turn_eq hdispatch]
      refine ⟨⟨h.not_aborted, h.to_server.trans hsent, ?_, h.order, h.genuine, _, [], ?_, hexpects'⟩,
        fun _ => hgrow, hsent, hreceived⟩
      · change k'.received <+: _
        rw [hreceived]
        exact h.to_client
      · rcases hnext with hsending | ⟨hwaiting, hall⟩
        · exact .sending isAuth hsending
        · exact .waiting isAuth hwaiting hall
    | again =>
      rw [turn_self (@sending_again args x.key ⟨false, .again, .again⟩ isAuth _ hs rfl)]
      exact ⟨h, fun ⟨n, hn⟩ => by simp at hn, List.prefix_refl _, rfl⟩
    | fail => exact hmay.elim
  | waiting isAuth hw _ => exact absurd (hw.interest_eq.symm.trans hwaits.2.2) (by simp)

/-- What the server executed first is the login of the command line. -/
theorem first_served {a : Served} {l : List Served}
    (hexecuted : (a :: l).map Served.wire =
      ((requests hplain hcommand).take (a :: l).length).map WireRequest.wire) :
    a.request.cmd = MON_CMD_AUTH ∧ a.request.data = [args.username, args.password] ∧
      ∀ c l', l = c :: l' → args.command = some (c.request.cmd, c.request.data) := by
  simp only [requests, List.length_cons, List.take_succ_cons, List.map_cons,
    List.cons.injEq] at hexecuted
  obtain ⟨hauth, hrest⟩ := hexecuted
  refine ⟨congrArg Prod.fst hauth, congrArg Prod.snd hauth, ?_⟩
  rintro c l' rfl
  simp only [List.length_cons, List.take_succ_cons, List.map_cons, List.cons.injEq] at hrest
  exact hcommand.trans (congrArg some hrest.1.symm)

/-- The whole response to the login was received. -/
theorem Running.authAnswered (h : Running args (requests hplain hcommand) x)
    {got bytes : List UInt8} (hstage : Stage args (requests hplain hcommand) 0 got x.key)
    (hw : Waiting args true got x.key)
    (hsent : x.key.sent = stream ((requests hplain hcommand).take (before true + 1)))
    (hexpects : Expects 0 got x) {r : Served} (hserved : x.session.served = [r])
    (hpre : x.key.received ++ bytes <+: x.session.sent) (heq : got ++ bytes = r.frame) {rb : Buffer}
    (hrb : Fresh rb MON_READ_BUF_SIZE) {resp : MonResponse}
    (hstatus : resp.status = r.answer.status) {k k' : ClientKey}
    (hk : k = { x.key with
      client := { x.key.client with readBuffer := rb }, received := x.key.received ++ bytes })
    (hk' : k' = afterEvent (onAuthOk k resp)) :
    (Running args (requests hplain hcommand) { x with key := k' } ∨
      Over args (requests hplain hcommand) { x with key := k' }) ∧
      k'.sent = x.key.sent ∧ k'.received = x.key.received ++ bytes := by
  obtain ⟨seen, hup⟩ := InOrder.upTo h.order
  have hexecuted := hup.executed
  rw [hserved] at hexecuted
  obtain ⟨hcmd, hdata, -⟩ := first_served hplain hcommand hexecuted
  obtain ⟨hlookup, -⟩ := auth_answer hplain hcmd hdata
  subst hk'
  by_cases hok : resp.status = MON_STATUS_OK
  · have halive : Alive args k := by
      subst hk
      exact ⟨hw.alive.args_eq, hw.alive.finished, hw.alive.connectFailed⟩
    obtain ⟨hsending, hsent', hreceived'⟩ := @onAuthOk_accepted args k resp hok halive hplain _ _
      hcommand (by rw [hk]; exact hw.write_fresh) (by rw [hk]; exact hrb)
    have hkey : k.sent = x.key.sent ∧ k.received = x.key.received ++ bytes := by
      subst hk
      exact ⟨rfl, rfl⟩
    rw [hkey.1, hsent, ← stream_command hplain hcommand] at hsending
    refine ⟨Or.inl ⟨h.not_aborted, ?_, ?_, h.order, h.genuine, _, [], .sending false hsending,
      ?_, ?_, ?_, ?_⟩, hsent'.trans hkey.1, hreceived'.trans hkey.2⟩
    · change x.session.received <+: (afterEvent (onAuthOk k resp)).sent
      rw [hsent', hkey.1]
      exact h.to_server
    · change (afterEvent (onAuthOk k resp)).received <+: x.session.sent
      rw [hreceived', hkey.2]
      exact hpre
    · change (afterEvent (onAuthOk k resp)).received =
        (x.session.served.take 1).flatMap Served.frame ++ []
      rw [hreceived', hkey.2, hexpects.received_eq, hserved, List.append_assoc, heq]
      simp
    · change 1 ≤ x.session.served.length
      rw [hserved]
      exact Nat.le_refl 1
    · intro q hq
      rw [hserved] at hq
      exact absurd hq (by simp [before])
    · intro i q hi hq
      obtain rfl : i = 0 := Nat.lt_one_iff.mp hi
      rw [hserved] at hq
      obtain rfl := Option.some.inj hq
      exact hstatus.symm.trans hok
  · have hexit := @onAuthOk_refused k resp hok
    have hlookup' : userTableLookup r.server.users args.username args.password = false := by
      rw [hstatus, hlookup, Bool.not_eq_true] at hok
      exact hok
    subst hk
    refine ⟨Or.inr (h.over hstage hexpects (r := r) ?_ ?_ hpre heq
      ⟨hexit.finished, hexit.connectFailed, hexit.result_eq, hexit.sent_eq, hexit.received_eq⟩ ?_),
      hexit.sent_eq, hexit.received_eq⟩
    · rw [hserved]
      rfl
    · rw [hserved]
      rfl
    · rw [hserved]
      exact .refused hlookup'

/-- The whole response to the command was received. -/
theorem Running.commandAnswered (h : Running args (requests hplain hcommand) x)
    {got bytes : List UInt8} (hstage : Stage args (requests hplain hcommand) 1 got x.key)
    (hw : Waiting args false got x.key) (hexpects : Expects 1 got x) {a c : Served}
    (hserved : x.session.served = [a, c])
    (hpre : x.key.received ++ bytes <+: x.session.sent) (heq : got ++ bytes = c.frame) {rb : Buffer}
    {resp : MonResponse} (hstatus : resp.status = c.answer.status)
    (hbytes : resp.bytes = c.answer.payload) {k k' : ClientKey}
    (hk : k = { x.key with
      client := { x.key.client with readBuffer := rb }, received := x.key.received ++ bytes })
    (hk' : k' = afterEvent (onCmdOk k resp)) :
    Over args (requests hplain hcommand) { x with key := k' } ∧
      k'.sent = x.key.sent ∧ k'.received = x.key.received ++ bytes := by
  obtain ⟨seen, hup⟩ := InOrder.upTo h.order
  have hexecuted := hup.executed
  rw [hserved] at hexecuted
  obtain ⟨hcmd, hdata, hsecond⟩ := first_served hplain hcommand hexecuted
  obtain ⟨hlookup, hauthenticated⟩ := auth_answer hplain hcmd hdata
  have haccepted : a.answer.status = MON_STATUS_OK :=
    hexpects.accepted 0 a Nat.zero_lt_one (by rw [hserved]; rfl)
  have hauth : c.authenticated = true := by
    rw [h.genuine.chained 1 c (by rw [hserved]; rfl), hserved]
    exact hauthenticated haccepted
  have hargs : k.client.args = args := by
    subst hk
    exact hw.alive.args_eq
  subst hk'
  obtain ⟨result, hexit, houtcome⟩ : ∃ result, Exited k (afterEvent (onCmdOk k resp)) result ∧
      Outcome args [a, c] result := by
    by_cases hok : resp.status = MON_STATUS_OK
    · refine ⟨_, onCmdOk_accepted hok ?_, .succeeded (hlookup.mp haccepted) hauth ?_⟩
      · rw [hargs]
        exact command_format (h.genuine.sound c (by rw [hserved]; simp)) hauth
          (hsecond c [] rfl) hbytes
      · exact hstatus.symm.trans hok
    · refine ⟨_, onCmdOk_refused hok, .failed (hlookup.mp haccepted) hauth ?_⟩
      rw [← hstatus]
      exact hok
  subst hk
  refine ⟨h.over hstage hexpects (r := c) ?_ ?_ hpre heq
    ⟨hexit.finished, hexit.connectFailed, hexit.result_eq, hexit.sent_eq, hexit.received_eq⟩ ?_,
    hexit.sent_eq, hexit.received_eq⟩
  · rw [hserved]
    rfl
  · rw [hserved]
    rfl
  · rw [hserved]
    exact houtcome

theorem Running.clientRecv (h : Running args (requests hplain hcommand) x)
    (hwaits : x.Waits .opRead) {r : ReadResult} (hmay : x.MayRecv r) :
    (Running args (requests hplain hcommand) (x.turn ⟨false, .again, r⟩) ∨
      Over args (requests hplain hcommand) (x.turn ⟨false, .again, r⟩)) ∧
      (∀ b rest, r = .data b rest →
        x.key.received.length < (x.turn ⟨false, .again, r⟩).key.received.length) ∧
      (x.turn ⟨false, .again, r⟩).key.sent = x.key.sent ∧
      x.key.received <+: (x.turn ⟨false, .again, r⟩).key.received := by
  obtain ⟨n, got, hstage, hexpects⟩ := h.stage
  have hsize : MON_IO_BUF_SIZE < MON_READ_BUF_SIZE := by decide
  have hgot := h.got_length hstage hexpects
  have hstage' := hstage
  cases hstage with
  | connecting hc => exact absurd (hc.interest_eq.symm.trans hwaits.2.2) (by simp)
  | sending isAuth hs => exact absurd (hs.interest_eq.symm.trans hwaits.2.2) (by simp)
  | waiting isAuth hw hsent =>
    cases r with
    | again =>
      rw [turn_self (@waiting_again args x.key ⟨false, .again, .again⟩ isAuth _ hw (by omega) rfl)]
      exact ⟨Or.inl h, fun _ _ hr => by simp at hr, rfl, List.prefix_refl _⟩
    | fail => exact hmay.elim
    | eof => exact absurd (h.order.alive.symm.trans hmay.1) (by simp)
    | data b rest =>
      have hroom := hw.room_eq
      generalize hbytes : (b :: rest).take (bufferWritePtr x.key.client.readBuffer) = bytes
      have hsome : bytes ≠ [] := by
        rw [← hbytes, ← List.length_pos_iff, List.length_take, List.length_cons]
        omega
      have hpre : x.key.received ++ bytes <+: x.session.sent := by
        refine List.IsPrefix.trans ?_ hmay
        rw [← hbytes]
        exact (List.prefix_append_right_inj _).mpr (List.take_prefix _ _)
      have hpos := List.length_pos_iff.mpr hsome
      rcases h.response hstage' hexpects hpre with ⟨-, hnil⟩ | ⟨q, hserved, hcount, hget, hframe⟩
      · exact absurd (List.append_eq_nil_iff.mp hnil).2 hsome
      · have hfit := h.genuine.fits q (List.mem_of_getElem? hget)
        have hlen : q.answer.payload.length < 65536 := by
          rw [Served.frame, monFrame_length] at hfit
          unfold MON_IO_BUF_SIZE at hfit
          omega
        by_cases hwhole : got ++ bytes = q.frame
        · obtain ⟨rb, resp, hfresh, hstatus, hpayload, hdispatch⟩ :=
            @waiting_whole args x.key ⟨false, .again, .data b rest⟩ isAuth got bytes hw _ _ hlen b rest
              rfl hbytes hsome hwhole
          obtain ⟨hover, hsent', hreceived'⟩ :
              (Running args (requests hplain hcommand) (x.turn ⟨false, .again, .data b rest⟩) ∨
                Over args (requests hplain hcommand) (x.turn ⟨false, .again, .data b rest⟩)) ∧
              (x.turn ⟨false, .again, .data b rest⟩).key.sent = x.key.sent ∧
              (x.turn ⟨false, .again, .data b rest⟩).key.received = x.key.received ++ bytes := by
            rw [turn_eq hdispatch]
            cases isAuth with
            | true =>
              exact h.authAnswered hplain hcommand hstage' hw hsent hexpects hserved hpre hwhole
                hfresh hstatus rfl rfl
            | false =>
              obtain ⟨a, ha⟩ : ∃ a, x.session.served.take (before false) = [a] := by
                apply List.length_eq_one_iff.mp
                rw [List.length_take, hcount]
                rfl
              rw [ha] at hserved
              exact And.imp_left Or.inr (h.commandAnswered hplain hcommand hstage' hw hexpects hserved
                hpre hwhole hstatus hpayload rfl rfl)
          refine ⟨hover, fun _ _ _ => ?_, hsent', ?_⟩
          · rw [hreceived', List.length_append]
            omega
          · rw [hreceived']
            exact List.prefix_append _ _
        · obtain ⟨k', hdispatch, hwaiting, hsent', hreceived'⟩ :=
            @waiting_more args x.key ⟨false, .again, .data b rest⟩ isAuth got bytes hw _ _ hlen b rest
              rfl hbytes hsome hframe hwhole
          rw [turn_eq hdispatch]
          refine ⟨Or.inl ⟨h.not_aborted, ?_, ?_, h.order, h.genuine, _, _,
            .waiting isAuth hwaiting (hsent'.trans hsent), ?_, hexpects.count_le, ?_,
            hexpects.accepted⟩, fun _ _ _ => ?_, hsent', ?_⟩
          · change x.session.received <+: k'.sent
            rw [hsent']
            exact h.to_server
          · change k'.received <+: x.session.sent
            rw [hreceived']
            exact hpre
          · change k'.received = _
            rw [hreceived', hexpects.received_eq, List.append_assoc]
          · intro q' hq'
            obtain rfl := Option.some.inj (hget.symm.trans hq')
            exact hwhole
          · change x.key.received.length < k'.received.length
            rw [hreceived', List.length_append]
            omega
          · change x.key.received <+: k'.received
            rw [hreceived']
            exact List.prefix_append _ _

end Client

end Steps

section Runs

variable {args : ClientArgs} (hplain : args.Plain) {command : UInt8 × List (List UInt8)}
  (hcommand : args.command = some command) {x x' : Exchange} {e : ExchangeEvent}

/-- How far the exchange has come: whether the client is connected, and the bytes
that were sent and received. -/
def Exchange.work (x : Exchange) : ℕ :=
  x.key.client.current.isSome.toNat + x.key.sent.length + x.key.received.length +
    x.session.received.length + x.session.sent.length

/-- The events that carry the exchange on: a connection, or bytes taken or given. -/
def ExchangeEvent.moves : ExchangeEvent → Bool
  | .connected => true
  | .clientSend (.accept _) => true
  | .clientRecv (.data _ _) => true
  | .server (.recv _) => true
  | .server (.send _) => true
  | _ => false

theorem turn_current {sys : ClientSys} (h : (x.turn sys).aborted = false) :
    (x.turn sys).key.client.current.isSome = true := by
  unfold Exchange.turn at h ⊢
  split at h
  next k hk =>
    unfold dispatch CliClient.monRead CliClient.monWrite at hk
    have hafter : ∃ r, k = afterEvent r := by
      split at hk
      all_goals
        obtain ⟨r, -, hr⟩ := Option.map_eq_some_iff.mp hk
        exact ⟨r, hr.symm⟩
    obtain ⟨r, rfl⟩ := hafter
    dsimp only
    unfold afterEvent
    dsimp only
    split <;> rfl
  next => exact absurd h (by simp)

theorem turn_session {sys : ClientSys} : (x.turn sys).session = x.session := by
  unfold Exchange.turn
  split <;> rfl

theorem server_work {m' : MonSession} {ev : MonEvent} (hstep : monStep x.session ev = some m')
    (hadds : Adds x.session ev m') :
    x.work + (ExchangeEvent.server ev).moves.toNat ≤ ({ x with session := m' } : Exchange).work := by
  have hsent := hadds.sent.length_le
  unfold Exchange.work
  rcases hadds.received with ⟨hsame, hnot⟩ | ⟨bytes, rfl, hmore⟩
  · cases ev with
    | recv bytes => exact absurd rfl (hnot bytes)
    | send k =>
      have hgrow := hadds.sent_grows k rfl
      simp only [ExchangeEvent.moves, Bool.toNat_true, hsame]
      omega
    | recvFails => simp only [ExchangeEvent.moves, Bool.toNat_false, hsame]; omega
    | sendFails => simp only [ExchangeEvent.moves, Bool.toNat_false, hsame]; omega
    | elsewhere => simp only [ExchangeEvent.moves, Bool.toNat_false, hsame]; omega
  · have hne : bytes ≠ [] := by
      simp only [monStep] at hstep
      split at hstep
      next hcan => exact hcan.1.2.2
      next => exact absurd hstep (by simp)
    have hpos := List.length_pos_iff.mpr hne
    simp only [ExchangeEvent.moves, Bool.toNat_true, hmore, List.length_append]
    omega

/-- What a step makes of an unfinished exchange. -/
theorem step_running (h : Running args (requests hplain hcommand) x) (hstep : ExchangeStep x e x') :
    (Running args (requests hplain hcommand) x' ∨ Over args (requests hplain hcommand) x') ∧
      x.work + e.moves.toNat ≤ x'.work := by
  cases e with
  | connected =>
    simp only [ExchangeStep, exchangeStep] at hstep
    split at hstep
    next hcan =>
      obtain rfl := Option.some.inj hstep
      obtain ⟨hnext, hnone, hsent, hreceived⟩ := h.connected hplain hcommand hcan.1 hcan.2
      refine ⟨Or.inl hnext, ?_⟩
      have hcurrent := turn_current hnext.not_aborted
      unfold Exchange.work
      rw [hcurrent, hnone, hsent, hreceived, turn_session]
      simp only [ExchangeEvent.moves, Option.isSome_none, Bool.toNat_true, Bool.toNat_false]
      omega
    next => exact absurd hstep (by simp)
  | clientSend w =>
    simp only [ExchangeStep, exchangeStep] at hstep
    split at hstep
    next hcan =>
      obtain rfl := Option.some.inj hstep
      obtain ⟨hnext, hgrow, hpre, hreceived⟩ :=
        h.clientSend hplain hcommand hcan.1 hcan.2.1 hcan.2.2
      refine ⟨Or.inl hnext, ?_⟩
      have hcurrent := turn_current hnext.not_aborted
      have hle := Bool.toNat_le x.key.client.current.isSome
      have hlen := hpre.length_le
      unfold Exchange.work
      rw [hcurrent, hreceived, turn_session, Bool.toNat_true]
      cases w with
      | accept k =>
        have hlt := hgrow ⟨k, rfl⟩
        simp only [ExchangeEvent.moves, Bool.toNat_true]
        omega
      | again => simp only [ExchangeEvent.moves, Bool.toNat_false]; omega
      | fail => exact hcan.2.2.elim
    next => exact absurd hstep (by simp)
  | clientRecv r =>
    simp only [ExchangeStep, exchangeStep] at hstep
    split at hstep
    next hcan =>
      obtain rfl := Option.some.inj hstep
      obtain ⟨hnext, hgrow, hsent, hpre⟩ := h.clientRecv hplain hcommand hcan.1 hcan.2
      refine ⟨hnext, ?_⟩
      have haborted : (x.turn ⟨false, .again, r⟩).aborted = false := by
        rcases hnext with hrunning | hover
        · exact hrunning.not_aborted
        · exact hover.not_aborted
      have hcurrent := turn_current haborted
      have hle := Bool.toNat_le x.key.client.current.isSome
      have hlen := hpre.length_le
      unfold Exchange.work
      rw [hcurrent, hsent, turn_session, Bool.toNat_true]
      cases r with
      | data b rest =>
        have hlt := hgrow b rest rfl
        simp only [ExchangeEvent.moves, Bool.toNat_true]
        omega
      | again => simp only [ExchangeEvent.moves, Bool.toNat_false]; omega
      | eof => simp only [ExchangeEvent.moves, Bool.toNat_false]; omega
      | fail => exact hcan.2.elim
    next => exact absurd hstep (by simp)
  | server ev =>
    simp only [ExchangeStep, exchangeStep] at hstep
    split at hstep
    next hcan =>
      obtain ⟨m', hm, rfl⟩ := Option.map_eq_some_iff.mp hstep
      have hturn := monStep_cases h.order.inPhase (fun _ => h.order.sound) hm
      exact ⟨Or.inl (h.server hcan hm), server_work hm (adds_turn h.order.output hturn)⟩
    next => exact absurd hstep (by simp)

/-- After the client has finished, the server can only see it close. -/
theorem step_over {reqs : List WireRequest} (h : Over args reqs x) (hstep : ExchangeStep x e x') :
    Over args reqs x' ∧ x.work + e.moves.toNat ≤ x'.work := by
  have hnot : ∀ i, ¬ x.Waits i := fun i hwaits =>
    absurd (h.finished.symm.trans hwaits.2.1) (by simp)
  cases e with
  | connected =>
    simp only [ExchangeStep, exchangeStep, if_neg (fun hcan => hnot _ (And.left hcan))] at hstep
    exact absurd hstep (by simp)
  | clientSend w =>
    simp only [ExchangeStep, exchangeStep, if_neg (fun hcan => hnot _ (And.left hcan))] at hstep
    exact absurd hstep (by simp)
  | clientRecv r =>
    simp only [ExchangeStep, exchangeStep, if_neg (fun hcan => hnot _ (And.left hcan))] at hstep
    exact absurd hstep (by simp)
  | server ev =>
    simp only [ExchangeStep, exchangeStep] at hstep
    split at hstep
    next hcan =>
      obtain ⟨m', hm, rfl⟩ := Option.map_eq_some_iff.mp hstep
      have hphase : InPhase x.session := fun hopen => Or.inl (h.quiet hopen)
      have hturn := monStep_cases hphase (fun _ => h.genuine.server_sound) hm
      have hadds := adds_turn h.output hturn
      refine ⟨?_, server_work hm hadds⟩
      have hgenuine := genuine_turn h.genuine hturn
      have hout := hturn.output h.output
      cases ev with
      | recv bytes =>
        have hlen := (show x.session.received ++ bytes <+: x.key.sent from hcan).length_le
        rw [h.drained, List.length_append] at hlen
        have hnil : bytes = [] := List.length_eq_zero_iff.mp (by omega)
        simp [monStep, hnil] at hm
      | send k =>
        simp only [monStep] at hm
        split at hm
        next hopen =>
          obtain ⟨seen, hread⟩ := h.quiet hopen.1.1
          exact absurd (hread.interest_eq.symm.trans hopen.1.2.1) (by simp)
        next => exact absurd hm (by simp)
      | sendFails => exact hcan.elim
      | recvFails =>
        simp only [monStep] at hm
        split at hm
        next =>
          obtain rfl := Option.some.inj hm
          exact ⟨h.not_aborted, h.finished, h.connectFailed, h.outcome, h.sent_part, h.to_client,
            h.drained, fun hopen => absurd hopen (by simp), h.executed, hout, hgenuine⟩
        next => exact absurd hm (by simp)
      | elsewhere call =>
        obtain rfl := Option.some.inj hm
        refine ⟨h.not_aborted, h.finished, h.connectFailed, h.outcome, h.sent_part, h.to_client,
          h.drained, fun hopen => ?_, h.executed, hout, hgenuine⟩
        obtain ⟨seen, hread⟩ := h.quiet hopen
        exact ⟨seen, hread.1, hread.2, hread.3, hread.4, hread.5⟩
    next => exact absurd hstep (by simp)

/-- An unfinished exchange is not stuck. -/
theorem Running.canMove (h : Running args (requests hplain hcommand) x) :
    ∃ e x', e.moves = true ∧ ExchangeStep x e x' := by
  obtain ⟨n, got, hstage, hexpects⟩ := h.stage
  have hfinished := hstage.alive.finished
  have hstage' := hstage
  cases hstage with
  | connecting hc =>
    refine ⟨.connected, _, rfl, if_pos ⟨⟨h.not_aborted, hfinished, hc.interest_eq⟩, ?_⟩⟩
    rw [Exchange.isConnecting, hc.current_eq]
    rfl
  | sending isAuth hs =>
    refine ⟨.clientSend (.accept 1), _, rfl,
      if_pos ⟨⟨h.not_aborted, hfinished, hs.interest_eq⟩, ?_, Nat.zero_lt_one⟩⟩
    rw [Exchange.isConnecting, hs.current_eq]
    cases isAuth <;> decide
  | waiting isAuth hw hsent =>
    rcases h.order.phase with ⟨seen, hread, hup⟩ | ⟨hwrite, -⟩
    · by_cases hall : x.session.received = x.key.sent
      · -- the server has answered, and what the client lacks of the response can be read
        have hpre : x.session.received <+: stream (requests hplain hcommand) :=
          (h.to_server.trans hstage'.sent).trans (stream_prefix_take _ _)
        have hone := h.order.oneEach hpre
        obtain ⟨hpending, hcaught⟩ := hone.caught_up hread.interest_eq
        have hserved := hcaught (before isAuth + 1) (by cases isAuth <;> simp [before, requests])
          (by rw [hall, hsent])
        have hget := List.getElem?_eq_getElem hserved
        have hout := h.order.output
        rw [Output, hpending, List.append_nil] at hout
        obtain ⟨more, hmore⟩ := h.to_client
        cases more with
        | nil =>
          rcases h.response hstage' hexpects (by rw [List.append_nil]; exact h.to_client) with
            ⟨hlen, -⟩ | ⟨r, hsplit, -, hr, -⟩
          · omega
          · refine absurd ?_ (hexpects.short r hr)
            rw [List.append_nil, hout, hexpects.received_eq] at hmore
            rw [hsplit, List.flatMap_append, List.flatMap_singleton,
              List.take_append_of_le_length (by rw [List.length_take]; omega), List.take_take,
              Nat.min_self] at hmore
            exact List.append_cancel_left hmore
        | cons b rest =>
          refine ⟨.clientRecv (.data b rest), _, rfl,
            if_pos ⟨⟨h.not_aborted, hfinished, hw.interest_eq⟩, ?_⟩⟩
          exact ⟨[], (List.append_nil _).trans hmore⟩
      · -- the server has bytes to read
        obtain ⟨more, hmore⟩ := h.to_server
        cases more with
        | nil => exact absurd ((List.append_nil _).symm.trans hmore) hall
        | cons b rest =>
          have hmay : x.session.received ++ [b] <+: x.key.sent := by
            rw [← hmore]
            exact ⟨rest, by simp⟩
          have hroom := hread.drained.2.1
          have hfit : [b].length ≤ bufferWritePtr x.session.conn.readBuffer := by
            rw [hroom, List.length_singleton]
            unfold MON_IO_BUF_SIZE
            omega
          refine ⟨.server (.recv [b]), { x with session := monRead x.session [b] hfit }, rfl, ?_⟩
          have hserve : x.MayServe (.recv [b]) := hmay
          simp only [ExchangeStep, exchangeStep]
          rw [if_pos hserve, monStep, dif_pos ⟨⟨h.order.alive, hread.interest_eq, by simp⟩, hfit⟩]
          rfl
    · have hpos := List.length_pos_iff.mpr hwrite.pending
      refine ⟨.server (.send 1), { x with session := monWrite x.session 1 hpos }, rfl, ?_⟩
      have hserve : x.MayServe (.send 1) := trivial
      simp only [ExchangeStep, exchangeStep]
      rw [if_pos hserve, monStep,
        dif_pos ⟨⟨h.order.alive, hwrite.interest_eq, Nat.zero_lt_one⟩, hpos⟩]
      rfl

/-- More than any exchange can move. -/
def EXCHANGE_MAX : ℕ := 1 + 2 * (2 * (3 + MON_MAX_ARGS * (1 + MON_MAX_ARG_LEN))) +
  2 * (2 * MON_IO_BUF_SIZE)

theorem work_le (hsent : x.key.sent <+: stream (requests hplain hcommand))
    (hto : x.session.received <+: x.key.sent) (hfrom : x.key.received <+: x.session.sent)
    (hout : Output x.session) (hg : Genuine x.session) (hcount : x.session.served.length ≤ 2) :
    x.work ≤ EXCHANGE_MAX := by
  have hstream : (stream (requests hplain hcommand)).length ≤
      2 * (3 + MON_MAX_ARGS * (1 + MON_MAX_ARG_LEN)) := by
    have hauth := monMessage_length_le (authRequest hplain).cmd (authRequest hplain).args_count
      (authRequest hplain).args_length
    have hcmd := monMessage_length_le (commandRequest hplain hcommand).cmd
      (commandRequest hplain hcommand).args_count (commandRequest hplain hcommand).args_length
    rw [requests, stream, List.flatMap_cons, List.flatMap_singleton, List.length_append]
    unfold WireRequest.bytes
    omega
  have hframes : x.session.sent.length ≤ 2 * MON_IO_BUF_SIZE := by
    have hlen := congrArg List.length hout
    rw [List.length_append, List.length_flatMap] at hlen
    have hsum : (x.session.served.map fun r => r.frame.length).sum ≤
        x.session.served.length * MON_IO_BUF_SIZE := by
      refine (List.sum_le_card_nsmul _ MON_IO_BUF_SIZE ?_).trans (by simp)
      intro k hk
      obtain ⟨r, hr, rfl⟩ := List.mem_map.mp hk
      exact hg.fits r hr
    have hmul := Nat.mul_le_mul_right MON_IO_BUF_SIZE hcount
    omega
  have h₁ := hsent.length_le
  have h₂ := hto.length_le
  have h₃ := hfrom.length_le
  have h₄ := Bool.toNat_le x.key.client.current.isSome
  unfold Exchange.work EXCHANGE_MAX
  omega

/-- The state of an exchange. On the way the server has executed no more than the
login and then the command, and the command only after a login that succeeded; at
the end the exit code says which of them failed. -/
structure Exchanged (args : ClientArgs) (command : UInt8 × List (List UInt8)) (x : Exchange) :
    Prop where
  not_aborted : x.aborted = false
  executed : x.session.served.map Served.wire <+:
    [(MON_CMD_AUTH, [args.username, args.password]), command]
  after_login : ∀ a c, x.session.served = [a, c] →
    userTableLookup a.server.users args.username args.password = true ∧ c.authenticated = true
  exit : x.key.client.finished = true → x.key.client.connectFailed = false ∧
    ∃ a rest, x.session.served = a :: rest ∧
      (userTableLookup a.server.users args.username args.password = false → rest = []) ∧
      (userTableLookup a.server.users args.username args.password = true → ∃ c, rest = [c]) ∧
      (x.key.client.result = MON_EXIT_AUTH ↔
        userTableLookup a.server.users args.username args.password = false) ∧
      (x.key.client.result = MON_EXIT_CMD ↔ ∃ c, rest = [c] ∧ c.answer.status ≠ MON_STATUS_OK) ∧
      (x.key.client.result = MON_EXIT_OK ↔ ∃ c, rest = [c] ∧ c.answer.status = MON_STATUS_OK)

theorem Outcome.exit {l : List Served} {result : ℕ} (h : Outcome args l result) :
    ∃ a rest, l = a :: rest ∧
      (userTableLookup a.server.users args.username args.password = false → rest = []) ∧
      (userTableLookup a.server.users args.username args.password = true → ∃ c, rest = [c]) ∧
      (result = MON_EXIT_AUTH ↔
        userTableLookup a.server.users args.username args.password = false) ∧
      (result = MON_EXIT_CMD ↔ ∃ c, rest = [c] ∧ c.answer.status ≠ MON_STATUS_OK) ∧
      (result = MON_EXIT_OK ↔ ∃ c, rest = [c] ∧ c.answer.status = MON_STATUS_OK) := by
  cases h with
  | @refused a ha => exact ⟨a, [], rfl, by simp [ha, MON_EXIT_AUTH, MON_EXIT_CMD, MON_EXIT_OK]⟩
  | @failed a c ha _ hc =>
    exact ⟨a, [c], rfl, by simp [ha, hc, MON_EXIT_AUTH, MON_EXIT_CMD, MON_EXIT_OK]⟩
  | @succeeded a c ha _ hc =>
    exact ⟨a, [c], rfl, by simp [ha, hc, MON_EXIT_AUTH, MON_EXIT_CMD, MON_EXIT_OK]⟩

theorem executed_part {l : List Served}
    (h : l.map Served.wire = ((requests hplain hcommand).take l.length).map WireRequest.wire) :
    l.map Served.wire <+: [(MON_CMD_AUTH, [args.username, args.password]), command] := by
  have hall : (requests hplain hcommand).map WireRequest.wire =
      [(MON_CMD_AUTH, [args.username, args.password]), command] := rfl
  rw [h, ← hall]
  exact (List.take_prefix _ _).map _

theorem Running.exchanged (h : Running args (requests hplain hcommand) x) :
    Exchanged args command x := by
  obtain ⟨n, got, hstage, hexpects⟩ := h.stage
  obtain ⟨seen, hup⟩ := InOrder.upTo h.order
  refine ⟨h.not_aborted, executed_part hplain hcommand hup.executed, ?_, ?_⟩
  · intro a c hserved
    have hexecuted := hup.executed
    rw [hserved] at hexecuted
    obtain ⟨hcmd, hdata, -⟩ := first_served hplain hcommand hexecuted
    obtain ⟨hlookup, hauthenticated⟩ := auth_answer hplain hcmd hdata
    have hle := h.served_le hstage
    rw [hserved, List.length_cons, List.length_singleton] at hle
    have haccepted := hexpects.accepted 0 a (by omega) (by rw [hserved]; rfl)
    refine ⟨hlookup.mp haccepted, ?_⟩
    rw [h.genuine.chained 1 c (by rw [hserved]; rfl), hserved]
    exact hauthenticated haccepted
  · intro hfinished
    exact absurd (hstage.alive.finished.symm.trans hfinished) (by simp)

theorem Over.exchanged (h : Over args (requests hplain hcommand) x) :
    Exchanged args command x := by
  refine ⟨h.not_aborted, executed_part hplain hcommand h.executed, ?_,
    fun _ => ⟨h.connectFailed, h.outcome.exit⟩⟩
  intro a c hserved
  have houtcome := h.outcome
  rw [hserved] at houtcome
  generalize x.key.client.result = result at houtcome
  cases houtcome with
  | failed ha hauth _ => exact ⟨ha, hauth⟩
  | succeeded ha hauth _ => exact ⟨ha, hauth⟩

theorem running_init {s : Server} (hs : s.Sound) :
    Running args (requests hplain hcommand) (exchangeInit s args) where
  not_aborted := rfl
  to_server := List.nil_prefix
  to_client := List.nil_prefix
  order := inOrder_accept hs
  genuine := genuine_accept hs
  stage := ⟨0, [], .connecting ⟨⟨rfl, rfl, rfl⟩, rfl, rfl, fresh_init _, fresh_init _, rfl, rfl⟩,
    rfl, Nat.zero_le _, fun _ h => absurd h (by simp [exchangeInit, monPassiveAccept]),
    fun _ _ h => absurd h (Nat.not_lt_zero _)⟩

theorem run_states {s : Server} (hs : s.Sound) {es : List ExchangeEvent}
    (h : Run ExchangeStep (exchangeInit s args) es x) :
    (Running args (requests hplain hcommand) x ∨ Over args (requests hplain hcommand) x) ∧
      es.countP ExchangeEvent.moves ≤ x.work := by
  induction h with
  | nil => exact ⟨Or.inl (running_init hplain hcommand hs), Nat.zero_le _⟩
  | snoc _ hstep ih =>
    rw [List.countP_append, List.countP_singleton]
    have hone : ∀ b : Bool, (if b = true then 1 else 0) = b.toNat := by decide
    rw [hone]
    rcases ih with ⟨hrunning | hover, hcount⟩
    · obtain ⟨hnext, hwork⟩ := step_running hplain hcommand hrunning hstep
      exact ⟨hnext, by omega⟩
    · obtain ⟨hnext, hwork⟩ := step_over hover hstep
      exact ⟨Or.inr hnext, by omega⟩

theorem Running.work_le (h : Running args (requests hplain hcommand) x) :
    x.work ≤ EXCHANGE_MAX := by
  obtain ⟨n, got, hstage, -⟩ := h.stage
  obtain ⟨seen, hup⟩ := InOrder.upTo h.order
  exact ClientServer.work_le hplain hcommand (hstage.sent.trans (stream_prefix_take _ _))
    h.to_server h.to_client h.order.output h.genuine hup.count_le

theorem Over.work_le (h : Over args (requests hplain hcommand) x) : x.work ≤ EXCHANGE_MAX := by
  have hlen := (h.exchanged hplain hcommand).executed.length_le
  rw [List.length_map] at hlen
  exact ClientServer.work_le hplain hcommand h.sent_part
    ⟨[], (List.append_nil _).trans h.drained⟩ h.to_client h.output h.genuine hlen

/-- The client and the server, over all interleavings and splits of the streams:
the client never aborts, the server executes the login once and the command once
if the login succeeded, and the exit code tells these cases apart. The events that
carry the exchange on are bounded in number, and one is possible until the client
has finished. -/
theorem cli_exchange {s : Server} (hs : s.Reachable) (hplain : args.Plain)
    (hcommand : args.command = some command) {es : List ExchangeEvent}
    (h : Run ExchangeStep (exchangeInit s args) es x) :
    Exchanged args command x ∧ es.countP ExchangeEvent.moves ≤ EXCHANGE_MAX ∧
      (x.key.client.finished = false → ∃ e x', e.moves = true ∧ ExchangeStep x e x') := by
  obtain ⟨hstate, hcount⟩ := run_states hplain hcommand hs.sound h
  rcases hstate with hrunning | hover
  · exact ⟨hrunning.exchanged hplain hcommand, hcount.trans (hrunning.work_le hplain hcommand),
      fun _ => hrunning.canMove hplain hcommand⟩
  · exact ⟨hover.exchanged hplain hcommand, hcount.trans (hover.work_le hplain hcommand),
      fun hfinished => absurd (hover.finished.symm.trans hfinished) (by simp)⟩

/-- Every exchange can be brought to its end. -/
theorem Running.reaches_end (k : ℕ) (h : Running args (requests hplain hcommand) x)
    (hk : EXCHANGE_MAX < x.work + k) :
    ∃ es x', Run ExchangeStep x es x' ∧ x'.key.client.finished = true := by
  induction k generalizing x with
  | zero =>
    have hle := h.work_le hplain hcommand
    omega
  | succ k ih =>
    obtain ⟨e, x', hmoves, hstep⟩ := h.canMove hplain hcommand
    obtain ⟨hnext, hwork⟩ := step_running hplain hcommand h hstep
    rw [hmoves, Bool.toNat_true] at hwork
    rcases hnext with hrunning | hover
    · obtain ⟨es, z, hrun, hfinished⟩ := ih hrunning (by omega)
      exact ⟨e :: es, z, hrun.cons hstep, hfinished⟩
    · exact ⟨[e], x', Run.single hstep, hover.finished⟩

/-- A listing by a user of the table, up to its end. -/
theorem cli_exchange_listing :
    ∃ es x, Run ExchangeStep (exchangeInit (ServerCall.run serverInit (.addUser [97] [98]))
        ⟨[97], [98], .listUsers, [], []⟩) es x ∧ x.key.client.finished = true ∧
      Exchanged ⟨[97], [98], .listUsers, [], []⟩ (MON_CMD_LIST_USERS, []) x := by
  have hs : (ServerCall.run serverInit (.addUser [97] [98])).Reachable := ⟨[.addUser [97] [98]], rfl⟩
  have hplain : ClientArgs.Plain ⟨[97], [98], .listUsers, [], []⟩ := by
    unfold ClientArgs.Plain
    decide
  obtain ⟨es, x, hrun, hfinished⟩ := (running_init hplain rfl hs.sound).reaches_end hplain rfl
    (EXCHANGE_MAX + 1) (by omega)
  exact ⟨es, x, hrun, hfinished, (cli_exchange hs hplain rfl hrun).1⟩

end Runs

end SocksProxy.ClientServer
