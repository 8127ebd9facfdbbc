import SocksProxy.LoginReads
import SocksProxy.OriginStages
import SocksProxy.RelayHandlers
import SocksProxy.RequestReads
import SocksProxy.Writing

/-!
What one event does to a connection in negotiation. It moves on to a stage of
the dialogue, it is closed, or its relay starts; the handlers never abort. Every
invariant of the negotiation is derived from this case analysis.
-/
namespace SocksProxy.Turns

open ByteBuffer ByteScan Hello Auth Request UserTable Kernel Stm ConnState Connect Connection
open Stages Dialing Reading LoginReads RequestReads OriginStages Writing RelayHandlers

/-- The login of a stage that lies behind the gate. -/
def gateOf : Stage → Option Login
  | .request l _ => some l
  | .connecting l _ _ _ => some l
  | .reply l _ _ _ => some l
  | _ => none

/-- The calls `u` that one event makes on a connection in stage `s`. -/
structure Calls (s : Stage) (c c' : Conn) (u : List Call) : Prop where
  trace_eq : c'.trace = c.trace ++ u
  reads : ∀ side n r, .read side n r ∈ u →
    side = .client ∧ s.interest = OP_READ ∧ n = bufferWritePtr c.readBuffer
  writes : ∀ side bytes w, .write side bytes w ∈ u → side = .client ∧ bytes ≠ []
  privileged : ∀ call ∈ u, Privileged call → (gateOf s).isSome

/-- The client socket delivered `w`, which went behind what was in the buffer. -/
def Took (c : Conn) (sys : Sys) (w : List UInt8) (c' : Conn) (r : List UInt8) : Prop :=
  w ≠ [] ∧ Arrived c sys w ∧
    ∃ hw : w.length ≤ bufferWritePtr c.readBuffer, Rest (bufferPut c.readBuffer w hw) c'.readBuffer r

/-- Where an event leads a connection that stays in negotiation. -/
inductive Turn (c : Conn) (c' : Conn) : Stage → Event → Stage → Prop
  | wait {s : Stage} {e : Event} (hbuffer : c'.readBuffer = c.readBuffer)
      (hsock : c'.originSock = c.originSock ∨ c.originSock = .inProgress ∨
        s.state = .connecting) : Turn c c' s e s
  | hello {seen w : List UInt8} {sys : Sys} (hne : w ≠ []) (harr : Arrived c sys w)
      (hseen : HelloUnfinished (seen ++ w)) :
      Turn c c' (.hello seen) (.clientRead sys) (.hello (seen ++ w))
  | helloDone {seen w methods r : List UInt8} {sys : Sys} (htook : Took c sys w c' r)
      (hlen : methods.length ≤ 255) (hsplit : seen ++ w = helloMessage methods ++ r) :
      Turn c c' (.hello seen) (.clientRead sys) (.helloReply methods)
  | helloSent {methods : List UInt8} {sys : Sys} (hmem : SOCKS_HELLO_USERNAME_PASSWORD ∈ methods)
      (hbuffer : c'.readBuffer = c.readBuffer) (hstatus : c'.authStatus = AUTH_STATUS_FAILURE) :
      Turn c c' (.helloReply methods) (.clientWrite sys) (.auth methods [])
  | auth {methods seen w : List UInt8} {sys : Sys} (hne : w ≠ []) (harr : Arrived c sys w)
      (hseen : AuthUnfinished (seen ++ (bufferReadPtr c.readBuffer ++ w))) :
      Turn c c' (.auth methods seen) (.clientRead sys)
        (.auth methods (seen ++ (bufferReadPtr c.readBuffer ++ w)))
  | authDone {methods seen w u p r : List UInt8} {sys : Sys} {accepted : Bool}
      (htook : Took c sys w c' r) (hu : u.length ≤ 255) (hp : p.length ≤ 255)
      (hsplit : seen ++ (bufferReadPtr c.readBuffer ++ w) = authMessage u p ++ r)
      (hlookup : userTableLookup c.users (cString u) (cString p) = accepted)
      (hcall : .lookup c.users (cString u) (cString p) ∈ c'.trace) :
      Turn c c' (.auth methods seen) (.clientRead sys) (.authReply ⟨methods, u, p⟩ accepted)
  | authSent {l : Login} {sys : Sys} (hbuffer : c'.readBuffer = c.readBuffer)
      (hreply : c'.requestReply = SOCKS5_REPLY_GENERAL_FAILURE) :
      Turn c c' (.authReply l true) (.clientWrite sys) (.request l [])
  | request {l : Login} {seen w : List UInt8} {sys : Sys} (hne : w ≠ []) (harr : Arrived c sys w)
      (hseen : RequestUnfinished (seen ++ (bufferReadPtr c.readBuffer ++ w))) :
      Turn c c' (.request l seen) (.clientRead sys)
        (.request l (seen ++ (bufferReadPtr c.readBuffer ++ w)))
  | requestDone {l : Login} {seen w m r : List UInt8} {sys : Sys} {code : UInt8}
      {bind : Option (SockAddr × ℕ)} (htook : Took c sys w c' r)
      (hsplit : seen ++ (bufferReadPtr c.readBuffer ++ w) = m ++ r)
      (hends : Ends requestParserFeed (fun p => requestIsDone p.state) requestStart m)
      (hdecided : Decided c c' sys m)
      (hpending : bufferReadPtr c'.writeBuffer = replyMessage code bind)
      (hsock : code = SOCKS5_REPLY_SUCCEEDED → c'.originSock = .ok) :
      Turn c c' (.request l seen) (.clientRead sys) (.reply l m code bind)
  | requestDialed {l : Login} {seen w address r : List UInt8} {sys : Sys} {atyp : UInt8}
      {port : UInt8 × UInt8} (htook : Took c sys w c' r)
      (hsplit : seen ++ (bufferReadPtr c.readBuffer ++ w) =
        requestMessage SOCKS5_CMD_CONNECT atyp address port ++ r)
      (hdecided : Decided c c' sys (requestMessage SOCKS5_CMD_CONNECT atyp address port)) :
      Turn c c' (.request l seen) (.clientRead sys) (.connecting l atyp address port)
  | dialed {l : Login} {address : List UInt8} {atyp code : UInt8} {port : UInt8 × UInt8}
      {bind : Option (SockAddr × ℕ)} {e : Event} (hbuffer : c'.readBuffer = c.readBuffer)
      (hevent : ∃ sys, e = .originWrite sys ∨ e = .blockDone sys)
      (hpending : bufferReadPtr c'.writeBuffer = replyMessage code bind)
      (hsock : code = SOCKS5_REPLY_SUCCEEDED →
        c.originSock ≠ .inProgress ∨ c.originItem = none → c'.originSock = .ok) :
      Turn c c' (.connecting l atyp address port) e
        (.reply l (requestMessage SOCKS5_CMD_CONNECT atyp address port) code bind)

/-- Why an event closes a connection in negotiation. -/
inductive Ending (c : Conn) (c' : Conn) : Stage → Event → Prop
  | forced {s : Stage} : Ending c c' s .forceClose
  | unread {s : Stage} {sys : Sys}
      (hread : sys.read = .eof ∨ sys.read = .fail ∨ bufferWritePtr c.readBuffer = 0) :
      Ending c c' s (.clientRead sys)
  | unsent {s : Stage} {sys : Sys} (hsent : (writeCall c sys).sent .client = []) :
      Ending c c' s (.clientWrite sys)
  | helloBad {seen w r : List UInt8} {x : UInt8} {sys : Sys} (harr : Arrived c sys w) (hx : x ≠ 0x05)
      (hsplit : seen ++ w = x :: r) (hcurrent : c'.current = some .error)
      (hread : received .client c'.trace = received .client c.trace ++ w) :
      Ending c c' (.hello seen) (.clientRead sys)
  | helloRefused {methods : List UInt8} {sys : Sys} (hmem : SOCKS_HELLO_USERNAME_PASSWORD ∉ methods)
      (hcurrent : c'.current = some .error)
      (hsent : sent .client c'.trace = (Stage.helloReply methods).output) :
      Ending c c' (.helloReply methods) (.clientWrite sys)
  | authBad {methods seen w r : List UInt8} {x : UInt8} {sys : Sys} (harr : Arrived c sys w)
      (hx : x ≠ 0x01) (hsplit : seen ++ (bufferReadPtr c.readBuffer ++ w) = x :: r)
      (hcurrent : c'.current = some .error)
      (hread : received .client c'.trace = received .client c.trace ++ w) :
      Ending c c' (.auth methods seen) (.clientRead sys)
  | authRefused {l : Login} {sys : Sys} (hcurrent : c'.current = some .error)
      (hsent : sent .client c'.trace = (Stage.authReply l false).output) :
      Ending c c' (.authReply l false) (.clientWrite sys)
  | requestRefused {l : Login} {message : List UInt8} {code : UInt8}
      {bind : Option (SockAddr × ℕ)} {sys : Sys} (hcode : code ≠ SOCKS5_REPLY_SUCCEEDED)
      (hcurrent : c'.current = some .done)
      (hsent : sent .client c'.trace = (Stage.reply l message code bind).output) :
      Ending c c' (.reply l message code bind) (.clientWrite sys)

/-- An event closes the connection. -/
structure Ended (s : Stage) (e : Event) (c c' : Conn) : Prop where
  closed_spec : Closed c'
  relay_eq : c'.relayStarted = false
  eof_eq : ∀ d, eof c' d = false
  sent_prefix : sent .client c'.trace <+: s.output
  ending : Ending c c' s e

/-- The success reply of the CONNECT is out and the relay starts. -/
structure Begins (l : Login) (message : List UInt8) (bind : Option (SockAddr × ℕ)) (sys : Sys)
    (c c' : Conn) (u : List Call) : Prop where
  relaying : Relaying [] c'
  sock_eq : c'.originSock = c.originSock
  sent_eq : sent .client (c.trace ++ [writeCall c sys]) =
    (Stage.reply l message SOCKS5_REPLY_SUCCEEDED bind).output
  request : ∃ atyp address port, ValidAddress atyp address ∧
    message = requestMessage SOCKS5_CMD_CONNECT atyp address port ∧ ∃ dest,
      u = [writeCall c sys,
        .accessLogAdd (cString l.uname) dest (port.1.toNat * 256 + port.2.toNat), .startRelay]

/-- What an event does to a connection in negotiation. -/
inductive Outcome (c c' : Conn) (u : List Call) : Stage → Event → Prop
  | turn {s s' : Stage} {e : Event} (hfits : Fits s' c') (hturn : Turn c c' s e s')
      (hu : ∀ call ∈ u, ¬ Starts call) : Outcome c c' u s e
  | ended {s : Stage} {e : Event} (hended : Ended s e c c') (hu : ∀ call ∈ u, ¬ Starts call) :
      Outcome c c' u s e
  | begins {l : Login} {message : List UInt8} {bind : Option (SockAddr × ℕ)} {sys : Sys}
      (hbegins : Begins l message bind sys c c' u) :
      Outcome c c' u (.reply l message SOCKS5_REPLY_SUCCEEDED bind) (.clientWrite sys)

/-- The handler of `e` returns, and with an outcome. -/
def Handled (s : Stage) (e : Event) (c : Conn) : Prop :=
  ∃ c' u, handle c e = some c' ∧ Calls s c c' u ∧ Outcome c c' u s e

variable {s : Stage} {e : Event} {c c' : Conn} {sys : Sys} {u : List Call}

/-- The calls of an event whose last ones close the sockets. -/
private theorem Calls.close {s : Stage} {c c₁ c' : Conn} {u v : List Call} (h : Calls s c c₁ u)
    (htrace : c'.trace = c₁.trace ++ v) (hv : ∀ call ∈ v, ∃ side, call = .close side) :
    Calls s c c' (u ++ v) where
  trace_eq := by rw [htrace, h.trace_eq, List.append_assoc]
  reads := by
    intro side n r hmem
    rcases List.mem_append.mp hmem with hmem | hmem
    · exact h.reads side n r hmem
    · obtain ⟨_, heq⟩ := hv _ hmem
      exact absurd heq (by simp)
  writes := by
    intro side bytes w hmem
    rcases List.mem_append.mp hmem with hmem | hmem
    · exact h.writes side bytes w hmem
    · obtain ⟨_, heq⟩ := hv _ hmem
      exact absurd heq (by simp)
  privileged := by
    intro call hmem hcall
    rcases List.mem_append.mp hmem with hmem | hmem
    · exact h.privileged call hmem hcall
    · obtain ⟨_, rfl⟩ := hv _ hmem
      exact hcall.elim

private theorem calls_nil (htrace : c'.trace = c.trace) : Calls s c c' [] where
  trace_eq := by rw [htrace, List.append_nil]
  reads := by simp
  writes := by simp
  privileged := by simp

private theorem calls_read (sys : Sys) {rest : List Call} (hs : s.interest = OP_READ)
    (htrace : c'.trace = c.trace ++ (readCall c sys :: rest))
    (hrest : ∀ call ∈ rest, ConnectCall call ∧ (gateOf s).isSome ∨
      ∃ users name pass, call = .lookup users name pass) :
    Calls s c c' (readCall c sys :: rest) where
  trace_eq := htrace
  reads := by
    intro side n r hmem
    rcases List.mem_cons.mp hmem with heq | hmem
    · injection heq with hside hn
      exact ⟨hside, hs, hn⟩
    · rcases hrest _ hmem with ⟨hcall, -⟩ | ⟨_, _, _, heq⟩
      · exact hcall.elim
      · exact absurd heq (by simp)
  writes := by
    intro side bytes w hmem
    rcases List.mem_cons.mp hmem with heq | hmem
    · exact absurd heq (by simp [readCall])
    · rcases hrest _ hmem with ⟨hcall, -⟩ | ⟨_, _, _, heq⟩
      · exact hcall.elim
      · exact absurd heq (by simp)
  privileged := by
    intro call hmem hcall
    rcases List.mem_cons.mp hmem with rfl | hmem
    · exact hcall.elim
    · rcases hrest _ hmem with ⟨-, hgate⟩ | ⟨_, _, _, rfl⟩
      · exact hgate
      · exact hcall.elim

private theorem closed_ended {c₁ : Conn} (h : Fits s c) (hrelay : c₁.relayStarted = c.relayStarted)
    (heof : ∀ d, eof (closed c₁) d = eof c d) (hsent : sent .client c₁.trace = sent .client c.trace)
    (hending : Ending c (closed c₁) s e) : Ended s e c (closed c₁) where
  closed_spec := closed_spec c₁
  relay_eq := hrelay.trans h.relay_eq
  eof_eq := fun d => (heof d).trans (h.eof_eq d)
  sent_prefix := by
    obtain ⟨v, hv, hclose⟩ := closed_calls c₁
    have hnil : sent .client v = [] := by
      refine List.flatMap_eq_nil_iff.mpr fun call hmem => ?_
      obtain ⟨side, rfl⟩ := hclose call hmem
      rfl
    rw [hv, sent_append, hnil, List.append_nil, hsent, ← h.sent_eq]
    exact List.prefix_append _ _
  ending := hending

/-- Closing the connection neither reads nor writes. -/
private theorem broken_bytes {st : Socks5State} {t : List Call} (h : Broken st c c' t) :
    received .client c'.trace = received .client t ∧ sent .client c'.trace = sent .client t := by
  obtain ⟨v, hv, hclose⟩ := h.trace_eq
  rw [hv, received_append, sent_append]
  have hreceived : received .client v = [] := by
    refine List.flatMap_eq_nil_iff.mpr fun call hmem => ?_
    obtain ⟨side, rfl⟩ := hclose call hmem
    rfl
  have hsent : sent .client v = [] := by
    refine List.flatMap_eq_nil_iff.mpr fun call hmem => ?_
    obtain ⟨side, rfl⟩ := hclose call hmem
    rfl
  rw [hreceived, hsent, List.append_nil, List.append_nil]
  exact ⟨rfl, rfl⟩

/-- A connection closed by a callback, after the call `call`. -/
private theorem broken_outcome {st : Socks5State} {call : Call} (h : Fits s c)
    (hbroken : Broken st c c' (c.trace ++ [call])) (hcalls : Calls s c (c.log call) [call])
    (hstart : ¬ Starts call) (hsent : sent .client (c.trace ++ [call]) <+: s.output)
    (hending : Ending c c' s e) : ∃ u, Calls s c c' u ∧ Outcome c c' u s e := by
  obtain ⟨v, hv, hclose⟩ := hbroken.trace_eq
  refine ⟨[call] ++ v, hcalls.close hv hclose, .ended ⟨hbroken.closed_spec, ?_, ?_, ?_, hending⟩ ?_⟩
  · exact hbroken.relay_eq.trans h.relay_eq
  · exact fun d => (hbroken.eof_eq d).trans (h.eof_eq d)
  · rw [(broken_bytes hbroken).2]
    exact hsent
  · intro call' hmem
    rcases List.mem_append.mp hmem with hmem | hmem
    · rw [List.mem_singleton.mp hmem]
      exact hstart
    · obtain ⟨side, rfl⟩ := hclose call' hmem
      exact id

private theorem broken_read {w : List UInt8} (harr : Arrived c sys w)
    (h : Broken .error c c' (c.trace ++ [readCall c sys])) :
    received .client c'.trace = received .client c.trace ++ w := by
  rw [(broken_bytes h).1, received_append, received_cons, received_nil, List.append_nil, harr]

private theorem read_sent (h : Fits s c) (sys : Sys) :
    sent .client (c.trace ++ [readCall c sys]) <+: s.output := by
  rw [sent_append, ← h.sent_eq]
  simp [readCall_sent]

private theorem reading (h : Fits s c) (hs : s.interest = OP_READ) : (∃ seen, s = .hello seen) ∨
    (∃ methods seen, s = .auth methods seen) ∨ ∃ l seen, s = .request l seen := by
  cases s with
  | hello seen => exact Or.inl ⟨seen, rfl⟩
  | auth methods seen => exact Or.inr (Or.inl ⟨methods, seen, rfl⟩)
  | request l seen => exact Or.inr (Or.inr ⟨l, seen, rfl⟩)
  | helloReply methods => simp [Stage.interest, OP_READ, OP_WRITE] at hs
  | authReply l accepted => simp [Stage.interest, OP_READ, OP_WRITE] at hs
  | connecting l atyp address port => simp [Stage.interest, OP_READ, OP_NOOP] at hs
  | reply l message code bind => simp [Stage.interest, OP_READ, OP_WRITE] at hs

private theorem not_starts_read : ∀ call ∈ [readCall c sys], ¬ Starts call := by
  intro call hmem
  rw [List.mem_singleton.mp hmem]
  exact id

private theorem connectCalls_sent {u : List Call} (hu : ∀ call ∈ u, ConnectCall call) :
    sent .client u = [] :=
  List.flatMap_eq_nil_iff.mpr fun call hmem => connectCall_sent (hu call hmem)

/-- A reply that was just stored is pending as a whole. -/
private theorem reply_pending {l : Login} {message : List UInt8} {code : UInt8}
    {bind : Option (SockAddr × ℕ)} (h : Fits s c) (hs : s.interest ≠ OP_WRITE)
    (hout : s.output = [0x05, 0x02] ++ [0x01, 0x00])
    (hsent : sent .client c'.trace = sent .client c.trace)
    (hfits : Fits (.reply l message code bind) c') :
    bufferReadPtr c'.writeBuffer = replyMessage code bind := by
  have hbefore := h.sent_eq
  rw [fits_write_empty h hs, List.append_nil, hout] at hbefore
  have hafter := hfits.sent_eq
  rw [hsent, hbefore] at hafter
  exact List.append_cancel_left hafter

/-- A read event in a stage that waits for the client. -/
theorem read_handled (h : Fits s c) (hs : s.interest = OP_READ) :
    Handled s (.clientRead sys) c := by
  have hone : Calls s c (c.log (readCall c sys)) [readCall c sys] :=
    calls_read sys hs rfl (by simp)
  rcases socksv5Read_cases sys h hs with ⟨hr, heq⟩ | ⟨hr, harr, heq⟩ |
    ⟨w, hw, hne, harr, heq⟩
  · refine ⟨_, _, heq, hone, .turn (fits_log h ?_ rfl) (.wait rfl (Or.inl rfl)) not_starts_read⟩
    simp [readCall, Call.received, hr]
  · obtain ⟨v, hv, hclose⟩ := closed_calls (c.log (readCall c sys))
    refine ⟨_, _, heq, hone.close hv hclose,
      .ended (closed_ended h rfl (fun d => by cases d <;> rfl) ?_ (.unread hr)) ?_⟩
    · simp [Conn.log, readCall_sent]
    · intro call hmem
      rcases List.mem_append.mp hmem with hmem | hmem
      · exact not_starts_read call hmem
      · obtain ⟨side, rfl⟩ := hclose call hmem
        exact id
  · have hread : handle c (.clientRead sys) =
        (socks5HandleRead sys (filled c sys w hw)).map socksv5ApplyAction := heq
    unfold Handled
    rw [hread]
    rcases reading h hs with ⟨seen, rfl⟩ | ⟨methods, seen, rfl⟩ | ⟨l, seen, rfl⟩
    · obtain ⟨c', hc', hres⟩ := hello_read hw h hne harr
      rcases hres with ⟨hseen, htrace, hfits⟩ | ⟨x, r, hx, hsplit, hbroken⟩ |
        ⟨methods, r, hlen, hsplit, htrace, hfits, hrest⟩
      · exact ⟨c', _, hc', calls_read sys hs htrace (by simp),
          .turn hfits (.hello hne harr hseen) not_starts_read⟩
      · obtain ⟨u, hcalls, hout⟩ := broken_outcome h hbroken hone id (read_sent h sys)
          (.helloBad harr hx hsplit hbroken.current_eq (broken_read harr hbroken))
        exact ⟨c', u, hc', hcalls, hout⟩
      · exact ⟨c', _, hc', calls_read sys hs htrace (by simp),
          .turn hfits (.helloDone ⟨hne, harr, hw, hrest⟩ hlen hsplit) not_starts_read⟩
    · obtain ⟨c', hc', hres⟩ := auth_read hw h hne harr
      rcases hres with ⟨hseen, htrace, hfits⟩ | ⟨x, r, hx, hsplit, hbroken⟩ |
        ⟨u, p, r, accepted, hu, hp, hsplit, hlookup, htrace, hfits, hrest⟩
      · exact ⟨c', _, hc', calls_read sys hs htrace (by simp),
          .turn hfits (.auth hne harr hseen) not_starts_read⟩
      · obtain ⟨u, hcalls, hout⟩ := broken_outcome h hbroken hone id (read_sent h sys)
          (.authBad harr hx hsplit hbroken.current_eq (broken_read harr hbroken))
        exact ⟨c', u, hc', hcalls, hout⟩
      · refine ⟨c', _, hc', calls_read sys hs htrace (by simp), .turn hfits
          (.authDone ⟨hne, harr, hw, hrest⟩ hu hp hsplit hlookup (by simp [htrace])) ?_⟩
        intro call hmem
        rcases List.mem_cons.mp hmem with rfl | hmem
        · exact id
        · rw [List.mem_singleton.mp hmem]
          exact id
    · obtain ⟨c', hc', hres⟩ := request_read hw h hne harr
      rcases hres with ⟨hseen, htrace, hfits⟩ | ⟨m, r, hsplit, hends, hrest, ⟨u, htrace, hu⟩,
        hdecided, hres⟩
      · exact ⟨c', _, hc', calls_read sys hs htrace (by simp),
          .turn hfits (.request hne harr hseen) not_starts_read⟩
      · have hcalls := calls_read sys hs htrace fun call hmem =>
          Or.inl ⟨hu call hmem, rfl⟩
        have hstart : ∀ call ∈ readCall c sys :: u, ¬ Starts call := by
          intro call hmem
          rcases List.mem_cons.mp hmem with rfl | hmem
          · exact id
          · exact connectCall_not_starts (hu call hmem)
        rcases hres with ⟨atyp, address, port, hfits, rfl⟩ | ⟨code, bind, hfits, hsock⟩
        · exact ⟨c', _, hc', hcalls, .turn hfits
            (.requestDialed ⟨hne, harr, hw, hrest⟩ hsplit hdecided) hstart⟩
        · have hpending : bufferReadPtr c'.writeBuffer = replyMessage code bind := by
            apply reply_pending h (by simp [Stage.interest, OP_READ, OP_WRITE]) rfl _ hfits
            rw [htrace, sent_append, sent_cons, readCall_sent, connectCalls_sent hu]
            simp
          exact ⟨c', _, hc', hcalls, .turn hfits
            (.requestDone ⟨hne, harr, hw, hrest⟩ hsplit hends hdecided hpending hsock) hstart⟩

private theorem writing (h : Fits s c) (hs : s.interest = OP_WRITE) :
    (∃ methods, s = .helloReply methods) ∨ (∃ l accepted, s = .authReply l accepted) ∨
      ∃ l message code bind, s = .reply l message code bind := by
  cases s with
  | helloReply methods => exact Or.inl ⟨methods, rfl⟩
  | authReply l accepted => exact Or.inr (Or.inl ⟨l, accepted, rfl⟩)
  | reply l message code bind => exact Or.inr (Or.inr ⟨l, message, code, bind, rfl⟩)
  | hello seen => simp [Stage.interest, OP_READ, OP_WRITE] at hs
  | auth methods seen => simp [Stage.interest, OP_READ, OP_WRITE] at hs
  | request l seen => simp [Stage.interest, OP_READ, OP_WRITE] at hs
  | connecting l atyp address port => simp [Stage.interest, OP_NOOP, OP_WRITE] at hs

private theorem not_starts_write : ∀ call ∈ [writeCall c sys], ¬ Starts call := by
  intro call hmem
  rw [List.mem_singleton.mp hmem]
  exact id

private theorem calls_write (h : Fits s c) (hs : s.interest = OP_WRITE)
    (htrace : c'.trace = c.trace ++ [writeCall c sys]) : Calls s c c' [writeCall c sys] where
  trace_eq := htrace
  reads := by
    intro side n r hmem
    exact absurd (List.mem_singleton.mp hmem) (by simp [writeCall])
  writes := by
    intro side bytes w hmem
    injection List.mem_singleton.mp hmem with hside hbytes
    rw [hbytes]
    exact ⟨hside, h.pending_iff.mpr hs⟩
  privileged := by
    intro call hmem hcall
    rw [List.mem_singleton.mp hmem] at hcall
    exact hcall.elim

/-- A write event in a stage that has a reply to send. -/
theorem write_handled (h : Fits s c) (hs : s.interest = OP_WRITE) :
    Handled s (.clientWrite sys) c := by
  have hone : Calls s c (c.log (writeCall c sys)) [writeCall c sys] := calls_write h hs rfl
  rcases socksv5Write_cases sys h hs with ⟨c', heq, htrace, hbuffer, hsock, hfits⟩ |
    ⟨hsent, heq⟩ | ⟨b, hsent, hnil, htidy, heq⟩
  · exact ⟨c', _, heq, calls_write h hs htrace,
      .turn hfits (.wait hbuffer (Or.inl hsock)) not_starts_write⟩
  · obtain ⟨v, hv, hclose⟩ := closed_calls (c.log (writeCall c sys))
    refine ⟨_, _, heq, hone.close hv hclose,
      .ended (closed_ended h rfl (fun d => by cases d <;> rfl) ?_ (.unsent hsent)) ?_⟩
    · simp [Conn.log, hsent]
    · intro call hmem
      rcases List.mem_append.mp hmem with hmem | hmem
      · exact not_starts_write call hmem
      · obtain ⟨side, rfl⟩ := hclose call hmem
        exact id
  · have hwrite : handle c (.clientWrite sys) =
        (socks5HandleWrite sys (flushed c sys b)).map socksv5ApplyAction := heq
    have hout := flushed_sent h hsent
    unfold Handled
    rw [hwrite]
    rcases writing h hs with ⟨methods, rfl⟩ | ⟨l, accepted, rfl⟩ | ⟨l, message, code, bind, rfl⟩
    · obtain ⟨c', hc', hbuffer, ⟨hmem, htrace, hfits, hstatus⟩ | ⟨hmem, hbroken⟩⟩ :=
        hello_write h hnil htidy hsent
      · exact ⟨c', _, hc', calls_write h hs htrace,
          .turn hfits (.helloSent hmem hbuffer hstatus) not_starts_write⟩
      · obtain ⟨u, hcalls, hend⟩ := broken_outcome h hbroken hone id (hout ▸ List.prefix_rfl)
          (.helloRefused hmem hbroken.current_eq ((broken_bytes hbroken).2.trans hout))
        exact ⟨c', u, hc', hcalls, hend⟩
    · obtain ⟨c', hc', hbuffer, ⟨rfl, htrace, hfits, hreply⟩ | ⟨rfl, hbroken⟩⟩ :=
        auth_write h hnil htidy hsent
      · exact ⟨c', _, hc', calls_write h hs htrace,
          .turn hfits (.authSent hbuffer hreply) not_starts_write⟩
      · obtain ⟨u, hcalls, hend⟩ := broken_outcome h hbroken hone id (hout ▸ List.prefix_rfl)
          (.authRefused hbroken.current_eq ((broken_bytes hbroken).2.trans hout))
        exact ⟨c', u, hc', hcalls, hend⟩
    · obtain ⟨c', hc', ⟨hcode, hbroken⟩ | ⟨rfl, hrel, hsock, atyp, address, port, dest, hvalid,
        hmessage, htrace⟩⟩ := request_write h hnil htidy
      · obtain ⟨u, hcalls, hend⟩ := broken_outcome h hbroken hone id (hout ▸ List.prefix_rfl)
          (.requestRefused hcode hbroken.current_eq ((broken_bytes hbroken).2.trans hout))
        exact ⟨c', u, hc', hcalls, hend⟩
      · refine ⟨c', _, hc', ?_, .begins
          ⟨hrel, hsock, hout, atyp, address, port, hvalid, hmessage, dest, rfl⟩⟩
        exact
          { trace_eq := htrace
            reads := by simp [writeCall]
            writes := by
              intro side bytes w hmem
              have hmem : Call.write side bytes w = writeCall c sys := by simpa using hmem
              injection hmem with hside hbytes
              rw [hbytes]
              exact ⟨hside, h.pending_iff.mpr hs⟩
            privileged := fun _ _ _ => rfl }

/-- A turn that adds only the calls of connect.c. -/
private theorem answered_handled {l : Login} {address : List UInt8} {atyp : UInt8}
    {port : UInt8 × UInt8} (hfits₀ : Fits (.connecting l atyp address port) c)
    (hevent : ∃ sys, e = .originWrite sys ∨ e = .blockDone sys)
    (heq : handle c e = some c') (h : Answered c c' l atyp address port) :
    Handled (.connecting l atyp address port) e c := by
  obtain ⟨hbuffer, ⟨u, htrace, hu⟩, hres⟩ := h
  have hcalls : Calls (.connecting l atyp address port) c c' u :=
    { trace_eq := htrace
      reads := fun side n r hmem => (hu _ hmem).elim
      writes := fun side bytes w hmem => (hu _ hmem).elim
      privileged := fun _ _ _ => rfl }
  have hstart : ∀ call ∈ u, ¬ Starts call := fun call hmem =>
    connectCall_not_starts (hu call hmem)
  rcases hres with hfits | ⟨code, bind, hfits, hsock⟩
  · exact ⟨c', u, heq, hcalls, .turn hfits (.wait hbuffer (Or.inr (Or.inr rfl))) hstart⟩
  · have hpending : bufferReadPtr c'.writeBuffer = replyMessage code bind := by
      apply reply_pending hfits₀ (by simp [Stage.interest, OP_NOOP, OP_WRITE]) rfl _ hfits
      rw [htrace, sent_append, connectCalls_sent hu, List.append_nil]
    exact ⟨c', u, heq, hcalls, .turn hfits (.dialed hbuffer hevent hpending hsock) hstart⟩

/-- An event that the connection hardly notices. -/
private theorem unnoticed (hfits : Fits s c') (heq : handle c e = some c')
    (hbuffer : c'.readBuffer = c.readBuffer) (htrace : c'.trace = c.trace)
    (hsock : c'.originSock = c.originSock ∨ c.originSock = .inProgress) : Handled s e c :=
  ⟨c', [], heq, calls_nil htrace, .turn hfits (.wait hbuffer (hsock.imp_right Or.inl)) (by simp)⟩

private theorem interest_of_read (h : s.interest.read = true) : s.interest = OP_READ := by
  cases s <;> first | rfl | exact absurd h Bool.false_ne_true

theorem interest_of_write (h : s.interest.write = true) : s.interest = OP_WRITE := by
  cases s <;> first | rfl | exact absurd h Bool.false_ne_true

/-- What a stage knows does not depend on the user table. -/
private theorem parsed_users (h : Parsed c s) (users : Table) :
    Parsed { c with users := users } s := by
  cases s <;> exact h

/-- A connect() that finishes was started, and its outcome is asked for later. -/
private theorem parsed_sock (h : Parsed c s) (hprog : c.originSock = .inProgress)
    (status : Status) : Parsed { c with originSock := status } s := by
  rcases parsed_early h with ⟨-, hdns⟩ | ⟨l, atyp, address, port, rfl⟩ |
    ⟨l, message, code, bind, rfl⟩
  · rw [hdns.2.1] at hprog
    exact absurd hprog (by decide)
  · exact h
  · exact h

/-- A lookup that finishes in CONNECTING. -/
private theorem dnsFinished_fits {l : Login} {address : List UInt8} {atyp : UInt8}
    {port : UInt8 × UInt8} (h : Fits (.connecting l atyp address port) c) (hnone : NoOrigin c)
    (error : ℤ) (result : List AddrInfo) (queued : Bool) :
    Fits (.connecting l atyp address port) (dnsWorkerStore error result queued c) := by
  obtain ⟨hcur, hvalid, hread, huname, -⟩ := h.parsed
  have heq : dnsWorkerStore error result queued c =
      { c with
        dnsPending := false, dnsError := error, dnsResult := result, dnsNext := result
        dnsJob := if queued then .queued else .idle } := by
    simp [dnsWorkerStore, h.cancelled_eq]
  rw [heq]
  exact { h with parsed := ⟨hcur, hvalid, hread, huname, Or.inr hnone⟩ }

/-- Every event that the selector dispatches in negotiation is handled. -/
theorem negotiation_step (h : Fits s c) (hen : Enabled c e) : Handled s e c := by
  cases e with
  | clientRead sys =>
    obtain ⟨i, hi, hread⟩ := hen
    rw [h.clientItem_eq, Option.some.injEq] at hi
    exact read_handled h (interest_of_read (by rw [hi]; exact hread))
  | clientWrite sys =>
    obtain ⟨i, hi, hwrite⟩ := hen
    rw [h.clientItem_eq, Option.some.injEq] at hi
    exact write_handled h (interest_of_write (by rw [hi]; exact hwrite))
  | originRead sys =>
    obtain ⟨i, hi, hread⟩ := hen
    obtain ⟨l, atyp, address, port, rfl, horigin, -⟩ := armed_connecting h hi (by
      rintro rfl
      exact absurd hread (by decide))
    rw [horigin.2.1, Option.some.injEq] at hi
    subst hi
    exact absurd hread (by decide)
  | originWrite sys =>
    obtain ⟨i, hi, hwrite⟩ := hen
    obtain ⟨l, atyp, address, port, rfl, horigin, hjob⟩ := armed_connecting h hi (by
      rintro rfl
      exact absurd hwrite (by decide))
    exact answered_handled h ⟨sys, Or.inl rfl⟩ rfl (originWrite_spec sys h horigin hjob)
  | blockDone sys =>
    obtain ⟨l, atyp, address, port, rfl, hnone⟩ := queued_connecting h (by simp [hen.1])
    exact answered_handled h ⟨sys, Or.inr rfl⟩ rfl (blockDone_spec sys h hnone)
  | connectFinished outcome =>
    have hfits : Fits s { c with originSock := connectStatus outcome } :=
      { h with parsed := parsed_sock h.parsed hen _ }
    exact unnoticed hfits rfl rfl rfl (Or.inr hen)
  | dnsFinished error result queued =>
    have hjob : c.dnsJob = .resolving := hen
    obtain ⟨l, atyp, address, port, rfl, hnone⟩ := queued_connecting h (by simp [hjob])
    refine unnoticed (dnsFinished_fits h hnone error result queued) rfl ?_ ?_ (Or.inl ?_)
      <;> simp [dnsWorkerStore, h.cancelled_eq]
  | addUser name pass =>
    have hfits : Fits s { c with users := (userTableAdd c.users name pass).2 } :=
      { h with parsed := parsed_users h.parsed _ }
    exact unnoticed hfits rfl rfl rfl (Or.inl rfl)
  | removeUser name =>
    have hfits : Fits s { c with users := (userTableRemove c.users name).2 } :=
      { h with parsed := parsed_users h.parsed _ }
    exact unnoticed hfits rfl rfl rfl (Or.inl rfl)
  | forceClose =>
    have heq : handle c .forceClose = some (closed c) := congrArg some (fits_close_eq h)
    have hcalls : Calls s c c [] := calls_nil rfl
    obtain ⟨v, hv, hclose⟩ := closed_calls c
    refine ⟨closed c, _, heq, hcalls.close hv hclose,
      .ended (closed_ended h rfl (fun d => by cases d <;> rfl) rfl .forced) ?_⟩
    intro call hmem
    obtain ⟨side, rfl⟩ := hclose call hmem
    exact id

end SocksProxy.Turns
