import SocksProxy.Attempts

/-!
Which handlers dial. The two that start or continue the walk over the resolved
addresses follow the outcome of the connect function they call; the others leave
the origin socket alone; and a lookup runs for a domain name only.
-/
namespace SocksProxy.DialFrames

open ByteBuffer Hello Auth Request UserTable Kernel Stm ConnState Connect Connection
open Stages Dialing Reading RequestReads OriginStages Turns RelayHandlers Lifetime Pending Runs
open Attempts

section Handlers

/-! The two places where the walk goes on. -/

variable {sys : Sys} {c c' k : Conn} {r : Status × Conn}

/-- The connection after the connect function of a handler returned `r`. -/
structure Follows (r : Status × Conn) (c' : Conn) : Prop where
  trace_eq : c'.trace = r.2.trace
  fd_eq : c'.originFd = r.2.originFd
  next_eq : c'.dnsNext = r.2.dnsNext
  lookup_eq : lookupOf c' = lookupOf r.2
  state : r.1 = .inProgress ∧ c'.current = some .connecting ∨
    r.1 ≠ .inProgress ∧ c'.current = some .requestWrite ∧
      c'.requestReply = connectReplyFromErrno r.1

theorem connectMarshallReply_cases (sys : Sys) (c : Conn) :
    connectMarshallReply sys c = (.error, c) ∨
      ∃ b, connectMarshallReply sys c = (.requestWrite, { c with writeBuffer := b }) := by
  unfold connectMarshallReply
  dsimp only
  split
  · exact Or.inl rfl
  · exact Or.inr ⟨_, rfl⟩

/-- The reply handler changes neither the socket nor the calls. -/
theorem originConnectReply_follows (status : Status) (sys : Sys) (c : Conn)
    (hstatus : status ≠ .inProgress)
    (hstored : (originConnectReply sys
      { c with requestReply := connectReplyFromErrno status }).current ≠ some .error) :
    Follows (status, c) (originConnectReply sys
      { c with requestReply := connectReplyFromErrno status }) := by
  rcases connectMarshallReply_cases sys
    { c with requestReply := connectReplyFromErrno status } with heq | ⟨b, heq⟩
  · unfold originConnectReply at hstored
    rw [heq] at hstored
    exact absurd rfl hstored
  · unfold originConnectReply
    rw [heq]
    exact ⟨rfl, rfl, rfl, rfl, Or.inr ⟨hstatus, rfl, rfl⟩⟩

theorem originConnectNext_follows (sys : Sys) (c : Conn)
    (hcur : (startResolvedConnect sys c).2.current = some .connecting)
    (hstored : (originConnectNext sys c).current ≠ some .error) :
    Follows (startResolvedConnect sys c) (originConnectNext sys c) := by
  unfold originConnectNext at hstored ⊢
  split at hstored
  next k heq =>
    rw [heq] at hcur ⊢
    exact ⟨rfl, rfl, rfl, rfl, Or.inl ⟨rfl, hcur⟩⟩
  next status k hne heq =>
    rw [heq]
    exact originConnectReply_follows status sys k hne hstored

theorem clientClose_closing (c : Conn) : (clientClose c).closing = c.closing := by
  unfold clientClose clientUnregister
  dsimp only
  split <;> split <;> rfl

theorem originClose_closing (c : Conn) : (originClose c).closing = c.closing := by
  unfold originClose
  dsimp only
  split <;> split <;> rfl

theorem socks5ConnectionClose_closing (c : Conn) : (socks5ConnectionClose c).closing = true := by
  unfold socks5ConnectionClose
  split
  next h => exact h
  next => rw [originClose_closing, clientClose_closing]

/-- The end of socks5_handle_block_done, after its action. -/
theorem blockDone_reply_follows {status : Status} (sys : Sys) (k : Conn)
    (hstatus : status ≠ .inProgress)
    (hopen : (socksv5ApplyAction (match connectMarshallReply sys
        { k with requestReply := connectReplyFromErrno status } with
      | (.error, c) => (.close, { c with current := some .error })
      | (_, c) => (.write, { c with current := some .requestWrite }))).closing = false) :
    Follows (status, k) (socksv5ApplyAction (match connectMarshallReply sys
        { k with requestReply := connectReplyFromErrno status } with
      | (.error, c) => (.close, { c with current := some .error })
      | (_, c) => (.write, { c with current := some .requestWrite }))) := by
  rcases connectMarshallReply_cases sys { k with requestReply := connectReplyFromErrno status }
    with heq | ⟨b, heq⟩
  · rw [heq] at hopen
    exact absurd ((socks5ConnectionClose_closing _).symm.trans hopen) (by decide)
  · rw [heq]
    exact ⟨rfl, rfl, rfl, rfl, Or.inr ⟨hstatus, rfl, rfl⟩⟩

theorem blockDone_follows (sys : Sys) (c : Conn)
    (hopen : (socksv5BlockDone sys c).closing = false) :
    Follows (connectToOrigin sys { c with dnsPending := false }) (socksv5BlockDone sys c) := by
  unfold socksv5BlockDone socks5HandleBlockDone at hopen ⊢
  generalize connectToOrigin sys { c with dnsPending := false } = r at hopen ⊢
  obtain ⟨status, k⟩ := r
  cases status with
  | inProgress => exact ⟨rfl, rfl, rfl, rfl, Or.inl ⟨rfl, rfl⟩⟩
  | ok => exact blockDone_reply_follows sys k (by simp) hopen
  | failed e => exact blockDone_reply_follows sys k (by simp) hopen

end Handlers

section Frames

/-! The other handlers do not dial, and while they leave the connection open they
leave its origin socket alone. -/

variable {sys : Sys} {a b c c' : Conn} {u : List Call} {r : Socks5Action × Conn} {e : Event}
  {tries : List Try}

def Keeps (c c' : Conn) : Prop :=
  ∃ u, c'.trace = c.trace ++ u ∧ dialled u = [] ∧
    (c'.closing = false → c.closing = false ∧ dialCalls u = [] ∧ c'.originFd = c.originFd)

theorem keeps_of_eq (htrace : c'.trace = c.trace) (hclosing : c'.closing = c.closing)
    (hfd : c'.originFd = c.originFd) : Keeps c c' :=
  ⟨[], by rw [htrace, List.append_nil], rfl, fun h => ⟨hclosing ▸ h, rfl, hfd⟩⟩

theorem Keeps.trans (h : Keeps a b) (h' : Keeps b c) : Keeps a c := by
  obtain ⟨u, hu, hdial, hopen⟩ := h
  obtain ⟨v, hv, hdial', hopen'⟩ := h'
  refine ⟨u ++ v, by rw [hv, hu, List.append_assoc], by simp [hdial, hdial'], ?_⟩
  intro hclosing
  obtain ⟨hb, hcalls', hfd'⟩ := hopen' hclosing
  obtain ⟨ha, hcalls, hfd⟩ := hopen hb
  exact ⟨ha, by simp [hcalls, hcalls'], hfd'.trans hfd⟩

theorem keeps_log (c : Conn) (call : Call) (h : isDial call = false) : Keeps c (c.log call) := by
  refine ⟨[call], rfl, ?_, fun hclosing => ⟨hclosing, ?_, rfl⟩⟩
  · cases call <;> first | rfl | exact absurd h (by simp [isDial])
  · simp [dialCalls, h]

theorem keeps_interest (c : Conn) (side : Side) (i : FdInterest) :
    Keeps c (selectorSetInterest c side i) := by
  cases side <;> exact keeps_of_eq rfl rfl rfl

theorem keeps_setInbound (c : Conn) (side : Side) (b : ByteBuffer.Buffer) :
    Keeps c (setInbound c side b) := by
  cases side <;> exact keeps_of_eq rfl rfl rfl

theorem keeps_setEof (c : Conn) (side : Side) : Keeps c (setEof c side) := by
  cases side <;> exact keeps_of_eq rfl rfl rfl

theorem originClose_trace (c : Conn) :
    ∃ u, (originClose c).trace = c.trace ++ u ∧ dialled u = [] := by
  unfold originClose
  dsimp only
  split <;> split <;>
    first
      | exact ⟨[.close .origin], rfl, rfl⟩
      | exact ⟨[], (List.append_nil _).symm, rfl⟩

theorem clientClose_trace (c : Conn) :
    ∃ u, (clientClose c).trace = c.trace ++ u ∧ dialled u = [] := by
  unfold clientClose clientUnregister
  dsimp only
  split <;> split <;>
    first
      | exact ⟨[.close .client], rfl, rfl⟩
      | exact ⟨[], (List.append_nil _).symm, rfl⟩

theorem socks5ConnectionClose_trace (c : Conn) :
    ∃ u, (socks5ConnectionClose c).trace = c.trace ++ u ∧ dialled u = [] := by
  unfold socks5ConnectionClose
  split
  · exact ⟨[], (List.append_nil _).symm, rfl⟩
  · obtain ⟨u, hu, hdial⟩ := clientClose_trace { c with closing := true, cancelled := true }
    obtain ⟨v, hv, hdial'⟩ :=
      originClose_trace (clientClose { c with closing := true, cancelled := true })
    exact ⟨u ++ v, by rw [hv, hu, List.append_assoc], by simp [hdial, hdial']⟩

theorem keeps_close (c : Conn) : Keeps c (socks5ConnectionClose c) := by
  obtain ⟨u, hu, hdial⟩ := socks5ConnectionClose_trace c
  refine ⟨u, hu, hdial, ?_⟩
  intro hopen
  exact absurd ((socks5ConnectionClose_closing c).symm.trans hopen) (by decide)

theorem keeps_closeOn (h : Keeps c r.2) : Keeps c (closeOn r) := by
  obtain ⟨action, k⟩ := r
  cases action <;> first | exact h | exact h.trans (keeps_close k)

theorem keeps_apply (h : Keeps c r.2) :
    Keeps c (socksv5ApplyAction r) := by
  obtain ⟨action, k⟩ := r
  cases action
  · exact h
  · exact h.trans (keeps_interest k .client OP_NOOP)
  · exact h.trans (keeps_interest k .client OP_READ)
  · exact h.trans (keeps_interest k .client OP_WRITE)
  · exact h.trans (keeps_close k)

theorem keeps_relayFlush (sys : Sys) (side : Side) (c : Conn) : Keeps c (relayFlush sys side c).2 := by
  unfold relayFlush
  dsimp only
  split
  · exact keeps_of_eq rfl rfl rfl
  have hlog := keeps_log c (.write (other side) (bufferReadPtr (inbound c side)) sys.write) rfl
  split
  · split
    · exact hlog.trans (keeps_setInbound _ _ _)
    · exact hlog
  · exact hlog
  · exact hlog

theorem keeps_shutdown (c : Conn) (side : Side) : Keeps c (relayShutdownWriteSide c side) := by
  unfold relayShutdownWriteSide
  split
  · exact keeps_of_eq rfl rfl rfl
  · cases side
    · exact ⟨[.shutdown .client], rfl, rfl, fun h => ⟨h, rfl, rfl⟩⟩
    · exact ⟨[.shutdown .origin], rfl, rfl, fun h => ⟨h, rfl, rfl⟩⟩

theorem keeps_relayShouldClose (c : Conn) : Keeps c (relayShouldClose c).2 := by
  have hif : ∀ (p : Bool) (k : Conn) (side : Side),
      Keeps k (if p then relayShutdownWriteSide k side else k) := by
    intro p k side
    split
    · exact keeps_shutdown k side
    · exact keeps_of_eq rfl rfl rfl
  exact (hif _ c .origin).trans (hif _ _ .client)

theorem keeps_relayUpdateInterests (c : Conn) : Keeps c (relayUpdateInterests c) :=
  (keeps_interest c .client _).trans (keeps_interest _ .origin _)

theorem keeps_relayFinish (c : Conn) : Keeps c (relayFinish c).2 := by
  have hclose := keeps_relayShouldClose c
  unfold relayFinish
  split
  next k heq =>
    rw [heq] at hclose
    exact hclose
  next k heq =>
    rw [heq] at hclose
    exact hclose.trans (keeps_relayUpdateInterests k)

theorem keeps_relayWrite (sys : Sys) (side : Side) (c : Conn) : Keeps c (relayWrite sys side c).2 := by
  have hflush := keeps_relayFlush sys (other side) c
  unfold relayWrite
  split
  next k heq =>
    rw [heq] at hflush
    exact hflush
  next k heq =>
    rw [heq] at hflush
    exact hflush.trans (keeps_relayFinish k)

theorem keeps_relayRead (sys : Sys) (side : Side) (c : Conn) : Keeps c (relayRead sys side c).2 := by
  unfold relayRead
  dsimp only
  have hlog := keeps_log c (.read side (bufferWritePtr (inbound c side)) sys.read) rfl
  split
  next l heq =>
    split
    · have hput := hlog.trans (keeps_setInbound _ side (bufferPut (inbound c side) l.val l.property))
      have hflush := hput.trans (keeps_relayFlush sys side _)
      split
      next k heq =>
        rw [heq] at hflush
        exact hflush
      next k heq =>
        rw [heq] at hflush
        exact hflush.trans (keeps_relayFinish k)
    · exact (hlog.trans (keeps_setEof _ side)).trans (keeps_relayFinish _)
  · exact hlog.trans (keeps_relayFinish _)
  · exact hlog

/-- The write callback of REQUEST_WRITE. -/
theorem keeps_requestWrite (c : Conn) : Keeps c (requestWrite c).2 := by
  unfold requestWrite
  split
  · exact keeps_of_eq rfl rfl rfl
  split
  · exact keeps_of_eq rfl rfl rfl
  · have hlog := keeps_log c (.accessLogAdd (cString c.auth.uname.toList)
      (requestDestination c.request) (requestPort c.request)) rfl
    have hstart : ∀ k : Conn, Keeps k (startRelay k).2 := by
      intro k
      unfold startRelay
      dsimp only
      have hreset : Keeps k { k with
          relayStarted := true, clientEof := false, originEof := false
          clientWriteShutdown := false, originWriteShutdown := false
          readBuffer := bufferReset k.readBuffer, writeBuffer := bufferReset k.writeBuffer } :=
        keeps_of_eq rfl rfl rfl
      exact (hreset.trans (keeps_log _ .startRelay rfl)).trans
        (keeps_relayUpdateInterests _)
    exact hlog.trans (hstart _)

theorem jump_requestWrite (sys : Sys) (k : Conn) :
    (jump (stm sys) .requestWrite (requestWrite k).1 (requestWrite k).2).2 = (requestWrite k).2 := by
  unfold requestWrite
  split
  · rfl
  split <;> rfl

theorem keeps_actionAfter {r : Socks5State × Conn} (h : Keeps c r.2) :
    Keeps c (actionAfter r).2 := by
  obtain ⟨state, k⟩ := r
  have hcurrent : Keeps c { k with current := some state } := h.trans (keeps_of_eq rfl rfl rfl)
  unfold actionAfter
  dsimp only
  split
  · exact hcurrent
  split
  · exact hcurrent
  split
  · exact hcurrent
  split <;> exact hcurrent

theorem keeps_handleWrite (sys : Sys) (hcur : c.current = some .requestWrite)
    (h : socks5HandleWrite sys c = some r) : Keeps c r.2 := by
  have heq : socks5HandleWrite sys c = some (actionAfter
      (jump (stm sys) .requestWrite (requestWrite c).1 (requestWrite c).2)) := by
    unfold socks5HandleWrite
    rw [hcur]
    rfl
  rw [heq, Option.some.injEq] at h
  rw [← h]
  apply keeps_actionAfter
  rw [jump_requestWrite]
  exact keeps_requestWrite c

theorem keeps_socksv5Write (sys : Sys)
    (hwrites : c.relayStarted = true ∨ c.current = some .requestWrite)
    (h : socksv5Write sys c = some c') : Keeps c c' := by
  unfold socksv5Write at h
  split at h
  next =>
    obtain rfl := Option.some.inj h
    exact keeps_apply (keeps_relayWrite sys .client c)
  next hrelay =>
  have hcur : c.current = some .requestWrite := hwrites.resolve_left hrelay
  have hlog := keeps_log c (.write .client (bufferReadPtr c.writeBuffer) sys.write) rfl
  dsimp only at h
  split at h
  next n heq =>
    split at h
    next =>
      obtain rfl := Option.some.inj h
      exact hlog.trans (keeps_close _)
    have hadv : Keeps c { c.log (.write .client (bufferReadPtr c.writeBuffer) sys.write) with
        writeBuffer := bufferReadAdv c.writeBuffer n.val (by
          rw [Int.toNat_natCast]
          exact n.property) } := hlog.trans (keeps_of_eq rfl rfl rfl)
    split at h
    next =>
      obtain rfl := Option.some.inj h
      exact hadv.trans (keeps_interest _ _ _)
    next =>
      obtain ⟨r, hr, rfl⟩ := Option.map_eq_some_iff.mp h
      exact hadv.trans (keeps_apply (keeps_handleWrite sys hcur hr))
  next =>
    obtain rfl := Option.some.inj h
    exact hlog.trans (keeps_interest _ _ _)
  next =>
    obtain rfl := Option.some.inj h
    exact hlog.trans (keeps_close _)

/-- In the relay every handler keeps what the walk has found. -/
theorem keeps_relay {e : Event} (hrelay : c.relayStarted = true) (hjob : c.dnsJob = .idle)
    (hstep : Step c e c') : Keeps c c' := by
  obtain ⟨hen, heq⟩ := hstep
  cases e with
  | clientRead sys =>
    have heq' : socksv5Read sys c = some c' := heq
    rw [socksv5Read, if_pos hrelay] at heq'
    obtain rfl := Option.some.inj heq'
    exact keeps_apply (keeps_relayRead sys .client c)
  | clientWrite sys => exact keeps_socksv5Write sys (Or.inl hrelay) heq
  | originRead sys =>
    obtain rfl := Option.some.inj heq
    exact keeps_closeOn (keeps_relayRead sys .origin c)
  | originWrite sys =>
    obtain rfl := Option.some.inj heq
    have hwrite : originWrite sys c = closeOn (relayWrite sys .origin c) := by
      simp [originWrite, hrelay]
    rw [hwrite]
    exact keeps_closeOn (keeps_relayWrite sys .origin c)
  | blockDone sys => exact absurd (hjob.symm.trans hen.1) (by decide)
  | dnsFinished error result queued => exact absurd (hjob.symm.trans hen) (by decide)
  | connectFinished outcome =>
    obtain rfl := Option.some.inj heq
    exact keeps_of_eq rfl rfl rfl
  | addUser name pass =>
    obtain rfl := Option.some.inj heq
    exact keeps_of_eq rfl rfl rfl
  | removeUser name =>
    obtain rfl := Option.some.inj heq
    exact keeps_of_eq rfl rfl rfl
  | forceClose =>
    obtain rfl := Option.some.inj heq
    exact keeps_close c

theorem observe_keeps (h : Keeps c c')
    (hdone : (∃ sys, e = .originWrite sys) → ∀ t ∈ tries, t.status ≠ .inProgress) :
    observe c c' e tries = tries := by
  obtain ⟨u, hu, hdial, -⟩ := h
  have hmade : ∀ sys, made sys (c'.trace.drop c.trace.length) = [] := by
    intro sys
    rw [hu, List.drop_left, made, hdial]
    rfl
  unfold observe
  cases e with
  | originWrite sys =>
    dsimp only
    rw [hmade, List.append_nil, map_settle (hdone ⟨sys, rfl⟩)]
  | _ => simp [hmade]

theorem Keeps.dialCalls_eq (h : Keeps c c') (hopen : c'.closing = false) :
    dialCalls c'.trace = dialCalls c.trace ∧ c'.originFd = c.originFd := by
  obtain ⟨u, hu, -, hkeep⟩ := h
  obtain ⟨-, hcalls, hfd⟩ := hkeep hopen
  refine ⟨?_, hfd⟩
  rw [hu, dialCalls_append, hcalls, List.append_nil]

theorem Keeps.dialCalls_prefix (h : Keeps c c') : dialCalls c.trace <+: dialCalls c'.trace := by
  obtain ⟨u, hu, -, -⟩ := h
  rw [hu, dialCalls_append]
  exact List.prefix_append _ _

end Frames

section Lookups

/-! A lookup runs for a domain name only. -/

variable {sys : Sys} {c c' : Conn} {e : Event} {forced : Prop}

def Asks (c : Conn) : Prop := c.dnsJob = .resolving → c.request.atyp = SOCKS5_ATYP_DOMAINNAME

theorem asks_registerOriginConnect (a : Attempt) (addr : SockAddr) (h : Asks c) :
    Asks (registerOriginConnect a addr c).2 := by
  unfold registerOriginConnect
  dsimp only
  split
  · exact h
  split
  · exact h
  split
  · split <;> exact h
  · exact h
  · split <;> exact h

theorem asks_resolvedLoop (sys : Sys) (n : ℕ) (lastError : Errno) (ais : List AddrInfo)
    (h : Asks c) : Asks (resolvedLoop sys n lastError ais c).2 := by
  induction ais generalizing n lastError c with
  | nil => exact h
  | cons ai rest ih =>
    have hnext : Asks { c with dnsNext := rest } := h
    have hone := asks_registerOriginConnect (sys.attempt n) ai.addr hnext
    unfold resolvedLoop
    dsimp only
    split
    · split
      next e k heq =>
        rw [heq] at hone
        exact ih (n + 1) e hone
      next status k hne heq =>
        rw [heq] at hone
        exact hone
    · exact ih n lastError hnext

theorem asks_startResolvedConnect (sys : Sys) (h : Asks c) :
    Asks (startResolvedConnect sys c).2 := by
  unfold startResolvedConnect
  split
  · exact h
  · exact asks_resolvedLoop sys 0 .EHOSTUNREACH c.dnsNext h

theorem asks_connectToOrigin (sys : Sys) (h : Asks c) : Asks (connectToOrigin sys c).2 := by
  unfold connectToOrigin
  split
  · exact asks_registerOriginConnect _ _ h
  split
  · exact asks_registerOriginConnect _ _ h
  split
  next hdomain =>
    split
    · exact h
    split
    · exact asks_startResolvedConnect sys h
    · unfold dnsResolveStart
      dsimp only
      split
      · exact h
      · exact h
      · exact fun _ => hdomain
  · exact h

theorem asks_connectMarshallReply (sys : Sys) (h : Asks c) :
    Asks (connectMarshallReply sys c).2 := by
  rcases connectMarshallReply_cases sys c with heq | ⟨b, heq⟩ <;> rw [heq] <;> exact h

theorem asks_originConnectReply (sys : Sys) (h : Asks c) : Asks (originConnectReply sys c) := by
  unfold originConnectReply
  rcases connectMarshallReply_cases sys c with heq | ⟨b, heq⟩ <;> rw [heq] <;> exact h

theorem asks_originConnectWriteHandler (sys : Sys) (h : Asks c) :
    Asks (originConnectWriteHandler sys c) := by
  unfold originConnectWriteHandler
  dsimp only
  have hdrop : ∀ k : Conn, Asks k → Asks (originConnectDrop k) := by
    intro k hk
    unfold originConnectDrop
    dsimp only
    split <;> split <;> exact hk
  split
  · split
    · have hst := asks_startResolvedConnect sys
        (hdrop { c with requestReply := connectReplyFromErrno (originConnectError sys c) } h)
      unfold originConnectNext
      split
      next k heq =>
        rw [heq] at hst
        exact hst
      next status k hne heq =>
        rw [heq] at hst
        exact asks_originConnectReply sys hst
    · exact asks_originConnectReply sys (hdrop _ h)
  · exact asks_originConnectReply sys h

theorem asks_close (h : Asks c) : Asks (socks5ConnectionClose c) := by
  have hclient : ∀ k : Conn, Asks k → Asks (clientClose k) := by
    intro k hk
    unfold clientClose clientUnregister
    dsimp only
    split <;> split <;> exact hk
  have horigin : ∀ k : Conn, Asks k → Asks (originClose k) := by
    intro k hk
    unfold originClose
    dsimp only
    split <;> split <;> exact hk
  unfold socks5ConnectionClose
  split
  · exact h
  · exact horigin _ (hclient _ h)

theorem asks_apply {r : Socks5Action × Conn} (h : Asks r.2) : Asks (socksv5ApplyAction r) := by
  obtain ⟨action, k⟩ := r
  cases action
  case close => exact asks_close h
  all_goals exact h

theorem asks_blockDone (sys : Sys) (h : Asks c) : Asks (socksv5BlockDone sys c) := by
  have hconn := asks_connectToOrigin (c := { c with dnsPending := false }) sys h
  unfold socksv5BlockDone
  apply asks_apply
  unfold socks5HandleBlockDone
  split
  next k heq =>
    rw [heq] at hconn
    exact hconn
  next status k hne heq =>
    rw [heq] at hconn
    have hreply := asks_connectMarshallReply
      (c := { k with requestReply := connectReplyFromErrno status }) sys hconn
    split
    next m hm =>
      rw [hm] at hreply
      exact hreply
    next st m hm' hm =>
      rw [hm] at hreply
      exact hreply

theorem asks_decided {m : List UInt8} (hjob : c.dnsJob = .idle) (h : Decided c c' sys m) :
    Asks c' := by
  obtain ⟨b, t, rfl⟩ := h
  have hstart : Asks { c with readBuffer := b, request := requestSeen m, trace := t } := by
    intro hres
    exact absurd (hjob.symm.trans hres) (by decide)
  have hafter : ∀ r : Socks5State × Conn, Asks r.2 → Asks (actionAfter r).2 := by
    rintro ⟨st, k⟩ hk
    unfold actionAfter
    dsimp only
    split
    · exact hk
    split
    · exact hk
    split
    · exact hk
    split <;> exact hk
  apply asks_apply
  apply hafter
  have hconn := asks_connectToOrigin sys hstart
  unfold requestDecide
  split
  · exact asks_connectMarshallReply sys hstart
  split
  · exact asks_connectMarshallReply sys hstart
  split
  next k heq =>
    rw [heq] at hconn
    exact hconn
  next status k hne heq =>
    rw [heq] at hconn
    exact asks_connectMarshallReply sys hconn

/-- The step lemma: a lookup is started by a request, or by its own result. -/
theorem asks_step {a b : Conn} (h : Phase forced a) (h' : Phase forced b)
    (hasks : a.closing = false → Asks a) (hstep : Step a e b) : b.closing = false → Asks b := by
  intro hopen hres
  have hrelay : b.relayStarted = false := by
    by_contra hrelay
    obtain ⟨t, -, hrel⟩ := relaying_of_open h' hopen (by simpa using hrelay)
    exact absurd (hrel.running.job_eq.symm.trans hres) (by decide)
  obtain ⟨s, s', hfits, -, hfits', hturn⟩ := turn_of_step h hstep hopen hrelay
  obtain ⟨l, atyp, address, port, rfl, -⟩ := queued_connecting hfits' (by rw [hres]; decide)
  revert hres
  show Asks b
  have hbefore := hasks hfits.closing_eq
  cases hturn with
  | wait hbuffer hsock =>
    obtain ⟨hen, heq⟩ := hstep
    have hitem : a.clientItem = some OP_NOOP := hfits.clientItem_eq
    cases e with
    | clientRead sys => exact absurd hen (not_armed_noop hitem rfl)
    | clientWrite sys => exact absurd hen (not_armed_noop hitem rfl)
    | originRead sys =>
      obtain ⟨i, hi, hread⟩ := hen
      have hne : i ≠ OP_NOOP := by
        rintro rfl
        exact absurd hread (by decide)
      obtain ⟨-, -, -, -, -, horigin, -⟩ := armed_connecting hfits hi hne
      obtain rfl := Option.some.inj (horigin.2.1.symm.trans hi)
      exact absurd hread (by decide)
    | originWrite sys =>
      obtain rfl := Option.some.inj heq
      have hhandler : originWrite sys a = originConnectWriteHandler sys a := by
        simp [originWrite, hfits.relay_eq]
      rw [hhandler]
      exact asks_originConnectWriteHandler sys hbefore
    | blockDone sys =>
      obtain rfl := Option.some.inj heq
      exact asks_blockDone sys fun hidle => absurd hidle (by simp)
    | dnsFinished error result queued =>
      obtain rfl := Option.some.inj heq
      unfold dnsWorkerStore
      split <;> exact fun _ => hbefore hen
    | connectFinished outcome =>
      obtain rfl := Option.some.inj heq
      exact hbefore
    | addUser name pass =>
      obtain rfl := Option.some.inj heq
      exact hbefore
    | removeUser name =>
      obtain rfl := Option.some.inj heq
      exact hbefore
    | forceClose =>
      obtain rfl := Option.some.inj heq
      exact asks_close hbefore
  | requestDialed htook hsplit hdecided =>
    obtain ⟨-, -, -, -, -, -, hdns, -⟩ := hfits.parsed
    exact asks_decided hdns.1 hdecided

end Lookups

end SocksProxy.DialFrames
