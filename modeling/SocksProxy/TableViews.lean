import SocksProxy.Connection

/-!
What a connection does with the user table. No handler changes it, and whatever
a handler looks up it looks up in the table as it is.
-/
namespace SocksProxy.TableViews

open ByteBuffer Hello Auth Request UserTable Kernel Stm ConnState Connect Connection

variable {sys : Sys} {a b c c' : Conn} {e : Event}

/-- The table is the same, and the new lookups were made in it. -/
def Consults (c c' : Conn) : Prop :=
  c'.users = c.users ∧ ∃ u, c'.trace = c.trace ++ u ∧
    ∀ t name pass, .lookup t name pass ∈ u → t = c.users

theorem consults_of_eq (husers : c'.users = c.users) (htrace : c'.trace = c.trace) :
    Consults c c' := ⟨husers, [], by rw [htrace, List.append_nil], by simp⟩

theorem Consults.trans (h : Consults a b) (h' : Consults b c) : Consults a c := by
  obtain ⟨hb, u, hu, hlooked⟩ := h
  obtain ⟨hc, v, hv, hlooked'⟩ := h'
  refine ⟨hc.trans hb, u ++ v, by rw [hv, hu, List.append_assoc], ?_⟩
  intro t name pass hmem
  rcases List.mem_append.mp hmem with hmem | hmem
  · exact hlooked t name pass hmem
  · exact (hlooked' t name pass hmem).trans hb

/-- The call is not a lookup, or one in the table as it is. -/
theorem consults_log (c : Conn) (call : Call)
    (hcall : ∀ t name pass, call = .lookup t name pass → t = c.users) :
    Consults c (c.log call) := by
  refine ⟨rfl, [call], rfl, ?_⟩
  intro t name pass hmem
  exact hcall t name pass (List.mem_singleton.mp hmem).symm

section Selector

theorem consults_interest (c : Conn) (side : Side) (i : FdInterest) :
    Consults c (selectorSetInterest c side i) := by
  cases side <;> exact consults_of_eq rfl rfl

theorem consults_clientClose (c : Conn) : Consults c (clientClose c) := by
  have hunregister : Consults c (clientUnregister c) := by
    unfold clientUnregister
    split <;> exact consults_of_eq rfl rfl
  unfold clientClose
  dsimp only
  split
  · have hcleared : Consults (clientUnregister c) { clientUnregister c with clientFd := none } :=
      consults_of_eq rfl rfl
    exact (hunregister.trans hcleared).trans (consults_log _ _ (by simp))
  · exact hunregister

theorem consults_originClose (c : Conn) : Consults c (originClose c) := by
  unfold originClose
  dsimp only
  split <;> split <;>
    first
      | exact ⟨rfl, [.close .origin], rfl, by simp⟩
      | exact consults_of_eq rfl rfl

theorem consults_close (c : Conn) : Consults c (socks5ConnectionClose c) := by
  unfold socks5ConnectionClose
  split
  · exact consults_of_eq rfl rfl
  · have hflags : Consults c { c with closing := true, cancelled := true } :=
      consults_of_eq rfl rfl
    exact (hflags.trans (consults_clientClose _)).trans (consults_originClose _)

theorem consults_apply {r : Socks5Action × Conn} (h : Consults c r.2) :
    Consults c (socksv5ApplyAction r) := by
  obtain ⟨action, k⟩ := r
  cases action
  · exact h
  · exact h.trans (consults_interest k .client OP_NOOP)
  · exact h.trans (consults_interest k .client OP_READ)
  · exact h.trans (consults_interest k .client OP_WRITE)
  · exact h.trans (consults_close k)

theorem consults_closeOn {r : Socks5Action × Conn} (h : Consults c r.2) :
    Consults c (closeOn r) := by
  obtain ⟨action, k⟩ := r
  cases action <;> first | exact h | exact h.trans (consults_close k)

end Selector

section Dialing

theorem consults_register (x : Attempt) (addr : SockAddr) (c : Conn) :
    Consults c (registerOriginConnect x addr c).2 := by
  unfold registerOriginConnect
  dsimp only
  have hlog := consults_log c (.registerOriginConnect addr) (by simp)
  have hclosed := hlog.trans (consults_log (c.log (.registerOriginConnect addr)) (.close .origin)
    (by simp))
  split
  · exact hlog
  split
  · exact hclosed
  split
  · split
    · exact hlog.trans (consults_of_eq rfl rfl)
    · exact hclosed.trans (consults_of_eq rfl rfl)
  · exact hclosed
  · split
    · exact hlog.trans (consults_of_eq rfl rfl)
    · exact hclosed.trans (consults_of_eq rfl rfl)

theorem consults_resolvedLoop (sys : Sys) (n : ℕ) (lastError : Errno) (ais : List AddrInfo)
    (c : Conn) : Consults c (resolvedLoop sys n lastError ais c).2 := by
  induction ais generalizing n lastError c with
  | nil => exact consults_of_eq rfl rfl
  | cons ai ais ih =>
    have hnext : Consults c { c with dnsNext := ais } := consults_of_eq rfl rfl
    have hone := hnext.trans (consults_register (sys.attempt n) ai.addr _)
    unfold resolvedLoop
    dsimp only
    split
    · split
      next e k heq =>
        rw [heq] at hone
        exact hone.trans (ih (n + 1) e k)
      next status k _ heq =>
        rw [heq] at hone
        exact hone
    · exact hnext.trans (ih n lastError _)

theorem consults_startResolvedConnect (sys : Sys) (c : Conn) :
    Consults c (startResolvedConnect sys c).2 := by
  unfold startResolvedConnect
  split
  · exact consults_of_eq rfl rfl
  · exact consults_resolvedLoop sys 0 .EHOSTUNREACH c.dnsNext c

theorem consults_connectToOrigin (sys : Sys) (c : Conn) :
    Consults c (connectToOrigin sys c).2 := by
  unfold connectToOrigin
  split
  · exact consults_register _ _ c
  split
  · exact consults_register _ _ c
  split
  · split
    · exact consults_of_eq rfl rfl
    split
    · exact consults_startResolvedConnect sys c
    · have hlog := consults_log c
        (.dnsResolveStart (requestHost c.request) (requestPort c.request)) (by simp)
      unfold dnsResolveStart
      dsimp only
      split
      · exact hlog
      · exact hlog.trans (consults_of_eq rfl rfl)
      · exact hlog.trans (consults_of_eq rfl rfl)
  · exact consults_of_eq rfl rfl

theorem consults_marshall (sys : Sys) (c : Conn) : Consults c (connectMarshallReply sys c).2 := by
  unfold connectMarshallReply
  dsimp only
  split <;> exact consults_of_eq rfl rfl

theorem consults_originConnectReply (sys : Sys) (c : Conn) :
    Consults c (originConnectReply sys c) := by
  have hreply := consults_marshall sys c
  unfold originConnectReply
  split
  next k heq =>
    rw [heq] at hreply
    have hstate : Consults k { k with current := some .error } := consults_of_eq rfl rfl
    exact (hreply.trans hstate).trans (consults_interest _ _ _)
  next k _ heq =>
    rw [heq] at hreply
    have hstate : Consults k { k with current := some .requestWrite } := consults_of_eq rfl rfl
    exact (hreply.trans hstate).trans (consults_interest _ _ _)

theorem consults_originConnectWriteHandler (sys : Sys) (c : Conn) :
    Consults c (originConnectWriteHandler sys c) := by
  unfold originConnectWriteHandler
  dsimp only
  generalize connectReplyFromErrno (originConnectError sys c) = code
  have hcode : Consults c { c with requestReply := code } := consults_of_eq rfl rfl
  split
  · have hdrop : Consults c (originConnectDrop { c with requestReply := code }) :=
      hcode.trans (consults_originClose _)
    generalize originConnectDrop { c with requestReply := code } = k at hdrop
    split
    · have hnext := hdrop.trans (consults_startResolvedConnect sys k)
      unfold originConnectNext
      split
      next k' heq =>
        rw [heq] at hnext
        exact hnext
      next status k' _ heq =>
        rw [heq] at hnext
        have hstored : Consults k' { k' with requestReply := connectReplyFromErrno status } :=
          consults_of_eq rfl rfl
        exact (hnext.trans hstored).trans (consults_originConnectReply sys _)
    · exact hdrop.trans (consults_originConnectReply sys k)
  · exact (hcode.trans (consults_interest _ _ _)).trans (consults_originConnectReply sys _)

end Dialing

section Relay

theorem consults_setInbound (c : Conn) (side : Side) (b : Buffer) :
    Consults c (setInbound c side b) := by
  cases side <;> exact consults_of_eq rfl rfl

theorem consults_relayFlush (sys : Sys) (source : Side) (c : Conn) :
    Consults c (relayFlush sys source c).2 := by
  unfold relayFlush
  dsimp only
  split
  · exact consults_of_eq rfl rfl
  have hlog := consults_log c (.write (other source) (bufferReadPtr (inbound c source)) sys.write)
    (by simp)
  split
  · split
    · exact hlog.trans (consults_setInbound _ _ _)
    · exact hlog
  · exact hlog
  · exact hlog

theorem consults_shutdown (c : Conn) (side : Side) :
    Consults c (relayShutdownWriteSide c side) := by
  unfold relayShutdownWriteSide
  split
  · exact consults_of_eq rfl rfl
  · cases side
    · exact ⟨rfl, [.shutdown .client], rfl, by simp⟩
    · exact ⟨rfl, [.shutdown .origin], rfl, by simp⟩

theorem consults_relayUpdateInterests (c : Conn) : Consults c (relayUpdateInterests c) :=
  (consults_interest c .client _).trans (consults_interest _ .origin _)

theorem consults_relayFinish (c : Conn) : Consults c (relayFinish c).2 := by
  have hif : ∀ (p : Bool) (k : Conn) (side : Side),
      Consults k (if p then relayShutdownWriteSide k side else k) := by
    intro p k side
    split
    · exact consults_shutdown k side
    · exact consults_of_eq rfl rfl
  have hclose : Consults c (relayShouldClose c).2 := (hif _ c .origin).trans (hif _ _ .client)
  unfold relayFinish
  split
  next k heq =>
    rw [heq] at hclose
    exact hclose
  next k heq =>
    rw [heq] at hclose
    exact hclose.trans (consults_relayUpdateInterests k)

theorem consults_relayWrite (sys : Sys) (side : Side) (c : Conn) :
    Consults c (relayWrite sys side c).2 := by
  have hflush := consults_relayFlush sys (other side) c
  unfold relayWrite
  split
  next k heq =>
    rw [heq] at hflush
    exact hflush
  next k heq =>
    rw [heq] at hflush
    exact hflush.trans (consults_relayFinish k)

theorem consults_relayRead (sys : Sys) (side : Side) (c : Conn) :
    Consults c (relayRead sys side c).2 := by
  unfold relayRead
  dsimp only
  have hlog := consults_log c (.read side (bufferWritePtr (inbound c side)) sys.read) (by simp)
  have heof : ∀ k : Conn, Consults k (setEof k side) := by
    intro k
    cases side <;> exact consults_of_eq rfl rfl
  split
  next l heq =>
    split
    · have hput := hlog.trans
        (consults_setInbound _ side (bufferPut (inbound c side) l.val l.property))
      have hflush := hput.trans (consults_relayFlush sys side _)
      split
      next k heq =>
        rw [heq] at hflush
        exact hflush
      next k heq =>
        rw [heq] at hflush
        exact hflush.trans (consults_relayFinish k)
    · exact (hlog.trans (heof _)).trans (consults_relayFinish _)
  · exact hlog.trans (consults_relayFinish _)
  · exact hlog

theorem consults_requestWrite (c : Conn) : Consults c (requestWrite c).2 := by
  unfold requestWrite
  split
  · exact consults_of_eq rfl rfl
  split
  · exact consults_of_eq rfl rfl
  · have hlog := consults_log c (.accessLogAdd (cString c.auth.uname.toList)
      (requestDestination c.request) (requestPort c.request)) (by simp)
    have hstart : ∀ k : Conn, Consults k (startRelay k).2 := by
      intro k
      have hreset : Consults k { k with
          relayStarted := true, clientEof := false, originEof := false
          clientWriteShutdown := false, originWriteShutdown := false
          readBuffer := bufferReset k.readBuffer, writeBuffer := bufferReset k.writeBuffer } :=
        consults_of_eq rfl rfl
      exact (hreset.trans (consults_log _ .startRelay (by simp))).trans
        (consults_relayUpdateInterests _)
    exact hlog.trans (hstart _)

end Relay

section Negotiation

theorem consults_helloRead (c : Conn) : Consults c (helloRead c).2 := by
  unfold helloRead
  dsimp only
  split
  · exact consults_of_eq rfl rfl
  split
  · exact consults_of_eq rfl rfl
  split <;> exact consults_of_eq rfl rfl

theorem consults_helloWrite (c : Conn) : Consults c (helloWrite c).2 := by
  unfold helloWrite
  split
  · exact consults_of_eq rfl rfl
  split <;> exact consults_of_eq rfl rfl

theorem consults_authWrite (c : Conn) : Consults c (authWrite c).2 := by
  unfold authWrite
  split
  · exact consults_of_eq rfl rfl
  split <;> exact consults_of_eq rfl rfl

/-- The only lookup is that of credentials_match. -/
theorem consults_authRead (c : Conn) : Consults c (authRead c).2 := by
  unfold authRead
  dsimp only
  generalize authConsume c.readBuffer c.auth = r
  obtain ⟨b, p, error⟩ := r
  dsimp only
  have hread : Consults c { c with readBuffer := b, auth := p } := consults_of_eq rfl rfl
  split
  · exact hread
  split
  · exact hread
  have hfound := hread.trans (consults_log { c with readBuffer := b, auth := p }
    (.lookup c.users (cString p.uname.toList) (cString p.passwd.toList)) (by
      intro t name pass heq
      injection heq with husers
      exact husers.symm))
  split
  · exact hfound.trans (consults_of_eq rfl rfl)
  · exact hfound.trans (consults_of_eq rfl rfl)

theorem consults_requestRead (sys : Sys) (c : Conn) : Consults c (requestRead sys c).2 := by
  unfold requestRead
  dsimp only
  generalize requestConsume c.readBuffer c.request = r
  obtain ⟨b, p, error⟩ := r
  dsimp only
  have hread : Consults c { c with readBuffer := b, request := p } := consults_of_eq rfl rfl
  have hreply : ∀ (k : Conn) (code : UInt8),
      Consults k (connectMarshallReply sys { k with requestReply := code }).2 := by
    intro k code
    have hcode : Consults k { k with requestReply := code } := consults_of_eq rfl rfl
    exact hcode.trans (consults_marshall sys _)
  split
  · exact hread.trans (hreply _ _)
  split
  · exact hread
  split
  · exact hread.trans (hreply _ _)
  have hdial := hread.trans (consults_connectToOrigin sys _)
  split
  next k heq =>
    rw [heq] at hdial
    exact hdial
  next status k _ heq =>
    rw [heq] at hdial
    exact hdial.trans (hreply _ _)

theorem consults_arrive (sys : Sys) (s : Socks5State) (c : Conn) :
    Consults c (arrive (stm sys) s c) := by
  cases s <;> exact consults_of_eq rfl rfl

theorem consults_jump (sys : Sys) (s : Socks5State) {r : Socks5State × Conn}
    (h : Consults c r.2) : Consults c (jump (stm sys) s r.1 r.2).2 := by
  have hdepart : depart (stm sys) s r.2 = r.2 := by cases s <;> rfl
  unfold jump
  rw [hdepart]
  split
  · exact h.trans (consults_arrive sys _ _)
  · exact h

theorem consults_handleFirst (sys : Sys) (c : Conn) :
    Consults c (handleFirst (stm sys) c.current c).2 := by
  unfold handleFirst
  split
  · exact consults_of_eq rfl rfl
  · exact consults_arrive sys _ c

theorem consults_stmHandlerRead (sys : Sys) {r : Socks5State × Conn}
    (h : stmHandlerRead (stm sys) c.current c = some r) : Consults c r.2 := by
  have hfirst := consults_handleFirst sys c
  unfold stmHandlerRead at h
  generalize handleFirst (stm sys) c.current c = first at h hfirst
  obtain ⟨s, k⟩ := first
  cases s with
  | helloRead =>
    obtain rfl := Option.some.inj h
    exact consults_jump sys _ (hfirst.trans (consults_helloRead k))
  | authRead =>
    obtain rfl := Option.some.inj h
    exact consults_jump sys _ (hfirst.trans (consults_authRead k))
  | requestRead =>
    obtain rfl := Option.some.inj h
    exact consults_jump sys _ (hfirst.trans (consults_requestRead sys k))
  | _ => cases h

theorem consults_stmHandlerWrite (sys : Sys) {r : Socks5State × Conn}
    (h : stmHandlerWrite (stm sys) c.current c = some r) : Consults c r.2 := by
  have hfirst := consults_handleFirst sys c
  unfold stmHandlerWrite at h
  generalize handleFirst (stm sys) c.current c = first at h hfirst
  obtain ⟨s, k⟩ := first
  cases s with
  | helloWrite =>
    obtain rfl := Option.some.inj h
    exact consults_jump sys _ (hfirst.trans (consults_helloWrite k))
  | authWrite =>
    obtain rfl := Option.some.inj h
    exact consults_jump sys _ (hfirst.trans (consults_authWrite k))
  | requestWrite =>
    obtain rfl := Option.some.inj h
    exact consults_jump sys _ (hfirst.trans (consults_requestWrite k))
  | _ => cases h

theorem consults_actionAfter {r : Socks5State × Conn} (h : Consults c r.2) :
    Consults c (actionAfter r).2 := by
  obtain ⟨state, k⟩ := r
  have hcurrent : Consults c { k with current := some state } := h.trans (consults_of_eq rfl rfl)
  unfold actionAfter
  dsimp only
  split
  · exact hcurrent
  split
  · exact hcurrent
  split
  · exact hcurrent
  split <;> exact hcurrent

end Negotiation

section Handlers

theorem consults_socksv5Read (sys : Sys) (h : socksv5Read sys c = some c') : Consults c c' := by
  unfold socksv5Read at h
  split at h
  next =>
    obtain rfl := Option.some.inj h
    exact consults_apply (consults_relayRead sys .client c)
  next =>
  have hlog := consults_log c (.read .client (bufferWritePtr c.readBuffer) sys.read) (by simp)
  dsimp only at h
  split at h
  next l heq =>
    split at h
    next =>
      obtain rfl := Option.some.inj h
      exact hlog.trans (consults_close _)
    next =>
      obtain ⟨r, hr, rfl⟩ := Option.map_eq_some_iff.mp h
      obtain ⟨q, hq, rfl⟩ := Option.map_eq_some_iff.mp hr
      have hput : Consults c
          { c.log (.read .client (bufferWritePtr c.readBuffer) sys.read) with
            readBuffer := bufferPut c.readBuffer l.val l.property } :=
        hlog.trans (consults_of_eq rfl rfl)
      exact consults_apply (hput.trans (consults_actionAfter (consults_stmHandlerRead sys hq)))
  next =>
    obtain rfl := Option.some.inj h
    exact hlog.trans (consults_interest _ _ _)
  next =>
    obtain rfl := Option.some.inj h
    exact hlog.trans (consults_close _)

theorem consults_socksv5Write (sys : Sys) (h : socksv5Write sys c = some c') : Consults c c' := by
  unfold socksv5Write at h
  split at h
  next =>
    obtain rfl := Option.some.inj h
    exact consults_apply (consults_relayWrite sys .client c)
  next =>
  have hlog := consults_log c (.write .client (bufferReadPtr c.writeBuffer) sys.write) (by simp)
  dsimp only at h
  split at h
  next n heq =>
    split at h
    next =>
      obtain rfl := Option.some.inj h
      exact hlog.trans (consults_close _)
    have hadv : Consults c
        { c.log (.write .client (bufferReadPtr c.writeBuffer) sys.write) with
          writeBuffer := bufferReadAdv c.writeBuffer n.val (by
            rw [Int.toNat_natCast]
            exact n.property) } := hlog.trans (consults_of_eq rfl rfl)
    split at h
    next =>
      obtain rfl := Option.some.inj h
      exact hadv.trans (consults_interest _ _ _)
    next =>
      obtain ⟨r, hr, rfl⟩ := Option.map_eq_some_iff.mp h
      obtain ⟨q, hq, rfl⟩ := Option.map_eq_some_iff.mp hr
      exact consults_apply (hadv.trans (consults_actionAfter (consults_stmHandlerWrite sys hq)))
  next =>
    obtain rfl := Option.some.inj h
    exact hlog.trans (consults_interest _ _ _)
  next =>
    obtain rfl := Option.some.inj h
    exact hlog.trans (consults_close _)

theorem consults_blockDone (sys : Sys) (c : Conn) : Consults c (socksv5BlockDone sys c) := by
  apply consults_apply
  have hclear : Consults c { c with dnsPending := false } := consults_of_eq rfl rfl
  have hdial := hclear.trans (consults_connectToOrigin sys _)
  unfold socks5HandleBlockDone
  split
  next k heq =>
    rw [heq] at hdial
    exact hdial.trans (consults_of_eq rfl rfl)
  next status k _ heq =>
    rw [heq] at hdial
    have hcode : Consults k { k with requestReply := connectReplyFromErrno status } :=
      consults_of_eq rfl rfl
    have hreply := (hdial.trans hcode).trans (consults_marshall sys _)
    split
    next k' heq' =>
      rw [heq'] at hreply
      exact hreply.trans (consults_of_eq rfl rfl)
    next state k' _ heq' =>
      rw [heq'] at hreply
      exact hreply.trans (consults_of_eq rfl rfl)

/-- The events that are calls of user_table.c. -/
def onTable : Event → Bool
  | .addUser _ _ => true
  | .removeUser _ => true
  | _ => false

/-- Every handler consults the table. -/
theorem handle_consults (htable : onTable e = false) (h : handle c e = some c') :
    Consults c c' := by
  cases e with
  | clientRead sys => exact consults_socksv5Read sys h
  | clientWrite sys => exact consults_socksv5Write sys h
  | originRead sys =>
    obtain rfl := Option.some.inj h
    exact consults_closeOn (consults_relayRead sys .origin c)
  | originWrite sys =>
    obtain rfl := Option.some.inj h
    unfold originWrite
    split
    · exact consults_originConnectWriteHandler sys c
    · exact consults_closeOn (consults_relayWrite sys .origin c)
  | blockDone sys =>
    obtain rfl := Option.some.inj h
    have hidle : Consults c { c with dnsJob := .idle } := consults_of_eq rfl rfl
    exact hidle.trans (consults_blockDone sys _)
  | connectFinished outcome =>
    obtain rfl := Option.some.inj h
    exact consults_of_eq rfl rfl
  | dnsFinished error result queued =>
    obtain rfl := Option.some.inj h
    unfold dnsWorkerStore
    split <;> exact consults_of_eq rfl rfl
  | addUser name pass => cases htable
  | removeUser name => cases htable
  | forceClose =>
    obtain rfl := Option.some.inj h
    exact consults_close c

end Handlers

end SocksProxy.TableViews
