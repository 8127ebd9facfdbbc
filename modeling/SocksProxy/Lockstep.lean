import SocksProxy.Lifetime

/-!
What connect.c does depends on the request, the origin socket and the lookup
alone. Two connections that agree on these, and on the reply they have pending,
agree on them after the same event.
-/
namespace SocksProxy.Lockstep

open ByteBuffer ByteScan Hello Auth Request UserTable Kernel Stm ConnState Connect Connection
open Stages Dialing RequestReads

variable {c d : Conn} {sys : Sys}

/-- The connection with everything blank that connect.c does not look at. -/
def dialOf (c : Conn) : Conn :=
  { socks5Init 0 userTableInit with
    current := c.current, originFd := c.originFd, originRegistered := c.originRegistered
    originItem := c.originItem, originSock := c.originSock, clientItem := c.clientItem
    dnsError := c.dnsError, dnsResult := c.dnsResult, dnsNext := c.dnsNext
    dnsPending := c.dnsPending, dnsJob := c.dnsJob, request := c.request
    requestReply := c.requestReply, relayStarted := c.relayStarted, cancelled := c.cancelled }

/-- A field that `dialOf` keeps. -/
theorem field_of_dial {α : Type*} (f : Conn → α) (hf : ∀ c, f (dialOf c) = f c)
    (h : dialOf c = dialOf d) : f c = f d := by rw [← hf c, h, hf d]

/-- The two connections agree on what connect.c looks at, and on the bytes and
the room in their write buffers. -/
structure Alike (c d : Conn) : Prop where
  dial_eq : dialOf c = dialOf d
  pending_eq : bufferReadPtr c.writeBuffer = bufferReadPtr d.writeBuffer
  room_eq : bufferWritePtr c.writeBuffer = bufferWritePtr d.writeBuffer

/-- The two outcomes of a connect function agree. -/
structure Same (r r' : Status × Conn) : Prop where
  status_eq : r.1 = r'.1
  alike : Alike r.2 r'.2

/-- A function that looks only at what `dialOf` keeps, and leaves the write buffer. -/
structure Local (f : Conn → Status × Conn) : Prop where
  status_eq : ∀ k, (f k).1 = (f (dialOf k)).1
  dial_eq : ∀ k, dialOf (f k).2 = dialOf (f (dialOf k)).2
  buffer_eq : ∀ k, (f k).2.writeBuffer = k.writeBuffer

theorem Local.same {f : Conn → Status × Conn} (hf : Local f) (h : Alike c d) :
    Same (f c) (f d) where
  status_eq := by rw [hf.status_eq c, h.dial_eq, ← hf.status_eq d]
  alike :=
    { dial_eq := by rw [hf.dial_eq c, h.dial_eq, ← hf.dial_eq d]
      pending_eq := by
        rw [hf.buffer_eq, hf.buffer_eq]
        exact h.pending_eq
      room_eq := by
        rw [hf.buffer_eq, hf.buffer_eq]
        exact h.room_eq }

theorem registerOriginConnect_local (a : Attempt) (addr : SockAddr) :
    Local (registerOriginConnect a addr) := by
  obtain ⟨socket, nio, connect, register⟩ := a
  cases socket with
  | error e => exact ⟨fun _ => rfl, fun _ => rfl, fun _ => rfl⟩
  | ok fd =>
    cases nio with
    | some e => exact ⟨fun _ => rfl, fun _ => rfl, fun _ => rfl⟩
    | none =>
      cases connect with
      | failed e => exact ⟨fun _ => rfl, fun _ => rfl, fun _ => rfl⟩
      | ok => cases register <;> exact ⟨fun _ => rfl, fun _ => rfl, fun _ => rfl⟩
      | inProgress => cases register <;> exact ⟨fun _ => rfl, fun _ => rfl, fun _ => rfl⟩

/-- An update that gives both connections the same values. -/
theorem Alike.update (h : Alike c d) (f : Conn → Conn)
    (hf : ∀ k, dialOf (f k) = dialOf (f (dialOf k)))
    (hbuffer : ∀ k, (f k).writeBuffer = k.writeBuffer) : Alike (f c) (f d) := by
  have hlocal : Local fun k => (Status.ok, f k) := ⟨fun _ => rfl, hf, hbuffer⟩
  exact (hlocal.same h).alike

theorem resolvedLoop_same (sys : Sys) (n : ℕ) (e : Errno) (ais : List AddrInfo)
    (h : Alike c d) : Same (resolvedLoop sys n e ais c) (resolvedLoop sys n e ais d) := by
  induction ais generalizing n e c d with
  | nil => exact ⟨rfl, h⟩
  | cons ai rest ih =>
    have hnext : Alike { c with dnsNext := rest } { d with dnsNext := rest } :=
      h.update (fun k => { k with dnsNext := rest }) (fun _ => rfl) fun _ => rfl
    unfold resolvedLoop
    dsimp only
    by_cases hstream : ai.stream = true
    · rw [if_pos hstream, if_pos hstream]
      have hsame := (registerOriginConnect_local (sys.attempt n) ai.addr).same hnext
      generalize registerOriginConnect (sys.attempt n) ai.addr { c with dnsNext := rest } = r at *
      generalize registerOriginConnect (sys.attempt n) ai.addr { d with dnsNext := rest } = r' at *
      obtain ⟨status, k⟩ := r
      obtain ⟨status', k'⟩ := r'
      obtain ⟨rfl, hk⟩ := hsame
      cases status with
      | ok => exact ⟨rfl, hk⟩
      | inProgress => exact ⟨rfl, hk⟩
      | failed e => exact ih (n + 1) e hk
    · rw [if_neg hstream, if_neg hstream]
      exact ih n e hnext

theorem startResolvedConnect_same (sys : Sys) (h : Alike c d) :
    Same (startResolvedConnect sys c) (startResolvedConnect sys d) := by
  have herror := field_of_dial (fun x => x.dnsError) (fun _ => rfl) h.dial_eq
  have hresult := field_of_dial (fun x => x.dnsResult) (fun _ => rfl) h.dial_eq
  have hnext := field_of_dial (fun x => x.dnsNext) (fun _ => rfl) h.dial_eq
  unfold startResolvedConnect
  rw [herror, hresult, hnext]
  split
  · exact ⟨rfl, h⟩
  · exact resolvedLoop_same sys 0 .EHOSTUNREACH d.dnsNext h

theorem dnsResolveStart_local (sys : Sys) : Local (dnsResolveStart sys) := by
  obtain ⟨read, write, getsockopt, attempt, getsockname, spawn⟩ := sys
  cases spawn <;> exact ⟨fun _ => rfl, fun _ => rfl, fun _ => rfl⟩

theorem connectToOrigin_same (sys : Sys) (h : Alike c d) :
    Same (connectToOrigin sys c) (connectToOrigin sys d) := by
  have hrequest := field_of_dial (fun x => x.request) (fun _ => rfl) h.dial_eq
  have hpending := field_of_dial (fun x => x.dnsPending) (fun _ => rfl) h.dial_eq
  have herror := field_of_dial (fun x => x.dnsError) (fun _ => rfl) h.dial_eq
  have hresult := field_of_dial (fun x => x.dnsResult) (fun _ => rfl) h.dial_eq
  unfold connectToOrigin startIpv4Connect startIpv6Connect
  rw [hrequest, hpending, herror, hresult]
  split
  · exact (registerOriginConnect_local _ _).same h
  split
  · exact (registerOriginConnect_local _ _).same h
  split
  · split
    · exact ⟨rfl, h⟩
    split
    · exact startResolvedConnect_same sys h
    · exact (dnsResolveStart_local sys).same h
  · exact ⟨rfl, h⟩

/-- The address that the reply carries. -/
def boundAddress (sys : Sys) (c : Conn) : Option (SockAddr × ℕ) :=
  if c.requestReply = SOCKS5_REPLY_SUCCEEDED ∧ c.originFd.isSome then sys.getsockname else none

theorem boundAddress_eq (sys : Sys) (h : Alike c d) : boundAddress sys c = boundAddress sys d := by
  have hreply := field_of_dial (fun x => x.requestReply) (fun _ => rfl) h.dial_eq
  have hfd := field_of_dial (fun x => x.originFd) (fun _ => rfl) h.dial_eq
  unfold boundAddress
  rw [hreply, hfd]

/-- The same reply is stored, if there is room for it. -/
theorem connectMarshallReply_same (sys : Sys) (h : Alike c d) :
    (connectMarshallReply sys c).1 = (connectMarshallReply sys d).1 ∧
      Alike (connectMarshallReply sys c).2 (connectMarshallReply sys d).2 := by
  have hreply := field_of_dial (fun x => x.requestReply) (fun _ => rfl) h.dial_eq
  have haddr := boundAddress_eq sys h
  have hform : ∀ k, connectMarshallReply sys k =
      (requestMarshallReply k.writeBuffer k.requestReply (boundAddress sys k)).elim (.error, k)
        fun b => (.requestWrite, { k with writeBuffer := b }) := connectMarshallReply_eq sys
  rw [hform c, hform d]
  by_cases hlen :
    (replyMessage d.requestReply (boundAddress sys d)).length ≤ bufferWritePtr d.writeBuffer
  · have hlen' :
        (replyMessage c.requestReply (boundAddress sys c)).length ≤ bufferWritePtr c.writeBuffer := by
      rw [hreply, haddr, h.room_eq]
      exact hlen
    have hput : requestMarshallReply c.writeBuffer c.requestReply (boundAddress sys c) =
        some (bufferPut c.writeBuffer _ hlen') := dif_pos hlen'
    have hput' : requestMarshallReply d.writeBuffer d.requestReply (boundAddress sys d) =
        some (bufferPut d.writeBuffer _ hlen) := dif_pos hlen
    rw [hput, hput', Option.elim_some, Option.elim_some]
    refine ⟨rfl, h.dial_eq, ?_, ?_⟩
    · rw [bufferReadPtr_put, bufferReadPtr_put, h.pending_eq, hreply, haddr]
    · rw [bufferWritePtr_put, bufferWritePtr_put, h.room_eq, hreply, haddr]
  · have hlen' : ¬ (replyMessage c.requestReply (boundAddress sys c)).length ≤
        bufferWritePtr c.writeBuffer := by
      rw [hreply, haddr, h.room_eq]
      exact hlen
    have hput : requestMarshallReply c.writeBuffer c.requestReply (boundAddress sys c) = none :=
      dif_neg hlen'
    have hput' : requestMarshallReply d.writeBuffer d.requestReply (boundAddress sys d) = none :=
      dif_neg hlen
    rw [hput, hput']
    exact ⟨rfl, h⟩

theorem replied_alike (sys : Sys) (h : Alike c d) (code : UInt8) :
    (connectMarshallReply sys { c with requestReply := code }).1 =
        (connectMarshallReply sys { d with requestReply := code }).1 ∧
      Alike (connectMarshallReply sys { c with requestReply := code }).2
        (connectMarshallReply sys { d with requestReply := code }).2 :=
  connectMarshallReply_same sys
    (h.update (fun k => { k with requestReply := code }) (fun _ => rfl) fun _ => rfl)

section Handlers

theorem originConnectReply_alike (sys : Sys) (h : Alike c d) :
    Alike (originConnectReply sys c) (originConnectReply sys d) := by
  obtain ⟨hst, hmarshal⟩ := connectMarshallReply_same sys h
  unfold originConnectReply
  generalize connectMarshallReply sys c = r at *
  generalize connectMarshallReply sys d = r' at *
  obtain ⟨st, k⟩ := r
  obtain ⟨st', k'⟩ := r'
  obtain rfl : st = st' := hst
  cases st <;> exact hmarshal.update (fun k => selectorSetInterest { k with current := _ } _ _)
    (fun _ => rfl) fun _ => rfl

theorem originConnectNext_alike (sys : Sys) (h : Alike c d) :
    Alike (originConnectNext sys c) (originConnectNext sys d) := by
  obtain ⟨hst, hk⟩ := startResolvedConnect_same sys h
  unfold originConnectNext
  generalize startResolvedConnect sys c = r at *
  generalize startResolvedConnect sys d = r' at *
  obtain ⟨status, k⟩ := r
  obtain ⟨status', k'⟩ := r'
  obtain rfl : status = status' := hst
  have hreply : ∀ code, Alike { k with requestReply := code } { k' with requestReply := code } :=
    fun code => hk.update (fun k => { k with requestReply := code }) (fun _ => rfl) fun _ => rfl
  cases status with
  | inProgress => exact hk
  | ok => exact originConnectReply_alike sys (hreply _)
  | failed e => exact originConnectReply_alike sys (hreply _)

theorem originConnectDrop_alike (h : Alike c d) :
    Alike (originConnectDrop c) (originConnectDrop d) := by
  refine h.update originConnectDrop (fun k => ?_) fun k => ?_
  · unfold originConnectDrop
    cases hreg : k.originRegistered <;> cases hfd : k.originFd <;> simp [dialOf, hreg, hfd, Conn.log]
  · unfold originConnectDrop
    cases hreg : k.originRegistered <;> cases hfd : k.originFd <;> simp [hfd, Conn.log]

theorem originConnectWriteHandler_alike (sys : Sys) (h : Alike c d) :
    Alike (originConnectWriteHandler sys c) (originConnectWriteHandler sys d) := by
  have hsock := field_of_dial (fun x => x.originSock) (fun _ => rfl) h.dial_eq
  have herror : originConnectError sys c = originConnectError sys d := by
    unfold originConnectError
    rw [hsock]
  unfold originConnectWriteHandler
  rw [herror]
  dsimp only
  have hcode : Alike { c with requestReply := connectReplyFromErrno (originConnectError sys d) }
      { d with requestReply := connectReplyFromErrno (originConnectError sys d) } :=
    h.update (fun k => { k with requestReply := _ }) (fun _ => rfl) fun _ => rfl
  split
  · have hdrop := originConnectDrop_alike hcode
    have hrequest := field_of_dial (fun x => x.request) (fun _ => rfl) hdrop.dial_eq
    have hnext := field_of_dial (fun x => x.dnsNext) (fun _ => rfl) hdrop.dial_eq
    rw [hrequest, hnext]
    split
    · exact originConnectNext_alike sys hdrop
    · exact originConnectReply_alike sys hdrop
  · exact originConnectReply_alike sys
      (hcode.update (fun k => selectorSetInterest k .origin OP_NOOP) (fun _ => rfl) fun _ => rfl)

/-- The two outcomes of a callback agree. -/
structure Agree (r r' : Socks5State × Conn) : Prop where
  state_eq : r.1 = r'.1
  alike : Alike r.2 r'.2

theorem marshalled_agree (sys : Sys) (h : Alike c d) (code : UInt8) :
    Agree (connectMarshallReply sys { c with requestReply := code })
      (connectMarshallReply sys { d with requestReply := code }) :=
  ⟨(replied_alike sys h code).1, (replied_alike sys h code).2⟩

theorem requestDecide_agree (sys : Sys) (h : Alike c d) :
    Agree (requestDecide sys c) (requestDecide sys d) := by
  have hrequest : d.request = c.request :=
    (field_of_dial (fun x => x.request) (fun _ => rfl) h.dial_eq).symm
  have hstate : d.request.state = c.request.state := congrArg RequestParser.state hrequest
  have hcommand : d.request.command = c.request.command := congrArg RequestParser.command hrequest
  unfold requestDecide
  rw [hstate, hcommand]
  split
  · exact marshalled_agree sys h _
  split
  · exact marshalled_agree sys h _
  obtain ⟨hst, hk⟩ := connectToOrigin_same sys h
  generalize connectToOrigin sys c = r at *
  generalize connectToOrigin sys d = r' at *
  obtain ⟨status, k⟩ := r
  obtain ⟨status', k'⟩ := r'
  obtain rfl : status = status' := hst
  cases status with
  | inProgress => exact ⟨rfl, hk⟩
  | ok => exact marshalled_agree sys hk _
  | failed e => exact marshalled_agree sys hk _

theorem close_closing (c : Conn) : (socks5ConnectionClose c).closing = true := by
  unfold socks5ConnectionClose originClose clientClose clientUnregister
  cases hclosing : c.closing
  · dsimp only [Conn.log]
    repeat' split
    all_goals simp_all
  · simp [hclosing]

/-- The next interest of a connection that stays open. -/
theorem applied_alike {r r' : Socks5State × Conn} (h : Agree r r')
    (hopen : (socksv5ApplyAction (actionAfter r)).closing = false) :
    Alike (socksv5ApplyAction (actionAfter r)) (socksv5ApplyAction (actionAfter r')) := by
  obtain ⟨st, k⟩ := r
  obtain ⟨st', k'⟩ := r'
  obtain ⟨rfl, hk⟩ := h
  have hk : Alike k k' := hk
  have hpending : bufferCanRead k.writeBuffer = bufferCanRead k'.writeBuffer := by
    rw [Bool.eq_iff_iff, bufferCanRead_iff, bufferCanRead_iff, hk.pending_eq]
  have hmove : ∀ i, Alike (selectorSetInterest { k with current := some st } .client i)
      (selectorSetInterest { k' with current := some st } .client i) := fun i =>
    hk.update (fun k => selectorSetInterest { k with current := some st } .client i)
      (fun _ => rfl) fun _ => rfl
  unfold actionAfter at hopen ⊢
  dsimp only at hopen ⊢
  rw [← hpending]
  split at hopen
  · rw [socksv5ApplyAction, close_closing] at hopen
    exact absurd hopen (by decide)
  next hend =>
  rw [if_neg hend, if_neg hend]
  split
  · exact hmove OP_NOOP
  split
  · exact hk.update (fun k => { k with current := some st }) (fun _ => rfl) fun _ => rfl
  split
  · exact hmove OP_WRITE
  · exact hmove OP_READ

/-- The end of socks5_handle_block_done. -/
def blockDoneAction : Socks5State × Conn → Socks5Action × Conn
  | (.error, c) => (.close, { c with current := some .error })
  | (_, c) => (.write, { c with current := some .requestWrite })

private theorem blockDoneAction_alike {r r' : Socks5State × Conn} (h : Agree r r')
    (hopen : (socksv5ApplyAction (blockDoneAction r)).closing = false) :
    Alike (socksv5ApplyAction (blockDoneAction r)) (socksv5ApplyAction (blockDoneAction r')) := by
  obtain ⟨st, k⟩ := r
  obtain ⟨st', k'⟩ := r'
  obtain ⟨hst, hk⟩ := h
  obtain rfl : st = st' := hst
  have hk : Alike k k' := hk
  have hwrite : Alike (selectorSetInterest { k with current := some .requestWrite } .client OP_WRITE)
      (selectorSetInterest { k' with current := some .requestWrite } .client OP_WRITE) :=
    hk.update
      (fun k => selectorSetInterest { k with current := some .requestWrite } .client OP_WRITE)
      (fun _ => rfl) fun _ => rfl
  cases st with
  | error =>
    rw [blockDoneAction, socksv5ApplyAction, close_closing] at hopen
    exact absurd hopen (by decide)
  | _ => exact hwrite

theorem blockDone_alike (sys : Sys) (h : Alike c d)
    (hopen : (socksv5BlockDone sys { c with dnsJob := .idle }).closing = false) :
    Alike (socksv5BlockDone sys { c with dnsJob := .idle })
      (socksv5BlockDone sys { d with dnsJob := .idle }) := by
  have hidle : Alike { c with dnsJob := .idle, dnsPending := false }
      { d with dnsJob := .idle, dnsPending := false } :=
    h.update (fun k => { k with dnsJob := .idle, dnsPending := false }) (fun _ => rfl) fun _ => rfl
  obtain ⟨hst, hk⟩ := connectToOrigin_same sys hidle
  have hmove : ∀ {a b : Conn} (st i), Alike a b →
      Alike (selectorSetInterest { a with current := some st } .client i)
        (selectorSetInterest { b with current := some st } .client i) := fun st i hab =>
    hab.update (fun k => selectorSetInterest { k with current := some st } .client i)
      (fun _ => rfl) fun _ => rfl
  unfold socksv5BlockDone socks5HandleBlockDone at hopen ⊢
  dsimp only at hopen ⊢
  generalize connectToOrigin sys { c with dnsJob := .idle, dnsPending := false } = r at *
  generalize connectToOrigin sys { d with dnsJob := .idle, dnsPending := false } = r' at *
  obtain ⟨status, k⟩ := r
  obtain ⟨status', k'⟩ := r'
  obtain rfl : status = status' := hst
  have hreply := marshalled_agree sys hk (connectReplyFromErrno status)
  cases status with
  | inProgress => exact hmove _ _ hk
  | ok => exact blockDoneAction_alike hreply hopen
  | failed e => exact blockDoneAction_alike hreply hopen

/-- What happens to the origin socket and to the lookup. -/
def IsDial : Event → Bool
  | .originWrite _ => true
  | .blockDone _ => true
  | .connectFinished _ => true
  | .dnsFinished _ _ _ => true
  | _ => false

/-- The lockstep: what connect.c, the kernel and the worker do to one
connection, they do to the other. -/
theorem handle_alike {e : Event} {c' : Conn} (h : Alike c d) (hdial : IsDial e = true)
    (hrelay : c.relayStarted = false) (hstep : handle c e = some c') (hopen : c'.closing = false) :
    ∃ d', handle d e = some d' ∧ Alike c' d' := by
  have hrelay' : d.relayStarted = false := by
    rw [← hrelay]
    exact (field_of_dial (fun x => x.relayStarted) (fun _ => rfl) h.dial_eq).symm
  cases e with
  | originWrite sys =>
    obtain rfl := Option.some.inj hstep
    refine ⟨_, rfl, ?_⟩
    rw [originWrite, originWrite, if_pos hrelay, if_pos hrelay']
    exact originConnectWriteHandler_alike sys h
  | blockDone sys =>
    obtain rfl := Option.some.inj hstep
    exact ⟨_, rfl, blockDone_alike sys h hopen⟩
  | connectFinished outcome =>
    obtain rfl := Option.some.inj hstep
    exact ⟨_, rfl, h.update (fun k => { k with originSock := connectStatus outcome })
      (fun _ => rfl) fun _ => rfl⟩
  | dnsFinished error result queued =>
    obtain rfl := Option.some.inj hstep
    refine ⟨_, rfl, h.update (dnsWorkerStore error result queued) (fun k => ?_) fun k => ?_⟩
    · unfold dnsWorkerStore
      cases hcancel : k.cancelled <;> simp [dialOf, hcancel]
    · unfold dnsWorkerStore
      split <;> rfl
  | clientRead sys => exact absurd hdial (by simp [IsDial])
  | clientWrite sys => exact absurd hdial (by simp [IsDial])
  | originRead sys => exact absurd hdial (by simp [IsDial])
  | addUser name pass => exact absurd hdial (by simp [IsDial])
  | removeUser name => exact absurd hdial (by simp [IsDial])
  | forceClose => exact absurd hdial (by simp [IsDial])

end Handlers

end SocksProxy.Lockstep
