import SocksProxy.Reading

/-!
The origin socket and the DNS lookup of a connection in negotiation: its origin
becomes writable, or its lookup is reported. Both can happen in CONNECTING only,
and lead to an answer or to another attempt.
-/
namespace SocksProxy.OriginStages

open ByteBuffer ByteScan Hello Auth Request UserTable Kernel Stm ConnState Connect Connection
open Stages Dialing Reading

variable {s : Stage} {c c' : Conn} {sys : Sys}

/-- What CONNECTING leads to: it goes on, or the reply is stored. -/
def Answered (c c' : Conn) (l : Login) (atyp : UInt8) (address : List UInt8)
    (port : UInt8 × UInt8) : Prop :=
  c'.readBuffer = c.readBuffer ∧
    (∃ u, c'.trace = c.trace ++ u ∧ ∀ call ∈ u, ConnectCall call) ∧
    (Fits (.connecting l atyp address port) c' ∨ ∃ code bind,
      Fits (.reply l (requestMessage SOCKS5_CMD_CONNECT atyp address port) code bind) c' ∧
      (code = SOCKS5_REPLY_SUCCEEDED →
        c.originSock ≠ .inProgress ∨ c.originItem = none → c'.originSock = .ok))

/-- A job is queued in CONNECTING only, and without an origin. -/
theorem queued_connecting (h : Fits s c) (hjob : c.dnsJob ≠ .idle) :
    ∃ l atyp address port, s = .connecting l atyp address port ∧ NoOrigin c := by
  have hparsed := h.parsed
  rcases parsed_early hparsed with ⟨-, hdns⟩ | ⟨l, atyp, address, port, rfl⟩ |
    ⟨l, message, code, bind, rfl⟩
  · exact absurd hdns.1 hjob
  · rcases hparsed.2.2.2.2 with ⟨-, hidle⟩ | hnone
    · exact absurd hidle hjob
    · exact ⟨l, atyp, address, port, rfl, hnone⟩
  · exact absurd hparsed.2.2.2.1 hjob

/-- The origin is armed in CONNECTING only, for writing. -/
theorem armed_connecting (h : Fits s c) {i : FdInterest} (hitem : c.originItem = some i)
    (hi : i ≠ OP_NOOP) : ∃ l atyp address port, s = .connecting l atyp address port ∧
      HasOrigin OP_WRITE c ∧ c.dnsJob = .idle := by
  have hnone : NoOrigin c → False := by
    intro hnone
    rw [hnone.2.1] at hitem
    exact absurd hitem (by simp)
  have hparsed := h.parsed
  rcases parsed_early hparsed with ⟨hearly, -⟩ | ⟨l, atyp, address, port, rfl⟩ |
    ⟨l, message, code, bind, rfl⟩
  · exact (hnone hearly).elim
  · rcases hparsed.2.2.2.2 with horigin | h
    · exact ⟨l, atyp, address, port, rfl, horigin⟩
    · exact (hnone h).elim
  · obtain ⟨-, -, -, -, h⟩ := hparsed
    by_cases hcode : code = SOCKS5_REPLY_SUCCEEDED
    · rw [if_pos hcode] at h
      rw [h.1.2.1, Option.some.injEq] at hitem
      exact absurd hitem.symm hi
    · rw [if_neg hcode] at h
      exact (hnone h).elim

/-- socksv5_block_done on a connection that waits for its lookup. -/
theorem blockDone_spec (sys : Sys) {l : Login} {atyp : UInt8} {address : List UInt8}
    {port : UInt8 × UInt8} (h : Fits (.connecting l atyp address port) c) (hnone : NoOrigin c) :
    Answered c (socksv5BlockDone sys { c with dnsJob := .idle }) l atyp address port := by
  obtain ⟨hcur, hvalid, hread, huname, -⟩ := h.parsed
  have hwait : Awaiting l (requestMessage SOCKS5_CMD_CONNECT atyp address port)
      { c with dnsJob := .idle, dnsPending := false } :=
    (connecting_awaiting h).frame rfl rfl rfl
  have hspec := connectToOrigin_spec (c := { c with dnsJob := .idle, dnsPending := false }) sys hnone
  have hcalls := hspec.calls
  have hbuffer := field_of_core (fun x => x.readBuffer) (fun _ => rfl) hspec.core_eq
  have hclient := field_of_core (fun x => x.clientItem) (fun _ => rfl) hspec.core_eq
  have hitem : (connectToOrigin sys { c with dnsJob := .idle, dnsPending := false }).2.clientItem =
      some OP_NOOP := hclient.trans h.clientItem_eq
  rcases connects_fits sys hwait hvalid hread rfl hspec with
    ⟨hst, hfits⟩ | ⟨hst, hsock, b, bind, hb, hne, hfits⟩
  · have heq : socksv5BlockDone sys { c with dnsJob := .idle } =
        { (connectToOrigin sys { c with dnsJob := .idle, dnsPending := false }).2 with
          current := some .connecting, clientItem := some OP_NOOP } := by
      unfold socksv5BlockDone socks5HandleBlockDone
      generalize connectToOrigin sys { c with dnsJob := .idle, dnsPending := false } = r at *
      obtain ⟨status, k⟩ := r
      simp only at hst hitem
      simp [hst, socksv5ApplyAction, selectorSetInterest, hitem]
    rw [heq]
    exact ⟨hbuffer, hcalls, Or.inl hfits⟩
  · have heq : socksv5BlockDone sys { c with dnsJob := .idle } =
        { (connectToOrigin sys { c with dnsJob := .idle, dnsPending := false }).2 with
          requestReply := connectReplyFromErrno
            (connectToOrigin sys { c with dnsJob := .idle, dnsPending := false }).1
          writeBuffer := b, current := some .requestWrite, clientItem := some OP_WRITE } := by
      unfold socksv5BlockDone socks5HandleBlockDone
      generalize connectToOrigin sys { c with dnsJob := .idle, dnsPending := false } = r at *
      obtain ⟨status, k⟩ := r
      dsimp only at hst hitem hb ⊢
      cases status with
      | inProgress => exact absurd rfl hst
      | ok =>
        dsimp only
        rw [hb]
        simp [socksv5ApplyAction, selectorSetInterest, hitem]
      | failed e =>
        dsimp only
        rw [hb]
        simp [socksv5ApplyAction, selectorSetInterest, hitem]
    rw [heq]
    exact ⟨hbuffer, hcalls, Or.inr ⟨_, bind, hfits, fun hcode _ => hsock hcode⟩⟩

/-- The failed origin socket is gone; nothing else changed. -/
theorem originConnectDrop_spec (h : HasOrigin OP_WRITE c) :
    NoOrigin (originConnectDrop c) ∧ core (originConnectDrop c) = core c ∧
      (originConnectDrop c).dnsJob = c.dnsJob ∧
      (originConnectDrop c).requestReply = c.requestReply ∧
      (originConnectDrop c).trace = c.trace ++ [.close .origin] := by
  obtain ⟨hfd, hitem, hreg⟩ := h
  obtain ⟨fd, hfd⟩ := Option.isSome_iff_exists.mp hfd
  have heq : originConnectDrop c =
      { c with originRegistered := false, originItem := none, originFd := none }.log
        (.close .origin) := by
    simp [originConnectDrop, hreg, hfd]
  rw [heq]
  exact ⟨⟨rfl, rfl, rfl⟩, rfl, rfl, rfl, rfl⟩

/-- The end of origin_connect_write_handler stores the reply and arms the client. -/
private theorem originConnectReply_eq (sys : Sys) {l : Login} {m : List UInt8}
    (h : Awaiting l m c) (hjob : c.dnsJob = .idle)
    (horigin : Refused c.requestReply c ∨ Granted m c.requestReply c) :
    ∃ bind, (originConnectReply sys c).readBuffer = c.readBuffer ∧
      (originConnectReply sys c).trace = c.trace ∧
      (originConnectReply sys c).originSock = c.originSock ∧
      Fits (.reply l m c.requestReply bind) (originConnectReply sys c) := by
  obtain ⟨b, hb, -, hfits⟩ := reply_fits sys h hjob horigin
  obtain ⟨i, hi⟩ := Option.isSome_iff_exists.mp h.clientItem_isSome
  have heq : originConnectReply sys c = { c with
      writeBuffer := b, current := some .requestWrite, clientItem := some OP_WRITE } := by
    unfold originConnectReply
    rw [hb]
    simp [selectorSetInterest, hi]
  rw [heq]
  exact ⟨_, rfl, rfl, rfl, hfits⟩

/-- The request of a connection in CONNECTING and what it waits for. -/
structure Connecting (l : Login) (atyp : UInt8) (address : List UInt8) (port : UInt8 × UInt8)
    (c : Conn) : Prop where
  awaiting : Awaiting l (requestMessage SOCKS5_CMD_CONNECT atyp address port) c
  current_eq : c.current = some .connecting
  clientItem_eq : c.clientItem = some OP_NOOP
  valid : ValidAddress atyp address
  read : Read SOCKS5_CMD_CONNECT atyp address port c.request

theorem fits_connecting {l : Login} {atyp : UInt8} {address : List UInt8} {port : UInt8 × UInt8}
    (h : Fits (.connecting l atyp address port) c) : Connecting l atyp address port c :=
  ⟨connecting_awaiting h, h.parsed.1, h.clientItem_eq, h.parsed.2.1, h.parsed.2.2.1⟩

theorem Connecting.frame {l : Login} {atyp : UInt8} {address : List UInt8} {port : UInt8 × UInt8}
    (h : Connecting l atyp address port c) (hcore : core c' = core c)
    (hreceived : received .client c'.trace = received .client c.trace)
    (hsent : sent .client c'.trace = sent .client c.trace) :
    Connecting l atyp address port c' where
  awaiting := h.awaiting.frame hcore hreceived hsent
  current_eq := (field_of_core (fun x => x.current) (fun _ => rfl) hcore).trans h.current_eq
  clientItem_eq :=
    (field_of_core (fun x => x.clientItem) (fun _ => rfl) hcore).trans h.clientItem_eq
  valid := h.valid
  read := by
    rw [request_of_core hcore]
    exact h.read

/-- The fallback to the next resolved address. -/
private theorem fallback_spec (sys : Sys) {l : Login} {atyp : UInt8} {address : List UInt8}
    {port : UInt8 × UInt8} (h : Connecting l atyp address port c) (hnone : NoOrigin c)
    (hjob : c.dnsJob = .idle) :
    (originConnectNext sys c).readBuffer = c.readBuffer ∧
      (∃ u, (originConnectNext sys c).trace = c.trace ++ u ∧ ∀ call ∈ u, ConnectCall call) ∧
      (Fits (.connecting l atyp address port) (originConnectNext sys c) ∨ ∃ code bind,
        (code = SOCKS5_REPLY_SUCCEEDED → (originConnectNext sys c).originSock = .ok) ∧
        Fits (.reply l (requestMessage SOCKS5_CMD_CONNECT atyp address port) code bind)
          (originConnectNext sys c)) := by
  obtain ⟨hspec, hjob'⟩ := startResolvedConnect_spec sys hnone
  unfold originConnectNext
  have hcalls := hspec.calls
  have hbuffer := field_of_core (fun x => x.readBuffer) (fun _ => rfl) hspec.core_eq
  have hconn := h.frame hspec.core_eq hspec.trace_received hspec.trace_sent
  have hdialed := hspec.dialed
  generalize startResolvedConnect sys c = r at *
  obtain ⟨status, k⟩ := r
  have hidle : k.dnsJob = .idle := hjob'.trans hjob
  cases status with
  | inProgress =>
    have heta : { k with current := some .connecting, clientItem := some OP_NOOP } = k := by
      rw [← hconn.current_eq, ← hconn.clientItem_eq]
    have hfits := connecting_fits hconn.awaiting hconn.valid hconn.read
      (hdialed.imp_left fun horigin => ⟨horigin, hidle⟩)
    rw [heta] at hfits
    exact ⟨hbuffer, hcalls, Or.inl hfits⟩
  | ok =>
    have hwait : Awaiting l (requestMessage SOCKS5_CMD_CONNECT atyp address port)
        { k with requestReply := SOCKS5_REPLY_SUCCEEDED } := hconn.awaiting.frame rfl rfl rfl
    obtain ⟨bind, hb, htrace, hsock, hfits⟩ := originConnectReply_eq sys hwait hidle
      (Or.inr ⟨rfl, hdialed.1, atyp, address, port, hconn.valid, rfl, hconn.read⟩)
    exact ⟨hb.trans hbuffer, htrace ▸ hcalls,
      Or.inr ⟨_, bind, fun _ => hsock.trans hdialed.2, hfits⟩⟩
  | failed e =>
    have hcode : connectReplyFromErrno (.failed e) ≠ SOCKS5_REPLY_SUCCEEDED := by
      rw [ne_eq, connectReplyFromErrno_eq_succeeded]
      simp
    have hwait : Awaiting l (requestMessage SOCKS5_CMD_CONNECT atyp address port)
        { k with requestReply := connectReplyFromErrno (.failed e) } :=
      hconn.awaiting.frame rfl rfl rfl
    obtain ⟨bind, hb, htrace, -, hfits⟩ := originConnectReply_eq sys hwait hidle
      (Or.inl ⟨hcode, hdialed⟩)
    exact ⟨hb.trans hbuffer, htrace ▸ hcalls,
      Or.inr ⟨_, bind, fun h => absurd h hcode, hfits⟩⟩

/-- No error is reported for a socket that is connected, or still connecting. -/
theorem originConnectError_eq_ok (h : originConnectError sys c = .ok)
    (hsock : c.originSock ≠ .inProgress) : c.originSock = .ok := by
  unfold originConnectError soError at h
  split at h
  · exact absurd h (by simp)
  · cases hc : c.originSock with
    | ok => rfl
    | inProgress => exact absurd hc hsock
    | failed e => simp [hc] at h

/-- origin_connect_write_handler, whatever the socket has to say. -/
theorem originWrite_spec (sys : Sys) {l : Login} {atyp : UInt8} {address : List UInt8}
    {port : UInt8 × UInt8} (h : Fits (.connecting l atyp address port) c)
    (horigin : HasOrigin OP_WRITE c) (hjob : c.dnsJob = .idle) :
    Answered c (originWrite sys c) l atyp address port := by
  have hconn : Connecting l atyp address port
      { c with requestReply := connectReplyFromErrno (originConnectError sys c) } :=
    (fits_connecting h).frame rfl rfl rfl
  have hhandler : originWrite sys c = originConnectWriteHandler sys c := by
    simp [originWrite, h.relay_eq]
  rw [hhandler]
  unfold originConnectWriteHandler
  generalize herror : originConnectError sys c = error at hconn
  dsimp only
  by_cases hok : error = .ok
  · subst hok
    rw [if_neg (by simp)]
    have hwait : Awaiting l (requestMessage SOCKS5_CMD_CONNECT atyp address port)
        (selectorSetInterest { c with requestReply := SOCKS5_REPLY_SUCCEEDED }
          .origin OP_NOOP) := hconn.awaiting.frame rfl rfl rfl
    have hgranted : HasOrigin OP_NOOP
        (selectorSetInterest { c with requestReply := SOCKS5_REPLY_SUCCEEDED }
          .origin OP_NOOP) := by
      refine ⟨horigin.1, ?_, horigin.2.2⟩
      simp [selectorSetInterest, horigin.2.1]
    obtain ⟨bind, hb, htrace, hsock, hfits⟩ := originConnectReply_eq sys hwait hjob
      (Or.inr ⟨rfl, hgranted, atyp, address, port, hconn.valid, rfl, hconn.read⟩)
    refine ⟨hb, ⟨[], by rw [List.append_nil]; exact htrace, by simp⟩, Or.inr ⟨_, bind, hfits, ?_⟩⟩
    rintro - (hsock' | hnone)
    · exact hsock.trans (originConnectError_eq_ok herror hsock')
    · rw [horigin.2.1] at hnone
      exact absurd hnone (by simp)
  · rw [if_pos hok]
    obtain ⟨hnone, hcore, hjob', hreply, htrace⟩ := originConnectDrop_spec
      (c := { c with requestReply := connectReplyFromErrno error }) horigin
    have hdrop := hconn.frame hcore (by rw [htrace]; simp [Call.received])
      (by rw [htrace]; simp [Call.sent])
    have hbuffer := field_of_core (fun x => x.readBuffer) (fun _ => rfl) hcore
    have hidle := hjob'.trans hjob
    have hfailed : connectReplyFromErrno error ≠ SOCKS5_REPLY_SUCCEEDED :=
      fun heq => hok ((connectReplyFromErrno_eq_succeeded error).mp heq)
    generalize originConnectDrop { c with requestReply := connectReplyFromErrno error } = k at *
    have hcode : k.requestReply ≠ SOCKS5_REPLY_SUCCEEDED := by
      rw [hreply]
      exact hfailed
    split
    · obtain ⟨hb, ⟨u, hu, hcalls⟩, hfits⟩ := fallback_spec sys hdrop hnone hidle
      refine ⟨hb.trans hbuffer, ⟨.close .origin :: u, ?_, ?_⟩, ?_⟩
      · rw [hu, htrace, List.append_assoc]
        rfl
      · intro call hmem
        rcases List.mem_cons.mp hmem with rfl | hmem
        · trivial
        · exact hcalls call hmem
      · rcases hfits with hfits | ⟨code, bind, hsock, hfits⟩
        · exact Or.inl hfits
        · exact Or.inr ⟨code, bind, hfits, fun hcode _ => hsock hcode⟩
    · obtain ⟨bind, hb, htrace', -, hfits⟩ := originConnectReply_eq sys hdrop.awaiting hidle
        (Or.inl ⟨hcode, hnone⟩)
      refine ⟨hb.trans hbuffer, ⟨[.close .origin], htrace'.trans htrace, by simp [ConnectCall]⟩,
        Or.inr ⟨_, bind, hfits, fun heq => absurd heq hcode⟩⟩

end SocksProxy.OriginStages
