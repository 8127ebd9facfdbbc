import SocksProxy.Reading
import SocksProxy.RelayHandlers

/-!
A write to the client socket in negotiation. A reply that is written out moves
the connection to its next stage, ends it, or starts the relay.
-/
namespace SocksProxy.Writing

open ByteBuffer ByteScan Hello Auth Request UserTable Kernel Stm ConnState Connect Connection
open Stages Dialing Reading RelayFlow RelayHandlers

variable {s : Stage} {c c' : Conn} {sys : Sys} {l : Login} {methods : List UInt8}

def writeCall (c : Conn) (sys : Sys) : Call :=
  .write .client (bufferReadPtr c.writeBuffer) sys.write

/-- The connection right after its reply was written out. -/
def flushed (c : Conn) (sys : Sys) (b : Buffer) : Conn :=
  { c.log (writeCall c sys) with writeBuffer := b }

theorem writeCall_received (c : Conn) (sys : Sys) : (writeCall c sys).received .client = [] := rfl

private theorem fits_write_ne (h : Fits s c) (hs : s.interest = OP_WRITE) :
    bufferReadPtr c.writeBuffer ≠ [] := h.pending_iff.mpr hs

/-- A partial write: the stage stays, the rest of the reply is pending. -/
private theorem fits_partial_write (sys : Sys) (h : Fits s c) (hs : s.interest = OP_WRITE) {n : ℕ}
    (hn : ((n : ℕ) : ℤ).toNat ≤ (bufferReadPtr c.writeBuffer).length)
    (hlt : n < (bufferReadPtr c.writeBuffer).length)
    (hsent : (writeCall c sys).sent .client = (bufferReadPtr c.writeBuffer).take n) :
    Fits s { flushed c sys (bufferReadAdv c.writeBuffer n hn) with clientItem := some OP_WRITE } :=
  have hptr := bufferReadPtr_readAdv c.writeBuffer n hn
  have hne : bufferReadPtr (bufferReadAdv c.writeBuffer n hn) ≠ [] := by
    rw [hptr, ne_eq, List.drop_eq_nil_iff]
    omega
  { h with
    clientItem_eq := congrArg some hs.symm
    writeTidy :=
      ⟨(bufferLimit_readAdv c.writeBuffer n hn).trans h.writeTidy.limit_eq,
        fun hnil => absurd hnil hne⟩
    received_eq := by
      show received .client (c.trace ++ [writeCall c sys]) = _
      rw [received_append, h.received_eq, received_cons, writeCall_received]
      exact List.append_nil _
    sent_eq := by
      show sent .client (c.trace ++ [writeCall c sys]) ++
        bufferReadPtr (bufferReadAdv c.writeBuffer n hn) = _
      rw [sent_append, sent_cons, sent_nil, hsent, hptr, List.append_nil, List.append_assoc,
        List.take_append_drop]
      exact h.sent_eq
    pending_iff := ⟨fun _ => hs, fun _ => hne⟩
    parsed := by
      have hparsed := h.parsed
      cases s <;> exact hparsed }

/-- A write to the client socket in negotiation: the reply stays pending, the
connection is lost, or the reply is out. -/
theorem socksv5Write_cases (sys : Sys) (h : Fits s c) (hs : s.interest = OP_WRITE) :
    (∃ c', socksv5Write sys c = some c' ∧ c'.trace = c.trace ++ [writeCall c sys] ∧
      c'.readBuffer = c.readBuffer ∧ c'.originSock = c.originSock ∧ Fits s c') ∨
    ((writeCall c sys).sent .client = [] ∧
      socksv5Write sys c = some (closed (c.log (writeCall c sys)))) ∨
    ∃ b, (writeCall c sys).sent .client = bufferReadPtr c.writeBuffer ∧ bufferReadPtr b = [] ∧
      Tidy b ∧ socksv5Write sys c =
        (socks5HandleWrite sys (flushed c sys b)).map socksv5ApplyAction := by
  have hlog : ∀ call : Call, (c.log call).clientItem = some OP_WRITE := by
    intro call
    rw [← hs, ← h.clientItem_eq]
    rfl
  have hclose : ∀ call : Call, socks5ConnectionClose (c.log call) = closed (c.log call) := by
    intro call
    exact socks5ConnectionClose_eq h.closing_eq h.clientFd_isSome h.clientRegistered_eq
      (parsed_origin h.parsed)
  have hne := fits_write_ne h hs
  have hpos : 0 < (bufferReadPtr c.writeBuffer).length := List.length_pos_iff.mpr hne
  cases hw : sys.write with
  | again =>
    left
    refine ⟨c.log (writeCall c sys), ?_, rfl, rfl, rfl, fits_log h rfl (by
      simp [writeCall, Call.sent, hw])⟩
    simp [socksv5Write, h.relay_eq, hw, sysWrite, selectorSetInterest, hlog, writeCall]
    rw [← hlog (.write .client (bufferReadPtr c.writeBuffer) .again)]
  | fail =>
    right; left
    refine ⟨by simp [writeCall, Call.sent, hw], ?_⟩
    simp [socksv5Write, h.relay_eq, hw, sysWrite, hclose, writeCall]
  | accept n =>
    have hsent : (writeCall c sys).sent .client = (bufferReadPtr c.writeBuffer).take n := by
      simp [writeCall, Call.sent, hw]
    by_cases hn : n = 0
    · right; left
      refine ⟨by rw [hsent, hn, List.take_zero], ?_⟩
      simp [socksv5Write, h.relay_eq, hw, sysWrite, hn, hclose, writeCall]
    have hmin : min n (bufferReadPtr c.writeBuffer).length ≠ 0 := by omega
    have hle : ((min n (bufferReadPtr c.writeBuffer).length : ℕ) : ℤ).toNat ≤
        (bufferReadPtr c.writeBuffer).length := by
      rw [Int.toNat_natCast]
      exact Nat.min_le_right _ _
    have hptr := bufferReadPtr_readAdv c.writeBuffer _ hle
    by_cases hlt : n < (bufferReadPtr c.writeBuffer).length
    · left
      have hcan : bufferCanRead (bufferReadAdv c.writeBuffer _ hle) = true := by
        rw [bufferCanRead_iff, hptr, ne_eq, List.drop_eq_nil_iff]
        omega
      have hfits := fits_partial_write sys h hs hle (by omega) (by
        rw [hsent, Nat.min_eq_left hlt.le])
      refine ⟨{ flushed c sys (bufferReadAdv c.writeBuffer _ hle) with clientItem := some OP_WRITE },
        ?_, rfl, rfl, rfl, hfits⟩
      simp only [socksv5Write, h.relay_eq, hw, sysWrite, hmin, hcan, selectorSetInterest]
      simp [flushed, hlog, writeCall, hw]
    · right; right
      have hall : min n (bufferReadPtr c.writeBuffer).length =
          (bufferReadPtr c.writeBuffer).length := by omega
      have hnil : bufferReadPtr (bufferReadAdv c.writeBuffer _ hle) = [] := by
        rw [hptr, hall, List.drop_length]
      have hcan := (bufferCanRead_eq_false_iff _).mpr hnil
      refine ⟨bufferReadAdv c.writeBuffer _ hle, ?_, hnil, ?_, ?_⟩
      · rw [hsent, List.take_of_length_le (by omega)]
      · refine ⟨(bufferLimit_readAdv _ _ hle).trans h.writeTidy.limit_eq, fun _ => ?_⟩
        rw [bufferWritePtr_readAdv, if_pos hall]
        exact h.writeTidy.limit_eq
      · simp only [socksv5Write, h.relay_eq, hw, sysWrite, hmin, hcan]
        simp [flushed, writeCall, hw]

section Flushed

variable {b : Buffer}

/-- What is true of the sent bytes and the buffer once the reply is out. -/
theorem flushed_sent (h : Fits s c)
    (hsent : (writeCall c sys).sent .client = bufferReadPtr c.writeBuffer) :
    sent .client (c.trace ++ [writeCall c sys]) = s.output := by
  rw [sent_append, sent_cons, sent_nil, hsent, List.append_nil]
  exact h.sent_eq

private theorem flushed_received (h : Fits s c) :
    received .client (c.trace ++ [writeCall c sys]) =
      s.consumed ++ bufferReadPtr c.readBuffer := by
  rw [received_append, received_cons, writeCall_received, received_nil, List.append_nil,
    List.append_nil]
  exact h.received_eq

/-- HELLO_WRITE is over: AUTH_READ with a fresh parser, or the end. -/
theorem hello_write (h : Fits (.helloReply methods) c) (hnil : bufferReadPtr b = [])
    (htidy : Tidy b) (hsent : (writeCall c sys).sent .client = bufferReadPtr c.writeBuffer) :
    ∃ c', (socks5HandleWrite sys (flushed c sys b)).map socksv5ApplyAction = some c' ∧
      c'.readBuffer = c.readBuffer ∧
      ((SOCKS_HELLO_USERNAME_PASSWORD ∈ methods ∧ c'.trace = c.trace ++ [writeCall c sys] ∧
          Fits (.auth methods []) c' ∧ c'.authStatus = AUTH_STATUS_FAILURE) ∨
        (SOCKS_HELLO_USERNAME_PASSWORD ∉ methods ∧
          Broken .error c c' (c.trace ++ [writeCall c sys]))) := by
  obtain ⟨hcur, hmethod, hauth, hrequest, horigin, hdns⟩ := h.parsed
  have hitem : c.clientItem.isSome := by simp [h.clientItem_eq]
  have hcan := (bufferCanRead_eq_false_iff b).mpr hnil
  have hstep : stmHandlerWrite (stm sys) (flushed c sys b).current (flushed c sys b) =
      some (jump (stm sys) .helloWrite (helloWrite (flushed c sys b)).1
        (helloWrite (flushed c sys b)).2) := by
    rw [show (flushed c sys b).current = some .helloWrite from hcur]
    rfl
  unfold socks5HandleWrite
  rw [hstep]
  by_cases hm : SOCKS_HELLO_USERNAME_PASSWORD ∈ methods
  · have hdata : c.hello.data = SOCKS_HELLO_USERNAME_PASSWORD := by
      rw [hmethod, method, if_pos hm]
    have heq : helloWrite (flushed c sys b) = (.authRead, flushed c sys b) := by
      simp [helloWrite, flushed, Conn.log, hcan, hdata, SOCKS_HELLO_USERNAME_PASSWORD,
        SOCKS_HELLO_NO_ACCEPTABLE_METHODS]
    have hjump : jump (stm sys) .helloWrite .authRead (flushed c sys b) =
        (.authRead, authReadInit (flushed c sys b)) := rfl
    rw [heq, hjump]
    refine ⟨_, congrArg some (apply_read (by simp [Waits]) hitem hnil), rfl,
      Or.inl ⟨hm, rfl, ?_, rfl⟩⟩
    exact
      { h with
        clientItem_eq := rfl
        writeTidy := htidy
        received_eq := by
          show received .client (c.trace ++ [writeCall c sys]) =
            helloMessage methods ++ [] ++ bufferReadPtr c.readBuffer
          rw [flushed_received h, List.append_nil]
          rfl
        sent_eq := by
          show sent .client (c.trace ++ [writeCall c sys]) ++ bufferReadPtr b = [0x05, 0x02]
          rw [flushed_sent h hsent, hnil, List.append_nil]
          simp only [Stage.output, method, if_pos hm]
          rfl
        pending_iff := ⟨fun hne => absurd hnil hne, fun hread => by
          simp [Stage.interest, OP_READ, OP_WRITE] at hread⟩
        parsed := ⟨rfl, congrArg authParserInit hauth, trivial, fun hne => absurd rfl hne, hrequest,
          horigin, hdns⟩ }
  · have hdata : c.hello.data = SOCKS_HELLO_NO_ACCEPTABLE_METHODS := by
      rw [hmethod, method, if_neg hm]
    have heq : helloWrite (flushed c sys b) = (.error, flushed c sys b) := by
      simp [helloWrite, flushed, Conn.log, hcan, hdata]
    rw [heq, jump_silent .helloWrite .error (by decide)]
    refine ⟨_, congrArg some (apply_close (Or.inl rfl) (socks5ConnectionClose_eq h.closing_eq
      h.clientFd_isSome h.clientRegistered_eq (Or.inl horigin))), rfl, Or.inr ⟨hm, ?_⟩⟩
    exact broken_closed rfl (fun d => by cases d <;> rfl) rfl

/-- AUTH_WRITE is over: REQUEST_READ with a fresh parser, or the end. -/
theorem auth_write {accepted : Bool} (h : Fits (.authReply l accepted) c)
    (hnil : bufferReadPtr b = []) (htidy : Tidy b)
    (hsent : (writeCall c sys).sent .client = bufferReadPtr c.writeBuffer) :
    ∃ c', (socks5HandleWrite sys (flushed c sys b)).map socksv5ApplyAction = some c' ∧
      c'.readBuffer = c.readBuffer ∧
      ((accepted = true ∧ c'.trace = c.trace ++ [writeCall c sys] ∧ Fits (.request l []) c' ∧
          c'.requestReply = SOCKS5_REPLY_GENERAL_FAILURE) ∨
        (accepted = false ∧ Broken .error c c' (c.trace ++ [writeCall c sys]))) := by
  obtain ⟨hcur, hstatus, huname, hrequest, horigin, hdns⟩ := h.parsed
  have hitem : c.clientItem.isSome := by simp [h.clientItem_eq]
  have hcan := (bufferCanRead_eq_false_iff b).mpr hnil
  have hstep : stmHandlerWrite (stm sys) (flushed c sys b).current (flushed c sys b) =
      some (jump (stm sys) .authWrite (authWrite (flushed c sys b)).1
        (authWrite (flushed c sys b)).2) := by
    rw [show (flushed c sys b).current = some .authWrite from hcur]
    rfl
  unfold socks5HandleWrite
  rw [hstep]
  cases accepted with
  | true =>
    have heq : authWrite (flushed c sys b) = (.requestRead, flushed c sys b) := by
      simp [authWrite, flushed, Conn.log, hcan, hstatus, authStatusOf]
    have hjump : jump (stm sys) .authWrite .requestRead (flushed c sys b) =
        (.requestRead, requestReadInit (flushed c sys b)) := rfl
    rw [heq, hjump]
    refine ⟨_, congrArg some (apply_read (by simp [Waits]) hitem hnil), rfl,
      Or.inl ⟨rfl, rfl, ?_, rfl⟩⟩
    exact
      { h with
        clientItem_eq := rfl
        writeTidy := htidy
        received_eq := by
          show received .client (c.trace ++ [writeCall c sys]) =
            l.message ++ [] ++ bufferReadPtr c.readBuffer
          rw [flushed_received h, List.append_nil]
          rfl
        sent_eq := by
          show sent .client (c.trace ++ [writeCall c sys]) ++ bufferReadPtr b = _
          rw [flushed_sent h hsent, hnil, List.append_nil]
          rfl
        pending_iff := ⟨fun hne => absurd hnil hne, fun hread => by
          simp [Stage.interest, OP_READ, OP_WRITE] at hread⟩
        parsed := ⟨rfl, congrArg requestParserInit hrequest, trivial, fun hne => absurd rfl hne,
          huname, horigin, hdns, rfl⟩ }
  | false =>
    have heq : authWrite (flushed c sys b) = (.error, flushed c sys b) := by
      simp [authWrite, flushed, Conn.log, hcan, hstatus, authStatusOf, AUTH_STATUS_FAILURE,
        AUTH_STATUS_SUCCESS]
    rw [heq, jump_silent .authWrite .error (by decide)]
    refine ⟨_, congrArg some (apply_close (Or.inl rfl) (socks5ConnectionClose_eq h.closing_eq
      h.clientFd_isSome h.clientRegistered_eq (Or.inl horigin))), rfl, Or.inr ⟨rfl, ?_⟩⟩
    exact broken_closed rfl (fun d => by cases d <;> rfl) rfl

/-- The port of a request as request_write computes it. -/
theorem requestPort_eq {atyp : UInt8} {address : List UInt8} {port : UInt8 × UInt8}
    {p : RequestParser} (h : Read SOCKS5_CMD_CONNECT atyp address port p) :
    requestPort p = port.1.toNat * 256 + port.2.toNat := by
  simp [requestPort, h.port_eq]

/-- start_relay on a connection with an origin starts both directions empty. -/
private theorem startRelay_spec {k : Conn} (hclosing : k.closing = false)
    (hcancelled : k.cancelled = false) (hfd : k.clientFd.isSome)
    (hreg : k.clientRegistered = true) (hitem : k.clientItem.isSome)
    (horigin : HasOrigin OP_NOOP k) (hjob : k.dnsJob = .idle) (hread : Tidy k.readBuffer)
    (hwrite : Tidy k.writeBuffer) :
    ∃ k', startRelay k = (.relay, k') ∧ Relaying [] { k' with current := some .relay } ∧
      k'.trace = k.trace ++ [.startRelay] ∧ k'.originSock = k.originSock := by
  obtain ⟨hofd, hoitem, horeg⟩ := horigin
  refine ⟨_, rfl, ?_, rfl, rfl⟩
  have hreset {b : Buffer} (hb : Tidy b) : Tidy (bufferReset b) :=
    ⟨hb.limit_eq, fun _ => hb.limit_eq⟩
  exact relayUpdateInterests_spec (t := []) (c :=
      { k with
        relayStarted := true, clientEof := false, originEof := false, current := some .relay
        clientWriteShutdown := false, originWriteShutdown := false
        readBuffer := bufferReset k.readBuffer, writeBuffer := bufferReset k.writeBuffer
        trace := k.trace ++ [.startRelay] })
    { closing_eq := hclosing
      cancelled_eq := hcancelled
      relay_eq := rfl
      current_eq := rfl
      clientFd_isSome := hfd
      originFd_isSome := hofd
      clientRegistered_eq := hreg
      originRegistered_eq := horeg
      clientItem_isSome := hitem
      originItem_isSome := by simp [hoitem]
      job_eq := hjob }
    (by
      intro d
      exact
        { bytes_eq := by cases d <;> simp [inbound]
          tidy := by
            cases d
            · exact hreset hread
            · exact hreset hwrite
          eof_iff := by cases d <;> simp [eof, SawEof]
          shut_iff := by cases d <;> simp [writeShutdown, other]
          shut_dry := by cases d <;> simp [writeShutdown, other]
          shut_after := by intro pre post heq; simp at heq })

/-- REQUEST_WRITE is over: the end after a failure, the relay after a success. -/
theorem request_write {message : List UInt8} {code : UInt8} {bind : Option (SockAddr × ℕ)}
    (h : Fits (.reply l message code bind) c) (hnil : bufferReadPtr b = []) (htidy : Tidy b) :
    ∃ c', (socks5HandleWrite sys (flushed c sys b)).map socksv5ApplyAction = some c' ∧
      ((code ≠ SOCKS5_REPLY_SUCCEEDED ∧ Broken .done c c' (c.trace ++ [writeCall c sys])) ∨
        (code = SOCKS5_REPLY_SUCCEEDED ∧ Relaying [] c' ∧ c'.originSock = c.originSock ∧
          ∃ atyp address port dest, ValidAddress atyp address ∧
            message = requestMessage SOCKS5_CMD_CONNECT atyp address port ∧
            c'.trace = c.trace ++ [writeCall c sys,
              .accessLogAdd (cString l.uname) dest (port.1.toNat * 256 + port.2.toNat),
              .startRelay])) := by
  obtain ⟨hcur, hreply, huname, hjob, hrest⟩ := h.parsed
  have hitem : c.clientItem.isSome := by simp [h.clientItem_eq]
  have hcan := (bufferCanRead_eq_false_iff b).mpr hnil
  have hstep : stmHandlerWrite (stm sys) (flushed c sys b).current (flushed c sys b) =
      some (jump (stm sys) .requestWrite (requestWrite (flushed c sys b)).1
        (requestWrite (flushed c sys b)).2) := by
    rw [show (flushed c sys b).current = some .requestWrite from hcur]
    rfl
  unfold socks5HandleWrite
  rw [hstep]
  by_cases hcode : code = SOCKS5_REPLY_SUCCEEDED
  swap
  · rw [if_neg hcode] at hrest
    have heq : requestWrite (flushed c sys b) = (.done, flushed c sys b) := by
      simp [requestWrite, flushed, Conn.log, hcan, hreply, hcode]
    rw [heq, jump_silent .requestWrite .done (by decide)]
    refine ⟨_, congrArg some (apply_close (Or.inr rfl) (socks5ConnectionClose_eq h.closing_eq
      h.clientFd_isSome h.clientRegistered_eq (Or.inl hrest))), Or.inl ⟨hcode, ?_⟩⟩
    exact broken_closed rfl (fun d => by cases d <;> rfl) rfl
  · subst hcode
    rw [if_pos rfl] at hrest
    obtain ⟨horigin, atyp, address, port, hvalid, hmessage, hread⟩ := hrest
    have huser : cString c.auth.uname.toList = cString l.uname := huname.cString_eq
    have hport := requestPort_eq hread
    have heq : requestWrite (flushed c sys b) = startRelay ((flushed c sys b).log
        (.accessLogAdd (cString l.uname) (requestDestination c.request)
          (port.1.toNat * 256 + port.2.toNat))) := by
      rw [← huser, ← hport]
      simp [requestWrite, flushed, Conn.log, hcan, hreply]
    rw [heq]
    have hstart := startRelay_spec (k := (flushed c sys b).log (.accessLogAdd (cString l.uname)
      (requestDestination c.request) (port.1.toNat * 256 + port.2.toNat)))
      h.closing_eq h.cancelled_eq h.clientFd_isSome h.clientRegistered_eq hitem horigin hjob
      h.readTidy htidy
    obtain ⟨k, hk, hrel, htrace, hsock⟩ := hstart
    rw [hk, jump_silent .requestWrite .relay (by decide)]
    refine ⟨_, rfl, Or.inr ⟨rfl, hrel, hsock, atyp, address, port,
      requestDestination c.request, hvalid, hmessage, ?_⟩⟩
    exact htrace.trans (by simp [flushed, Conn.log])

end Flushed

end SocksProxy.Writing
