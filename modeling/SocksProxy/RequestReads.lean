import SocksProxy.Reading

/-!
REQUEST_READ: a read that completes the request leads to an answer, or to a
connection that waits for its origin.
-/
namespace SocksProxy.RequestReads

open ByteBuffer ByteScan Hello Auth Request UserTable Kernel Stm ConnState Connect Connection
open Stages Dialing Reading

variable {s : Stage} {c c' : Conn} {sys : Sys}

section RequestRead

variable {seen w : List UInt8} {l : Login} {hl : w.length ≤ bufferWritePtr c.readBuffer}

/-- request_read after the loop over the buffer. -/
def requestDecide (sys : Sys) (c : Conn) : Socks5State × Conn :=
  if requestIsErrored c.request.state then
    connectMarshallReply sys
      { c with
        requestReply :=
          if c.request.state = .requestErrorUnsupportedAtyp then
            SOCKS5_REPLY_ADDRESS_TYPE_NOT_SUPPORTED
          else SOCKS5_REPLY_GENERAL_FAILURE }
  else if c.request.command ≠ SOCKS5_CMD_CONNECT then
    connectMarshallReply sys { c with requestReply := SOCKS5_REPLY_COMMAND_NOT_SUPPORTED }
  else match connectToOrigin sys c with
    | (.inProgress, c) => (.connecting, c)
    | (status, c) =>
      connectMarshallReply sys { c with requestReply := connectReplyFromErrno status }

/-- request_read on a parser that has seen `seen`. -/
theorem requestRead_spec (sys : Sys) {k : Conn} (hk : k.request = requestSeen seen)
    (hseen : RequestUnfinished seen) (hne : bufferReadPtr k.readBuffer ≠ []) :
    (RequestUnfinished (seen ++ bufferReadPtr k.readBuffer) ∧ ∃ b, Rest k.readBuffer b [] ∧
      requestRead sys k = (.requestRead,
        { k with readBuffer := b, request := requestSeen (seen ++ bufferReadPtr k.readBuffer) })) ∨
    ∃ m r b, seen ++ bufferReadPtr k.readBuffer = m ++ r ∧
      Ends requestParserFeed (fun p => requestIsDone p.state) requestStart m ∧
      Rest k.readBuffer b r ∧
      requestRead sys k = requestDecide sys { k with readBuffer := b, request := requestSeen m } := by
  rcases consume_cases requestErrored_done hseen hne with
    ⟨hpart, b, hcons, hrest⟩ | ⟨m, r, hsplit, hends, b, hcons, hrest⟩
  · left
    refine ⟨hpart, b, hrest, ?_⟩
    have hdone := hpart.unfinished (List.append_ne_nil_of_right_ne_nil seen hne)
    have hconsume : requestConsume k.readBuffer k.request =
        (b, requestSeen (seen ++ bufferReadPtr k.readBuffer), false) := by
      rw [hk]
      exact hcons
    simp [requestRead, hconsume, requestSeen, hdone]
  · right
    have hconsume : requestConsume k.readBuffer k.request =
        (b, requestSeen m, requestIsErrored (requestSeen m).state) := by
      rw [hk]
      exact hcons
    have hdone : requestIsDone (requestSeen m).state = true := hends.finished
    refine ⟨m, r, b, hsplit, hends, hrest, ?_⟩
    unfold requestRead requestDecide
    simp only [hconsume, hdone]
    rfl

private theorem reply_code_ne (p : RequestParser) :
    (if p.state = .requestErrorUnsupportedAtyp then SOCKS5_REPLY_ADDRESS_TYPE_NOT_SUPPORTED
      else SOCKS5_REPLY_GENERAL_FAILURE) ≠ SOCKS5_REPLY_SUCCEEDED := by
  split <;> decide

/-- A complete or rejected request leads to an answer or to a connection attempt. -/
theorem requestDecide_spec (sys : Sys) {m : List UInt8} (h : Awaiting l m c)
    (hreq : c.request = requestSeen m)
    (hends : Ends requestParserFeed (fun p => requestIsDone p.state) requestStart m)
    (horigin : NoOrigin c) (hjob : c.dnsJob = .idle) :
    ∃ st c', requestDecide sys c = (st, c') ∧ c'.readBuffer = c.readBuffer ∧
      c'.clientItem = c.clientItem ∧
      (∃ u, c'.trace = c.trace ++ u ∧ ∀ call ∈ u, ConnectCall call) ∧
      ((st = .connecting ∧ ∃ atyp address port, Fits (.connecting l atyp address port)
          { c' with current := some .connecting, clientItem := some OP_NOOP } ∧
          m = requestMessage SOCKS5_CMD_CONNECT atyp address port) ∨
        (st = .requestWrite ∧ bufferReadPtr c'.writeBuffer ≠ [] ∧ ∃ code bind,
          (code = SOCKS5_REPLY_SUCCEEDED → c'.originSock = .ok) ∧ Fits (.reply l m code bind)
            { c' with current := some .requestWrite, clientItem := some OP_WRITE })) := by
  have hrefuse (code : UInt8) (hcode : code ≠ SOCKS5_REPLY_SUCCEEDED)
      (heq : requestDecide sys c = connectMarshallReply sys { c with requestReply := code }) :
      ∃ st c', requestDecide sys c = (st, c') ∧ c'.readBuffer = c.readBuffer ∧
        c'.clientItem = c.clientItem ∧
        (∃ u, c'.trace = c.trace ++ u ∧ ∀ call ∈ u, ConnectCall call) ∧
        ((st = .connecting ∧ ∃ atyp address port, Fits (.connecting l atyp address port)
            { c' with current := some .connecting, clientItem := some OP_NOOP } ∧
            m = requestMessage SOCKS5_CMD_CONNECT atyp address port) ∨
          (st = .requestWrite ∧ bufferReadPtr c'.writeBuffer ≠ [] ∧ ∃ code bind,
            (code = SOCKS5_REPLY_SUCCEEDED → c'.originSock = .ok) ∧ Fits (.reply l m code bind)
              { c' with current := some .requestWrite, clientItem := some OP_WRITE })) := by
    have hwait : Awaiting l m { c with requestReply := code } := h.frame rfl rfl rfl
    obtain ⟨b, hb, hne, hfits⟩ := reply_fits sys hwait hjob (Or.inl ⟨hcode, horigin⟩)
    exact ⟨_, _, heq.trans hb, rfl, rfl, ⟨[], by simp, by simp⟩, Or.inr ⟨rfl, hne, code, _,
      fun h => absurd h hcode, hfits⟩⟩
  rcases request_ends_cases (p := requestParserZero) hends with
    ⟨-, herr⟩ | ⟨command, atyp, address, port, hvalid, rfl, hread⟩
  · apply hrefuse _ (reply_code_ne c.request)
    have herr' : requestIsErrored c.request.state = true := by
      rw [hreq]
      exact herr
    simp [requestDecide, herr']
  · have hread' : Read command atyp address port c.request := by
      rw [hreq]
      exact hread
    have herr : requestIsErrored c.request.state = false := by
      rw [hread'.state_eq]
      rfl
    by_cases hcommand : command = SOCKS5_CMD_CONNECT
    swap
    · apply hrefuse SOCKS5_REPLY_COMMAND_NOT_SUPPORTED (by decide)
      simp [requestDecide, herr, hread'.command_eq, hcommand]
    subst hcommand
    have hspec := connectToOrigin_spec sys horigin
    have hcalls := hspec.calls
    have hbuffer : (connectToOrigin sys c).2.readBuffer = c.readBuffer :=
      field_of_core (fun x => x.readBuffer) (fun _ => rfl) hspec.core_eq
    have hdecide : requestDecide sys c = match connectToOrigin sys c with
        | (.inProgress, c) => (.connecting, c)
        | (status, c) =>
          connectMarshallReply sys { c with requestReply := connectReplyFromErrno status } := by
      simp [requestDecide, herr, hread'.command_eq]
    have hclient : (connectToOrigin sys c).2.clientItem = c.clientItem :=
      field_of_core (fun x => x.clientItem) (fun _ => rfl) hspec.core_eq
    rcases connects_fits sys h hvalid hread' hjob hspec with
      ⟨hst, hfits⟩ | ⟨hst, hsock, b, bind, hb, hne, hfits⟩
    · refine ⟨.connecting, _, ?_, hbuffer, hclient, hcalls,
        Or.inl ⟨rfl, atyp, address, port, hfits, rfl⟩⟩
      rw [hdecide]
      generalize connectToOrigin sys c = r at hst ⊢
      obtain ⟨status, c'⟩ := r
      simp only at hst
      simp [hst]
    · refine ⟨.requestWrite,
        { (connectToOrigin sys c).2 with
          requestReply := connectReplyFromErrno (connectToOrigin sys c).1, writeBuffer := b },
        ?_, hbuffer, hclient, hcalls, Or.inr ⟨rfl, hne, _, bind, hsock, hfits⟩⟩
      rw [hdecide, ← hb]
      generalize connectToOrigin sys c = r at hst ⊢
      obtain ⟨status, c'⟩ := r
      cases status with
      | inProgress => exact absurd rfl hst
      | ok => rfl
      | failed e => rfl

private theorem stm_request (h : Fits (.request l seen) c) :
    stmHandlerRead (stm sys) (filled c sys w hl).current (filled c sys w hl) =
      some (jump (stm sys) .requestRead (requestRead sys (filled c sys w hl)).1
        (requestRead sys (filled c sys w hl)).2) := by
  rw [show (filled c sys w hl).current = some .requestRead from h.parsed.1]
  rfl

/-- The connection after the decision about the request `m`, which looks neither
at the rest of the input nor at the calls made so far. -/
def Decided (c c' : Conn) (sys : Sys) (m : List UInt8) : Prop := ∃ b t, c' = socksv5ApplyAction
  (actionAfter (requestDecide sys
    { c with readBuffer := b, request := requestSeen m, trace := t }))

/-- A read in REQUEST_READ. -/
theorem request_read (hl : w.length ≤ bufferWritePtr c.readBuffer) (h : Fits (.request l seen) c)
    (hne : w ≠ []) (harr : Arrived c sys w) :
    ∃ c', (socks5HandleRead sys (filled c sys w hl)).map socksv5ApplyAction = some c' ∧
      ((RequestUnfinished (seen ++ (bufferReadPtr c.readBuffer ++ w)) ∧
          c'.trace = c.trace ++ [readCall c sys] ∧
          Fits (.request l (seen ++ (bufferReadPtr c.readBuffer ++ w))) c') ∨
        ∃ m r, seen ++ (bufferReadPtr c.readBuffer ++ w) = m ++ r ∧
          Ends requestParserFeed (fun p => requestIsDone p.state) requestStart m ∧
          Rest (filled c sys w hl).readBuffer c'.readBuffer r ∧
          (∃ u, c'.trace = c.trace ++ (readCall c sys :: u) ∧ ∀ call ∈ u, ConnectCall call) ∧
          Decided c c' sys m ∧ ((∃ atyp address port, Fits (.connecting l atyp address port) c' ∧
              m = requestMessage SOCKS5_CMD_CONNECT atyp address port) ∨
            ∃ code bind, Fits (.reply l m code bind) c' ∧
              (code = SOCKS5_REPLY_SUCCEEDED → c'.originSock = .ok))) := by
  obtain ⟨-, hreq, hseen, -, huname, horigin, hdns, hreply⟩ := h.parsed
  have hptr := filled_readPtr sys hl
  have hwrite := fits_write_empty h (by simp [Stage.interest, OP_READ, OP_WRITE])
  have hread : received .client (filled c sys w hl).trace =
      l.message ++ (seen ++ (bufferReadPtr c.readBuffer ++ w)) := by
    rw [← List.append_assoc l.message]
    exact filled_read hl h harr
  have hsent : sent .client (filled c sys w hl).trace = [0x05, 0x02] ++ [0x01, 0x00] := by
    have hout := h.sent_eq
    rw [hwrite, List.append_nil] at hout
    rw [filled_sent]
    exact hout
  have hitem : c.clientItem.isSome := by simp [h.clientItem_eq]
  have hspec := requestRead_spec sys (k := filled c sys w hl) hreq hseen
    (by rw [hptr]; exact List.append_ne_nil_of_right_ne_nil _ hne)
  rw [hptr] at hspec
  unfold socks5HandleRead
  rw [stm_request h]
  rcases hspec with ⟨hpart, b, hrest, heq⟩ | ⟨m, r, b, hsplit, hends, hrest, heq⟩
  · rw [heq, jump_self]
    refine ⟨_, congrArg some (apply_read (by simp [Waits]) hitem hwrite),
      Or.inl ⟨hpart, rfl, ?_⟩⟩
    exact
      { h with
        clientItem_eq := rfl
        readTidy := (filled_tidy sys h hne).rest hrest
        received_eq := by
          show received .client (filled c sys w hl).trace = l.message ++
            (seen ++ (bufferReadPtr c.readBuffer ++ w)) ++ bufferReadPtr b
          rw [hread, hrest.contents_eq, List.append_nil]
        sent_eq := by
          show sent .client (filled c sys w hl).trace ++ bufferReadPtr c.writeBuffer = _
          rw [hsent, hwrite]
          rfl
        parsed := ⟨rfl, rfl, hpart, fun _ => hrest.contents_eq, huname, horigin, hdns, hreply⟩ }
  · have hwait : Awaiting l m
        { filled c sys w hl with readBuffer := b, request := requestSeen m } :=
      { closing_eq := h.closing_eq
        cancelled_eq := h.cancelled_eq
        relay_eq := h.relay_eq
        eof_eq := fun d => (by cases d <;> rfl : _ = eof c d).trans (h.eof_eq d)
        clientFd_isSome := h.clientFd_isSome
        clientRegistered_eq := h.clientRegistered_eq
        clientItem_isSome := hitem
        readTidy := (filled_tidy sys h hne).rest hrest
        writeTidy := h.writeTidy
        received_eq := by
          show received .client (filled c sys w hl).trace = l.message ++ m ++ bufferReadPtr b
          rw [hread, hrest.contents_eq, hsplit, List.append_assoc]
        sent_eq := hsent
        empty := hwrite
        uname_holds := huname }
    obtain ⟨st, c', hdecide, hbuffer, hclient, ⟨u, hu, hcalls⟩, hcases⟩ :=
      requestDecide_spec sys hwait rfl hends horigin hdns.1
    have htrace : c'.trace = c.trace ++ (readCall c sys :: u) := by
      rw [hu]
      exact List.append_assoc c.trace [readCall c sys] u
    have hrest' : Rest (filled c sys w hl).readBuffer c'.readBuffer r := by
      rw [hbuffer]
      exact hrest
    have hdecided : ∀ k, socksv5ApplyAction (actionAfter (st, c')) = k → Decided c k sys m :=
      fun k hk => ⟨b, (filled c sys w hl).trace, hk.symm.trans
        (congrArg (fun r => socksv5ApplyAction (actionAfter r)) hdecide.symm)⟩
    rw [heq, hdecide]
    rcases hcases with ⟨rfl, atyp, address, port, hfits, hm⟩ | ⟨rfl, hpending, code, bind, hsock, hfits⟩
    · have hitem' : c'.clientItem.isSome := by
        rw [hclient]
        exact hitem
      rw [jump_silent .requestRead .connecting (by decide)]
      have happly := apply_connecting hitem'
      exact ⟨_, congrArg some happly, Or.inr ⟨m, r, hsplit, hends, hrest',
        ⟨u, htrace, hcalls⟩, hdecided _ happly, Or.inl ⟨atyp, address, port, hfits, hm⟩⟩⟩
    · have hitem' : c'.clientItem.isSome := by
        rw [hclient]
        exact hitem
      rw [jump_silent .requestRead .requestWrite (by decide)]
      have hwaits : Waits .requestWrite := by simp [Waits]
      have happly := apply_write hwaits hitem' hpending
      exact ⟨_, congrArg some happly, Or.inr ⟨m, r, hsplit, hends, hrest', ⟨u, htrace, hcalls⟩,
        hdecided _ happly, Or.inr ⟨code, bind, hfits, hsock⟩⟩⟩

end RequestRead

end SocksProxy.RequestReads
