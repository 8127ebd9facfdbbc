import SocksProxy.Stages

/-!
Closing an open connection, and what connect.c does to a connection whose
request has been read: it touches the origin socket, the lookup and the reply
code, and leaves a connected origin exactly when it reports success.
-/
namespace SocksProxy.Dialing

open ByteBuffer ByteScan Hello Auth Request UserTable Kernel Stm ConnState Connect Connection
open Stages

section Close

/-- Both sockets are closed and out of the selector. -/
structure Closed (c : Conn) : Prop where
  closing_eq : c.closing = true
  cancelled_eq : c.cancelled = true
  clientItem_eq : c.clientItem = none
  originItem_eq : c.originItem = none

/-- What socks5_connection_close makes of an open connection. -/
def closed (c : Conn) : Conn :=
  { c with
    closing := true, cancelled := true, clientRegistered := false, clientItem := none
    clientFd := none, originRegistered := false, originItem := none, originFd := none
    trace := c.trace ++ (.close .client :: if c.originFd.isSome then [.close .origin] else []) }

theorem closed_spec (c : Conn) : Closed (closed c) := ⟨rfl, rfl, rfl, rfl⟩

theorem socks5ConnectionClose_eq {c : Conn} (hopen : c.closing = false)
    (hfd : c.clientFd.isSome) (hreg : c.clientRegistered = true)
    (horigin : NoOrigin c ∨ ∃ i, HasOrigin i c) : socks5ConnectionClose c = closed c := by
  obtain ⟨fd, hfd⟩ := Option.isSome_iff_exists.mp hfd
  rcases horigin with ⟨ho, hi, hr⟩ | ⟨i, ho, hi, hr⟩
  · simp [socks5ConnectionClose, clientClose, clientUnregister, originClose, closed, Conn.log,
      hopen, hfd, hreg, ho, hi, hr]
  · obtain ⟨ofd, ho⟩ := Option.isSome_iff_exists.mp ho
    simp [socks5ConnectionClose, clientClose, clientUnregister, originClose, closed, Conn.log,
      hopen, hfd, hreg, ho, hr]

theorem Closed.close_eq {c : Conn} (h : Closed c) : socks5ConnectionClose c = c := by
  simp [socks5ConnectionClose, h.closing_eq]

theorem closed_calls (c : Conn) : ∃ u, (closed c).trace = c.trace ++ u ∧
    ∀ call ∈ u, ∃ side, call = .close side := by
  refine ⟨_, rfl, ?_⟩
  intro call hmem
  rcases List.mem_cons.mp hmem with rfl | hmem
  · exact ⟨_, rfl⟩
  · split at hmem
    · exact ⟨_, List.mem_singleton.mp hmem⟩
    · exact absurd hmem List.not_mem_nil

end Close

section Fitting

variable {s : Stage} {c c' : Conn} {sys : Sys}

/-- Until its request is complete, a connection has neither origin nor lookup. -/
theorem parsed_early (h : Parsed c s) : (NoOrigin c ∧ Undialed c) ∨
    (∃ l atyp address port, s = .connecting l atyp address port) ∨
    ∃ l message code bind, s = .reply l message code bind := by
  cases s with
  | hello seen => exact Or.inl h.2.2.2.2.2
  | helloReply methods => exact Or.inl h.2.2.2.2
  | auth methods seen => exact Or.inl h.2.2.2.2.2
  | authReply l accepted => exact Or.inl h.2.2.2.2
  | request l seen => exact Or.inl ⟨h.2.2.2.2.2.1, h.2.2.2.2.2.2.1⟩
  | connecting l atyp address port => exact Or.inr (Or.inl ⟨l, atyp, address, port, rfl⟩)
  | reply l message code bind => exact Or.inr (Or.inr ⟨l, message, code, bind, rfl⟩)

theorem parsed_origin (h : Parsed c s) : NoOrigin c ∨ ∃ i, HasOrigin i c := by
  rcases parsed_early h with ⟨hnone, -⟩ | ⟨l, atyp, address, port, rfl⟩ | ⟨l, message, code, bind, rfl⟩
  · exact Or.inl hnone
  · rcases h.2.2.2.2 with ⟨horigin, -⟩ | horigin
    · exact Or.inr ⟨_, horigin⟩
    · exact Or.inl horigin
  · obtain ⟨-, -, -, -, h⟩ := h
    by_cases hcode : code = SOCKS5_REPLY_SUCCEEDED
    · rw [if_pos hcode] at h
      exact Or.inr ⟨_, h.1⟩
    · rw [if_neg hcode] at h
      exact Or.inl h

theorem fits_close_eq (h : Fits s c) : socks5ConnectionClose c = closed c :=
  socks5ConnectionClose_eq h.closing_eq h.clientFd_isSome h.clientRegistered_eq (parsed_origin h.parsed)

/-- What a stage knows of the connection does not depend on its calls. -/
theorem parsed_log (h : Parsed c s) (call : Call) : Parsed (c.log call) s := by
  cases s <;> exact h

theorem fits_log (h : Fits s c) {call : Call} (hr : call.received .client = [])
    (hs : call.sent .client = []) : Fits s (c.log call) :=
  { h with
    received_eq := by simpa [Conn.log, hr] using h.received_eq
    sent_eq := by simpa [Conn.log, hs] using h.sent_eq
    parsed := parsed_log h.parsed call }

end Fitting

section Connecting

variable {sys : Sys} {c c' : Conn}

/-- Everything that connect.c leaves alone. -/
def core (c : Conn) : Conn :=
  { c with
    originFd := none, originItem := none, originRegistered := false, originSock := .ok
    dnsPending := false, dnsError := 0, dnsResult := [], dnsNext := [], dnsJob := .idle
    requestReply := 0, trace := [] }

/-- A field that `core` keeps is the same in connections of the same core. -/
theorem field_of_core {α : Type*} (f : Conn → α) (hf : ∀ c, f (core c) = f c)
    (h : core c' = core c) : f c' = f c := by rw [← hf c', h, hf c]

/-- The calls connect.c makes. -/
def ConnectCall : Call → Prop
  | .registerOriginConnect _ => True
  | .dnsResolveStart _ _ => True
  | .close .origin => True
  | _ => False

/-- What the origin socket is when a connect function returned `status`. -/
def Dialed (status : Status) (c : Conn) : Prop :=
  match status with
  | .ok => HasOrigin OP_NOOP c ∧ c.originSock = .ok
  | .inProgress => HasOrigin OP_WRITE c ∨ NoOrigin c
  | .failed _ => NoOrigin c

/-- The outcome of a connect function called on `c`. -/
structure Connects (c : Conn) (r : Status × Conn) : Prop where
  core_eq : core r.2 = core c
  calls : ∃ u, r.2.trace = c.trace ++ u ∧ ∀ call ∈ u, ConnectCall call
  dialed : Dialed r.1 r.2
  /-- A lookup is left running only without an origin socket. -/
  job_eq : r.2.dnsJob = c.dnsJob ∨ r.1 = .inProgress ∧ NoOrigin r.2

theorem Connects.trans {c₁ : Conn} {r : Status × Conn} (h : Connects c₁ r)
    (hcore : core c₁ = core c) (hjob : c₁.dnsJob = c.dnsJob)
    (hcalls : ∃ u, c₁.trace = c.trace ++ u ∧ ∀ call ∈ u, ConnectCall call) : Connects c r where
  core_eq := h.core_eq.trans hcore
  calls := by
    obtain ⟨u, hu, hucalls⟩ := hcalls
    obtain ⟨v, hv, hvcalls⟩ := h.calls
    refine ⟨u ++ v, by rw [hv, hu, List.append_assoc], ?_⟩
    intro call hmem
    rcases List.mem_append.mp hmem with hmem | hmem
    · exact hucalls call hmem
    · exact hvcalls call hmem
  dialed := h.dialed
  job_eq := by
    rw [← hjob]
    exact h.job_eq

theorem registerOriginConnect_spec (a : Attempt) (addr : SockAddr) (h : NoOrigin c) :
    Connects c (registerOriginConnect a addr c) ∧
      (registerOriginConnect a addr c).2.dnsJob = c.dnsJob ∧
      (registerOriginConnect a addr c).2.dnsNext = c.dnsNext := by
  obtain ⟨hfd, hitem, hreg⟩ := h
  unfold registerOriginConnect
  have hone : ∀ call ∈ [Call.registerOriginConnect addr], ConnectCall call := by
    simp [ConnectCall]
  have htwo : ∀ call ∈ [Call.registerOriginConnect addr, .close .origin], ConnectCall call := by
    simp [ConnectCall]
  dsimp only
  split
  · exact ⟨⟨rfl, ⟨_, rfl, hone⟩, ⟨hfd, hitem, hreg⟩, Or.inl rfl⟩, rfl, rfl⟩
  split
  · exact ⟨⟨rfl, ⟨_, List.append_assoc _ _ _, htwo⟩, ⟨hfd, hitem, hreg⟩, Or.inl rfl⟩, rfl, rfl⟩
  split
  · split
    · exact ⟨⟨rfl, ⟨_, rfl, hone⟩, ⟨⟨rfl, rfl, rfl⟩, rfl⟩, Or.inl rfl⟩, rfl, rfl⟩
    · exact ⟨⟨rfl, ⟨_, List.append_assoc _ _ _, htwo⟩, ⟨rfl, hitem, hreg⟩, Or.inl rfl⟩, rfl, rfl⟩
  · exact ⟨⟨rfl, ⟨_, List.append_assoc _ _ _, htwo⟩, ⟨hfd, hitem, hreg⟩, Or.inl rfl⟩, rfl, rfl⟩
  · split
    · exact ⟨⟨rfl, ⟨_, rfl, hone⟩, Or.inl ⟨rfl, rfl, rfl⟩, Or.inl rfl⟩, rfl, rfl⟩
    · exact ⟨⟨rfl, ⟨_, List.append_assoc _ _ _, htwo⟩, ⟨rfl, hitem, hreg⟩, Or.inl rfl⟩, rfl, rfl⟩

theorem resolvedLoop_spec (n : ℕ) (lastError : Errno) (ais : List AddrInfo) (h : NoOrigin c) :
    Connects c (resolvedLoop sys n lastError ais c) ∧
      (resolvedLoop sys n lastError ais c).2.dnsJob = c.dnsJob := by
  induction ais generalizing n lastError c with
  | nil => exact ⟨⟨rfl, ⟨[], by simp [resolvedLoop], by simp⟩, h, Or.inl rfl⟩, rfl⟩
  | cons ai rest ih =>
    unfold resolvedLoop
    dsimp only
    have hskip : NoOrigin { c with dnsNext := rest } := h
    have hempty : ∃ u, ({ c with dnsNext := rest } : Conn).trace = c.trace ++ u ∧
        ∀ call ∈ u, ConnectCall call := ⟨[], by simp, by simp⟩
    split
    · obtain ⟨hspec, hjob, -⟩ := registerOriginConnect_spec (sys.attempt n) ai.addr hskip
      split
      next e c₁ heq =>
        rw [heq] at hspec hjob
        obtain ⟨hloop, hloopJob⟩ := ih (n + 1) e hspec.dialed
        obtain ⟨u, hu, hcalls⟩ := hspec.calls
        exact ⟨hloop.trans hspec.core_eq hjob ⟨u, hu, hcalls⟩, hloopJob.trans hjob⟩
      next status c₁ heq =>
        rw [heq] at hspec hjob
        exact ⟨hspec.trans rfl rfl hempty, hjob⟩
    · obtain ⟨hloop, hloopJob⟩ := ih n lastError hskip
      exact ⟨hloop.trans rfl rfl hempty, hloopJob⟩

theorem startResolvedConnect_spec (sys : Sys) (h : NoOrigin c) :
    Connects c (startResolvedConnect sys c) ∧
      (startResolvedConnect sys c).2.dnsJob = c.dnsJob := by
  unfold startResolvedConnect
  split
  · exact ⟨⟨rfl, ⟨[], by simp, by simp⟩, h, Or.inl rfl⟩, rfl⟩
  · exact resolvedLoop_spec 0 .EHOSTUNREACH c.dnsNext h

theorem dnsResolveStart_spec (h : NoOrigin c) : Connects c (dnsResolveStart sys c) := by
  unfold dnsResolveStart
  have hone : ∀ call ∈ [Call.dnsResolveStart (requestHost c.request) (requestPort c.request)],
      ConnectCall call := by simp [ConnectCall]
  dsimp only
  split
  · exact ⟨rfl, ⟨_, rfl, hone⟩, h, Or.inl rfl⟩
  · exact ⟨rfl, ⟨_, rfl, hone⟩, h, Or.inl rfl⟩
  · exact ⟨rfl, ⟨_, rfl, hone⟩, Or.inr h, Or.inr ⟨rfl, h⟩⟩

theorem connectToOrigin_spec (sys : Sys) (h : NoOrigin c) : Connects c (connectToOrigin sys c) := by
  unfold connectToOrigin
  split
  · exact (registerOriginConnect_spec _ _ h).1
  split
  · exact (registerOriginConnect_spec _ _ h).1
  split
  · split
    · exact ⟨rfl, ⟨[], by simp, by simp⟩, Or.inr h, Or.inl rfl⟩
    split
    · exact (startResolvedConnect_spec sys h).1
    · exact dnsResolveStart_spec h
  · exact ⟨rfl, ⟨[], by simp, by simp⟩, h, Or.inl rfl⟩

end Connecting

section Answering

variable {sys : Sys} {c c' : Conn} {l : Login} {message : List UInt8}

/-- The request `message` of `l` was read and nothing was answered yet. -/
structure Awaiting (l : Login) (message : List UInt8) (c : Conn) : Prop where
  closing_eq : c.closing = false
  cancelled_eq : c.cancelled = false
  relay_eq : c.relayStarted = false
  eof_eq : ∀ d, eof c d = false
  clientFd_isSome : c.clientFd.isSome
  clientRegistered_eq : c.clientRegistered = true
  clientItem_isSome : c.clientItem.isSome
  readTidy : Tidy c.readBuffer
  writeTidy : Tidy c.writeBuffer
  received_eq : received .client c.trace = l.message ++ message ++ bufferReadPtr c.readBuffer
  sent_eq : sent .client c.trace = [0x05, 0x02] ++ [0x01, 0x00]
  empty : bufferReadPtr c.writeBuffer = []
  uname_holds : Holds c.auth.uname (l.uname ++ [0])

theorem connectCall_received {call : Call} (h : ConnectCall call) :
    call.received .client = [] := by
  cases call <;> simp_all [ConnectCall, Call.received]

theorem connectCall_sent {call : Call} (h : ConnectCall call) : call.sent .client = [] := by
  cases call <;> simp_all [ConnectCall, Call.sent]

theorem connectCall_not_starts {call : Call} (h : ConnectCall call) : ¬ Starts call := by
  cases call <;> simp_all [ConnectCall, Starts]

theorem Connects.trace_received {r : Status × Conn} (h : Connects c r) :
    received .client r.2.trace = received .client c.trace := by
  obtain ⟨u, hu, hcalls⟩ := h.calls
  have hnil : received .client u = [] :=
    List.flatMap_eq_nil_iff.mpr fun call hmem => connectCall_received (hcalls call hmem)
  rw [hu, received_append, hnil, List.append_nil]

theorem Connects.trace_sent {r : Status × Conn} (h : Connects c r) :
    sent .client r.2.trace = sent .client c.trace := by
  obtain ⟨u, hu, hcalls⟩ := h.calls
  have hnil : sent .client u = [] :=
    List.flatMap_eq_nil_iff.mpr fun call hmem => connectCall_sent (hcalls call hmem)
  rw [hu, sent_append, hnil, List.append_nil]

/-- A frame: only what `core` forgets and the calls may differ. -/
theorem Awaiting.frame (h : Awaiting l message c) (hcore : core c' = core c)
    (hreceived : received .client c'.trace = received .client c.trace)
    (hsent : sent .client c'.trace = sent .client c.trace) : Awaiting l message c' where
  closing_eq := (field_of_core (fun x => x.closing) (fun _ => rfl) hcore).trans h.closing_eq
  cancelled_eq := (field_of_core (fun x => x.cancelled) (fun _ => rfl) hcore).trans h.cancelled_eq
  relay_eq := (field_of_core (fun x => x.relayStarted) (fun _ => rfl) hcore).trans h.relay_eq
  eof_eq := by
    intro d
    have heq : eof c' d = eof c d :=
      field_of_core (fun x => eof x d) (fun _ => by cases d <;> rfl) hcore
    rw [heq]
    exact h.eof_eq d
  clientFd_isSome := by
    have heq : c'.clientFd = c.clientFd := field_of_core (fun x => x.clientFd) (fun _ => rfl) hcore
    rw [heq]
    exact h.clientFd_isSome
  clientRegistered_eq :=
    (field_of_core (fun x => x.clientRegistered) (fun _ => rfl) hcore).trans h.clientRegistered_eq
  clientItem_isSome := by
    have heq : c'.clientItem = c.clientItem :=
      field_of_core (fun x => x.clientItem) (fun _ => rfl) hcore
    rw [heq]
    exact h.clientItem_isSome
  readTidy := by
    have heq : c'.readBuffer = c.readBuffer :=
      field_of_core (fun x => x.readBuffer) (fun _ => rfl) hcore
    rw [heq]
    exact h.readTidy
  writeTidy := by
    have heq : c'.writeBuffer = c.writeBuffer :=
      field_of_core (fun x => x.writeBuffer) (fun _ => rfl) hcore
    rw [heq]
    exact h.writeTidy
  received_eq := by
    have heq : c'.readBuffer = c.readBuffer :=
      field_of_core (fun x => x.readBuffer) (fun _ => rfl) hcore
    rw [heq, hreceived]
    exact h.received_eq
  sent_eq := hsent.trans h.sent_eq
  empty := by
    have heq : c'.writeBuffer = c.writeBuffer :=
      field_of_core (fun x => x.writeBuffer) (fun _ => rfl) hcore
    rw [heq]
    exact h.empty
  uname_holds := by
    have heq : c'.auth = c.auth := field_of_core (fun x => x.auth) (fun _ => rfl) hcore
    rw [heq]
    exact h.uname_holds

theorem Awaiting.connects (h : Awaiting l message c) {r : Status × Conn} (hr : Connects c r) :
    Awaiting l message r.2 :=
  h.frame hr.core_eq hr.trace_received hr.trace_sent

/-- A frame on the request, which the connect functions only read. -/
theorem request_of_core (h : core c' = core c) : c'.request = c.request :=
  field_of_core (fun x => x.request) (fun _ => rfl) h

/-- The answer to a rejected request, or to one without an origin. -/
def Refused (code : UInt8) (c : Conn) : Prop := code ≠ SOCKS5_REPLY_SUCCEEDED ∧ NoOrigin c

/-- The answer to a CONNECT whose origin is connected. -/
def Granted (message : List UInt8) (code : UInt8) (c : Conn) : Prop :=
  code = SOCKS5_REPLY_SUCCEEDED ∧ HasOrigin OP_NOOP c ∧
    ∃ atyp address port, ValidAddress atyp address ∧
      message = requestMessage SOCKS5_CMD_CONNECT atyp address port ∧
      Read SOCKS5_CMD_CONNECT atyp address port c.request

/-- The bound address that a reply carries. -/
def bindOf (sys : Sys) (c : Conn) : Option (SockAddr × ℕ) :=
  if c.requestReply = SOCKS5_REPLY_SUCCEEDED ∧ c.originFd.isSome then sys.getsockname else none

/-- The connection after its reply was stored and the client armed for writing. -/
theorem reply_fits (sys : Sys) (h : Awaiting l message c) (hjob : c.dnsJob = .idle)
    (horigin : Refused c.requestReply c ∨ Granted message c.requestReply c) :
    ∃ b, connectMarshallReply sys c = (.requestWrite, { c with writeBuffer := b }) ∧
      bufferReadPtr b ≠ [] ∧ Fits (.reply l message c.requestReply (bindOf sys c))
        { c with writeBuffer := b, current := some .requestWrite, clientItem := some OP_WRITE } := by
  have hlen : (replyMessage c.requestReply (bindOf sys c)).length ≤
      bufferWritePtr c.writeBuffer := by
    rw [h.writeTidy.whole h.empty]
    exact (replyMessage_length_le _ _).trans (by decide)
  have hne : replyMessage c.requestReply (bindOf sys c) ≠ [] := by
    obtain ⟨atyp, addr, port, heq, -⟩ := replyMessage_cases c.requestReply (bindOf sys c)
    simp [heq]
  refine ⟨bufferPut c.writeBuffer _ hlen, ?_, by simp [hne], ?_⟩
  · have hput : requestMarshallReply c.writeBuffer c.requestReply (bindOf sys c) =
        some (bufferPut c.writeBuffer _ hlen) := dif_pos hlen
    have heq := connectMarshallReply_eq sys c
    rw [← bindOf, hput] at heq
    exact heq
  · exact
      { closing_eq := h.closing_eq
        cancelled_eq := h.cancelled_eq
        relay_eq := h.relay_eq
        eof_eq := fun d => (by cases d <;> rfl : _ = eof c d).trans (h.eof_eq d)
        clientFd_isSome := h.clientFd_isSome
        clientRegistered_eq := h.clientRegistered_eq
        clientItem_eq := rfl
        readTidy := h.readTidy
        writeTidy := h.writeTidy.put _ hlen hne
        received_eq := h.received_eq
        sent_eq := by
          show sent .client c.trace ++ bufferReadPtr (bufferPut c.writeBuffer _ hlen) = _
          rw [h.sent_eq, bufferReadPtr_put, h.empty]
          rfl
        pending_iff := by simp [hne, Stage.interest]
        parsed := by
          refine ⟨rfl, rfl, h.uname_holds, hjob, ?_⟩
          rcases horigin with ⟨hcode, hnone⟩ | ⟨hcode, hrest⟩
          · rw [if_neg hcode]
            exact hnone
          · rw [if_pos hcode]
            exact hrest }

/-- The connection while its origin is being looked up or connected. -/
theorem connecting_fits {atyp : UInt8} {address : List UInt8} {port : UInt8 × UInt8}
    (h : Awaiting l (requestMessage SOCKS5_CMD_CONNECT atyp address port) c)
    (hvalid : ValidAddress atyp address)
    (hread : Read SOCKS5_CMD_CONNECT atyp address port c.request)
    (horigin : HasOrigin OP_WRITE c ∧ c.dnsJob = .idle ∨ NoOrigin c) :
    Fits (.connecting l atyp address port)
      { c with current := some .connecting, clientItem := some OP_NOOP } where
  closing_eq := h.closing_eq
  cancelled_eq := h.cancelled_eq
  relay_eq := h.relay_eq
  eof_eq := fun d => (by cases d <;> rfl : _ = eof c d).trans (h.eof_eq d)
  clientFd_isSome := h.clientFd_isSome
  clientRegistered_eq := h.clientRegistered_eq
  clientItem_eq := rfl
  readTidy := h.readTidy
  writeTidy := h.writeTidy
  received_eq := h.received_eq
  sent_eq := by
    show sent .client c.trace ++ bufferReadPtr c.writeBuffer = _
    rw [h.sent_eq, h.empty]
    rfl
  pending_iff := by simp [h.empty, Stage.interest, OP_NOOP, OP_WRITE]
  parsed := ⟨rfl, hvalid, hread, h.uname_holds, horigin⟩

theorem connecting_awaiting {atyp : UInt8} {address : List UInt8} {port : UInt8 × UInt8}
    (h : Fits (.connecting l atyp address port) c) :
    Awaiting l (requestMessage SOCKS5_CMD_CONNECT atyp address port) c := by
  have hempty : bufferReadPtr c.writeBuffer = [] := by
    by_contra hne
    exact absurd (h.pending_iff.mp hne) (by simp [Stage.interest, OP_NOOP, OP_WRITE])
  exact
    { closing_eq := h.closing_eq
      cancelled_eq := h.cancelled_eq
      relay_eq := h.relay_eq
      eof_eq := h.eof_eq
      clientFd_isSome := h.clientFd_isSome
      clientRegistered_eq := h.clientRegistered_eq
      clientItem_isSome := by simp [h.clientItem_eq]
      readTidy := h.readTidy
      writeTidy := h.writeTidy
      received_eq := h.received_eq
      sent_eq := by
        have heq := h.sent_eq
        rw [hempty, List.append_nil] at heq
        exact heq
      empty := hempty
      uname_holds := h.parsed.2.2.2.1 }

/-- The reply code is success for success alone. -/
theorem connectReplyFromErrno_eq_succeeded (status : Status) :
    connectReplyFromErrno status = SOCKS5_REPLY_SUCCEEDED ↔ status = .ok := by
  cases status with
  | ok => simp [connectReplyFromErrno]
  | inProgress =>
    simp [connectReplyFromErrno, SOCKS5_REPLY_GENERAL_FAILURE, SOCKS5_REPLY_SUCCEEDED]
  | failed e =>
    cases e <;> simp [connectReplyFromErrno, SOCKS5_REPLY_GENERAL_FAILURE,
      SOCKS5_REPLY_SUCCEEDED, SOCKS5_REPLY_NETWORK_UNREACHABLE, SOCKS5_REPLY_HOST_UNREACHABLE,
      SOCKS5_REPLY_CONNECTION_REFUSED]

/-- What follows a connect function: either the connection waits, or the reply
is stored. -/
theorem connects_fits (sys : Sys) {atyp : UInt8} {address : List UInt8} {port : UInt8 × UInt8}
    (h : Awaiting l (requestMessage SOCKS5_CMD_CONNECT atyp address port) c)
    (hvalid : ValidAddress atyp address)
    (hread : Read SOCKS5_CMD_CONNECT atyp address port c.request) (hjob : c.dnsJob = .idle)
    {r : Status × Conn} (hr : Connects c r) :
    (r.1 = .inProgress ∧ Fits (.connecting l atyp address port)
      { r.2 with current := some .connecting, clientItem := some OP_NOOP }) ∨
    (r.1 ≠ .inProgress ∧
      (connectReplyFromErrno r.1 = SOCKS5_REPLY_SUCCEEDED → r.2.originSock = .ok) ∧ ∃ b bind,
      connectMarshallReply sys { r.2 with requestReply := connectReplyFromErrno r.1 } =
        (.requestWrite,
          { r.2 with requestReply := connectReplyFromErrno r.1, writeBuffer := b }) ∧
      bufferReadPtr b ≠ [] ∧
      Fits (.reply l (requestMessage SOCKS5_CMD_CONNECT atyp address port)
          (connectReplyFromErrno r.1) bind)
        { r.2 with
          requestReply := connectReplyFromErrno r.1, writeBuffer := b
          current := some .requestWrite, clientItem := some OP_WRITE }) := by
  have hwait := h.connects hr
  have hread' : Read SOCKS5_CMD_CONNECT atyp address port r.2.request := by
    rw [request_of_core hr.core_eq]
    exact hread
  have hdialed := hr.dialed
  have hwait' : Awaiting l (requestMessage SOCKS5_CMD_CONNECT atyp address port)
      { r.2 with requestReply := connectReplyFromErrno r.1 } := hwait.frame rfl rfl rfl
  have hidle : r.1 ≠ .inProgress → r.2.dnsJob = .idle := by
    intro hne
    rcases hr.job_eq with heq | ⟨hprog, -⟩
    · exact heq.trans hjob
    · exact absurd hprog hne
  cases hst : r.1 with
  | inProgress =>
    left
    refine ⟨rfl, connecting_fits hwait hvalid hread' ?_⟩
    rw [hst] at hdialed
    rcases hdialed with horigin | hnone
    · left
      refine ⟨horigin, ?_⟩
      rcases hr.job_eq with heq | ⟨-, hnone⟩
      · exact heq.trans hjob
      · have hsome := horigin.1
        simp [hnone.1] at hsome
    · exact Or.inr hnone
  | ok =>
    right
    rw [hst] at hdialed hwait'
    obtain ⟨b, heq, hb, hfits⟩ := reply_fits sys hwait' (hidle (by simp [hst]))
      (Or.inr ⟨rfl, hdialed.1, atyp, address, port, hvalid, rfl, hread'⟩)
    exact ⟨by simp, fun _ => hdialed.2, b, _, heq, hb, hfits⟩
  | failed e =>
    right
    rw [hst] at hdialed hwait'
    have hcode : connectReplyFromErrno (.failed e) ≠ SOCKS5_REPLY_SUCCEEDED := by
      rw [ne_eq, connectReplyFromErrno_eq_succeeded]
      simp
    obtain ⟨b, heq, hb, hfits⟩ := reply_fits sys hwait' (hidle (by simp [hst]))
      (Or.inl ⟨hcode, hdialed⟩)
    exact ⟨by simp, fun h => absurd h hcode, b, _, heq, hb, hfits⟩

end Answering

end SocksProxy.Dialing
