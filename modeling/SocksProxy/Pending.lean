import SocksProxy.Lifetime

/-!
A connection in CONNECTING waits with no interest of its client armed, so
something else has to wake it: its worker, the job its worker queued, or its
origin socket. The only hand-off that can be lost is that of the worker, when
selector_notify_block_done cannot allocate the job.
-/
namespace SocksProxy.Pending

open ByteBuffer Hello Auth Request UserTable Kernel Stm ConnState Connect Connection
open Stages Dialing RequestReads OriginStages Turns RelayHandlers Lifetime Runs

variable {c c' k : Conn} {e : Event} {sys : Sys} {forced : Prop}

/-- selector_notify_block_done runs out of memory for a connection that still
waits for its worker. -/
def DropsResult (c : Conn) : Event → Prop
  | .dnsFinished _ _ queued => queued = false ∧ c.cancelled = false
  | _ => False

/-- A worker runs for the connection, or its job is queued for a client socket
that is in the selector, or its registered origin socket is armed for writing. -/
def Progresses (c : Conn) : Prop :=
  c.dnsJob = .resolving ∨
    (c.dnsJob = .queued ∧ c.clientFd.isSome ∧ c.clientItem.isSome) ∨
    (c.originFd.isSome ∧ c.originRegistered = true ∧ armed c.originItem FdInterest.write)

/-- The lookup or the origin socket is still there. -/
def Held (c : Conn) : Prop := c.originFd.isSome ∨ c.dnsJob ≠ .idle

section Dial

/-! A connect function that reports EINPROGRESS left an origin socket or a worker. -/

theorem registerOriginConnect_held (a : Attempt) (addr : SockAddr) (c : Conn) :
    (registerOriginConnect a addr c).1 = .inProgress →
      (registerOriginConnect a addr c).2.originFd.isSome := by
  unfold registerOriginConnect
  dsimp only
  split
  · simp
  split
  · simp
  split
  · split <;> simp
  · simp
  · split <;> simp

theorem resolvedLoop_held (sys : Sys) (n : ℕ) (lastError : Errno) (ais : List AddrInfo) (c : Conn) :
    (resolvedLoop sys n lastError ais c).1 = .inProgress →
      (resolvedLoop sys n lastError ais c).2.originFd.isSome := by
  induction ais generalizing n lastError c with
  | nil => simp [resolvedLoop]
  | cons ai rest ih =>
    unfold resolvedLoop
    dsimp only
    split
    · have hheld := registerOriginConnect_held (sys.attempt n) ai.addr { c with dnsNext := rest }
      split
      next e k heq => exact ih (n + 1) e k
      next status k heq =>
        rw [heq] at hheld
        exact hheld
    · exact ih n lastError _

theorem startResolvedConnect_held (sys : Sys) (c : Conn) :
    (startResolvedConnect sys c).1 = .inProgress →
      (startResolvedConnect sys c).2.originFd.isSome := by
  unfold startResolvedConnect
  split
  · simp
  · exact resolvedLoop_held sys 0 .EHOSTUNREACH c.dnsNext c

theorem dnsResolveStart_held (sys : Sys) (c : Conn) :
    (dnsResolveStart sys c).1 = .inProgress → (dnsResolveStart sys c).2.dnsJob ≠ .idle := by
  unfold dnsResolveStart
  dsimp only
  split <;> simp

theorem connectToOrigin_held (sys : Sys) (hpending : c.dnsPending = false) :
    (connectToOrigin sys c).1 = .inProgress → Held (connectToOrigin sys c).2 := by
  unfold connectToOrigin
  rw [hpending]
  split
  · exact fun h => Or.inl (registerOriginConnect_held _ _ c h)
  split
  · exact fun h => Or.inl (registerOriginConnect_held _ _ c h)
  split
  · rw [if_neg Bool.false_ne_true]
    split
    · exact fun h => Or.inl (startResolvedConnect_held sys c h)
    · exact fun h => Or.inr (dnsResolveStart_held sys c h)
  · simp

theorem connectMarshallReply_state (sys : Sys) (c : Conn) :
    (connectMarshallReply sys c).1 ≠ .connecting := by
  unfold connectMarshallReply
  dsimp only
  split <;> simp

end Dial

section Steps

/-! Every event that leaves the connection in CONNECTING, except for a dropped
result, leaves it something to wait for. -/

theorem clientClose_current (c : Conn) : (clientClose c).current = c.current := by
  unfold clientClose clientUnregister
  dsimp only
  split <;> split <;> rfl

theorem originClose_current (c : Conn) : (originClose c).current = c.current := by
  unfold originClose
  dsimp only
  split <;> split <;> rfl

theorem socks5ConnectionClose_current (c : Conn) : (socks5ConnectionClose c).current = c.current := by
  unfold socks5ConnectionClose
  split
  · rfl
  · rw [originClose_current, clientClose_current]

/-- The reply that is stored ends CONNECTING. -/
theorem originConnectReply_current (sys : Sys) (c : Conn) :
    (originConnectReply sys c).current ≠ some .connecting := by
  unfold originConnectReply
  split <;> simp [selectorSetInterest]

theorem originConnectNext_held (sys : Sys) (c : Conn) :
    (originConnectNext sys c).current = some .connecting → Held (originConnectNext sys c) := by
  have hheld := startResolvedConnect_held sys c
  unfold originConnectNext
  split
  next k heq =>
    intro hcur
    rw [heq] at hheld
    exact Or.inl (hheld rfl)
  next status k heq => exact fun hcur => absurd hcur (originConnectReply_current sys _)

theorem originConnectWriteHandler_held (sys : Sys) (c : Conn) :
    (originConnectWriteHandler sys c).current = some .connecting →
      Held (originConnectWriteHandler sys c) := by
  unfold originConnectWriteHandler
  dsimp only
  split
  · split
    · exact originConnectNext_held sys _
    · exact fun hcur => absurd hcur (originConnectReply_current sys _)
  · exact fun hcur => absurd hcur (originConnectReply_current sys _)

theorem socksv5BlockDone_held (sys : Sys) (c : Conn) :
    (socksv5BlockDone sys c).current = some .connecting → Held (socksv5BlockDone sys c) := by
  have hheld := connectToOrigin_held (c := { c with dnsPending := false }) sys rfl
  unfold socksv5BlockDone socks5HandleBlockDone
  split
  next k heq =>
    intro hcur
    rw [heq] at hheld
    exact hheld rfl
  next status k heq =>
    split
    next m hm =>
      intro hcur
      rw [socksv5ApplyAction, socks5ConnectionClose_current, Option.some.injEq] at hcur
      exact absurd hcur (by decide)
    next st m hm =>
      intro hcur
      exact absurd hcur (by simp [socksv5ApplyAction, selectorSetInterest])

/-- The state that a callback returned is current after its action. -/
theorem applied_current (r : Socks5State × Conn) :
    (socksv5ApplyAction (actionAfter r)).current = some r.1 := by
  obtain ⟨st, c⟩ := r
  unfold actionAfter
  dsimp only
  split
  · exact socks5ConnectionClose_current _
  split
  · rfl
  split
  · rfl
  split <;> rfl

/-- The decision about a request, which may be to dial. -/
theorem decided_held {m : List UInt8} (hpending : c.dnsPending = false)
    (h : Decided c c' sys m) (hcur : c'.current = some .connecting) : Held c' := by
  obtain ⟨b, t, rfl⟩ := h
  rw [applied_current, Option.some.injEq] at hcur
  have hheld := connectToOrigin_held (c := { c with
    readBuffer := b, request := requestSeen m, trace := t }) sys hpending
  unfold requestDecide at hcur ⊢
  split at hcur
  next => exact absurd hcur (connectMarshallReply_state sys _)
  next herror =>
  rw [if_neg herror]
  split at hcur
  next => exact absurd hcur (connectMarshallReply_state sys _)
  next hcommand =>
  rw [if_neg hcommand]
  split at hcur
  next k heq =>
    rw [heq] at hheld
    exact hheld rfl
  next status k heq => exact absurd hcur (connectMarshallReply_state sys _)

theorem connecting_of_current {s : Stage} (h : Fits s c) (hcur : c.current = some .connecting) :
    ∃ l atyp address port, s = .connecting l atyp address port := by
  have hparsed := h.parsed
  cases s with
  | hello seen =>
    rcases hparsed.1 with ⟨hnone, -⟩ | ⟨hread, -⟩
    · exact absurd (hnone.symm.trans hcur) (by decide)
    · exact absurd (hread.symm.trans hcur) (by decide)
  | helloReply methods => exact absurd (hparsed.1.symm.trans hcur) (by decide)
  | auth methods seen => exact absurd (hparsed.1.symm.trans hcur) (by decide)
  | authReply l accepted => exact absurd (hparsed.1.symm.trans hcur) (by decide)
  | request l seen => exact absurd (hparsed.1.symm.trans hcur) (by decide)
  | connecting l atyp address port => exact ⟨l, atyp, address, port, rfl⟩
  | reply l message code bind => exact absurd (hparsed.1.symm.trans hcur) (by decide)

theorem not_armed_noop {i : Option FdInterest} (h : i = some OP_NOOP) {op : FdInterest → Bool}
    (hop : op OP_NOOP = false) : ¬ armed i op := by
  rintro ⟨j, hj, hjop⟩
  rw [h, Option.some.injEq] at hj
  rw [← hj, hop] at hjop
  exact absurd hjop (by decide)

/-- The step lemma for a connection that was in CONNECTING before the event. -/
theorem held_wait {s s' : Stage} (h : Fits s c) (h' : Fits s' c')
    (hitem : c.clientItem = some OP_NOOP) (hstep : Step c e c') (hdrops : ¬ DropsResult c e)
    (hheld : Held c) (hcur : c'.current = some .connecting) : Held c' := by
  obtain ⟨hen, heq⟩ := hstep
  cases e with
  | clientRead sys => exact absurd hen (not_armed_noop hitem rfl)
  | clientWrite sys => exact absurd hen (not_armed_noop hitem rfl)
  | originRead sys =>
    obtain ⟨i, hi, hread⟩ := hen
    have hne : i ≠ OP_NOOP := by
      rintro rfl
      exact absurd hread (by decide)
    obtain ⟨l, atyp, address, port, -, horigin, -⟩ := armed_connecting h hi hne
    obtain rfl := Option.some.inj (horigin.2.1.symm.trans hi)
    exact absurd hread (by decide)
  | originWrite sys =>
    obtain rfl := Option.some.inj heq
    have hhandler : originWrite sys c = originConnectWriteHandler sys c := by
      simp [originWrite, h.relay_eq]
    rw [hhandler] at hcur ⊢
    exact originConnectWriteHandler_held sys c hcur
  | blockDone sys =>
    obtain rfl := Option.some.inj heq
    exact socksv5BlockDone_held sys _ hcur
  | connectFinished outcome =>
    obtain rfl := Option.some.inj heq
    exact hheld
  | dnsFinished error result queued =>
    obtain rfl := Option.some.inj heq
    have hqueued : queued = true := by
      by_contra hqueued
      exact hdrops ⟨by simpa using hqueued, h.cancelled_eq⟩
    apply Or.inr
    simp [dnsWorkerStore, h.cancelled_eq, hqueued]
  | addUser name pass =>
    obtain rfl := Option.some.inj heq
    exact hheld
  | removeUser name =>
    obtain rfl := Option.some.inj heq
    exact hheld
  | forceClose =>
    obtain rfl := Option.some.inj heq
    have hclosing : (socks5ConnectionClose c).closing = true := by
      rw [fits_close_eq h]
      rfl
    exact absurd (hclosing.symm.trans h'.closing_eq) (by decide)

/-- While a connection waits in CONNECTING, it is held. -/
def Waited (c : Conn) : Prop :=
  c.closing = false → c.current = some .connecting → Held c

theorem relay_of_connecting (h : Phase forced c) (hopen : c.closing = false)
    (hcur : c.current = some .connecting) : c.relayStarted = false := by
  by_contra hrelay
  obtain ⟨t, -, hrel⟩ := relaying_of_open h hopen (by simpa using hrelay)
  exact absurd (hrel.running.current_eq.symm.trans hcur) (by decide)

/-- The step lemma: CONNECTING is entered with the request, or it goes on. -/
theorem waited_step {a b : Conn} (h : Phase forced a) (h' : Phase forced b) (hwaited : Waited a)
    (hdrops : ¬ DropsResult a e) (hstep : Step a e b) : Waited b := by
  intro hopen hcur
  obtain ⟨s, s', hfits, -, hfits', hturn⟩ :=
    turn_of_step h hstep hopen (relay_of_connecting h' hopen hcur)
  obtain ⟨l, atyp, address, port, rfl⟩ := connecting_of_current hfits' hcur
  cases hturn with
  | wait hbuffer hsock =>
    have hheld := hwaited hfits.closing_eq hfits.parsed.1
    exact held_wait hfits hfits' hfits.clientItem_eq hstep hdrops hheld hcur
  | requestDialed htook hsplit hdecided =>
    obtain ⟨-, -, -, -, -, -, hdns, -⟩ := hfits.parsed
    exact decided_held hdns.2.2.1 hdecided hcur

end Steps

section Stranded

/-- Open, in CONNECTING, and without anything that could wake it. -/
structure Stranded (c : Conn) : Prop where
  closing_eq : c.closing = false
  current_eq : c.current = some .connecting
  clientItem_eq : c.clientItem = some OP_NOOP
  originFd_eq : c.originFd = none
  originItem_eq : c.originItem = none
  dnsJob_eq : c.dnsJob = .idle

theorem Stranded.not_held (h : Stranded c) : ¬ Held c := by
  rintro (hfd | hjob)
  · rw [h.originFd_eq] at hfd
    exact absurd hfd (by simp)
  · exact hjob h.dnsJob_eq

theorem Stranded.not_progresses (h : Stranded c) : ¬ Progresses c := by
  rintro (hjob | ⟨hjob, -⟩ | ⟨-, -, i, hi, -⟩)
  · exact absurd (h.dnsJob_eq.symm.trans hjob) (by decide)
  · exact absurd (h.dnsJob_eq.symm.trans hjob) (by decide)
  · exact absurd (h.originItem_eq.symm.trans hi) (by simp)

theorem stranded_of_open (h : Phase forced c) (hopen : c.closing = false)
    (hcur : c.current = some .connecting) (hstuck : ¬ Progresses c) : Stranded c := by
  obtain ⟨s, hfits, -⟩ := fits_of_open h hopen (relay_of_connecting h hopen hcur)
  obtain ⟨l, atyp, address, port, rfl⟩ := connecting_of_current hfits hcur
  have hitem : c.clientItem = some OP_NOOP := hfits.clientItem_eq
  have hnone : NoOrigin c := by
    rcases hfits.parsed.2.2.2.2 with ⟨⟨hfd, horigin, hreg⟩, -⟩ | hnone
    · exact absurd (Or.inr (Or.inr ⟨hfd, hreg, OP_WRITE, horigin, rfl⟩)) hstuck
    · exact hnone
  refine ⟨hopen, hcur, hitem, hnone.1, hnone.2.1, ?_⟩
  cases hj : c.dnsJob with
  | idle => rfl
  | resolving => exact absurd (Or.inl hj) hstuck
  | queued =>
    exact absurd (Or.inr (Or.inl ⟨hj, hfits.clientFd_isSome, by rw [hitem]; rfl⟩)) hstuck

/-- Only the server's shutdown ends a stranded connection. -/
theorem Stranded.step {a b : Conn} (h : Stranded a) (hforced : e ≠ .forceClose)
    (hstep : Step a e b) : Stranded b := by
  obtain ⟨hen, heq⟩ := hstep
  have horigin : ∀ op, ¬ armed a.originItem op := by
    rintro op ⟨i, hi, -⟩
    exact absurd (h.originItem_eq.symm.trans hi) (by simp)
  cases e with
  | clientRead sys => exact absurd hen (not_armed_noop h.clientItem_eq rfl)
  | clientWrite sys => exact absurd hen (not_armed_noop h.clientItem_eq rfl)
  | originRead sys => exact absurd hen (horigin _)
  | originWrite sys => exact absurd hen (horigin _)
  | blockDone sys => exact absurd (h.dnsJob_eq.symm.trans hen.1) (by decide)
  | dnsFinished error result queued => exact absurd (h.dnsJob_eq.symm.trans hen) (by decide)
  | connectFinished outcome =>
    obtain rfl := Option.some.inj heq
    exact { h with }
  | addUser name pass =>
    obtain rfl := Option.some.inj heq
    exact { h with }
  | removeUser name =>
    obtain rfl := Option.some.inj heq
    exact { h with }
  | forceClose => exact absurd rfl hforced

/-- A stranded connection stays so in every run in which the server does not
close it. -/
theorem Stranded.run {a b : Conn} {es : List Event} (h : Stranded a)
    (hrun : Run (Guarded Step fun _ e => e ≠ .forceClose) a es b) : Stranded b :=
  hrun.invariant h fun ha hab => ha.step hab.1 hab.2

end Stranded

/-- In every run in which no worker's result is dropped for want of memory, a
connection that is open and in CONNECTING has no interest of its client armed
and something that will still wake it. -/
theorem connecting_progresses {fd : ℕ} {users : Table} {es : List Event}
    (h : Run (Guarded Step fun c e => ¬ DropsResult c e) (socks5Init fd users) es c)
    (hopen : c.closing = false) (hcur : c.current = some .connecting) :
    c.clientItem = some OP_NOOP ∧ Progresses c := by
  have hphase := phase_run h.of_guarded
  have hwaited : Waited c := by
    apply h.invariant_with (phase_init fd users) (I := Phase True) (J := Waited)
    · intro _ hcur
      exact absurd hcur (by simp [socks5Init])
    · exact fun ha hab => phase_of_step ha hab.2 fun _ => trivial
    · rintro a b e ha hb hwaited ⟨hdrops, hstep⟩
      exact waited_step ha hb hwaited hdrops hstep
  obtain ⟨s, hfits, -⟩ := fits_of_open hphase hopen (relay_of_connecting hphase hopen hcur)
  obtain ⟨l, atyp, address, port, rfl⟩ := connecting_of_current hfits hcur
  refine ⟨hfits.clientItem_eq, ?_⟩
  by_contra hstuck
  exact (stranded_of_open hphase hopen hcur hstuck).not_held (hwaited hopen hcur)

/-- A CONNECT to the domain name `a` on port 80. -/
def domainBytes : List UInt8 := [5, 1, 0, 3, 1, 97, 0, 80]

/-- The session of a client that asks for a domain name. -/
def resolving : List Event :=
  [arrives helloBytes, flushes, arrives authBytes, flushes, arrives domainBytes]

theorem connecting_progresses_resolving : ∃ c, replay accepted resolving = some c ∧
    c.closing = false ∧ c.current = some .connecting ∧ Progresses c := by
  have hrun : (replay accepted resolving).map (fun c => (c.closing, c.current)) =
      some (false, some .connecting) := by decide +kernel
  obtain ⟨c, hc, hvals⟩ := Option.map_eq_some_iff.mp hrun
  simp only [Prod.mk.injEq] at hvals
  have hguarded : Run (Guarded Step fun c e => ¬ DropsResult c e) accepted resolving c := by
    apply (replay_run hc).guarded
    intro e hmem a
    simp only [resolving, List.mem_cons, List.not_mem_nil, or_false] at hmem
    rcases hmem with rfl | rfl | rfl | rfl | rfl <;> exact id
  exact ⟨c, hc, hvals.1, hvals.2, (connecting_progresses hguarded hvals.1 hvals.2).2⟩

/-- The worker resolved the name, but had no memory for the job that says so:
the connection is left in CONNECTING with nothing to wake it, and stays so until
the server closes it. -/
theorem dropped_result_strands : ∃ c, Run Step accepted
      (resolving ++ [.dnsFinished 0 [⟨true, .inet #v[10, 0, 0, 1] #v[0, 80]⟩] false]) c ∧
    c.closing = false ∧ c.current = some .connecting ∧ ¬ Progresses c ∧
    ∀ es d, Run (Guarded Step fun _ e => e ≠ .forceClose) c es d →
      d.closing = false ∧ d.current = some .connecting ∧ ¬ Progresses d := by
  have hrun : (replay accepted (resolving ++
      [.dnsFinished 0 [⟨true, .inet #v[10, 0, 0, 1] #v[0, 80]⟩] false])).map
      (fun c => (c.closing, c.current, c.clientItem, c.originFd.isNone && c.originItem.isNone,
        c.dnsJob)) = some (false, some .connecting, some OP_NOOP, true, .idle) := by decide +kernel
  obtain ⟨c, hc, hvals⟩ := Option.map_eq_some_iff.mp hrun
  simp only [Prod.mk.injEq, Bool.and_eq_true, Option.isNone_iff_eq_none] at hvals
  obtain ⟨hopen, hcur, hitem, ⟨hfd, horigin⟩, hjob⟩ := hvals
  have hstranded : Stranded c := ⟨hopen, hcur, hitem, hfd, horigin, hjob⟩
  refine ⟨c, replay_run hc, hopen, hcur, hstranded.not_progresses, fun es d hrun => ?_⟩
  have hlater := hstranded.run hrun
  exact ⟨hlater.closing_eq, hlater.current_eq, hlater.not_progresses⟩

end SocksProxy.Pending
