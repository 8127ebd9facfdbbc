import SocksProxy.ServerFollows

/-!
The handlers of a connection in both models, and their runs. Whatever a connection does
with its bytes, the server's model does something that looks the same.
-/
namespace SocksProxy.ServerTurns

open Kernel Request Runs ServerState ServerSteps ServerRefs ServerViews
  ServerPartings ServerFollows
open ConnState (Socks5State Socks5Action FdInterest OP_NOOP OP_READ OP_WRITE DnsJob Conn)
open Connection (eof writeShutdown inbound setInbound)
open ServerParts (owned_eq)

variable {F : Set ℕ} {fd a n : ℕ} {s t : Server} {o : Socks5} {v v' : View} {c c' : Conn}
  {sys : Sys} {side : Side} {action : Socks5Action}

section Relay

/-! The relay. -/

theorem shows_log (h : Shows fd c v) (call : Call) : Shows fd (c.log call) v := { h with }

theorem shows_setInbound (h : Shows fd c v) (side : Side) (b : ByteBuffer.Buffer) :
    Shows fd (setInbound c side b) v := by
  cases side <;> exact { h with }

theorem shows_setEof (h : Shows fd c v) (side : Side) : Shows fd (Connection.setEof c side) v := by
  cases side <;> exact { h with }

theorem shows_shutdown (h : Shows fd c v) (side : Side) :
    Shows fd (Connection.relayShutdownWriteSide c side) v := by
  unfold Connection.relayShutdownWriteSide
  split
  · exact h
  · cases side <;> exact { h with }

theorem shows_ite {b : Bool} (h : Shows fd c v) (h' : Shows fd c' v) :
    Shows fd (if b then c' else c) v := by
  cases b with
  | false => exact h
  | true => exact h'

theorem shows_shouldClose (h : Shows fd c v) : Shows fd (Connection.relayShouldClose c).2 v := by
  have hfirst := shows_ite (b := c.clientEof && !ByteBuffer.bufferCanRead c.readBuffer) h
    (shows_shutdown h .origin)
  exact shows_ite hfirst (shows_shutdown hfirst .client)

theorem shows_flush (h : Shows fd c v) (sys : Sys) (source : Side) :
    Shows fd (Connection.relayFlush sys source c).2 v := by
  unfold Connection.relayFlush
  dsimp only
  split
  · exact h
  · split
    · split
      · exact shows_setInbound (shows_log h _) source _
      · exact shows_log h _
    · exact shows_log h _
    · exact shows_log h _

/-- The view with other interests. -/
def rearmed (v : View) (client origin : FdInterest) : View :=
  { v with client := client, origin := v.origin.map fun p => (p.1, origin) }

/-- What a handler of the relay returns: it wants to close, or has updated the interests. -/
def Relayed (fd : ℕ) (v : View) (r : Socks5Action × Conn) : Prop :=
  (r.1 = .close ∧ Shows fd r.2 v) ∨
    (r.1 = .none ∧ ∃ client origin, Shows fd r.2 (rearmed v client origin))

theorem shows_rearmed (h : Shows fd c v) (client origin : FdInterest) :
    Shows fd (ConnState.selectorSetInterest (ConnState.selectorSetInterest c .client client)
      .origin origin) (rearmed v client origin) :=
  (h.interest_client client).interest_origin origin

theorem shows_update (h : Shows fd c v) : ∃ client origin,
    Shows fd (Connection.relayUpdateInterests c) (rearmed v client origin) :=
  ⟨_, _, shows_rearmed h _ _⟩

theorem finish_relayed (h : Shows fd c v) : Relayed fd v (Connection.relayFinish c) := by
  have hclose := shows_shouldClose h
  unfold Connection.relayFinish
  generalize Connection.relayShouldClose c = r at hclose
  obtain ⟨close, c₁⟩ := r
  cases close with
  | true => exact Or.inl ⟨rfl, hclose⟩
  | false => exact Or.inr ⟨rfl, _, _, shows_rearmed hclose _ _⟩

theorem flush_relayed (h : Shows fd c v) (sys : Sys) (source : Side) :
    Relayed fd v (match Connection.relayFlush sys source c with
      | (false, c) => (.close, c)
      | (true, c) => Connection.relayFinish c) := by
  have hflush := shows_flush h sys source
  generalize Connection.relayFlush sys source c = r at hflush
  obtain ⟨open', c₁⟩ := r
  cases open' with
  | true => exact finish_relayed hflush
  | false => exact Or.inl ⟨rfl, hflush⟩

theorem relayWrite_relayed (h : Shows fd c v) (sys : Sys) (side : Side) :
    Relayed fd v (Connection.relayWrite sys side c) := flush_relayed h sys _

theorem relayRead_relayed (h : Shows fd c v) (sys : Sys) (side : Side) :
    Relayed fd v (Connection.relayRead sys side c) := by
  have hlog := shows_log h (.read side (ByteBuffer.bufferWritePtr (inbound c side)) sys.read)
  unfold Connection.relayRead
  dsimp only
  split
  · split
    · exact flush_relayed (shows_setInbound hlog side _) sys side
    · exact finish_relayed (shows_setEof hlog side)
  · exact finish_relayed hlog
  · exact Or.inl ⟨rfl, hlog⟩

/-- The bytes that were written to the two sockets. -/
def sentBytes (t : List Call) : ℕ := (sent .client t).length + (sent .origin t).length

theorem stands_flush (h : Stands F fd a s o v) (dest : Option ℕ) (f : Flush) :
    Stands F fd a (relayFlush s dest f).2 o v ∧ SameWork s (relayFlush s dest f).2 := by
  obtain ⟨bytes, writes, heq, -⟩ := relayFlush_spec s dest f
  rw [heq]
  exact ⟨⟨h.heap, h.references, h.same, { h.around with }⟩, rfl, rfl⟩

/-- A socket that takes all it is given. -/
theorem relayFlush_accepts (s : Server) (dest : Option ℕ) (bytes : ℕ) :
    (relayFlush s dest ⟨bytes, .accept bytes⟩).1 = true := by
  unfold relayFlush
  cases dest with
  | none => rfl
  | some fd =>
    dsimp only
    split
    · rfl
    · simp only [sysWriteTo, sysWrite]
      split <;> rfl

theorem stands_rearmed (h : Stands F fd a s o v) (client origin : FdInterest) :
    Stands F fd a (relayUpdateInterests s o client origin) o (rearmed v client origin) :=
  (h.interest_client client).interest_origin origin

theorem orderly_rearmed (h : Orderly o v) (client origin : FdInterest) :
    Orderly o (rearmed v client origin) where
  early := by
    intro hearly
    obtain ⟨hnone, hidle⟩ := h.early hearly
    exact ⟨by rw [rearmed, hnone]; rfl, hidle⟩
  single := by
    refine h.single.imp_left fun hnone => ?_
    rw [rearmed, hnone]
    rfl
  atyp := by
    intro hany
    rw [rearmed, Option.isSome_map] at hany
    exact h.atyp hany

/-- What a handler of the relay returns is what one of the server's model does. -/
theorem Relayed.ends {r : Socks5Action × Conn} (h : Relayed fd v r) (hs : Stands F fd a s o v)
    (hord : Orderly o v) (dest : Option ℕ) (bytes : ℕ) : ∃ relay t,
      relayHandler s a o dest relay = .ok t ∧
      Ends F fd a s.stack s.jobs v.dnsJob t (Connection.socksv5ApplyAction r) ∧
      Connection.closeOn r = Connection.socksv5ApplyAction r := by
  obtain ⟨action, c⟩ := r
  have hopen := relayFlush_accepts s dest bytes
  obtain ⟨hflush, hstack, hjobs⟩ := stands_flush hs dest ⟨bytes, .accept bytes⟩
  rcases h with ⟨rfl, hc⟩ | ⟨rfl, client, origin, hc⟩
  · refine ⟨.closes ⟨bytes, .accept bytes⟩, _, rfl, ?_, rfl⟩
    exact ends_close hc (hflush.push [.connectionClose a]) (congrArg _ hstack) hjobs rfl rfl
  · refine ⟨.continues ⟨bytes, .accept bytes⟩ client origin, ?_⟩
    simp only [relayHandler]
    generalize relayFlush s dest ⟨bytes, .accept bytes⟩ = r at hopen hflush hstack hjobs ⊢
    obtain ⟨open', t⟩ := r
    obtain rfl : open' = true := hopen
    refine ⟨_, rfl, ?_, rfl⟩
    have hwork := (sameWork_interest t o.clientFd client).trans
      (sameWork_interest (selectorSetInterest t o.clientFd client) o.originFd origin)
    exact ends_open hc (stands_rearmed hflush client origin) (orderly_rearmed hord client origin)
      (hwork.1.trans hstack) (hwork.2.trans hjobs) rfl

end Relay

section Negotiation

/-! The callbacks of the negotiation. -/

open Connection (helloRead authRead helloWrite authWrite requestRead requestWrite actionAfter
  socksv5ApplyAction)
open Stm (jump handleFirst)

variable {next : Socks5State} {y : UInt8} {r : Status × Conn}

theorem shows_request (h : Shows fd c v) (p : RequestParser) :
    Shows fd { c with request := p } { v with atyp := p.atyp } := { h with atyp := rfl }

theorem stands_atyp (h : Stands F fd a s o v) (y : UInt8) :
    Stands F fd a s o { v with atyp := y } :=
  ⟨h.heap, h.references, { h.same with }, { h.around with }⟩

theorem handleFirst_shows (h : Shows fd c v) (sys : Sys) :
    ∃ k, handleFirst (Connection.stm sys) c.current c = (v.current, k) ∧ Shows fd k v ∧
      k.writeBuffer = c.writeBuffer := by
  cases hcur : c.current with
  | none =>
    have hv : Socks5State.helloRead = v.current := by rw [← h.current, hcur]; rfl
    rw [← hv]
    exact ⟨Connection.helloReadInit c, rfl, { h with }, rfl⟩
  | some st =>
    have hv : st = v.current := by rw [← h.current, hcur]; rfl
    rw [← hv]
    exact ⟨c, rfl, h, rfl⟩

theorem depart_eq (sys : Sys) (st : Socks5State) (c : Conn) :
    Stm.depart (Connection.stm sys) st c = c := by
  cases st <;> rfl

/-- The callbacks of arrival may begin another request. -/
theorem jump_shows (h : Shows fd c { v with atyp := y }) (sys : Sys) (st next : Socks5State) :
    ∃ k, jump (Connection.stm sys) st next c = (next, k) ∧ k.writeBuffer = c.writeBuffer ∧
      ∃ y', Shows fd k { v with atyp := y' } := by
  unfold jump
  rw [depart_eq]
  split
  · cases next with
    | helloRead => exact ⟨_, rfl, rfl, y, { h with }⟩
    | authRead => exact ⟨_, rfl, rfl, y, { h with }⟩
    | requestRead =>
      exact ⟨_, rfl, rfl, _, { shows_request h (requestParserInit c.request) with }⟩
    | helloWrite => exact ⟨_, rfl, rfl, y, h⟩
    | authWrite => exact ⟨_, rfl, rfl, y, h⟩
    | connecting => exact ⟨_, rfl, rfl, y, h⟩
    | requestWrite => exact ⟨_, rfl, rfl, y, h⟩
    | relay => exact ⟨_, rfl, rfl, y, h⟩
    | done => exact ⟨_, rfl, rfl, y, h⟩
    | error => exact ⟨_, rfl, rfl, y, h⟩
  next heq => exact ⟨c, by rw [not_not.mp heq], rfl, y, h⟩

theorem helloRead_shows (h : Shows fd c v) : Shows fd (helloRead c).2 v ∧
    ((helloRead c).1 = .error ∨ readsTo .helloRead (helloRead c).1 = true) := by
  unfold helloRead
  dsimp only
  split
  · exact ⟨{ h with }, Or.inl rfl⟩
  · split
    · exact ⟨{ h with }, Or.inr rfl⟩
    · split
      · exact ⟨{ h with }, Or.inl rfl⟩
      · exact ⟨{ h with }, Or.inr rfl⟩

theorem authRead_shows (h : Shows fd c v) : Shows fd (authRead c).2 v ∧
    ((authRead c).1 = .error ∨ readsTo .authRead (authRead c).1 = true) := by
  unfold authRead Connection.credentialsMatch
  dsimp only
  split
  · exact ⟨{ h with }, Or.inl rfl⟩
  · split
    · exact ⟨{ h with }, Or.inr rfl⟩
    · split
      · exact ⟨{ h with }, Or.inl rfl⟩
      · exact ⟨{ h with }, Or.inr rfl⟩

/-- What request_read makes of the outcome of connect_to_origin. -/
def replied (sys : Sys) : Status × Conn → Socks5State × Conn
  | (.inProgress, c) => (.connecting, c)
  | (status, c) =>
    Connect.connectMarshallReply sys
      { c with requestReply := Connect.connectReplyFromErrno status }

/-- request_read stays, answers at once, or dials. -/
theorem requestRead_cases (h : Shows fd c v) (sys : Sys) :
    (∃ y, Shows fd (requestRead sys c).2 { v with atyp := y } ∧
      ((requestRead sys c).1 = .error ∨ readsTo .requestRead (requestRead sys c).1 = true)) ∨
    ∃ y d, Shows fd d { v with atyp := y } ∧
      requestRead sys c = replied sys (Connect.connectToOrigin sys d) := by
  have hmarshall : ∀ d y, Shows fd d { v with atyp := y } →
      ∃ y, Shows fd (Connect.connectMarshallReply sys d).2 { v with atyp := y } ∧
        ((Connect.connectMarshallReply sys d).1 = .error ∨
          readsTo .requestRead (Connect.connectMarshallReply sys d).1 = true) := by
    intro d y hd
    rcases marshall_cases sys d with herror | ⟨b, -, hreply⟩
    · rw [herror]
      exact ⟨y, hd, Or.inl rfl⟩
    · rw [hreply]
      exact ⟨y, { hd with }, Or.inr rfl⟩
  have hparsed := shows_request h (requestConsume c.readBuffer c.request).2.1
  unfold requestRead
  dsimp only
  split
  · exact Or.inl (hmarshall _ _ { hparsed with })
  · split
    · exact Or.inl ⟨_, { hparsed with }, Or.inr rfl⟩
    · split
      · exact Or.inl (hmarshall _ _ { hparsed with })
      · refine Or.inr ⟨_, { c with
          readBuffer := (requestConsume c.readBuffer c.request).1
          request := (requestConsume c.readBuffer c.request).2.1 }, { hparsed with }, ?_⟩
        generalize Connect.connectToOrigin sys _ = r
        obtain ⟨status, d⟩ := r
        cases status <;> rfl

/-- The states in which a connection goes on with its negotiation. -/
def plain : Socks5State → Bool
  | .connecting => false
  | .relay => false
  | .done => false
  | .error => false
  | _ => true

theorem plain_of_readsTo {st : Socks5State} (h : readsTo st next = true) : plain next = true := by
  cases st <;> cases next <;> first | rfl | cases h

theorem plain_of_writesTo {st : Socks5State} (h : writesTo st next = true) : plain next = true := by
  cases st <;> cases next <;> first | rfl | cases h

theorem apply_plain (h : plain next = true) (c : Conn) :
    socksv5ApplyAction (actionAfter (next, c)) =
      ConnState.selectorSetInterest { c with current := some next } .client
        (if ByteBuffer.bufferCanRead c.writeBuffer then OP_WRITE else OP_READ) := by
  have hgoes : actionAfter (next, c) =
      if ByteBuffer.bufferCanRead c.writeBuffer then (.write, { c with current := some next })
      else (.read, { c with current := some next }) := by
    cases next <;> first | rfl | cases h
  rw [hgoes]
  split <;> rfl

theorem closes_ends (hc : Shows fd c v') (hs : Stands F fd a s o v)
    (hsame : v'.dnsJob = v.dnsJob) :
    Ends F fd a s.stack s.jobs v.dnsJob (s.push [.connectionClose a])
      (ConnState.socks5ConnectionClose c) :=
  ends_close hc (hs.push _) rfl rfl hsame rfl

/-- The next state is one of the negotiation. -/
theorem goes_ends (hc : Shows fd c { v with atyp := y }) (hs : Stands F fd a s o v)
    (hearly : v.origin = none ∧ v.dnsJob = .idle) (hplain : plain next = true) :
    ∃ pending : Bool,
      Ends F fd a s.stack s.jobs v.dnsJob
        (selectorSetInterest (s.set a { o with current := next }) o.clientFd
          (if pending then OP_WRITE else OP_READ))
        (socksv5ApplyAction (actionAfter (next, c))) := by
  refine ⟨ByteBuffer.bufferCanRead c.writeBuffer, ?_⟩
  rw [apply_plain hplain]
  have hord : ∀ i, Orderly { o with current := next }
      { v with atyp := y, current := next, client := i } := by
    intro i
    refine ⟨fun _ => hearly, Or.inl hearly.1, fun h => ?_⟩
    rcases h with h | h
    · rw [hearly.1] at h
      cases h
    · exact absurd hearly.2 h
  have hwork := sameWork_interest (s.set a { o with current := next }) o.clientFd
    (if ByteBuffer.bufferCanRead c.writeBuffer then OP_WRITE else OP_READ)
  exact ends_open ((hc.goes next).interest_client _) ((stands_atyp hs y).goes next _) (hord _)
    hwork.1 hwork.2 rfl

/-- The connection waits for the same again. -/
theorem again_ends (hc : Shows fd c v) (hs : Stands F fd a s o v) (hord : Orderly o v)
    (i : FdInterest) : Ends F fd a s.stack s.jobs v.dnsJob (selectorSetInterest s o.clientFd i)
      (ConnState.selectorSetInterest c .client i) := by
  have hwork := sameWork_interest s o.clientFd i
  exact ends_open (hc.interest_client i) (hs.interest_client i)
    ⟨hord.early, hord.single, hord.atyp⟩ hwork.1 hwork.2 rfl

/-- A callback that dials jumps to the state of its outcome. -/
theorem settle_eq (sys : Sys) (r : Status × Conn) :
    socksv5ApplyAction (actionAfter (jump (Connection.stm sys) .requestRead (replied sys r).1
      (replied sys r).2)) = settle sys r := by
  have hanswered : ∀ c, socksv5ApplyAction (actionAfter (jump (Connection.stm sys) .requestRead
      (Connect.connectMarshallReply sys c).1 (Connect.connectMarshallReply sys c).2)) =
        answered sys c := by
    intro c
    unfold answered
    rcases marshall_cases sys c with herror | ⟨b, hb, hreply⟩
    · rw [herror]
      rfl
    · rw [hreply]
      show socksv5ApplyAction (actionAfter (.requestWrite, { c with writeBuffer := b })) = _
      rw [apply_plain rfl, if_pos hb]
  obtain ⟨status, c⟩ := r
  cases status with
  | inProgress => rfl
  | ok => exact hanswered _
  | failed e => exact hanswered _

/-- A CONNECT request was read. -/
theorem dials_ends (hreals : Reals F sys) (hc : Shows fd c { v with atyp := y })
    (hs : Stands F fd a s o v) (hearly : v.origin = none ∧ v.dnsJob = .idle) : ∃ k t,
      connectToOrigin (s.set a { o with atyp := y }) a k = .ok t ∧
        Ends F fd a s.stack s.jobs v.dnsJob t (settle sys (Connect.connectToOrigin sys c)) := by
  have hsame : Same fd { o with atyp := y } { v with atyp := y } := { hs.same with }
  obtain ⟨t, ht, hends⟩ := connectToOrigin_ends hreals hc (hs.note hsame rfl rfl rfl rfl) hearly.1
    hearly.2 rfl
  rw [hearly.2]
  exact ⟨_, t, ht, hends⟩

/-- A callback of the negotiation has returned `next`; `pending` is its answer. -/
theorem reads_ends {st next : Socks5State} (hc : Shows fd c { v with atyp := y })
    (hs : Stands F fd a s o v) (hord : Orderly o v) (hst : v.current = st)
    (hnext : next = .error ∨ readsTo st next = true) : ∃ r k t,
      socksv5Read s a o k r = .ok t ∧ Ends F fd a s.stack s.jobs v.dnsJob t
        (socksv5ApplyAction (actionAfter (jump (Connection.stm sys) st next c))) := by
  obtain ⟨d, hjump, -, y', hd⟩ := jump_shows hc sys st next
  rw [hjump]
  rcases hnext with rfl | hreads
  · exact ⟨.closes, silent, _, rfl, closes_ends (hd.goes .error) hs rfl⟩
  · have hreadable : readable st = true := by
      cases st <;> first | rfl | cases hreads
    have hearly : early st = true := by
      cases st <;> first | rfl | cases hreads
    obtain ⟨pending, hends⟩ :=
      goes_ends hd hs (hord.early (by rw [hst, hearly])) (plain_of_readsTo hreads)
    refine ⟨.goes next pending, silent, _, ?_, hends⟩
    unfold socksv5Read
    dsimp only
    rw [hs.same.current, hst, if_neg (by simp [hreadable]), if_pos hreads]

theorem handleRead_ends {r : Socks5Action × Conn} (hreals : Reals F sys) (hc : Shows fd c v)
    (hs : Stands F fd a s o v) (hord : Orderly o v)
    (h : Connection.socks5HandleRead sys c = some r) : ∃ reads k t,
      socksv5Read s a o k reads = .ok t ∧
        Ends F fd a s.stack s.jobs v.dnsJob t (socksv5ApplyAction r) := by
  unfold Connection.socks5HandleRead at h
  obtain ⟨x, hx, rfl⟩ := Option.map_eq_some_iff.mp h
  obtain ⟨d, hfirst, hd, -⟩ := handleFirst_shows hc sys
  unfold Stm.stmHandlerRead at hx
  rw [hfirst] at hx
  cases hcur : v.current with
  | helloRead =>
    rw [hcur] at hx
    obtain rfl : jump (Connection.stm sys) .helloRead (helloRead d).1 (helloRead d).2 = x :=
      Option.some.inj hx
    obtain ⟨hshows, hnext⟩ := helloRead_shows hd
    exact reads_ends (y := v.atyp) hshows hs hord hcur hnext
  | authRead =>
    rw [hcur] at hx
    obtain rfl : jump (Connection.stm sys) .authRead (authRead d).1 (authRead d).2 = x :=
      Option.some.inj hx
    obtain ⟨hshows, hnext⟩ := authRead_shows hd
    exact reads_ends (y := v.atyp) hshows hs hord hcur hnext
  | requestRead =>
    rw [hcur] at hx
    obtain rfl : jump (Connection.stm sys) .requestRead (requestRead sys d).1
        (requestRead sys d).2 = x := Option.some.inj hx
    rcases requestRead_cases hd sys with ⟨y, hshows, hnext⟩ | ⟨y, k, hk, hdials⟩
    · exact reads_ends hshows hs hord hcur hnext
    · obtain ⟨answers, t, ht, hends⟩ := dials_ends hreals hk hs (hord.early (by rw [hcur]; rfl))
      refine ⟨.dials y, answers, t, ?_, ?_⟩
      · unfold socksv5Read
        dsimp only
        rw [if_pos (hs.same.current.trans hcur)]
        exact ht
      · rw [hdials, settle_eq]
        exact hends
  | helloWrite => rw [hcur] at hx; cases hx
  | authWrite => rw [hcur] at hx; cases hx
  | connecting => rw [hcur] at hx; cases hx
  | requestWrite => rw [hcur] at hx; cases hx
  | relay => rw [hcur] at hx; cases hx
  | done => rw [hcur] at hx; cases hx
  | error => rw [hcur] at hx; cases hx

/-- socksv5_read before the relay. -/
theorem socksv5Read_ends (hreals : Reals F sys) (hc : Shows fd c v) (hs : Stands F fd a s o v)
    (hord : Orderly o v) (hrelay : c.relayStarted = false)
    (h : Connection.socksv5Read sys c = some c') : ∃ r k t,
      socksv5Read s a o k r = .ok t ∧ Ends F fd a s.stack s.jobs v.dnsJob t c' := by
  have hlog := shows_log hc (.read .client (ByteBuffer.bufferWritePtr c.readBuffer) sys.read)
  unfold Connection.socksv5Read at h
  rw [if_neg (by simp [hrelay])] at h
  dsimp only at h
  split at h
  next l _ =>
    split at h
    next =>
      obtain rfl := Option.some.inj h
      exact ⟨.closes, silent, _, rfl, closes_ends hlog hs rfl⟩
    next =>
      obtain ⟨r, hr, rfl⟩ := Option.map_eq_some_iff.mp h
      exact handleRead_ends hreals (shows_setInbound hlog .client _) hs hord hr
  next =>
    obtain rfl := Option.some.inj h
    exact ⟨.again, silent, _, rfl, again_ends hlog hs hord OP_READ⟩
  next =>
    obtain rfl := Option.some.inj h
    exact ⟨.closes, silent, _, rfl, closes_ends hlog hs rfl⟩

theorem helloWrite_shows (h : Shows fd c v)
    (hempty : ByteBuffer.bufferCanRead c.writeBuffer = false) :
    Shows fd (helloWrite c).2 v ∧
      ((helloWrite c).1 = .error ∨ writesTo .helloWrite (helloWrite c).1 = true) := by
  unfold helloWrite
  rw [if_neg (by simp [hempty])]
  split
  · exact ⟨h, Or.inl rfl⟩
  · exact ⟨h, Or.inr rfl⟩

theorem authWrite_shows (h : Shows fd c v)
    (hempty : ByteBuffer.bufferCanRead c.writeBuffer = false) :
    Shows fd (authWrite c).2 v ∧
      ((authWrite c).1 = .error ∨ writesTo .authWrite (authWrite c).1 = true) := by
  unfold authWrite
  rw [if_neg (by simp [hempty])]
  split
  · exact ⟨h, Or.inr rfl⟩
  · exact ⟨h, Or.inl rfl⟩

theorem writes_ends {st next : Socks5State} (hc : Shows fd c v) (hs : Stands F fd a s o v)
    (hearly : v.origin = none ∧ v.dnsJob = .idle) (hst : v.current = st)
    (hnext : next = .error ∨ writesTo st next = true) : ∃ w t,
      socksv5Write s a o w = .ok t ∧ Ends F fd a s.stack s.jobs v.dnsJob t
        (socksv5ApplyAction (actionAfter (jump (Connection.stm sys) st next c))) := by
  obtain ⟨d, hjump, -, y', hd⟩ := jump_shows (y := v.atyp) hc sys st next
  rw [hjump]
  rcases hnext with rfl | hwrites
  · exact ⟨.closes, _, rfl, closes_ends (hd.goes .error) hs rfl⟩
  · have hwritable : writable st = true := by
      cases st <;> first | rfl | cases hwrites
    obtain ⟨pending, hends⟩ := goes_ends hd hs hearly (plain_of_writesTo hwrites)
    refine ⟨.goes next pending, _, ?_, hends⟩
    unfold socksv5Write
    dsimp only
    rw [hs.same.current, hst, if_neg (by simp [hwritable]), if_pos hwrites]

/-- The reply is out: the relay starts, or the connection is done. -/
theorem requestWrite_ends (hc : Shows fd c v) (hs : Stands F fd a s o v) (hord : Orderly o v)
    (hempty : ByteBuffer.bufferCanRead c.writeBuffer = false)
    (hcur : v.current = .requestWrite) : ∃ w t, socksv5Write s a o w = .ok t ∧
      Ends F fd a s.stack s.jobs v.dnsJob t (socksv5ApplyAction (actionAfter
        (jump (Connection.stm sys) .requestWrite (requestWrite c).1 (requestWrite c).2))) := by
  unfold requestWrite
  rw [if_neg (by simp [hempty])]
  split
  · exact ⟨.closes, _, rfl, closes_ends (hc.goes .done) hs rfl⟩
  · let d : Conn := c.log (.accessLogAdd (Auth.cString c.auth.uname.toList)
      (Connection.requestDestination c.request) (Connect.requestPort c.request))
    let k : Conn := { d with
      relayStarted := true, clientEof := false, originEof := false
      clientWriteShutdown := false, originWriteShutdown := false
      readBuffer := ByteBuffer.bufferReset d.readBuffer
      writeBuffer := ByteBuffer.bufferReset d.writeBuffer }
    let o' : Socks5 := { o with current := .relay, relayStarted := true }
    let v' : View := { v with current := .relay, relayStarted := true }
    have hk : Shows fd { k.log .startRelay with current := some .relay } v' :=
      { hc with current := rfl, relayStarted := rfl }
    have hsame : Same fd o' v' := { hs.same with current := rfl, relayStarted := rfl }
    have hord' : Orderly o' v' :=
      ⟨fun h => absurd (show early .relay = true from h) (by decide), hord.single, hord.atyp⟩
    obtain ⟨client, origin, hshows⟩ := shows_update hk
    refine ⟨.starts client origin, relayUpdateInterests (s.set a o') o client origin, ?_, ?_⟩
    · unfold socksv5Write
      dsimp only
      rw [if_pos (hs.same.current.trans hcur)]
    · have hwork := (sameWork_interest (s.set a o') o.clientFd client).trans
        (sameWork_interest (selectorSetInterest (s.set a o') o.clientFd client) o.originFd origin)
      exact ends_open hshows (stands_rearmed (hs.note hsame rfl rfl rfl rfl) client origin)
        (orderly_rearmed hord' client origin) hwork.1 hwork.2 rfl

/-- The end of socksv5_write before the relay. -/
theorem handleWrite_ends {r : Socks5Action × Conn} (hc : Shows fd c v) (hs : Stands F fd a s o v)
    (hord : Orderly o v) (hempty : ByteBuffer.bufferCanRead c.writeBuffer = false)
    (h : Connection.socks5HandleWrite sys c = some r) : ∃ w t,
      socksv5Write s a o w = .ok t ∧
        Ends F fd a s.stack s.jobs v.dnsJob t (socksv5ApplyAction r) := by
  unfold Connection.socks5HandleWrite at h
  obtain ⟨x, hx, rfl⟩ := Option.map_eq_some_iff.mp h
  obtain ⟨d, hfirst, hd, hbuffer⟩ := handleFirst_shows hc sys
  have hempty' : ByteBuffer.bufferCanRead d.writeBuffer = false := by rw [hbuffer, hempty]
  unfold Stm.stmHandlerWrite at hx
  rw [hfirst] at hx
  cases hcur : v.current with
  | helloWrite =>
    rw [hcur] at hx
    obtain rfl : jump (Connection.stm sys) .helloWrite (helloWrite d).1 (helloWrite d).2 = x :=
      Option.some.inj hx
    obtain ⟨hshows, hnext⟩ := helloWrite_shows hd hempty'
    exact writes_ends hshows hs (hord.early (by rw [hcur]; rfl)) hcur hnext
  | authWrite =>
    rw [hcur] at hx
    obtain rfl : jump (Connection.stm sys) .authWrite (authWrite d).1 (authWrite d).2 = x :=
      Option.some.inj hx
    obtain ⟨hshows, hnext⟩ := authWrite_shows hd hempty'
    exact writes_ends hshows hs (hord.early (by rw [hcur]; rfl)) hcur hnext
  | requestWrite =>
    rw [hcur] at hx
    obtain rfl : jump (Connection.stm sys) .requestWrite (requestWrite d).1
        (requestWrite d).2 = x := Option.some.inj hx
    exact requestWrite_ends hd hs hord hempty' hcur
  | helloRead => rw [hcur] at hx; cases hx
  | authRead => rw [hcur] at hx; cases hx
  | requestRead => rw [hcur] at hx; cases hx
  | connecting => rw [hcur] at hx; cases hx
  | relay => rw [hcur] at hx; cases hx
  | done => rw [hcur] at hx; cases hx
  | error => rw [hcur] at hx; cases hx

/-- socksv5_write before the relay. -/
theorem socksv5Write_ends (hc : Shows fd c v) (hs : Stands F fd a s o v) (hord : Orderly o v)
    (hrelay : c.relayStarted = false) (h : Connection.socksv5Write sys c = some c') : ∃ w t,
      socksv5Write s a o w = .ok t ∧ Ends F fd a s.stack s.jobs v.dnsJob t c' := by
  have hlog := shows_log hc (.write .client (ByteBuffer.bufferReadPtr c.writeBuffer) sys.write)
  unfold Connection.socksv5Write at h
  rw [if_neg (by simp [hrelay])] at h
  dsimp only at h
  split at h
  next m _ =>
    split at h
    next =>
      obtain rfl := Option.some.inj h
      exact ⟨.closes, _, rfl, closes_ends hlog hs rfl⟩
    next =>
      have hadv := fun hn => shows_setInbound hlog .origin
        (ByteBuffer.bufferReadAdv c.writeBuffer m.val hn)
      split at h
      next =>
        obtain rfl := Option.some.inj h
        exact ⟨.again, _, rfl, again_ends (hadv _) hs hord OP_WRITE⟩
      next hempty =>
        obtain ⟨r, hr, rfl⟩ := Option.map_eq_some_iff.mp h
        exact handleWrite_ends (hadv _) hs hord (Bool.eq_false_of_not_eq_true hempty) hr
  next =>
    obtain rfl := Option.some.inj h
    exact ⟨.again, _, rfl, again_ends hlog hs hord OP_WRITE⟩
  next =>
    obtain rfl := Option.some.inj h
    exact ⟨.closes, _, rfl, closes_ends hlog hs rfl⟩

end Negotiation

end SocksProxy.ServerTurns
