import SocksProxy.MonServer
import SocksProxy.Runs

/-!
One monitoring connection in the event loop: mon_read and mon_write of mon_nio.c
as the kernel and the selector call them, next to everything else the server does.
-/
namespace SocksProxy.MonLoop

open ByteBuffer ByteScan Hello Auth MonProtocol MonParsing AccessReport MonServer

/-- What the connection waits for. -/
inductive MonInterest
  | opRead
  | opWrite
  deriving DecidableEq

/-- An executed request, with the states it was executed in. -/
structure Served where
  request : MonRequest
  server : Server
  authenticated : Bool

/-- A connection and the server. The last four fields record what has happened,
`current` what was received since the last response; the code does not look at
them. -/
structure MonSession where
  server : Server
  conn : MonConn
  interest : MonInterest
  closed : Bool
  received : List UInt8
  current : List UInt8
  sent : List UInt8
  served : List Served

/-- After mon_passive_accept. -/
def monPassiveAccept (s : Server) : MonSession where
  server := s
  conn := monConnInit
  interest := .opRead
  closed := false
  received := []
  current := []
  sent := []
  served := []

/-- mon_read after recv has returned `bytes`. -/
def monRead (m : MonSession) (bytes : List UInt8)
    (h : bytes.length ≤ bufferWritePtr m.conn.readBuffer) : MonSession :=
  let (rb, parser, error) := monParserConsume (bufferPut m.conn.readBuffer bytes h) m.conn.parser
  let conn := { m.conn with readBuffer := rb, parser := parser }
  let m := { m with
    conn := conn, received := m.received ++ bytes, current := m.current ++ bytes }
  if error then { m with closed := true }
  else if monParserIsDone parser.state then
    let (server, conn') := monProcessRequest m.server conn
    { m with
      server := server, conn := conn', interest := .opWrite
      served := m.served ++ [⟨parser.request, m.server, conn.authenticated⟩] }
  else m

/-- mon_write after send has taken `n` bytes. -/
def monWrite (m : MonSession) (n : ℕ) (h : n ≤ (bufferReadPtr m.conn.writeBuffer).length) :
    MonSession :=
  let wb := bufferReadAdv m.conn.writeBuffer n h
  let m := { m with sent := m.sent ++ (bufferReadPtr m.conn.writeBuffer).take n }
  if bufferCanRead wb then { m with conn := { m.conn with writeBuffer := wb } }
  else
    { m with
      conn := { m.conn with
        readBuffer := bufferReset m.conn.readBuffer, writeBuffer := bufferReset wb
        parser := monParserInit m.conn.parser }
      interest := .opRead, current := [] }

/-- What may happen: recv and send give a count, or 0 or an error; or another
part of the server runs. -/
inductive MonEvent
  | recv (bytes : List UInt8)
  | recvFails
  | send (n : ℕ)
  | sendFails
  | elsewhere (call : ServerCall)

/-- `none` when the event cannot happen. -/
def monStep (m : MonSession) : MonEvent → Option MonSession
  | .recv bytes =>
    if h : (m.closed = false ∧ m.interest = .opRead ∧ bytes ≠ []) ∧
        bytes.length ≤ bufferWritePtr m.conn.readBuffer then some (monRead m bytes h.2)
    else none
  | .recvFails =>
    if m.closed = false ∧ m.interest = .opRead then some { m with closed := true } else none
  | .send n =>
    if h : (m.closed = false ∧ m.interest = .opWrite ∧ 0 < n) ∧
        n ≤ (bufferReadPtr m.conn.writeBuffer).length then some (monWrite m n h.2)
    else none
  | .sendFails =>
    if m.closed = false ∧ m.interest = .opWrite then some { m with closed := true } else none
  | .elsewhere call => some { m with server := call.run m.server }

/-- The session after the events, `none` when one of them cannot happen. -/
def monRun (s : Server) (es : List MonEvent) : Option MonSession :=
  es.foldlM monStep (monPassiveAccept s)

theorem monRun_snoc {s : Server} {es : List MonEvent} {e : MonEvent} {m' : MonSession}
    (h : monRun s (es ++ [e]) = some m') : ∃ m, monRun s es = some m ∧ monStep m e = some m' := by
  unfold monRun at h ⊢
  rw [List.foldlM_append] at h
  obtain ⟨m, hm, hstep⟩ := Option.bind_eq_some_iff.mp h
  refine ⟨m, hm, ?_⟩
  simpa using hstep

/-- No step forgets what was received or executed. -/
theorem monStep_grows {m m' : MonSession} {e : MonEvent} (h : monStep m e = some m') :
    m.received <+: m'.received ∧ m.served <+: m'.served := by
  cases e with
  | recv bytes =>
    simp only [monStep] at h
    split at h
    · obtain rfl := Option.some.inj h
      unfold monRead
      dsimp only
      split
      · exact ⟨List.prefix_append _ _, List.prefix_refl _⟩
      split
      · exact ⟨List.prefix_append _ _, List.prefix_append _ _⟩
      · exact ⟨List.prefix_append _ _, List.prefix_refl _⟩
    · exact absurd h (by simp)
  | recvFails =>
    simp only [monStep] at h
    split at h
    · obtain rfl := Option.some.inj h
      exact ⟨List.prefix_refl _, List.prefix_refl _⟩
    · exact absurd h (by simp)
  | send n =>
    simp only [monStep] at h
    split at h
    · obtain rfl := Option.some.inj h
      unfold monWrite
      dsimp only
      split <;> exact ⟨List.prefix_refl _, List.prefix_refl _⟩
    · exact absurd h (by simp)
  | sendFails =>
    simp only [monStep] at h
    split at h
    · obtain rfl := Option.some.inj h
      exact ⟨List.prefix_refl _, List.prefix_refl _⟩
    · exact absurd h (by simp)
  | elsewhere call =>
    obtain rfl := Option.some.inj h
    exact ⟨List.prefix_refl _, List.prefix_refl _⟩

section Phases

/-- Between requests: `seen` was read of the next one. -/
structure Reading (m : MonSession) (seen : List UInt8) : Prop where
  seen_eq : m.current = seen
  interest_eq : m.interest = .opRead
  ready : Ready m.conn.writeBuffer
  drained : Ready m.conn.readBuffer
  parsing : ∃ p, m.conn.parser = feedAll monParserFeed (monParserInit p) seen ∧
    Partial monParserFeed (fun p => monParserIsDone p.state) (monParserInit p) seen

/-- A response is on its way; `left` was read behind its request. -/
structure Writing (m : MonSession) (left : List UInt8) : Prop where
  interest_eq : m.interest = .opWrite
  pending : bufferReadPtr m.conn.writeBuffer ≠ []
  write_limit : bufferLimit m.conn.writeBuffer = MON_IO_BUF_SIZE
  left_eq : bufferReadPtr m.conn.readBuffer = left
  read_limit : bufferLimit m.conn.readBuffer = MON_IO_BUF_SIZE

theorem reading_accept (s : Server) : Reading (monPassiveAccept s) [] where
  seen_eq := rfl
  interest_eq := rfl
  ready := ⟨bufferReadPtr_init _, bufferWritePtr_init _, bufferLimit_init _⟩
  drained := ⟨bufferReadPtr_init _, bufferWritePtr_init _, bufferLimit_init _⟩
  parsing := ⟨monParserZero, rfl, trivial⟩

def Served.answer (r : Served) : Answer :=
  MonServer.answer r.server r.authenticated r.request.cmd r.request.data

def Served.frame (r : Served) : List UInt8 := monFrame r.answer.status r.answer.payload

/-- The session after a read that ends a request. -/
structure Answered (m m' : MonSession) (bytes : List UInt8) (r : Served) (left : List UInt8) :
    Prop where
  served_eq : m'.served = m.served ++ [r]
  server_eq : r.server = m.server
  authenticated_eq : r.authenticated = m.conn.authenticated
  server' : m'.server = r.answer.server
  authenticated' : m'.conn.authenticated = r.answer.authenticated
  pending_eq : bufferReadPtr m'.conn.writeBuffer = r.frame
  writing : Writing m' left
  closed_eq : m'.closed = m.closed
  received_eq : m'.received = m.received ++ bytes
  sent_eq : m'.sent = m.sent

/-- Bytes that no message starts with. -/
def Malformed (l : List UInt8) : Prop :=
  l ≠ [] ∧ ∀ cmd args more rest, args.length ≤ MON_MAX_ARGS → (∀ a ∈ args, a.length ≤ 255) →
    l ++ more ≠ monMessage cmd args ++ rest

theorem monRead_cases {m : MonSession} {seen : List UInt8} (h : Reading m seen)
    (hs : m.conn.authenticated = true → m.server.Sound) {bytes : List UInt8} (hne : bytes ≠ [])
    (hfit : bytes.length ≤ bufferWritePtr m.conn.readBuffer) :
    (∃ c, monRead m bytes hfit = { m with
        conn := c, received := m.received ++ bytes, current := m.current ++ bytes } ∧
      c.authenticated = m.conn.authenticated ∧
      Reading { m with
        conn := c, received := m.received ++ bytes, current := m.current ++ bytes } (seen ++ bytes)) ∨
    (∃ c, monRead m bytes hfit =
        { m with
          conn := c, received := m.received ++ bytes, current := m.current ++ bytes
          closed := true } ∧
      c.authenticated = m.conn.authenticated ∧ c.writeBuffer = m.conn.writeBuffer ∧
      Malformed (seen ++ bytes)) ∨
    ∃ r args left, args.length ≤ MON_MAX_ARGS ∧ (∀ a ∈ args, a.length ≤ 255) ∧
      r.request.data = args ∧ seen ++ bytes = monMessage r.request.cmd args ++ left ∧
      Answered m (monRead m bytes hfit) bytes r left := by
  obtain ⟨hcurrent, hint, hready, ⟨hempty, hroom, hlimit⟩, p, hparser, hseen⟩ := h
  have hput : bufferReadPtr (bufferPut m.conn.readBuffer bytes hfit) = bytes := by
    rw [bufferReadPtr_put, hempty, List.nil_append]
  have hputlimit : bufferLimit (bufferPut m.conn.readBuffer bytes hfit) = MON_IO_BUF_SIZE := by
    rw [bufferLimit_put, hlimit]
  rcases consume_cases monParserErrored_done hseen (by rw [hput]; exact hne) with
    ⟨hpart, b', heq, hrest⟩ | ⟨w, left, hsplit, hends, b', heq, hrest⟩
  · left
    rw [hput] at hpart heq
    have hnot := hpart.unfinished (by simp [hne])
    have hread : monRead m bytes hfit = { m with
        conn := { m.conn with
          readBuffer := b', parser := feedAll monParserFeed (monParserInit p) (seen ++ bytes) }
        received := m.received ++ bytes, current := m.current ++ bytes } := by
      unfold monRead monParserConsume
      rw [hparser, heq]
      simp only [hnot, Bool.false_eq_true, if_false]
    refine ⟨_, hread, rfl, by rw [hcurrent], hint, hready,
      ⟨hrest.contents_eq, ?_, hrest.limit_eq.trans hputlimit⟩, p, rfl, hpart⟩
    rw [hrest.room_eq, if_pos rfl, hputlimit]
  · right
    rw [hput] at hsplit
    rcases mon_ends_cases hends with herror | ⟨cmd, args, hcount, hargs, rfl⟩
    · left
      have hread : monRead m bytes hfit = { m with
          conn := { m.conn with
            readBuffer := b', parser := feedAll monParserFeed (monParserInit p) w }
          received := m.received ++ bytes, current := m.current ++ bytes, closed := true } := by
        unfold monRead monParserConsume
        rw [hparser, heq]
        simp only [herror, monParserIsErrored, if_true]
      refine ⟨_, hread, rfl, rfl, by simp [hne], ?_⟩
      intro cmd args more rest hcount hargs heq'
      obtain ⟨hmessage, hparsed⟩ := mon_ends_message p cmd hcount hargs
      rw [hsplit, List.append_assoc] at heq'
      obtain ⟨rfl, -⟩ := hends.unique hmessage heq'
      rw [hparsed.state_eq] at herror
      exact absurd herror (by decide)
    · right
      have hparsed := (mon_ends_message p cmd hcount hargs).2
      generalize hq : feedAll monParserFeed (monParserInit p) (monMessage cmd args) = q at *
      have hresponded : Responded (MonServer.answer m.server m.conn.authenticated cmd args)
          { m.conn with readBuffer := b', parser := q }
          (monProcessRequest m.server { m.conn with readBuffer := b', parser := q }) := by
        by_cases hgate : m.conn.authenticated = true
        · exact monProcessRequest_answer (hs hgate) hready hparsed
        · exact monProcessRequest_gate hready hparsed (by simpa using hgate)
      obtain ⟨wb, hprocess, hpending, hwlimit⟩ := hresponded
      have hdone : monParserIsDone q.state = true := by
        rw [hparsed.state_eq]
        rfl
      have herror : monParserIsErrored q.state = false := by
        rw [hparsed.state_eq]
        rfl
      have hanswer : Served.answer ⟨q.request, m.server, m.conn.authenticated⟩ =
          MonServer.answer m.server m.conn.authenticated cmd args := by
        rw [Served.answer, hparsed.cmd_eq, hparsed.data_eq]
      refine ⟨⟨q.request, m.server, m.conn.authenticated⟩, args, left, hcount, hargs,
        hparsed.data_eq, by rw [hparsed.cmd_eq]; exact hsplit, ?_⟩
      have hread : monRead m bytes hfit = { m with
          server := (MonServer.answer m.server m.conn.authenticated cmd args).server
          conn := { m.conn with
            readBuffer := b', parser := q, writeBuffer := wb
            authenticated :=
              (MonServer.answer m.server m.conn.authenticated cmd args).authenticated }
          interest := .opWrite, received := m.received ++ bytes, current := m.current ++ bytes
          served := m.served ++ [⟨q.request, m.server, m.conn.authenticated⟩] } := by
        unfold monRead monParserConsume
        rw [hparser, heq]
        simp only [herror, hdone, hprocess, Bool.false_eq_true, if_false, if_true]
      rw [hread, ← hanswer]
      rw [← hanswer] at hpending
      refine ⟨rfl, rfl, rfl, rfl, rfl, hpending, ⟨rfl, ?_, hwlimit, hrest.contents_eq, ?_⟩, rfl, rfl,
        rfl⟩
      · rw [hpending]
        simp [monFrame]
      · rw [hrest.limit_eq, hputlimit]

/-- The session after a write of `n` bytes. -/
structure Wrote (m m' : MonSession) (n : ℕ) (left : List UInt8) : Prop where
  sent_eq : m'.sent = m.sent ++ (bufferReadPtr m.conn.writeBuffer).take n
  pending_eq : bufferReadPtr m'.conn.writeBuffer = (bufferReadPtr m.conn.writeBuffer).drop n
  server_eq : m'.server = m.server
  closed_eq : m'.closed = m.closed
  served_eq : m'.served = m.served
  received_eq : m'.received = m.received
  authenticated_eq : m'.conn.authenticated = m.conn.authenticated
  phase : Writing m' left ∨ Reading m' []

/-- After the last byte of a response the connection waits for the next request,
and what was read behind this one is gone. -/
theorem monWrite_cases {m : MonSession} {left : List UInt8} (h : Writing m left) {n : ℕ}
    (hn : n ≤ (bufferReadPtr m.conn.writeBuffer).length) : Wrote m (monWrite m n hn) n left := by
  obtain ⟨hint, hpending, hwlimit, hleft, hrlimit⟩ := h
  have hadv := bufferReadPtr_readAdv m.conn.writeBuffer n hn
  have hadvlimit := bufferLimit_readAdv m.conn.writeBuffer n hn
  cases hcan : bufferCanRead (bufferReadAdv m.conn.writeBuffer n hn) with
  | true =>
    have hne := (bufferCanRead_iff _).mp hcan
    have hwrite : monWrite m n hn = { m with
        conn := { m.conn with writeBuffer := bufferReadAdv m.conn.writeBuffer n hn }
        sent := m.sent ++ (bufferReadPtr m.conn.writeBuffer).take n } := by
      simp only [monWrite, hcan, if_true]
    rw [hwrite]
    exact ⟨rfl, hadv, rfl, rfl, rfl, rfl, rfl,
      Or.inl ⟨hint, hne, hadvlimit.trans hwlimit, hleft, hrlimit⟩⟩
  | false =>
    have hnil := (bufferCanRead_eq_false_iff _).mp hcan
    have hwrite : monWrite m n hn = { m with
        conn := { m.conn with
          readBuffer := bufferReset m.conn.readBuffer
          writeBuffer := bufferReset (bufferReadAdv m.conn.writeBuffer n hn)
          parser := monParserInit m.conn.parser }
        interest := .opRead, current := []
        sent := m.sent ++ (bufferReadPtr m.conn.writeBuffer).take n } := by
      simp only [monWrite, hcan, Bool.false_eq_true, if_false]
    rw [hwrite]
    refine ⟨rfl, ?_, rfl, rfl, rfl, rfl, rfl, Or.inr ?_⟩
    · rw [bufferReadPtr_reset, ← hadv, hnil]
    · refine ⟨rfl, rfl, ⟨bufferReadPtr_reset _, ?_, ?_⟩, ⟨bufferReadPtr_reset _, ?_, ?_⟩,
        m.conn.parser, rfl, trivial⟩
      · rw [bufferWritePtr_reset, hadvlimit, hwlimit]
      · rw [bufferLimit_reset, hadvlimit, hwlimit]
      · rw [bufferWritePtr_reset, hrlimit]
      · rw [bufferLimit_reset, hrlimit]

/-- Everything a step can do to a connection in one of its phases. -/
inductive MonTurn (m : MonSession) : MonEvent → MonSession → Prop
  | more {seen bytes : List UInt8} {c : MonConn} (hopen : m.closed = false)
      (hread : Reading m seen) (hauth : c.authenticated = m.conn.authenticated)
      (hread' : Reading { m with
        conn := c, received := m.received ++ bytes, current := m.current ++ bytes } (seen ++ bytes)) :
      MonTurn m (.recv bytes) { m with
        conn := c, received := m.received ++ bytes, current := m.current ++ bytes }
  | rejected {seen bytes : List UInt8} {c : MonConn} (hopen : m.closed = false)
      (hread : Reading m seen) (hauth : c.authenticated = m.conn.authenticated)
      (hwrite : c.writeBuffer = m.conn.writeBuffer)
      (hbad : Malformed (seen ++ bytes)) :
      MonTurn m (.recv bytes)
        { m with
          conn := c, received := m.received ++ bytes, current := m.current ++ bytes
          closed := true }
  | answered {seen bytes left : List UInt8} {m' : MonSession} {r : Served}
      {args : List (List UInt8)} (hopen : m.closed = false) (hread : Reading m seen)
      (hcount : args.length ≤ MON_MAX_ARGS) (hargs : ∀ a ∈ args, a.length ≤ 255)
      (hdata : r.request.data = args)
      (hsplit : seen ++ bytes = monMessage r.request.cmd args ++ left)
      (h : Answered m m' bytes r left) : MonTurn m (.recv bytes) m'
  | wrote {n : ℕ} {left : List UInt8} {m' : MonSession} (hopen : m.closed = false)
      (hwriting : Writing m left) (hpos : 0 < n)
      (hn : n ≤ (bufferReadPtr m.conn.writeBuffer).length) (h : Wrote m m' n left) :
      MonTurn m (.send n) m'
  | recvFailed (hopen : m.closed = false) : MonTurn m .recvFails { m with closed := true }
  | sendFailed (hopen : m.closed = false) : MonTurn m .sendFails { m with closed := true }
  | elsewhere (call : ServerCall) :
      MonTurn m (.elsewhere call) { m with server := call.run m.server }

/-- An open connection is in one of its phases. -/
def InPhase (m : MonSession) : Prop :=
  m.closed = false → (∃ seen, Reading m seen) ∨ ∃ left, Writing m left

theorem monStep_cases {m m' : MonSession} {e : MonEvent} (hphase : InPhase m)
    (hsound : m.conn.authenticated = true → m.server.Sound) (h : monStep m e = some m') :
    MonTurn m e m' := by
  cases e with
  | recv bytes =>
    simp only [monStep] at h
    split at h
    next hcan =>
      obtain rfl := Option.some.inj h
      obtain ⟨⟨hopen, hint, hne⟩, hfit⟩ := hcan
      obtain ⟨seen, hread⟩ : ∃ seen, Reading m seen := by
        rcases hphase hopen with hread | ⟨left, hwrite⟩
        · exact hread
        · exact absurd (hint.symm.trans hwrite.interest_eq) (by simp)
      rcases monRead_cases hread hsound hne hfit with
        ⟨c, heq, hauth, hread'⟩ | ⟨c, heq, hauth, hwb, hbad⟩ |
        ⟨r, args, left, hcount, hargs, hdata, hsplit, hanswered⟩
      · rw [heq]
        exact .more hopen hread hauth hread'
      · rw [heq]
        exact .rejected hopen hread hauth hwb hbad
      · exact .answered hopen hread hcount hargs hdata hsplit hanswered
    next => exact absurd h (by simp)
  | recvFails =>
    simp only [monStep] at h
    split at h
    next hcan =>
      obtain rfl := Option.some.inj h
      exact .recvFailed hcan.1
    next => exact absurd h (by simp)
  | send n =>
    simp only [monStep] at h
    split at h
    next hcan =>
      obtain rfl := Option.some.inj h
      obtain ⟨⟨hopen, hint, hpos⟩, hn⟩ := hcan
      rcases hphase hopen with ⟨seen, hread⟩ | ⟨left, hwrite⟩
      · exact absurd (hread.interest_eq.symm.trans hint) (by simp)
      · exact .wrote hopen hwrite hpos hn (monWrite_cases hwrite hn)
    next => exact absurd h (by simp)
  | sendFails =>
    simp only [monStep] at h
    split at h
    next hcan =>
      obtain rfl := Option.some.inj h
      exact .sendFailed hcan.1
    next => exact absurd h (by simp)
  | elsewhere call =>
    obtain rfl := Option.some.inj h
    exact .elsewhere call

/-- Every step leaves an open connection in one of its phases. -/
theorem MonTurn.inPhase {m m' : MonSession} {e : MonEvent} (h : MonTurn m e m')
    (hphase : InPhase m) : InPhase m' := by
  cases h with
  | more _ _ _ hread' => exact fun _ => Or.inl ⟨_, hread'⟩
  | rejected => exact fun hopen => absurd hopen (by simp)
  | answered _ _ _ _ _ _ hanswered => exact fun _ => Or.inr ⟨_, hanswered.writing⟩
  | wrote _ _ _ _ hwrote =>
    intro _
    rcases hwrote.phase with hwrite | hread
    · exact Or.inr ⟨_, hwrite⟩
    · exact Or.inl ⟨_, hread⟩
  | recvFailed => exact fun hopen => absurd hopen (by simp)
  | sendFailed => exact fun hopen => absurd hopen (by simp)
  | elsewhere call =>
    intro hopen
    rcases hphase hopen with ⟨seen, hread⟩ | ⟨left, hwrite⟩
    · exact Or.inl ⟨seen, hread.1, hread.2, hread.3, hread.4, hread.5⟩
    · exact Or.inr ⟨left, hwrite.1, hwrite.2, hwrite.3, hwrite.4, hwrite.5⟩

/-- What was sent and what is pending are the responses, one for each request. -/
def Output (m : MonSession) : Prop :=
  m.sent ++ bufferReadPtr m.conn.writeBuffer = m.served.flatMap Served.frame

theorem MonTurn.output {m m' : MonSession} {e : MonEvent} (h : MonTurn m e m')
    (hout : Output m) : Output m' := by
  unfold Output at hout ⊢
  cases h with
  | more _ hread _ hread' =>
    rw [hread'.ready.1]
    rw [hread.ready.1] at hout
    exact hout
  | rejected _ _ _ hwrite _ =>
    rw [hwrite]
    exact hout
  | answered _ hread _ _ _ _ hanswered =>
    rw [hread.ready.1, List.append_nil] at hout
    rw [hanswered.sent_eq, hanswered.pending_eq, hanswered.served_eq, List.flatMap_append, hout]
    simp
  | wrote _ _ _ _ hwrote =>
    rw [hwrote.sent_eq, hwrote.pending_eq, hwrote.served_eq, List.append_assoc,
      List.take_append_drop, hout]
  | recvFailed => exact hout
  | sendFailed => exact hout
  | elsewhere => exact hout

theorem inPhase_accept (s : Server) : InPhase (monPassiveAccept s) :=
  fun _ => Or.inl ⟨[], reading_accept s⟩

theorem output_accept (s : Server) : Output (monPassiveAccept s) :=
  bufferReadPtr_init MON_IO_BUF_SIZE

end Phases

end SocksProxy.MonLoop
