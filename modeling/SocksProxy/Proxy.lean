import SocksProxy.Lifetime
import SocksProxy.TableViews
import SocksProxy.Unauthenticated
import SocksProxy.UserMap

/-!
The proxy as one process: its connections, its monitoring sessions, the user
table that the ones look their clients up in and the others edit, and the access
log that the ones write and the others read. What is known of one connection or
one session by itself holds of each of them here.
-/
namespace SocksProxy.Proxy

open UserTable AccessLog MonProtocol MonServer MonLoop Kernel ConnState Connection TableViews
open Lifetime UserMap Runs

/-- What there is between two dispatches of the selector. Every part has the
shared data in view, and one that is closed stays as a closed one. The last two
fields record the requests of all sessions and the log entries of all connections,
in order; the code does not look at them. -/
structure Process where
  server : Server
  conns : List Conn
  sessions : List MonSession
  executed : List (ℕ × Served)
  relays : List (ℕ × Access)

/-- The loop of main over the users of the command line. -/
def processInit (users : List (CString × CString)) : Process where
  server := users.foldl
    (fun s user => (ServerCall.addUser user.1.val user.2.val).run s) serverInit
  conns := []
  sessions := []
  executed := []
  relays := []

/-- The shared data is `s` from now on. -/
def Process.publish (p : Process) (s : Server) : Process :=
  { p with
    server := s
    conns := p.conns.map fun c => { c with users := s.users }
    sessions := p.sessions.map fun m => { m with server := s } }

/-- The requests that a session has executed in one step. -/
def newlyServed (m m' : MonSession) : List Served := m'.served.drop m.served.length

/-- The `j`-th session has gone from `m` to `m'`. -/
def Process.serve (p : Process) (j : ℕ) (m m' : MonSession) : Process :=
  { p with
    sessions := p.sessions.set j m'
    executed := p.executed ++ (newlyServed m m').map (Prod.mk j) }.publish m'.server

/-- The destination that request_write hands over; `ntop` is inet_ntop. -/
def destinationText (ntop : List UInt8 → Option (List UInt8)) : Destination → Option (List UInt8)
  | .domain name => some name
  | .inet address => ntop address
  | .inet6 address => ntop address
  | .unknown => none

/-- The arguments of an access_log_add at the time `now`. -/
def accessOf (ntop : List UInt8 → Option (List UInt8)) (now : Int64) : Call → Option Access
  | .accessLogAdd name dest port =>
    some { username := some name, destAddr := destinationText ntop dest
           destPort := UInt16.ofNat port, now := now }
  | _ => none

/-- What a connection has written to the log in one step. -/
def newlyLogged (ntop : List UInt8 → Option (List UInt8)) (now : Int64) (c c' : Conn) :
    List Access := (c'.trace.drop c.trace.length).filterMap (accessOf ntop now)

/-- The `i`-th connection has gone from `c` to `c'` and has written `l` to the log. -/
def Process.advance (p : Process) (i : ℕ) (l : List Access) (c' : Conn) : Process :=
  { p with
    conns := p.conns.set i c'
    relays := p.relays ++ l.map (Prod.mk i) }.publish
      ((l.map ServerCall.addAccess).foldl ServerCall.run p.server)

/-- The calls on the metrics, and what the stack is used for. -/
def isReport : ServerCall → Bool
  | .addUser _ _ => false
  | .removeUser _ => false
  | .addAccess _ => false
  | _ => true

/-- The events of one session alone. -/
def isElsewhere : MonEvent → Bool
  | .elsewhere _ => true
  | _ => false

/-- `report` is what the connections count. -/
inductive ProcessEvent
  | accept (fd : ℕ)
  | connection (i : ℕ) (e : Event) (now : Int64)
  | monAccept
  | session (j : ℕ) (e : MonEvent)
  | report (call : ServerCall)

/-- `none` when the event cannot happen. -/
def processStep (ntop : List UInt8 → Option (List UInt8)) (p : Process) :
    ProcessEvent → Option Process
  | .accept fd => some { p with conns := p.conns ++ [socks5Init fd p.server.users] }
  | .connection i e now =>
    if onTable e then none
    else
      p.conns[i]?.bind fun c => (dispatch c e).map fun c' =>
        p.advance i (newlyLogged ntop now c c') c'
  | .monAccept => some { p with sessions := p.sessions ++ [monPassiveAccept p.server] }
  | .session j e =>
    if isElsewhere e then none
    else p.sessions[j]?.bind fun m => (monStep m e).map (p.serve j m)
  | .report call => if isReport call then some (p.publish (call.run p.server)) else none

def ProcessStep (ntop : List UInt8 → Option (List UInt8)) (p : Process) (e : ProcessEvent)
    (p' : Process) : Prop := processStep ntop p e = some p'

variable {ntop : List UInt8 → Option (List UInt8)} {p p' : Process} {c c' : Conn}
  {m m' : MonSession} {s : Server} {e : Event}

/-- Everything a step can do. -/
inductive Moved (ntop : List UInt8 → Option (List UInt8)) (p : Process) : Process → Prop
  | accept (fd : ℕ) :
      Moved ntop p { p with conns := p.conns ++ [socks5Init fd p.server.users] }
  | connection {i : ℕ} {c c' : Conn} {e : Event} {now : Int64} (hi : p.conns[i]? = some c)
      (htable : onTable e = false) (hstep : Step c e c') :
      Moved ntop p (p.advance i (newlyLogged ntop now c c') c')
  | monAccept : Moved ntop p { p with sessions := p.sessions ++ [monPassiveAccept p.server] }
  | session {j : ℕ} {m m' : MonSession} {e : MonEvent} (hj : p.sessions[j]? = some m)
      (he : isElsewhere e = false) (hstep : monStep m e = some m') :
      Moved ntop p (p.serve j m m')
  | report {call : ServerCall} (hcall : isReport call = true) :
      Moved ntop p (p.publish (call.run p.server))

theorem step_moved {e : ProcessEvent} (h : ProcessStep ntop p e p') : Moved ntop p p' := by
  unfold ProcessStep processStep at h
  cases e with
  | accept fd =>
    obtain rfl := Option.some.inj h
    exact .accept fd
  | connection i e now =>
    dsimp only at h
    split at h
    · cases h
    next htable =>
    obtain ⟨c, hc, h⟩ := Option.bind_eq_some_iff.mp h
    obtain ⟨c', hc', rfl⟩ := Option.map_eq_some_iff.mp h
    exact .connection hc (by simpa using htable) (step_of_dispatch hc')
  | monAccept =>
    obtain rfl := Option.some.inj h
    exact .monAccept
  | session j e =>
    dsimp only at h
    split at h
    · cases h
    next he =>
    obtain ⟨m, hm, h⟩ := Option.bind_eq_some_iff.mp h
    obtain ⟨m', hm', rfl⟩ := Option.map_eq_some_iff.mp h
    exact .session hm (by simpa using he) hm'
  | report call =>
    dsimp only at h
    split at h
    next hcall =>
      obtain rfl := Option.some.inj h
      exact .report hcall
    next => cases h

section Sessions

/-- What an executed request does to the server and to the login of its session. -/
inductive Effect (r : Served) : Server → Bool → Prop
  | kept : Effect r r.server r.authenticated
  | login (hcmd : r.request.cmd = MON_CMD_AUTH) (hargs : r.request.nargs = 2)
      (hfound : userTableLookup r.server.users (firstArg r.request) (secondArg r.request) = true) :
      Effect r r.server true
  | added (hcmd : r.request.cmd = MON_CMD_ADD_USER) (hargs : r.request.nargs = 2)
      (hauth : r.authenticated = true) :
      Effect r ((ServerCall.addUser (firstArg r.request) (secondArg r.request)).run r.server)
        r.authenticated
  | removed (hcmd : r.request.cmd = MON_CMD_DEL_USER) (hauth : r.authenticated = true) :
      Effect r ((ServerCall.removeUser (firstArg r.request)).run r.server) r.authenticated

theorem nargs_eq {req : MonRequest} (h : ¬ req.nargs < 2) : req.nargs = 2 := by
  have hle := req.nargs_le
  rw [UInt8.lt_iff_toNat_lt] at h
  apply UInt8.toNat_inj.mp
  simp only [MON_MAX_ARGS] at hle
  exact Nat.le_antisymm hle (Nat.le_of_not_lt h)

theorem monProcessRequest_effect (s : Server) (conn : MonConn) :
    Effect ⟨conn.parser.request, s, conn.authenticated⟩ (monProcessRequest s conn).1
      (monProcessRequest s conn).2.authenticated := by
  have hsent := Unauthenticated.sendResponse_authenticated
  unfold monProcessRequest
  dsimp only
  split
  · rw [hsent]
    exact .kept
  next hgate =>
  split
  next hcmd =>
    split
    · rw [hsent]
      exact .kept
    next hfound =>
      rw [hsent]
      rw [not_or, not_not] at hfound
      exact .login hcmd (nargs_eq hfound.1) hfound.2
  next hcmd =>
  have hauth : conn.authenticated = true := by
    by_contra hfalse
    exact hgate ⟨by simpa using hfalse, hcmd⟩
  split
  next hadd =>
    split
    · rw [hsent]
      exact .kept
    next hargs =>
    split
    · rw [hsent]
      exact .added hadd (nargs_eq hargs) hauth
    · rw [hsent]
      exact .added hadd (nargs_eq hargs) hauth
  split
  next hdel =>
    split
    · rw [hsent]
      exact .kept
    split
    · rw [hsent]
      exact .removed hdel hauth
    · rw [hsent]
      exact .removed hdel hauth
  split
  · rw [hsent]
    exact .kept
  split
  · rw [hsent]
    exact .kept
  split
  · split
    · rw [hsent]
      exact .kept
    · exact .kept
  · rw [hsent]
    exact .kept

/-- Nothing is executed, or one request. -/
inductive Turned (m m' : MonSession) : Prop
  | idle (hserved : m'.served = m.served) (hserver : m'.server = m.server)
      (hauth : m'.conn.authenticated = m.conn.authenticated)
  | executed (r : Served) (hserved : m'.served = m.served ++ [r]) (hserver : r.server = m.server)
      (hauth : r.authenticated = m.conn.authenticated)
      (heffect : Effect r m'.server m'.conn.authenticated)

theorem monStep_turned {e : MonEvent} (he : isElsewhere e = false) (h : monStep m e = some m') :
    Turned m m' := by
  cases e with
  | recv bytes =>
    simp only [monStep] at h
    split at h
    · obtain rfl := Option.some.inj h
      unfold monRead
      generalize MonParsing.monParserConsume _ m.conn.parser = r
      obtain ⟨b, parser, error⟩ := r
      dsimp only
      split
      · exact .idle rfl rfl rfl
      split
      · exact .executed _ rfl rfl rfl (monProcessRequest_effect m.server
          { m.conn with readBuffer := b, parser := parser })
      · exact .idle rfl rfl rfl
    · cases h
  | recvFails =>
    simp only [monStep] at h
    split at h
    · obtain rfl := Option.some.inj h
      exact .idle rfl rfl rfl
    · cases h
  | send n =>
    simp only [monStep] at h
    split at h
    · obtain rfl := Option.some.inj h
      unfold monWrite
      dsimp only
      split <;> exact .idle rfl rfl rfl
    · cases h
  | sendFails =>
    simp only [monStep] at h
    split at h
    · obtain rfl := Option.some.inj h
      exact .idle rfl rfl rfl
    · cases h
  | elsewhere call => cases he

/-- A session leaves the server as it is or makes one call on the user table. -/
theorem Turned.server_cases (h : Turned m m') :
    m'.server = m.server ∨ ∃ call : ServerCall, m'.server = call.run m.server ∧
      m'.server.log = m.server.log := by
  cases h with
  | idle _ hserver _ => exact Or.inl hserver
  | executed r _ hserver _ heffect =>
    rw [← hserver]
    generalize m'.server = t, m'.conn.authenticated = auth at heffect
    cases heffect with
    | kept => exact Or.inl rfl
    | login hcmd hfound => exact Or.inl rfl
    | added hcmd hauth => exact Or.inr ⟨_, rfl, rfl⟩
    | removed hcmd hauth => exact Or.inr ⟨_, rfl, rfl⟩

end Sessions

section Parts

/-- All parts have the shared data in view. -/
structure Shared (p : Process) : Prop where
  conns : ∀ c ∈ p.conns, c.users = p.server.users
  sessions : ∀ m ∈ p.sessions, m.server = p.server

theorem Shared.publish (p : Process) (s : Server) : Shared (p.publish s) where
  conns := by
    intro c hc
    obtain ⟨k, -, rfl⟩ := List.mem_map.mp hc
    rfl
  sessions := by
    intro m hm
    obtain ⟨k, -, rfl⟩ := List.mem_map.mp hm
    rfl

/-- A connection of the process, by itself. -/
def Ran (c : Conn) : Prop := ∃ fd users es, Run Step (socks5Init fd users) es c

/-- A monitoring session of the process, by itself. -/
def Monitored (m : MonSession) : Prop := ∃ s es, monRun s es = some m

/-- To a connection a call on the server is an event of its own or nothing. -/
theorem Ran.seen (h : Ran c) (hview : c.users = s.users) (call : ServerCall) :
    Ran { c with users := (call.run s).users } := by
  obtain ⟨fd, users, es, hrun⟩ := h
  cases call with
  | addUser name pass =>
    have hstep : Step c (.addUser name pass)
        { c with users := (userTableAdd s.users name pass).2 } :=
      ⟨trivial, by rw [handle, hview]⟩
    exact ⟨fd, users, _, .snoc hrun hstep⟩
  | removeUser name =>
    have hstep : Step c (.removeUser name)
        { c with users := (userTableRemove s.users name).2 } :=
      ⟨trivial, by rw [handle, hview]⟩
    exact ⟨fd, users, _, .snoc hrun hstep⟩
  | _ =>
    have hsame : { c with users := s.users } = c := by rw [← hview]
    refine ⟨fd, users, es, ?_⟩
    exact hsame.symm ▸ hrun

theorem Monitored.step {e : MonEvent} (h : Monitored m) (hstep : monStep m e = some m') :
    Monitored m' := by
  obtain ⟨s, es, hrun⟩ := h
  refine ⟨s, es ++ [e], ?_⟩
  have hone : es.foldlM monStep (monPassiveAccept s) = some m := hrun
  rw [monRun, List.foldlM_append, hone]
  simpa using hstep

theorem Monitored.seen (h : Monitored m) (hview : m.server = s) (call : ServerCall) :
    Monitored { m with server := call.run s } :=
  h.step (e := .elsewhere call) (by rw [← hview]; rfl)

/-- The parts of a process, each by itself. -/
structure Parts (p : Process) : Prop where
  shared : Shared p
  conns : ∀ c ∈ p.conns, Ran c
  sessions : ∀ m ∈ p.sessions, Monitored m

/-- Nothing is new to anybody. -/
theorem Parts.publish_self (h : Parts p) : p.publish p.server = p := by
  have hconns : p.conns.map (fun c => { c with users := p.server.users }) = p.conns := by
    refine (List.map_congr_left fun c hc => ?_).trans (List.map_id _)
    rw [← h.shared.conns c hc]
    rfl
  have hsessions : p.sessions.map (fun m => { m with server := p.server }) = p.sessions := by
    refine (List.map_congr_left fun m hm => ?_).trans (List.map_id _)
    rw [← h.shared.sessions m hm]
    rfl
  unfold Process.publish
  rw [hconns, hsessions]

theorem Parts.publish_call (h : Parts p) (call : ServerCall) :
    Parts (p.publish (call.run p.server)) where
  shared := .publish p _
  conns := by
    intro c hc
    obtain ⟨k, hk, rfl⟩ := List.mem_map.mp hc
    exact (h.conns k hk).seen (h.shared.conns k hk) call
  sessions := by
    intro m hm
    obtain ⟨k, hk, rfl⟩ := List.mem_map.mp hm
    exact (h.sessions k hk).seen (h.shared.sessions k hk) call

theorem parts_init (users : List (CString × CString)) : Parts (processInit users) where
  shared := ⟨by simp [processInit], by simp [processInit]⟩
  conns := by simp [processInit]
  sessions := by simp [processInit]

theorem Parts.publish_calls (h : Parts p) (calls : List ServerCall) :
    Parts (p.publish (calls.foldl ServerCall.run p.server)) := by
  induction calls using List.reverseRecOn with
  | nil =>
    rw [List.foldl_nil, h.publish_self]
    exact h
  | append_singleton calls call ih =>
    have hnext := ih.publish_call call
    have htwice : ∀ s t : Server, (p.publish s).publish t = p.publish t := by
      intro s t
      simp [Process.publish, Function.comp_def]
    rw [htwice] at hnext
    rw [List.foldl_append]
    exact hnext

/-- A connection that moves has the table in view that all others have. -/
theorem Parts.connect (h : Parts p) {i : ℕ} (hi : p.conns[i]? = some c)
    (htable : onTable e = false) (hstep : Step c e c') (l : List Access) :
    Parts (p.advance i l c') := by
  have hmoved : Parts { p with
      conns := p.conns.set i c', relays := p.relays ++ l.map (Prod.mk i) } := by
    refine ⟨⟨fun k hk => ?_, h.shared.sessions⟩, fun k hk => ?_, h.sessions⟩
    · rcases List.mem_or_eq_of_mem_set hk with hk | rfl
      · exact h.shared.conns k hk
      · exact (handle_consults htable hstep.2).1.trans
          (h.shared.conns c (List.mem_of_getElem? hi))
    · rcases List.mem_or_eq_of_mem_set hk with hk | rfl
      · exact h.conns k hk
      · obtain ⟨fd, users, es, hrun⟩ := h.conns c (List.mem_of_getElem? hi)
        exact ⟨fd, users, _, .snoc hrun hstep⟩
  exact hmoved.publish_calls (l.map ServerCall.addAccess)

/-- The other parts see the call that the session has made. -/
theorem Parts.serve (h : Parts p) {j : ℕ} {e : MonEvent} (hj : p.sessions[j]? = some m)
    (he : isElsewhere e = false) (hstep : monStep m e = some m') : Parts (p.serve j m m') := by
  have hm := List.mem_of_getElem? hj
  have hothers : Parts (p.publish m'.server) := by
    rcases (monStep_turned he hstep).server_cases with hserver | ⟨call, hserver, -⟩
    · rw [hserver, h.shared.sessions m hm, h.publish_self]
      exact h
    · rw [hserver, h.shared.sessions m hm]
      exact h.publish_call call
  refine ⟨.publish _ _, hothers.conns, fun k hk => ?_⟩
  obtain ⟨n, hn, rfl⟩ := List.mem_map.mp hk
  rcases List.mem_or_eq_of_mem_set hn with hn | rfl
  · exact hothers.sessions _ (List.mem_map_of_mem hn)
  · exact (h.sessions m hm).step hstep

theorem parts_step {e : ProcessEvent} (h : Parts p) (hstep : ProcessStep ntop p e p') :
    Parts p' := by
  cases step_moved hstep with
  | accept fd =>
    refine ⟨⟨fun c hc => ?_, h.shared.sessions⟩, fun c hc => ?_, h.sessions⟩
    · rcases List.mem_append.mp hc with hc | hc
      · exact h.shared.conns c hc
      · rw [List.mem_singleton.mp hc]
        rfl
    · rcases List.mem_append.mp hc with hc | hc
      · exact h.conns c hc
      · rw [List.mem_singleton.mp hc]
        exact ⟨fd, p.server.users, [], .nil⟩
  | connection hi htable hone => exact h.connect hi htable hone _
  | monAccept =>
    refine ⟨⟨h.shared.conns, fun m hm => ?_⟩, h.conns, fun m hm => ?_⟩
    · rcases List.mem_append.mp hm with hm | hm
      · exact h.shared.sessions m hm
      · rw [List.mem_singleton.mp hm]
        rfl
    · rcases List.mem_append.mp hm with hm | hm
      · exact h.sessions m hm
      · rw [List.mem_singleton.mp hm]
        exact ⟨p.server, [], rfl⟩
  | session hj he hone => exact h.serve hj he hone
  | report hcall => exact h.publish_call _

end Parts

section Sample

/-- `u` with password `p`. -/
def oneUser : List (CString × CString) := [(⟨[117], by decide⟩, ⟨[112], by decide⟩)]

/-- A session logs in as `u` and adds `v` with password `q`, who then connects. -/
def passedOn : List ProcessEvent :=
  [.monAccept, .session 0 (.recv [1, 0, 2, 1, 1, 117, 112]), .session 0 (.send 4),
    .session 0 (.recv [1, 1, 2, 1, 1, 118, 113]), .session 0 (.send 4), .accept 5] ++
  [arrives helloBytes, flushes, arrives [1, 1, 118, 1, 113], flushes, arrives connectBytes,
    flushes].map fun e => .connection 0 e 0

theorem passedOn_run : ∃ p, Run (ProcessStep fun _ => none) (processInit oneUser) passedOn p ∧
    credentials p.server.users = [([117], [112]), ([118], [113])] ∧
    p.conns.map (fun c => c.relayStarted) = [true] := by
  have hplayed : (passedOn.foldlM (processStep fun _ => none) (processInit oneUser)).map (fun p =>
      (credentials p.server.users, p.conns.map fun c => c.relayStarted)) =
        some ([([117], [112]), ([118], [113])], [true]) := by decide +kernel
  obtain ⟨p, hp, hends⟩ := Option.map_eq_some_iff.mp hplayed
  obtain ⟨hcredentials, hrelays⟩ := Prod.mk.inj hends
  exact ⟨p, Run.of_foldlM (fun h => h) hp, hcredentials, hrelays⟩

end Sample

/-- What is known of the runs of one connection, and of the runs of one session,
holds of all those of the process, and they all have the same data in view. -/
theorem parts_run {users : List (CString × CString)} {es : List ProcessEvent}
    (h : Run (ProcessStep ntop) (processInit users) es p) : Parts p :=
  h.invariant (parts_init users) parts_step

theorem parts_run_passed_on : ∃ p,
    Run (ProcessStep fun _ => none) (processInit oneUser) passedOn p ∧
    p.conns.map (fun c => c.relayStarted) = [true] ∧ Parts p := by
  obtain ⟨p, hrun, -, hrelays⟩ := passedOn_run
  exact ⟨p, hrun, hrelays, parts_run hrun⟩

end SocksProxy.Proxy
