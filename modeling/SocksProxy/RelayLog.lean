import SocksProxy.Access
import SocksProxy.ResponseFrames

/-!
What the access log of the process says: which relays were started, each of them
once and in order, under the name of an account that is vouched for.
-/
namespace SocksProxy.RelayLog

open ByteBuffer Auth UserTable AccessLog AccessReport Circular MonFormat MonProtocol MonServer
open MonLoop Kernel
open ConnState Connection TableViews UserMap Stages Runs Proxy Access

variable {users : List (CString × CString)} {ntop : List UInt8 → Option (List UInt8)}
  {p p' : Process} {c c' : Conn} {m m' : MonSession} {i : ℕ} {now : Int64}

/-- The calls that write to the log. -/
def isEntry : Call → Bool
  | .accessLogAdd _ _ _ => true
  | _ => false

theorem accessOf_isSome (ntop : List UInt8 → Option (List UInt8)) (now : Int64) :
    (fun call => (accessOf ntop now call).isSome) = isEntry := by
  funext call
  cases call <;> rfl

theorem accessOf_some {call : Call} {a : Access} (h : accessOf ntop now call = some a) :
    ∃ name dest port, call = .accessLogAdd name dest port ∧ a.username = some name := by
  cases call with
  | accessLogAdd name dest port =>
    obtain rfl := Option.some.inj h
    exact ⟨name, dest, port, rfl, rfl⟩
  | _ => cases h

/-- What is written in one step is what the calls of the step write. -/
theorem newlyLogged_length (h : Consults c c') :
    c'.trace.countP isEntry = c.trace.countP isEntry + (newlyLogged ntop now c c').length := by
  obtain ⟨-, u, hu, -⟩ := h
  rw [newlyLogged, hu, List.drop_left, List.length_filterMap_eq_countP, accessOf_isSome,
    List.countP_append]

section Connections

/-- A connection writes to the log when its relay starts. -/
theorem entries_eq (h : Ran c) : c.trace.countP isEntry = if c.relayStarted then 1 else 0 := by
  have hquiet : ∀ {u : List Call}, (∀ call ∈ u, ¬ Starts call) → u.countP isEntry = 0 := by
    intro u hu
    rw [List.countP_eq_zero]
    intro call hmem hentry
    have hno := hu call hmem
    cases call <;> first | exact hno trivial | cases hentry
  rcases (ran_gate h).2 with ⟨hrelay, hnone⟩ | ⟨l, port, hlogged⟩
  · rw [hrelay, hquiet hnone]
    rfl
  · obtain ⟨pre, dest, post, atyp, address, hi, lo, htrace, -, -, -, -, hrest⟩ := hlogged.calls
    have hpre := hquiet fun call hmem => hrest call (List.mem_append_left _ hmem)
    have hpost := hquiet fun call hmem => hrest call (List.mem_append_right _ hmem)
    rw [hlogged.relay_eq, htrace, List.countP_append, hpre, List.countP_cons, List.countP_cons,
      hpost]
    rfl

/-- A log entry names an account that is vouched for. -/
def Named (users : List (CString × CString)) (h : List (ℕ × Served)) (a : Access) : Prop :=
  ∃ name pass, a.username = some name ∧ name.length ≤ MAX_CRED_LEN ∧ 0 ∉ name ∧
    Vouched users h (name, pass)

theorem Named.append {h : List (ℕ × Served)} {a : Access} (hin : Named users h a)
    (t : List (ℕ × Served)) : Named users (h ++ t) a := by
  obtain ⟨name, pass, hname, hlen, hzero, hby⟩ := hin
  exact ⟨name, pass, hname, hlen, hzero, hby.append t⟩

theorem cString_length_le_self (l : List UInt8) : (cString l).length ≤ l.length :=
  (List.takeWhile_prefix _).length_le

/-- What a connection writes carries the name that its client has logged in with. -/
theorem entry_named (h : Accountable users p) (hc : c ∈ p.conns) {a : Access} {call : Call}
    (hmem : call ∈ c.trace) (hsome : accessOf ntop now call = some a) :
    Named users p.executed a := by
  obtain ⟨name, dest, port, rfl, husername⟩ := accessOf_some hsome
  rcases (ran_gate (h.parts.conns c hc)).2 with ⟨-, hnone⟩ | ⟨l, port', hlogged⟩
  · exact absurd trivial (hnone _ hmem)
  obtain ⟨pre, dest', post, atyp, address, hi, lo, htrace, hgate, -, -, -, hrest⟩ := hlogged.calls
  obtain ⟨t, hlooked, hfound⟩ := hgate.accepted
  have hin : Kernel.Call.lookup t (cString l.uname) (cString l.passwd) ∈ c.trace := by
    rw [htrace]
    exact List.mem_append_left _ hlooked
  have hname : name = cString l.uname := by
    rw [htrace] at hmem
    rcases List.mem_append.mp hmem with hmem | hmem
    · exact absurd trivial (hrest _ (List.mem_append_left _ hmem))
    rcases List.mem_cons.mp hmem with heq | hmem
    · injection heq
    rcases List.mem_cons.mp hmem with heq | hmem
    · cases heq
    · exact absurd trivial (hrest _ (List.mem_append_right _ hmem))
  have hlen : name.length ≤ MAX_CRED_LEN := by
    rw [hname]
    exact (cString_length_le_self _).trans hgate.valid.uname_le
  have hzero : 0 ∉ name := by
    rw [hname]
    exact CredentialCheck.zero_not_mem_cString _
  exact ⟨name, _, husername, hlen, hzero, hname ▸ h.conns c hc t _ _ hin hfound⟩

end Connections

section Invariant

/-- The log is what was written to it, and every connection has written what its
calls say. -/
structure Kept (users : List (CString × CString)) (p : Process) : Prop where
  log_eq : p.server.log = (p.relays.map Prod.snd).foldl accessLogAdd accessLogInit
  tags : ∀ x ∈ p.relays, x.1 < p.conns.length
  counts : ∀ (i : ℕ) (c : Conn), p.conns[i]? = some c →
    p.relays.countP (fun x => x.1 = i) = c.trace.countP isEntry
  names : ∀ x ∈ p.relays, Named users p.executed x.2

theorem kept_init (users : List (CString × CString)) : Kept users (processInit users) where
  log_eq := by
    induction users using List.reverseRecOn with
    | nil => rfl
    | append_singleton users user ih =>
      have hsame : (processInit (users ++ [user])).server.log = (processInit users).server.log := by
        simp [processInit, ServerCall.run]
      exact hsame.trans ih
  tags := by simp [processInit]
  counts := by simp [processInit]
  names := by simp [processInit]

/-- Everybody sees another server with the same log. -/
theorem Kept.publish (h : Kept users p) {s : Server} (hlog : s.log = p.server.log) :
    Kept users (p.publish s) where
  log_eq := hlog.trans h.log_eq
  tags := by
    intro x hx
    have hlt := h.tags x hx
    simpa [Process.publish] using hlt
  counts := by
    intro i c hi
    obtain ⟨k, hk, rfl⟩ := Option.map_eq_some_iff.mp ((List.getElem?_map ..).symm.trans hi)
    exact h.counts i k hk
  names := h.names

theorem Kept.serve (h : Kept users p) {e : MonEvent} {j : ℕ} (hj : p.sessions[j]? = some m)
    (hshared : Shared p) (he : isElsewhere e = false) (hstep : monStep m e = some m') :
    Kept users (p.serve j m m') := by
  have hserver := hshared.sessions m (List.mem_of_getElem? hj)
  have hlog : m'.server.log = p.server.log := by
    rcases (monStep_turned he hstep).server_cases with hsame | ⟨call, -, hsame⟩
    · rw [hsame, hserver]
    · rw [hsame, hserver]
  have hlater : Kept users { p with
      sessions := p.sessions.set j m'
      executed := p.executed ++ (newlyServed m m').map (Prod.mk j) } :=
    ⟨h.log_eq, h.tags, h.counts, fun x hx => (h.names x hx).append _⟩
  exact hlater.publish hlog

/-- The entries that a connection makes carry its number. -/
theorem Kept.connect (h : Kept users p) (hi : p.conns[i]? = some c) (hview : Consults c c')
    (hafter : Accountable users (p.advance i (newlyLogged ntop now c c') c')) :
    Kept users (p.advance i (newlyLogged ntop now c c') c') := by
  have hlt : i < p.conns.length := (List.getElem?_eq_some_iff.mp hi).1
  have hgrown : c'.trace.countP isEntry =
      c.trace.countP isEntry + (newlyLogged ntop now c c').length := newlyLogged_length hview
  have hown : ∀ a ∈ newlyLogged ntop now c c', Named users p.executed a := by
    intro a ha
    obtain ⟨call, hcall, hsome⟩ := List.mem_filterMap.mp ha
    have hconn := List.mem_map_of_mem (f := fun k : Conn => { k with
      users := (p.advance i (newlyLogged ntop now c c') c').server.users })
      (List.mem_set hlt c')
    exact entry_named hafter hconn (List.mem_of_mem_drop hcall) hsome
  generalize newlyLogged ntop now c c' = l at hgrown hown hafter
  refine { log_eq := ?log, tags := ?tags, counts := ?counts, names := ?names }
  case log =>
    refine (log_calls l p.server).1.trans ?_
    rw [h.log_eq, ← List.foldl_append]
    simp [Process.advance, Process.publish, Function.comp_def]
  case tags =>
    intro x hx
    have hmem : x ∈ p.relays ++ l.map (Prod.mk i) := hx
    have hlen : (p.advance i l c').conns.length = p.conns.length := by
      simp [Process.advance, Process.publish]
    rw [hlen]
    rcases List.mem_append.mp hmem with hmem | hmem
    · exact h.tags x hmem
    · obtain ⟨a, -, rfl⟩ := List.mem_map.mp hmem
      exact hlt
  case counts =>
    intro k n hn
    obtain ⟨n', hn', rfl⟩ := Option.map_eq_some_iff.mp ((List.getElem?_map ..).symm.trans hn)
    show (p.relays ++ l.map (Prod.mk i)).countP (fun x => x.1 = k) = n'.trace.countP isEntry
    rw [List.countP_append, List.countP_map]
    by_cases hk : i = k
    · -- all new entries carry the number of the connection that has moved
      subst hk
      rw [List.getElem?_set_self hlt] at hn'
      obtain rfl := Option.some.inj hn'
      rw [h.counts i c hi, hgrown]
      simp [Function.comp_def]
    · rw [List.getElem?_set_ne hk] at hn'
      rw [h.counts k n' hn']
      simp [Function.comp_def, hk]
  case names =>
    intro x hx
    have hmem : x ∈ p.relays ++ l.map (Prod.mk i) := hx
    rcases List.mem_append.mp hmem with hmem | hmem
    · exact h.names x hmem
    · obtain ⟨a, ha, rfl⟩ := List.mem_map.mp hmem
      exact hown a ha

theorem Kept.accept (h : Kept users p) (fd : ℕ) :
    Kept users { p with conns := p.conns ++ [socks5Init fd p.server.users] } := by
  refine ⟨h.log_eq, fun x hx => ?_, fun i c hi => ?_, h.names⟩
  · rw [List.length_append]
    exact Nat.lt_add_right _ (h.tags x hx)
  · by_cases hlt : i < p.conns.length
    · exact h.counts i c ((List.getElem?_append_left hlt).symm.trans hi)
    · have hlast := (List.getElem?_append_right (not_lt.mp hlt)).symm.trans hi
      obtain rfl := List.mem_singleton.mp (List.mem_of_getElem? hlast)
      -- nobody has written under the number of a connection that is new
      have hnone : p.relays.countP (fun x => x.1 = i) = 0 := by
        rw [List.countP_eq_zero]
        intro x hx htag
        have hbound := h.tags x hx
        rw [of_decide_eq_true htag] at hbound
        exact hlt hbound
      rw [hnone]
      rfl

theorem kept_step {e : ProcessEvent} (hacc : Accountable users p) (hafter : Accountable users p')
    (h : Kept users p) (hstep : ProcessStep ntop p e p') : Kept users p' := by
  cases step_moved hstep with
  | accept fd => exact h.accept fd
  | connection hi htable hone => exact h.connect hi (handle_consults htable hone.2) hafter
  | monAccept => exact ⟨h.log_eq, h.tags, h.counts, h.names⟩
  | session hj he hone => exact h.serve hj hacc.parts.shared he hone
  | report hcall => exact h.publish (report_spec hcall p.server).2

theorem kept_run {es : List ProcessEvent}
    (h : Run (ProcessStep ntop) (processInit users) es p) : Kept users p :=
  h.invariant_with (I := Accountable users) (accountable_init users) (kept_init users)
    accountable_step kept_step

end Invariant

/-- In any run of the process the log holds the last relays that were started,
in order; each connection has written to it once if its relay was started and
else not at all; and each entry names an account that is vouched for. -/
theorem log_of_relays {es : List ProcessEvent}
    (h : Run (ProcessStep ntop) (processInit users) es p) :
    p.server.log.contents = ((p.relays.map Prod.snd).rtake MAX_LOG_ENTRIES).map Access.entry ∧
    (∀ i c, p.conns[i]? = some c →
      p.relays.countP (fun x => x.1 = i) = if c.relayStarted then 1 else 0) ∧
    ∀ x ∈ p.relays, x.1 < p.conns.length ∧ ∃ name pass, x.2.username = some name ∧
      Vouched users p.executed (name, pass) := by
  have hacc := accountable_run h
  have hkept := kept_run h
  refine ⟨?_, fun i c hi => ?_, fun x hx => ⟨hkept.tags x hx, ?_⟩⟩
  · rw [hkept.log_eq]
    exact contents_of_calls _
  · rw [hkept.counts i c hi]
    exact entries_eq (hacc.parts.conns c (List.mem_of_getElem? hi))
  · obtain ⟨name, pass, hname, -, -, hby⟩ := hkept.names x hx
    exact ⟨name, pass, hname, hby⟩

theorem log_of_relays_passed_on : ∃ p,
    Run (ProcessStep fun _ => none) (processInit oneUser) passedOn p ∧
    p.relays.countP (fun x => x.1 = 0) = 1 := by
  obtain ⟨p, hrun, -, hrelays⟩ := passedOn_run
  refine ⟨p, hrun, ?_⟩
  obtain ⟨c, hconns, hrelay⟩ := List.map_eq_singleton_iff.mp hrelays
  rw [(log_of_relays hrun).2.1 0 c (by rw [hconns]; rfl), hrelay]
  rfl

section Reading

/-- The client reads the longest suffix of the calls in the log that fits. -/
theorem logPayload_rows {s : Server} {calls : List Access}
    (hlog : s.log = calls.foldl accessLogAdd accessLogInit) : ∃ rows,
      LongestSuffix (fun a => (printed a).bytes.length)
        (MON_RESPONSE_PAYLOAD_MAX - MON_ACCESS_LOG_COUNT_LEN) (calls.rtake MAX_LOG_ENTRIES) rows ∧
      monFormatAccessLog (some (logPayload s)) = (rows.map printed, true) := by
  obtain ⟨payload, off, kept, hpayload, -, -, -, hlongest, -, -, hformat⟩ :=
    payload_of_calls calls s.stack.toList Vector.length_toList
  have hbytes : logPayload s = payload.take off := by rw [logPayload, hlog, hpayload]
  exact ⟨kept, hlongest, by rw [hbytes, hformat]⟩

theorem Named.printed_user {h : List (ℕ × Served)} {a : Access} (hin : Named users h a) :
    ∃ pass, Vouched users h ((printed a).user, pass) := by
  obtain ⟨name, pass, hname, hlen, hzero, hby⟩ := hin
  have huser : a.user = name := by
    rw [Access.user, hname]
    rfl
  have hfits : a.user.length ≤ MAX_CRED_LEN ∧ 0 ∉ a.user := by
    rw [huser]
    exact ⟨hlen, hzero⟩
  have hstored : cString a.entry.username.toList = a.user := cString_strncpy hfits.1 hfits.2
  have hrow : (printed a).user = name := by
    rw [printed, entryRow, hstored, huser]
  exact ⟨pass, hrow.symm ▸ hby⟩

end Reading

section Frames

/-- The strings of the server end inside their arrays, and every session is in one of the
phases of the event loop. -/
structure InTurn (p : Process) : Prop where
  sound : p.server.Sound
  sessions : ∀ m ∈ p.sessions, InPhase m

theorem inPhase_server (h : InPhase m) (s : Server) : InPhase { m with server := s } := by
  intro hopen
  rcases h hopen with ⟨seen, hread⟩ | ⟨left, hwrite⟩
  · exact Or.inl ⟨seen, hread.1, hread.2, hread.3, hread.4, hread.5⟩
  · exact Or.inr ⟨left, hwrite.1, hwrite.2, hwrite.3, hwrite.4, hwrite.5⟩

theorem sound_calls {s : Server} (h : s.Sound) (calls : List ServerCall) :
    (calls.foldl ServerCall.run s).Sound := by
  induction calls generalizing s with
  | nil => exact h
  | cons call calls ih => exact ih (h.run call)

theorem inTurn_init (users : List (CString × CString)) : InTurn (processInit users) where
  sound := by
    have hcalls : (processInit users).server = (users.map fun user =>
        ServerCall.addUser user.1.val user.2.val).foldl ServerCall.run serverInit := by
      rw [List.foldl_map]
      rfl
    rw [hcalls]
    exact sound_calls .init _
  sessions := by simp [processInit]

theorem inTurn_publish {s : Server} (hs : s.Sound) (h : ∀ m ∈ p.sessions, InPhase m) :
    InTurn (p.publish s) := by
  refine ⟨hs, fun m hm => ?_⟩
  obtain ⟨k, hk, rfl⟩ := List.mem_map.mp hm
  exact inPhase_server (h k hk) s

/-- What a session of the process does is a turn of its event loop. -/
theorem InTurn.turn (h : InTurn p) (hshared : Shared p) {e : MonEvent} (hm : m ∈ p.sessions)
    (hstep : monStep m e = some m') : MonTurn m e m' := by
  refine monStep_cases (h.sessions m hm) (fun _ => ?_) hstep
  rw [hshared.sessions m hm]
  exact h.sound

theorem inTurn_step {e : ProcessEvent} (hparts : Parts p) (h : InTurn p)
    (hstep : ProcessStep ntop p e p') : InTurn p' := by
  cases step_moved hstep with
  | accept fd => exact ⟨h.sound, h.sessions⟩
  | connection => exact inTurn_publish (sound_calls h.sound _) h.sessions
  | monAccept =>
    refine ⟨h.sound, fun m hm => ?_⟩
    rcases List.mem_append.mp hm with hm | hm
    · exact h.sessions m hm
    · rw [List.mem_singleton.mp hm]
      exact inPhase_accept _
  | @session j m m' e hj he hone =>
    have hm := List.mem_of_getElem? hj
    have hsound : m.server.Sound := by
      rw [hparts.shared.sessions m hm]
      exact h.sound
    refine inTurn_publish ?_ fun k hk => ?_
    · rcases (monStep_turned he hone).server_cases with hsame | ⟨call, hcall, -⟩
      · rw [hsame]
        exact hsound
      · rw [hcall]
        exact hsound.run call
    · rcases List.mem_or_eq_of_mem_set hk with hk | rfl
      · exact h.sessions k hk
      · exact (h.turn hparts.shared hm hone).inPhase (h.sessions m hm)
  | report hcall => exact inTurn_publish (h.sound.run _) h.sessions

theorem inTurn_run {es : List ProcessEvent}
    (h : Run (ProcessStep ntop) (processInit users) es p) : InTurn p :=
  h.invariant_with (I := Accountable users) (accountable_init users) (inTurn_init users)
    accountable_step fun hacc _ hturn hstep => inTurn_step hacc.parts hturn hstep

/-- When a session has executed a request, the frame of the answer is in its write
buffer, which it fits. -/
theorem executed_frame {es : List ProcessEvent}
    (h : Run (ProcessStep ntop) (processInit users) es p) {e : ProcessEvent}
    (hstep : ProcessStep ntop p e p') {j : ℕ} {r : Served}
    (hexecuted : p'.executed = p.executed ++ [(j, r)]) : r.server = p.server ∧
      r.frame.length ≤ MON_IO_BUF_SIZE ∧
      ∃ m', p'.sessions[j]? = some m' ∧ bufferReadPtr m'.conn.writeBuffer = r.frame := by
  have hparts := (accountable_run h).parts
  have hnone : p'.executed ≠ p.executed := by
    rw [hexecuted]
    simp
  cases step_moved hstep with
  | accept | monAccept | connection | report => exact absurd rfl hnone
  | @session k m m' e hk he hone =>
    have hm := List.mem_of_getElem? hk
    have hnew : (newlyServed m m').map (Prod.mk k) = [(j, r)] := by
      have hsplit : p.executed ++ (newlyServed m m').map (Prod.mk k) = p.executed ++ [(j, r)] :=
        hexecuted
      exact List.append_cancel_left hsplit
    obtain ⟨r', hserved, heq⟩ := List.map_eq_singleton_iff.mp hnew
    obtain ⟨rfl, rfl⟩ := Prod.mk.inj heq
    have hquiet : m'.served ≠ m.served := by
      intro hsame
      rw [newlyServed, hsame, List.drop_length] at hserved
      cases hserved
    cases (inTurn_run h).turn hparts.shared hm hone with
    | more | rejected | recvFailed | sendFailed | elsewhere => exact absurd rfl hquiet
    | wrote _ _ _ _ hwrote => exact absurd hwrote.served_eq hquiet
    | answered _ _ _ _ _ _ hanswered =>
      rw [newlyServed, hanswered.served_eq, List.drop_left] at hserved
      obtain rfl := List.singleton_inj.mp hserved
      have hfits := bufferReadPtr_length_add_le m'.conn.writeBuffer
      rw [hanswered.pending_eq, hanswered.writing.write_limit] at hfits
      refine ⟨hanswered.server_eq.trans (hparts.shared.sessions m hm),
        le_of_add_le_left hfits, { m' with server := m'.server }, ?_, hanswered.pending_eq⟩
      show ((p.sessions.set k m').map fun n => { n with server := m'.server })[k]? = _
      rw [List.getElem?_map, List.getElem?_set_self (List.getElem?_eq_some_iff.mp hk).1]
      rfl

end Frames

/-- What an administrator reads with GET_ACCESS_LOG: the frame in the write buffer is one
that the client decodes, and lists the last relays that have been started when the request
is executed, in order and as many as fit; each line names an account that is vouched for. -/
theorem log_read {es : List ProcessEvent} (h : Run (ProcessStep ntop) (processInit users) es p)
    {e : ProcessEvent} (hstep : ProcessStep ntop p e p') {j : ℕ} {r : Served}
    (hexecuted : p'.executed = p.executed ++ [(j, r)])
    (hcmd : r.request.cmd = MON_CMD_GET_ACCESS_LOG) (hauth : r.authenticated = true) :
    ∃ rows m' out, p'.sessions[j]? = some m' ∧
      monResponseDecode (bufferReadPtr m'.conn.writeBuffer) =
        .ok out (bufferReadPtr m'.conn.writeBuffer).length ∧
      out.status = MON_STATUS_OK ∧ monFormatAccessLog out.slice = (rows.map printed, true) ∧
      LongestSuffix (fun a => (printed a).bytes.length)
        (MON_RESPONSE_PAYLOAD_MAX - MON_ACCESS_LOG_COUNT_LEN)
        ((p.relays.map Prod.snd).rtake MAX_LOG_ENTRIES) rows ∧
      ∀ row ∈ rows.map printed, ∃ pass, Vouched users p.executed (row.user, pass) := by
  have hkept := kept_run h
  obtain ⟨hserver, hfits, m', hm', hframe⟩ := executed_frame h hstep hexecuted
  obtain ⟨rows, hlongest, hformat⟩ := logPayload_rows (hserver ▸ hkept.log_eq)
  have hanswer : r.frame = monFrame MON_STATUS_OK (logPayload r.server) := by
    rw [Served.frame, Served.answer, hauth, hcmd, ResponseFrames.answer_log]
  have hlen : (logPayload r.server).length < 65536 := by
    rw [hanswer, monFrame_length] at hfits
    unfold MON_IO_BUF_SIZE at hfits
    omega
  obtain ⟨out, hout, -, hstatus, -, hbytes, -⟩ := monResponseDecode_frame hlen MON_STATUS_OK []
  rw [List.append_nil, ← hanswer, ← hframe] at hout
  have hne := (ResponseFrames.logPayload_format (hserver ▸ (inTurn_run h).sound)).1
  have hslice := @MonResponse.slice_eq out (by rw [hbytes]; exact hne)
  rw [hbytes] at hslice
  refine ⟨rows, m', out, hm', hout, hstatus, hslice ▸ hformat, hlongest, fun row hrow => ?_⟩
  obtain ⟨a, ha, rfl⟩ := List.mem_map.mp hrow
  have hin : a ∈ p.relays.map Prod.snd := List.drop_subset _ _ (hlongest.suffix.subset ha)
  obtain ⟨x, hx, rfl⟩ := List.mem_map.mp hin
  exact (hkept.names x hx).printed_user

/-- The session reads the log after `v` has connected. -/
theorem log_read_passed_on : ∃ p p' r,
    Run (ProcessStep fun _ => none) (processInit oneUser) passedOn p ∧
    ProcessStep (fun _ => none) p (.session 0 (.recv [1, 5, 0])) p' ∧
    p'.executed = p.executed ++ [(0, r)] ∧ p.relays.length = 1 ∧
    ∃ (rows : List Access) (m' : MonSession) (out : MonResponse), p'.sessions[0]? = some m' ∧
      monResponseDecode (bufferReadPtr m'.conn.writeBuffer) =
        .ok out (bufferReadPtr m'.conn.writeBuffer).length ∧
      monFormatAccessLog out.slice = (rows.map printed, true) := by
  have hplayed : (passedOn.foldlM (processStep fun _ => none) (processInit oneUser)).bind
      (fun p => (processStep (fun _ => none) p (.session 0 (.recv [1, 5, 0]))).map fun p' =>
        (p.relays.length, (p'.executed.drop p.executed.length).map fun x =>
          (x.1, x.2.request.cmd, x.2.authenticated))) = some (1, [(0, 5, true)]) := by
    decide +kernel
  obtain ⟨p, hp, hplayed⟩ := Option.bind_eq_some_iff.mp hplayed
  obtain ⟨p', hstep, hends⟩ := Option.map_eq_some_iff.mp hplayed
  obtain ⟨hrelays, hexecuted⟩ := Prod.mk.inj hends
  have hrun : Run (ProcessStep fun _ => none) (processInit oneUser) passedOn p :=
    Run.of_foldlM (fun h => h) hp
  rcases executed_step (accountable_run hrun).parts hstep with
    ⟨hsame, -⟩ | ⟨j, r, auth, hone, -, -⟩
  · rw [hsame, List.drop_length] at hexecuted
    cases hexecuted
  · rw [hone, List.drop_left, List.map_singleton, List.cons.injEq, Prod.mk.injEq,
      Prod.mk.injEq] at hexecuted
    obtain ⟨⟨rfl, hcmd, hauth⟩, -⟩ := hexecuted
    obtain ⟨rows, m', out, hm', hout, -, hformat, -⟩ := log_read hrun hstep hone hcmd hauth
    exact ⟨p, p', r, hrun, hstep, hone, hrelays, rows, m', out, hm', hout, hformat⟩

end SocksProxy.RelayLog
