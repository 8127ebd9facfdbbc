import SocksProxy.ServerPartings

/-!
connect_to_origin in both models. Given the same answers they dial the same addresses,
and what they leave looks the same.
-/
namespace SocksProxy.ServerFollows

open Kernel Request Runs ServerState ServerSteps ServerRefs ServerViews ServerPartings
open ServerParts (owned_eq)
open ConnState (Socks5State FdInterest OP_NOOP OP_READ OP_WRITE DnsJob Conn)

variable {F : Set ℕ} {fd a n : ℕ} {s t : Server} {o : Socks5} {v v' : View} {c : Conn}
  {i : FdInterest} {rest : List Frame} {sys : Sys} {e : Errno} {ais : List AddrInfo}
  {k : Answers}

section Ends

/-! What both models have when a handler is done. -/

open Dialing (Closed)
open Connect (connectMarshallReply connectReplyFromErrno)
open ConnState (socks5ConnectionClose)

variable {js : List BlockingJob} {job : DnsJob} {r : Status × Conn}

/-- Nothing has been asked for yet, and no origin dialed. -/
def early : Socks5State → Bool
  | .helloRead => true
  | .helloWrite => true
  | .authRead => true
  | .authWrite => true
  | .requestRead => true
  | _ => false

/-- What holds of an open connection between two events. -/
structure Orderly (o : Socks5) (v : View) : Prop where
  early : early v.current = true → v.origin = none ∧ v.dnsJob = .idle
  single : v.origin = none ∨ v.dnsJob = .idle
  atyp : v.origin.isSome ∨ v.dnsJob ≠ .idle → o.atyp = v.atyp

/-- Both models have the connection, or both have closed it. -/
def Matches (F : Set ℕ) (fd a : ℕ) (s : Server) (c : Conn) : Prop :=
  (∃ o v, Shows fd c v ∧ Stands F fd a s o v ∧ Orderly o v) ∨ (Closed c ∧ Left F fd a s c.dnsJob)

/-- The main thread can return from the handler, and then the models match. Nothing was
queued; `job` is the lookup the handler has found. -/
def Ends (F : Set ℕ) (fd a : ℕ) (rest : List Frame) (js : List BlockingJob) (job : DnsJob)
    (s : Server) (c : Conn) : Prop :=
  ∃ t, Leads Step s t ∧ t.stack = rest ∧ t.jobs = js ∧
    (c.dnsJob = .queued ↔ job = .queued) ∧ Matches F fd a t c

theorem Ends.head {e : Event} (hstep : Step s e t) (h : Ends F fd a rest js job t c) :
    Ends F fd a rest js job s c := by
  obtain ⟨u, hlead, hu⟩ := h
  exact ⟨u, .head hstep hlead, hu⟩

theorem Ends.idle (h : Ends F fd a rest js job s c) (hjob : job ≠ .queued) :
    Ends F fd a rest js .idle s c := by
  obtain ⟨u, hlead, hstack, hjobs, hiff, hmatches⟩ := h
  exact ⟨u, hlead, hstack, hjobs, hiff.trans (iff_of_false hjob (by simp)), hmatches⟩

theorem ends_open (hc : Shows fd c v) (hs : Stands F fd a s o v) (hord : Orderly o v)
    (hstack : s.stack = rest) (hjobs : s.jobs = js) (hjob : v.dnsJob = job) :
    Ends F fd a rest js job s c :=
  ⟨s, .refl Step s, hstack, hjobs, by rw [hc.dnsJob, hjob], Or.inl ⟨o, v, hc, hs, hord⟩⟩

theorem shows_close_eq (h : Shows fd c v) : socks5ConnectionClose c = Dialing.closed c := by
  refine Dialing.socks5ConnectionClose_eq h.closing (by rw [h.clientFd]; rfl) h.clientRegistered ?_
  cases horigin : v.origin with
  | none =>
    have hfd := h.originFd
    have hitem := h.originItem
    have hreg := h.originRegistered
    rw [horigin] at hfd hitem hreg
    exact Or.inl ⟨hfd, hitem, hreg⟩
  | some p =>
    have hfd := h.originFd
    have hitem := h.originItem
    have hreg := h.originRegistered
    rw [horigin] at hfd hitem hreg
    exact Or.inr ⟨p.2, by rw [hfd]; rfl, hitem, hreg⟩

/-- The views may differ in what does not matter any more. -/
theorem ends_close (hc : Shows fd c v') (hs : Stands F fd a s o v)
    (hstack : s.stack = .connectionClose a :: rest) (hjobs : s.jobs = js)
    (hsame : v'.dnsJob = v.dnsJob) (hjob : v.dnsJob = job) :
    Ends F fd a rest js job s (socks5ConnectionClose c) := by
  obtain ⟨t, hlead, hrest, hjobs', hleft⟩ := stands_close hs hstack
  rw [shows_close_eq hc]
  have hc' : (Dialing.closed c).dnsJob = v.dnsJob := hc.dnsJob.trans hsame
  refine ⟨t, hlead, hrest, hjobs'.trans hjobs, by rw [hc', hjob],
    Or.inr ⟨Dialing.closed_spec c, ?_⟩⟩
  rwa [hc']

/-- The reply is stored, or there is no room for it. -/
def answered (sys : Sys) (c : Conn) : Conn :=
  match connectMarshallReply sys c with
  | (.error, c) => socks5ConnectionClose { c with current := some .error }
  | (_, c) =>
    ConnState.selectorSetInterest { c with current := some .requestWrite } .client OP_WRITE

/-- What request_read and socks5_handle_block_done make of the outcome of
connect_to_origin, with the action that follows. -/
def settle (sys : Sys) : Status × Conn → Conn
  | (.inProgress, c) =>
    ConnState.selectorSetInterest { c with current := some .connecting } .client OP_NOOP
  | (status, c) => answered sys { c with requestReply := connectReplyFromErrno status }

/-- connect_marshall_reply finds room for the reply to this outcome. -/
def fits (sys : Sys) (r : Status × Conn) : Bool :=
  (connectMarshallReply sys { r.2 with requestReply := connectReplyFromErrno r.1 }).1 ≠ .error

theorem marshalled {b b' : ByteBuffer.Buffer} {reply : UInt8} {bind : Option (Request.SockAddr × ℕ)}
    (h : Request.requestMarshallReply b reply bind = some b') :
    ByteBuffer.bufferCanRead b' = true := by
  unfold Request.requestMarshallReply at h
  split at h
  next hroom =>
    obtain rfl := Option.some.inj h
    obtain ⟨atyp, addr, port, heq, -⟩ := Request.replyMessage_cases reply bind
    rw [ByteBuffer.bufferCanRead_iff, ByteBuffer.bufferReadPtr_put]
    exact List.append_ne_nil_of_right_ne_nil _ (by simp [heq])
  next => exact absurd h (by simp)

theorem marshall_cases (sys : Sys) (c : Conn) : connectMarshallReply sys c = (.error, c) ∨
    ∃ b, ByteBuffer.bufferCanRead b = true ∧
      connectMarshallReply sys c = (.requestWrite, { c with writeBuffer := b }) := by
  unfold connectMarshallReply
  dsimp only
  split
  next => exact Or.inl rfl
  next b hsome => exact Or.inr ⟨b, marshalled hsome, rfl⟩

/-- The two ends of a dial: the same status, and the same view. -/
theorem connectDone_ends (hc : Shows fd r.2 v) (hs : Stands F fd a s o v)
    (hsingle : v.origin = none ∨ v.dnsJob = .idle) (hatyp : o.atyp = v.atyp)
    (hfits : k.fits = fits sys r) :
    ∃ t, connectDone a k r.1 s = .ok t ∧ Ends F fd a s.stack s.jobs v.dnsJob t (settle sys r) := by
  obtain ⟨status, c⟩ := r
  have hlate : ∀ st i, ServerFollows.early st = false →
      Orderly { o with current := st } { v with current := st, client := i } := by
    intro st i hst
    refine ⟨fun h => ?_, hsingle, fun _ => hatyp⟩
    rw [show early st = true from h] at hst
    cases hst
  unfold connectDone
  rw [owned_eq hs.heap hs.same.released]
  by_cases hprogress : status = .inProgress
  · rw [if_pos hprogress]
    refine ⟨_, rfl, ?_⟩
    rw [hprogress]
    exact ends_open ((hc.goes _).interest_client _) (hs.goes _ _) (hlate _ _ rfl)
      (sameWork_interest _ _ _).1 (sameWork_interest _ _ _).2 rfl
  · have hsettle : settle sys (status, c) =
        answered sys { c with requestReply := connectReplyFromErrno status } := by
      cases status with
      | inProgress => exact absurd rfl hprogress
      | ok => rfl
      | failed e => rfl
    have hc' : Shows fd { c with requestReply := connectReplyFromErrno status } v := { hc with }
    rw [if_neg hprogress, hsettle, hfits]
    unfold answered fits
    rcases marshall_cases sys { c with requestReply := connectReplyFromErrno status } with
      herror | ⟨b, -, hreply⟩
    · rw [herror]
      refine ⟨_, if_neg (by simp), ?_⟩
      have hsame : Same fd { o with current := .error } { v with current := .error } :=
        { hs.same with current := rfl }
      exact ends_close (hc'.goes .error) ((hs.note hsame rfl rfl rfl rfl).push _) rfl rfl rfl rfl
    · rw [hreply]
      refine ⟨_, if_pos (by simp), ?_⟩
      have hc'' : Shows fd { c with
          requestReply := connectReplyFromErrno status, writeBuffer := b } v := { hc with }
      exact ends_open ((hc''.goes _).interest_client _) (hs.goes _ _) (hlate _ _ rfl)
        (sameWork_interest _ _ _).1 (sameWork_interest _ _ _).2 rfl

end Ends

section Resolved

/-- The answers of the kernel, as the server's model asks for them. -/
def answers (sys : Sys) (fits : Bool) : Answers where
  attempt := fun n => dial (sys.attempt n)
  spawn := sys.spawn
  fits := fits

/-- The sockets of every attempt are the connection's. -/
def Reals (F : Set ℕ) (sys : Sys) : Prop := ∀ n, Real F (sys.attempt n)

/-- The outcome `r` of the connection's model is the outcome `x` of the server's, which
began in `s`. Of the view, the origin and the addresses that are left may have changed. -/
def Meets (F : Set ℕ) (fd a : ℕ) (s : Server) (o : Socks5) (v : View) (r : Status × Conn)
    (x : Except Halt (Status × Server)) : Prop :=
  ∃ t o' v', x = .ok (r.1, t) ∧ SameWork s t ∧ Shows fd r.2 v' ∧ Stands F fd a t o' v' ∧
    o'.atyp = o.atyp ∧ v' = { v with origin := v'.origin, dnsNext := v'.dnsNext }

theorem reached_failed {x : Attempt} (h : (reached x).1 = .failed e) : (reached x).2 = none := by
  unfold reached at h ⊢
  cases hsocket : x.socket with
  | error e => rfl
  | ok n =>
    rw [hsocket] at h
    cases hnio : x.setNio with
    | some e => rfl
    | none =>
      rw [hnio] at h
      cases hconnect : x.connect with
      | failed e => rfl
      | ok =>
        rw [hconnect] at h
        cases hregister : x.register with
        | true => rw [hregister] at h; cases h
        | false => rfl
      | inProgress =>
        rw [hconnect] at h
        cases hregister : x.register with
        | true => rw [hregister] at h; cases h
        | false => rfl

theorem shows_next (h : Shows fd c v) (ais : List AddrInfo) :
    Shows fd { c with dnsNext := ais } { v with dnsNext := ais } := { h with dnsNext := rfl }

theorem stands_next (h : Stands F fd a s o v) (ais : List AddrInfo) :
    Stands F fd a (s.set a { o with dnsNext := ais }) { o with dnsNext := ais }
      { v with dnsNext := ais } := by
  have hsame : Same fd { o with dnsNext := ais } { v with dnsNext := ais } :=
    { h.same with dnsNext := rfl }
  exact h.note hsame rfl rfl rfl rfl

theorem Meets.dialed {x : Attempt} (hc : Shows fd c v) (hs : Stands F fd a s o v)
    (hnone : v.origin = none) (hreal : Real F x) (addr : SockAddr) :
    Meets F fd a s o v (Connect.registerOriginConnect x addr c)
      (registerOriginConnect s a (dial x)) := by
  obtain ⟨hstatus, hshows⟩ := hc.dial (x := x) hnone addr
  obtain ⟨t, o', hdial, hwork, hstands, hatyp⟩ := hs.dial hnone hreal
  exact ⟨t, o', _, by rw [hdial, hstatus], hwork, hshows, hstands, hatyp, rfl⟩

/-- start_resolved_connect goes through the same addresses. -/
theorem resolvedLoop_meets (hreals : Reals F sys) (fits : Bool) (hc : Shows fd c v)
    (hs : Stands F fd a s o v) (hnone : v.origin = none) :
    Meets F fd a s o v (Connect.resolvedLoop sys n e ais c)
      (resolvedLoop a (answers sys fits) n e ais s) := by
  induction ais generalizing n e c s o v with
  | nil => exact ⟨s, o, v, rfl, ⟨rfl, rfl⟩, hc, hs, rfl, rfl⟩
  | cons ai ais ih =>
    have hc₁ := shows_next hc ais
    have hs₁ := stands_next hs ais
    unfold Connect.resolvedLoop resolvedLoop
    rw [hs.heap]
    dsimp only
    by_cases hstream : ai.stream = true
    · rw [if_pos hstream, if_pos hstream]
      obtain ⟨hstatus, hshows⟩ := hc₁.dial (x := sys.attempt n) hnone ai.addr
      obtain ⟨t, o', hdial, hwork, hstands, hatyp⟩ := hs₁.dial hnone (hreals n)
      have hattempt : (answers sys fits).attempt n = dial (sys.attempt n) := rfl
      rw [hattempt, hdial]
      generalize Connect.registerOriginConnect (sys.attempt n) ai.addr { c with dnsNext := ais } =
        r at hstatus hshows
      obtain ⟨status, c₂⟩ := r
      obtain rfl : status = (reached (sys.attempt n)).1 := hstatus
      cases hreached : (reached (sys.attempt n)).1 with
      | failed e' =>
        have hgone := reached_failed hreached
        rw [hgone] at hshows hstands
        obtain ⟨u, o'', v', hx, hwork', hshows', hstands', hatyp', hview⟩ :=
          ih (n := n + 1) (e := e') hshows hstands rfl
        exact ⟨u, o'', v', hx, SameWork.trans hwork hwork', hshows', hstands', hatyp'.trans hatyp,
          hview⟩
      | ok => exact ⟨t, o', _, rfl, hwork, hshows, hstands, hatyp, rfl⟩
      | inProgress => exact ⟨t, o', _, rfl, hwork, hshows, hstands, hatyp, rfl⟩
    · rw [if_neg hstream, if_neg hstream]
      obtain ⟨u, o', v', hx, hwork, hshows, hstands, hatyp, hview⟩ :=
        ih (n := n) (e := e) hc₁ hs₁ hnone
      exact ⟨u, o', v', hx, hwork, hshows, hstands, hatyp, hview⟩

theorem startResolvedConnect_meets (hreals : Reals F sys) (fits : Bool) (hc : Shows fd c v)
    (hs : Stands F fd a s o v) (hnone : v.origin = none) :
    Meets F fd a s o v (Connect.startResolvedConnect sys c)
      (startResolvedConnect s a o (answers sys fits)) := by
  have hfailed : (o.dnsError ≠ 0 ∨ o.dnsResult = none) ↔ (c.dnsError ≠ 0 ∨ c.dnsResult = []) := by
    rw [hc.dnsError, hs.same.dnsError, ← not_iff_not, not_or, not_or, ← ne_eq o.dnsResult,
      ← ne_eq c.dnsResult, hc.found, ← hs.same.found, Option.ne_none_iff_isSome]
  unfold Connect.startResolvedConnect startResolvedConnect
  by_cases h : o.dnsError ≠ 0 ∨ o.dnsResult = none
  · rw [if_pos h, if_pos (hfailed.mp h)]
    exact ⟨s, o, v, rfl, ⟨rfl, rfl⟩, hc, hs, rfl, rfl⟩
  · rw [if_neg h, if_neg (mt hfailed.mpr h), hc.dnsNext, hs.same.dnsNext]
    exact resolvedLoop_meets hreals fits hc hs hnone

end Resolved

section Origin

variable {r : Status × Conn} {x : Except Halt (Status × Server)}

theorem step_push (s : Server) (f : Frame) (k : Answers) :
    step (s.push [f]) (.run k) = runFrame s k f := by
  have hstack : (s.push [f]).stack = f :: s.stack := rfl
  exact step_run hstack k

theorem set_set (s : Server) (a : ℕ) (o o' : Socks5) : (s.set a o).set a o' = s.set a o' := by
  unfold Server.set
  rw [Function.update_idem]

theorem Meets.ends (h : Meets F fd a s o v r x) (hidle : v.dnsJob = .idle)
    (hatyp : o.atyp = v.atyp) : ∃ t,
      (x.bind fun y => connectDone a (answers sys (fits sys r)) y.1 y.2) = .ok t ∧
        Ends F fd a s.stack s.jobs .idle t (settle sys r) := by
  obtain ⟨t, o', v', rfl, hwork, hshows, hstands, hatyp', hview⟩ := h
  have hjob : v'.dnsJob = .idle := by rw [hview, ← hidle]
  have hat : o'.atyp = v'.atyp := by rw [hview, hatyp', ← hatyp]
  rw [← hwork.1, ← hwork.2, ← hjob]
  exact connectDone_ends hshows hstands (Or.inr hjob) hat rfl

/-- dns_resolve_start drops the results of an earlier lookup. -/
def cleared (o : Socks5) (pending : Bool) : Socks5 :=
  { o with dnsPending := pending, dnsError := 0, dnsResult := none, dnsNext := [] }

/-- The same in the connection's model; `job` is the lookup that was begun, if any. -/
def asked (c : Conn) (pending : Bool) (job : DnsJob) : Conn :=
  { c with
    dnsPending := pending, dnsError := 0, dnsResult := [], dnsNext := [], dnsJob := job }

def askedView (v : View) (pending : Bool) (job : DnsJob) : View :=
  { v with
    dnsPending := pending, dnsError := 0, found := false, dnsNext := [], dnsJob := job }

theorem shows_asked (h : Shows fd c v) (pending : Bool) (job : DnsJob) :
    Shows fd (asked c pending job) (askedView v pending job) :=
  { h with
    dnsError := rfl, found := by simp [asked, askedView], dnsNext := rfl, dnsPending := rfl
    dnsJob := rfl }

theorem same_asked (h : Same fd o v) (pending : Bool) (job : DnsJob) :
    Same fd (cleared o pending) (askedView v pending job) :=
  { h with dnsError := rfl, found := rfl, dnsNext := rfl, dnsPending := rfl }

theorem resolveStart_step (hs : Stands F fd a s o v) (k : Answers) :
    Step (s.push [.resolveStart a]) (.run k) ((s.set a (cleared o true)).push
      [.resolveSpawn a]) := by
  show step _ _ = _
  rw [step_push]
  show resolveStart s a = _
  unfold resolveStart
  rw [if_neg (Bool.eq_false_iff.mp hs.around.unlocked), owned_eq hs.heap hs.same.released]
  rfl

/-- The connection, and the thread that has a reference to it. -/
def spawned (s : Server) (fd a : ℕ) (o : Socks5) : Server :=
  { s.set a { cleared o true with references := o.references + 1 } with
    workers := s.workers ++ [⟨a, fd, { serial := o.serial, n := s.workers.length }, .resolving⟩] }

theorem stands_spawned (hs : Stands F fd a s o v) (hidle : v.dnsJob = .idle) :
    Stands F fd a (spawned s fd a o) { cleared o true with references := o.references + 1 }
      (askedView v true .resolving) := by
  have hold := hs.around
  have hsame := same_asked hs.same true .resolving
  refine ⟨Function.update_self .., ?_, { hsame with }, ?_⟩
  · show o.references + 1 = 1 + held s .resolving
    rw [hs.references, hidle]
    simp [held, Nat.add_assoc]
  · exact
      { hold with
        alive := by
          intro b hb
          by_cases hba : b = a
          · subst hba
            exact ⟨_, Function.update_self .., hs.same.released⟩
          · obtain ⟨p, hp, hlive⟩ := hold.alive b hb
            exact ⟨p, (Function.update_of_ne hba ..).trans hp, hlive⟩
        unlocked := by
          have h := hold.unlocked
          unfold Server.locked at h ⊢
          show (s.workers ++ [_]).any _ = false
          rw [List.any_append, h]
          simp [WorkerState.locks]
        worker := fun _ => ⟨s.workers.length, _, List.getElem?_concat_length .., rfl, rfl, rfl⟩ }

theorem resolve_started (hc : Shows fd c v) (hs : Stands F fd a s o v) (hnone : v.origin = none)
    (hidle : v.dnsJob = .idle) (hatyp : o.atyp = v.atyp) (hspawn : sys.spawn = .started) :
    Ends F fd a s.stack s.jobs .idle (s.push [.resolveStart a])
      (settle sys (.inProgress, asked c true .resolving)) := by
  let k := answers sys (fits sys (.inProgress, asked c true .resolving))
  obtain ⟨t, hdone, hends⟩ := connectDone_ends (k := k) (shows_asked hc true .resolving)
    (stands_spawned hs hidle) (Or.inl hnone) hatyp rfl
  have hstep : Step ((s.set a (cleared o true)).push [.resolveSpawn a]) (.run k) t := by
    show step _ _ = _
    rw [step_push]
    show resolveSpawn (s.set a (cleared o true)) a k = _
    unfold resolveSpawn
    rw [owned_eq (s := s.set a (cleared o true)) (Function.update_self ..) hs.same.released]
    split
    next fd' _ hfd =>
      obtain rfl : fd = fd' := Option.some.inj (hs.same.clientFd.symm.trans hfd)
      rw [set_set]
      exact hdone
    next hrefused => cases hspawn.symm.trans hrefused
    next _ hnone => cases hs.same.clientFd.symm.trans hnone
    next hmemory => cases hspawn.symm.trans hmemory
  exact .head (resolveStart_step hs silent) (.head hstep (hends.idle (by simp [askedView])))

/-- There is no thread: its reference is released again. -/
theorem resolve_refused (hc : Shows fd c v) (hs : Stands F fd a s o v) (hnone : v.origin = none)
    (hidle : v.dnsJob = .idle) (hatyp : o.atyp = v.atyp) (hspawn : sys.spawn = .refused e) :
    Ends F fd a s.stack s.jobs .idle (s.push [.resolveStart a])
      (settle sys (.failed e, asked c false .idle)) := by
  let k := answers sys (fits sys (.failed e, asked c false .idle))
  have hkept : ∀ pending, Stands F fd a (s.set a (cleared o pending)) (cleared o pending)
      (askedView v pending .idle) := fun pending =>
    hs.note (same_asked hs.same pending .idle) rfl rfl rfl hidle.symm
  obtain ⟨t, hdone, hends⟩ := connectDone_ends (k := k) (shows_asked hc false .idle)
    (hkept false) (Or.inl hnone) hatyp rfl
  have hspawned : Step ((s.set a (cleared o true)).push [.resolveSpawn a]) (.run k)
      ((s.set a (cleared o true)).push [.resolveFailed a e]) := by
    show step _ _ = _
    rw [step_push]
    show resolveSpawn (s.set a (cleared o true)) a k = _
    unfold resolveSpawn
    rw [owned_eq (s := s.set a (cleared o true)) (Function.update_self ..) hs.same.released]
    split
    next hstarted _ => cases hspawn.symm.trans hstarted
    next e' hrefused =>
      obtain rfl : e = e' := Spawn.refused.inj (hspawn.symm.trans hrefused)
      have hrefs : (cleared o true).references + 1 = held s v.dnsJob + 2 := by
        show o.references + 1 = _
        rw [hs.references, Nat.add_comm 1]
      have hback : { cleared o true with references := held s v.dnsJob + 1 } = cleared o true := by
        rw [show held s v.dnsJob + 1 = o.references by rw [hs.references, Nat.add_comm]]
        rfl
      rw [set_set, release_more (Function.update_self ..) hrefs, set_set]
      show Except.ok ((s.set a { cleared o true with references := held s v.dnsJob + 1 }).push
        [.resolveFailed a e]) = _
      rw [hback]
    next hstarted _ => cases hspawn.symm.trans hstarted
    next hmemory => cases hspawn.symm.trans hmemory
  have hfailed : Step ((s.set a (cleared o true)).push [.resolveFailed a e]) (.run k) t := by
    show step _ _ = _
    rw [step_push]
    show resolveFailed (s.set a (cleared o true)) a e k = _
    unfold resolveFailed
    rw [if_neg (Bool.eq_false_iff.mp (hkept true).around.unlocked),
      owned_eq (s := s.set a (cleared o true)) (Function.update_self ..) hs.same.released, set_set]
    exact hdone
  exact .head (resolveStart_step hs silent) (.head hspawned (.head hfailed hends))

/-- connect_to_origin, and what follows it. -/
theorem connectToOrigin_ends (hreals : Reals F sys) (hc : Shows fd c v) (hs : Stands F fd a s o v)
    (hnone : v.origin = none) (hidle : v.dnsJob = .idle) (hatyp : o.atyp = v.atyp) : ∃ t,
      connectToOrigin s a (answers sys (fits sys (Connect.connectToOrigin sys c))) = .ok t ∧
        Ends F fd a s.stack s.jobs .idle t (settle sys (Connect.connectToOrigin sys c)) := by
  have hdial : ∀ addr, Meets F fd a s o v (Connect.registerOriginConnect (sys.attempt 0) addr c)
      (registerOriginConnect s a (dial (sys.attempt 0))) :=
    Meets.dialed hc hs hnone (hreals 0)
  have hdone : ∀ status, ∃ t,
      connectDone a (answers sys (fits sys (status, c))) status s = .ok t ∧
        Ends F fd a s.stack s.jobs .idle t (settle sys (status, c)) := by
    intro status
    rw [← hidle]
    exact connectDone_ends (r := (status, c)) hc hs (Or.inl hnone) hatyp rfl
  have hat : c.request.atyp = o.atyp := hc.atyp.trans hatyp.symm
  unfold connectToOrigin Connect.connectToOrigin
  rw [owned_eq hs.heap hs.same.released, hat]
  by_cases hipv4 : o.atyp = SOCKS5_ATYP_IPV4
  · rw [if_pos (Or.inl hipv4), if_pos hipv4]
    exact (hdial _).ends hidle hatyp
  by_cases hipv6 : o.atyp = SOCKS5_ATYP_IPV6
  · rw [if_pos (Or.inr hipv6), if_neg hipv4, if_pos hipv6]
    exact (hdial _).ends hidle hatyp
  rw [if_neg (not_or.mpr ⟨hipv4, hipv6⟩), if_neg hipv4, if_neg hipv6]
  by_cases hdomain : o.atyp = SOCKS5_ATYP_DOMAINNAME
  · rw [if_pos hdomain, if_pos hdomain, hs.same.dnsPending, hc.dnsPending]
    by_cases hpending : v.dnsPending = true
    · rw [if_pos hpending, if_pos hpending]
      exact hdone .inProgress
    rw [if_neg hpending, if_neg hpending]
    have hfound : (o.dnsResult ≠ none ∨ o.dnsError ≠ 0) ↔ (c.dnsResult ≠ [] ∨ c.dnsError ≠ 0) := by
      rw [hc.dnsError, hs.same.dnsError, hc.found, ← hs.same.found, Option.ne_none_iff_isSome]
    by_cases hresult : o.dnsResult ≠ none ∨ o.dnsError ≠ 0
    · rw [if_pos hresult, if_pos (hfound.mp hresult)]
      exact (startResolvedConnect_meets hreals _ hc hs hnone).ends hidle hatyp
    rw [if_neg hresult, if_neg (mt hfound.mpr hresult)]
    let d := c.log
      (.dnsResolveStart (Connect.requestHost c.request) (Connect.requestPort c.request))
    have hd : Shows fd d v := { hc with }
    unfold Connect.dnsResolveStart
    cases hspawn : sys.spawn with
    | noMemory =>
      rw [if_pos (show (answers sys _).spawn = _ from hspawn), ← hidle]
      exact connectDone_ends (r := (.failed .ENOMEM, d)) hd hs (Or.inl hnone) hatyp rfl
    | refused e =>
      rw [if_neg (by rw [show (answers sys _).spawn = _ from hspawn]; simp)]
      have hjob : asked d false .idle = { d with
          dnsPending := false, dnsError := 0, dnsResult := [], dnsNext := [] } := by
        rw [← hidle, ← hd.dnsJob]
        rfl
      refine ⟨_, rfl, ?_⟩
      show Ends F fd a s.stack s.jobs .idle _ (settle sys (.failed e, { d with
        dnsPending := false, dnsError := 0, dnsResult := [], dnsNext := [] }))
      rw [← hjob]
      exact resolve_refused hd hs hnone hidle hatyp hspawn
    | started =>
      rw [if_neg (by rw [show (answers sys _).spawn = _ from hspawn]; simp)]
      exact ⟨_, rfl, resolve_started hd hs hnone hidle hatyp hspawn⟩
  · rw [if_neg hdomain, if_neg hdomain]
    exact hdone (.failed .EAFNOSUPPORT)

end Origin

end SocksProxy.ServerFollows
